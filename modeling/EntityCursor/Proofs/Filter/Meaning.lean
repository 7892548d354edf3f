import EntityCursor.Proofs.Expr.Patterns
import EntityCursor.Proofs.Filter.Paths

/-!
The meaning of filter documents, read off the document itself: an object holds of an element if all
its entries do, and an entry as its name says. Compiling leaves out what asks for nothing and nests
what is left in binary operators, and what results is decided as the document is.
-/

namespace EntityCursor

def Value.valueAt (element : Value) (path : List String) : Outcome Value :=
  path.foldlM Value.fieldOrNull element

namespace Filter

def isLike : Value → Value → Bool
  | .string text, .string pattern => (Like.Pattern.ofText pattern).accepts text
  | _, _ => false

def relates (operator : String) (value operand : Value) : Bool :=
  match operator with
  | "$eq" => value.equals operand
  | "$ne" => !value.equals operand
  | "$gt" => value.compare? operand == some .gt
  | "$gte" => value.compare? operand == some .gt || value.compare? operand == some .eq
  | "$lt" => value.compare? operand == some .lt
  | "$lte" => value.compare? operand == some .lt || value.compare? operand == some .eq
  | "$like" => isLike value operand
  | "$notLike" => !isLike value operand
  | _ => false

/-- Whether the field at `path` can be read and stands in a relation to a scalar. -/
def compares (element : Value) (path : List String) (operator : String) (scalar : Json) : Bool :=
  match element.valueAt path with
  | .ok value => relates operator value (.ofJson scalar)
  | .error _ => false

mutual

def objectHolds (element : Value) (path : List String) : List (String × Json) → Bool
  | [] => true
  | (name, value) :: rest =>
      entryHolds element path (Key.ofName name) value && objectHolds element path rest

def entryHolds (element : Value) (path : List String) (key : Key) : Json → Bool
  | .object members =>
      match key with
      | .negation => !objectHolds element path members
      | .field field => objectHolds element (path ++ [field]) members
      | .allOf => false
      | .someOf => false
      | .operator _ => false
  | .array items =>
      match key with
      | .allOf => allHold element path items
      | .someOf => someHolds element path items
      | .negation => false
      | .operator _ => false
      | .field _ => false
  | scalar =>
      match key with
      | .operator operator => compares element path operator scalar
      | .field field => compares element (path ++ [field]) "$eq" scalar
      | .allOf => false
      | .someOf => false
      | .negation => false

def allHold (element : Value) (path : List String) : List Json → Bool
  | [] => true
  | item :: rest => itemHolds element path item && allHold element path rest

def someHolds (element : Value) (path : List String) : List Json → Bool
  | [] => false
  | item :: rest => itemHolds element path item || someHolds element path rest

def itemHolds (element : Value) (path : List String) : Json → Bool
  | .object members => objectHolds element path members
  | _ => false

end

def holds (element : Value) : Json → Bool
  | .object members => objectHolds element [] members
  | _ => false

/-- The fields at the given paths can be read of an element. -/
def Readable (element : Value) (paths : List (List String)) : Prop :=
  ∀ path ∈ paths, ∃ value, element.valueAt path = .ok value

/-- Whether what a document compiled to accepts an element; no condition accepts all of them. -/
def selects (condition : Option Expr) (element : Value) : Outcome Bool :=
  match condition with
  | none => .ok true
  | some expression => expression.accepts element

end Filter

namespace Expr

variable {element : Value}

@[simp]
theorem condition?_bool (flag : Bool) : (Value.bool flag).condition? = .ok flag := rfl

@[simp]
theorem accepts_not (operand : Expr) :
    (Expr.not operand).accepts element = (do return !(← operand.accepts element)) := by
  rw [accepts, acceptsBy, evaluateWith, accepts, acceptsBy]
  cases operand.evaluateWith (.empty .builtIn) element with
  | error failure => rfl
  | ok value => cases tested : value.condition? <;> simp [tested]

theorem accepts_and (left right : Expr) :
    (Expr.binary .and left right).accepts element =
      (do if ← left.accepts element then right.accepts element else return false) := by
  rw [accepts, acceptsBy, evaluateWith, accepts, acceptsBy, accepts, acceptsBy]
  cases left.evaluateWith (.empty .builtIn) element with
  | error failure => rfl
  | ok value =>
      cases tested : value.condition? with
      | error failure => simp [tested]
      | ok flag =>
          cases flag with
          | false => simp [tested]
          | true =>
              cases right.evaluateWith (.empty .builtIn) element with
              | error failure => simp [tested]
              | ok other =>
                  cases final : other.condition? <;> simp [tested, final]

theorem accepts_or (left right : Expr) :
    (Expr.binary .or left right).accepts element =
      (do if ← left.accepts element then return true else right.accepts element) := by
  rw [accepts, acceptsBy, evaluateWith, accepts, acceptsBy, accepts, acceptsBy]
  cases left.evaluateWith (.empty .builtIn) element with
  | error failure => rfl
  | ok value =>
      cases tested : value.condition? with
      | error failure => simp [tested]
      | ok flag =>
          cases flag with
          | true => simp [tested]
          | false =>
              cases right.evaluateWith (.empty .builtIn) element with
              | error failure => simp [tested]
              | ok other =>
                  cases final : other.condition? <;> simp [tested, final]

theorem evaluateWith_foldl_property (cache : Like.Cache) (object : Expr) (path : List String) :
    (path.foldl property object).evaluateWith cache element =
      (do (← object.evaluateWith cache element).valueAt path) := by
  induction path generalizing object with
  | nil =>
      rw [List.foldl_nil]
      cases object.evaluateWith cache element <;> rfl
  | cons name rest inductionHypothesis =>
      rw [List.foldl_cons, inductionHypothesis, evaluateWith]
      cases object.evaluateWith cache element <;> rfl

@[simp]
theorem evaluate_path (path : List String) :
    (Expr.path path).evaluate element = element.valueAt path :=
  evaluateWith_foldl_property (.empty .builtIn) Expr.element path

end Expr

namespace Filter

variable {element : Value}

@[simp]
theorem readable_append {before after : List (List String)} :
    Readable element (before ++ after) ↔ Readable element before ∧ Readable element after :=
  List.forall_mem_append

/-! What is combined by `and` and `or`, one condition at a time from the left. -/

theorem selects_conjunction?_cons (first : Expr) (rest : List Expr) :
    selects (Expr.conjunction? (first :: rest)) element =
      (do if ← first.accepts element then selects (Expr.conjunction? rest) element
          else return false) := by
  rw [Expr.conjunction?, selects]
  induction rest generalizing first with
  | nil =>
      rw [List.foldl_nil]
      cases first.accepts element with
      | error failure => rfl
      | ok flag => cases flag <;> rfl
  | cons second rest inductionHypothesis =>
      rw [List.foldl_cons, inductionHypothesis, Expr.accepts_and, Expr.conjunction?, selects,
        inductionHypothesis]
      cases first.accepts element with
      | error failure => rfl
      | ok flag => cases flag <;> rfl

theorem accepts_disjunction_cons (first : Expr) (rest : List Expr) :
    (Expr.disjunction (first :: rest)).accepts element =
      (do if ← first.accepts element then return true
          else (Expr.disjunction rest).accepts element) := by
  rw [Expr.disjunction]
  induction rest generalizing first with
  | nil =>
      rw [List.foldl_nil]
      cases first.accepts element with
      | error failure => rfl
      | ok flag => cases flag <;> rfl
  | cons second rest inductionHypothesis =>
      rw [List.foldl_cons, inductionHypothesis, Expr.accepts_or, Expr.disjunction,
        inductionHypothesis]
      cases first.accepts element with
      | error failure => rfl
      | ok flag => cases flag <;> rfl

variable {first : Option Expr} {verdict later : Bool}

theorem selects_conjunction?_append (decided : selects first element = .ok verdict)
    {rest : List Expr} (decidedRest : selects (Expr.conjunction? rest) element = .ok later) :
    selects (Expr.conjunction? (first.toList ++ rest)) element = .ok (verdict && later) := by
  cases first with
  | none =>
      cases decided
      rw [Bool.true_and]
      exact decidedRest
  | some expression =>
      rw [selects] at decided
      rw [Option.toList_some, List.singleton_append, selects_conjunction?_cons, decided,
        decidedRest]
      cases verdict <;> rfl

theorem selects_someOf_cons (decided : selects first element = .ok verdict)
    {rest : List (Option Expr)} (decidedRest : selects (someOf rest) element = .ok later) :
    selects (someOf (first :: rest)) element = .ok (verdict || later) := by
  cases first with
  | none =>
      cases decided
      rfl
  | some expression =>
      rw [someOf] at decidedRest ⊢
      rw [List.any_cons, Option.isNone_some, Bool.false_or]
      split
      · next empty =>
          rw [if_pos empty] at decidedRest
          cases decidedRest
          rw [Bool.or_true]
          rfl
      · next noneEmpty =>
          rw [if_neg noneEmpty, selects] at decidedRest
          rw [selects] at decided
          have same : (some expression :: rest).filterMap id =
              expression :: rest.filterMap id := rfl
          rw [same, selects, accepts_disjunction_cons, decided, decidedRest]
          cases verdict <;> rfl

theorem accepts_negation (decided : selects first element = .ok verdict) :
    (negation first).accepts element = .ok !verdict := by
  cases first with
  | none =>
      cases decided
      rfl
  | some expression =>
      rw [selects] at decided
      rw [negation, Expr.accepts_not, decided]
      rfl

/-! What compares a field with a scalar. -/

theorem toValue_of_ofJson {scalar : Json} {literal : Literal}
    (success : Literal.ofJson scalar = .ok literal) : literal.toValue = Value.ofJson scalar := by
  cases scalar with
  | array items => cases success
  | object members => cases success
  | _ =>
      cases success
      rfl

@[simp]
theorem relates_builtIn (value operand : Value) :
    (Like.Cache.empty .builtIn).relates value operand = .ok (isLike value operand) := by
  cases value with
  | string text =>
      cases operand with
      | string pattern =>
          rw [Like.Cache.relates, Like.Cache.accepts, Like.Cache.empty, Like.read_builtIn]
          rfl
      | _ => rfl
  | _ => rfl

theorem accepts_binary (operator : String) {comparison : BinaryOperator}
    (found : Fields.get? operator comparisons = some comparison) {path : List String}
    {value : Value} (reads : element.valueAt path = .ok value) (literal : Literal) :
    (Expr.binary comparison (.path path) (.literal literal)).accepts element =
      .ok (relates operator value literal.toValue) := by
  have evaluated : (Expr.path path).evaluate element = .ok value := by
    rw [Expr.evaluate_path, reads]
  rw [Expr.evaluate] at evaluated
  have named := Fields.mem_of_get? found
  simp only [comparisons, List.mem_cons, Prod.mk.injEq, List.not_mem_nil, or_false] at named
  rcases named with ⟨rfl, rfl⟩ | ⟨rfl, rfl⟩ | ⟨rfl, rfl⟩ | ⟨rfl, rfl⟩ | ⟨rfl, rfl⟩ | ⟨rfl, rfl⟩ |
    ⟨rfl, rfl⟩ | ⟨rfl, rfl⟩ <;>
  simp [Expr.accepts, Expr.acceptsBy, Expr.evaluateWith, evaluated, relates, Comparison.holds]

variable {path : List String}

theorem compares_of_reads {value : Value} (reads : element.valueAt path = .ok value)
    (operator : String) (scalar : Json) :
    compares element path operator scalar = relates operator value (.ofJson scalar) := by
  rw [compares, reads]

theorem literal_of_comparison {operator : String} {operand : Json} {expression : Expr}
    (compiled : comparison path operator operand = .ok expression) :
    ∃ binary literal, Fields.get? operator comparisons = some binary ∧
      Literal.ofJson operand = .ok literal ∧
      expression = .binary binary (.path path) (.literal literal) := by
  rw [comparison] at compiled
  split at compiled
  · cases compiled
  · split at compiled
    · cases compiled
    · next found =>
        obtain ⟨literal, success, combined⟩ := Outcome.bind_eq_ok.mp compiled
        cases combined
        exact ⟨_, literal, found, success, rfl⟩

theorem selects_operator {operator : String} {operand : Json} {condition : Option Expr}
    (compiled : (do return some (← comparison path operator operand)) = Except.ok condition)
    (readable : ∃ value, element.valueAt path = .ok value) :
    selects condition element = .ok (entryHolds element path (.operator operator) operand) := by
  obtain ⟨expression, success, combined⟩ := Outcome.bind_eq_ok.mp compiled
  obtain ⟨binary, literal, found, read, rfl⟩ := literal_of_comparison success
  cases combined
  obtain ⟨value, reads⟩ := readable
  rw [selects, accepts_binary operator found reads, toValue_of_ofJson read,
    ← compares_of_reads reads]
  cases operand with
  | array items => cases read
  | object members => cases read
  | _ => rfl

theorem accepts_equals {scalar : Json} {literal : Literal}
    (success : Literal.ofJson scalar = .ok literal)
    (readable : ∃ value, element.valueAt path = .ok value) :
    (Expr.equals (.path path) (.literal literal)).accepts element =
      .ok (compares element path "$eq" scalar) := by
  obtain ⟨value, reads⟩ := readable
  rw [Expr.equals, accepts_binary "$eq" rfl reads, compares_of_reads reads,
    toValue_of_ofJson success]

/-- A scalar is compared with the field that its name states, or by the operator that its name is.
-/
theorem selects_scalarCondition {value : Json} (noObject : ∀ members, value ≠ .object members)
    (noArray : ∀ items, value ≠ .array items) {depth : Nat} {key : Key} {name : String}
    {result : Option Expr} (compiled : condition path depth key name value = .ok result)
    (readable : Readable element (pathsOfEntry path key value)) :
    selects result element = .ok (entryHolds element path key value) := by
  cases value with
  | object members => exact absurd rfl (noObject members)
  | array items => exact absurd rfl (noArray items)
  | _ =>
      cases key with
      | allOf => cases compiled
      | someOf => cases compiled
      | negation => cases compiled
      | operator operator =>
          exact selects_operator compiled (readable path List.mem_cons_self)
      | field field =>
          obtain ⟨_, _, compiled⟩ := Outcome.bind_eq_ok.mp compiled
          obtain ⟨literal, success, combined⟩ := Outcome.bind_eq_ok.mp compiled
          cases combined
          exact accepts_equals success (readable _ List.mem_cons_self)

mutual

theorem selects_conditions : (members : List (String × Json)) → {path : List String} →
    {depth : Nat} → {results : List Expr} → conditions path depth members = .ok results →
      Readable element (pathsOfMembers path members) →
      selects (Expr.conjunction? results) element = .ok (objectHolds element path members)
  | [], path, depth, results, compiled, readable => by
      cases compiled
      rfl
  | (name, value) :: rest, path, depth, results, compiled, readable => by
      rw [conditions] at compiled
      obtain ⟨first, compiledFirst, compiled⟩ := Outcome.bind_eq_ok.mp compiled
      obtain ⟨others, compiledRest, combined⟩ := Outcome.bind_eq_ok.mp compiled
      cases combined
      obtain ⟨readableFirst, readableRest⟩ := readable_append.mp readable
      have decided := selects_condition value compiledFirst readableFirst
      have decidedRest := selects_conditions rest compiledRest readableRest
      exact selects_conjunction?_append decided decidedRest

theorem selects_condition : (value : Json) → {path : List String} → {depth : Nat} → {key : Key} →
    {name : String} → {result : Option Expr} → condition path depth key name value = .ok result →
      Readable element (pathsOfEntry path key value) →
      selects result element = .ok (entryHolds element path key value)
  | .object members, path, depth, key, name, result, compiled, readable => by
      cases key with
      | allOf => cases compiled
      | someOf => cases compiled
      | operator operator =>
          exact selects_operator compiled (readable path List.mem_cons_self)
      | negation =>
          obtain ⟨_, _, compiled⟩ := Outcome.bind_eq_ok.mp compiled
          obtain ⟨inner, compiledInner, combined⟩ := Outcome.bind_eq_ok.mp compiled
          cases combined
          exact accepts_negation (selects_conditions members compiledInner readable)
      | field field =>
          obtain ⟨_, _, compiled⟩ := Outcome.bind_eq_ok.mp compiled
          obtain ⟨inner, compiledInner, combined⟩ := Outcome.bind_eq_ok.mp compiled
          cases combined
          exact selects_conditions members compiledInner readable
  | .array items, path, depth, key, name, result, compiled, readable => by
      cases key with
      | operator operator =>
          exact selects_operator compiled (readable path List.mem_cons_self)
      | negation => cases compiled
      | field field =>
          obtain ⟨_, _, compiled⟩ := Outcome.bind_eq_ok.mp compiled
          cases compiled
      | allOf =>
          obtain ⟨branches, compiledItems, combined⟩ := Outcome.bind_eq_ok.mp compiled
          cases combined
          exact (selects_branches items compiledItems readable).1
      | someOf =>
          obtain ⟨branches, compiledItems, combined⟩ := Outcome.bind_eq_ok.mp compiled
          cases combined
          exact (selects_branches items compiledItems readable).2
  | .null, path, depth, key, name, result, compiled, readable =>
      selects_scalarCondition (by simp) (by simp) compiled readable
  | .bool flag, path, depth, key, name, result, compiled, readable =>
      selects_scalarCondition (by simp) (by simp) compiled readable
  | .integer number, path, depth, key, name, result, compiled, readable =>
      selects_scalarCondition (by simp) (by simp) compiled readable
  | .double number, path, depth, key, name, result, compiled, readable =>
      selects_scalarCondition (by simp) (by simp) compiled readable
  | .string text, path, depth, key, name, result, compiled, readable =>
      selects_scalarCondition (by simp) (by simp) compiled readable

theorem selects_branches : (items : List Json) → {connective : String} → {path : List String} →
    {depth : Nat} → {results : List (Option Expr)} →
      branches connective path depth items = .ok results →
      Readable element (pathsOfItems path items) →
      selects (Expr.conjunction? (results.filterMap id)) element =
          .ok (allHold element path items) ∧
        selects (someOf results) element = .ok (someHolds element path items)
  | [], connective, path, depth, results, compiled, readable => by
      cases compiled
      exact ⟨rfl, rfl⟩
  | item :: rest, connective, path, depth, results, compiled, readable => by
      rw [branches] at compiled
      obtain ⟨first, compiledFirst, compiled⟩ := Outcome.bind_eq_ok.mp compiled
      obtain ⟨others, compiledRest, combined⟩ := Outcome.bind_eq_ok.mp compiled
      cases combined
      obtain ⟨readableFirst, readableRest⟩ := readable_append.mp readable
      have decided := selects_branch item compiledFirst readableFirst
      have ⟨decidedAll, decidedSome⟩ := selects_branches rest compiledRest readableRest
      constructor
      · have same : (first :: others).filterMap id = first.toList ++ others.filterMap id := by
          cases first <;> rfl
        rw [same]
        exact selects_conjunction?_append decided decidedAll
      · exact selects_someOf_cons decided decidedSome

theorem selects_branch : (item : Json) → {connective : String} → {path : List String} →
    {depth : Nat} → {result : Option Expr} → branch connective path depth item = .ok result →
      Readable element (pathsOfItem path item) →
      selects result element = .ok (itemHolds element path item)
  | .object members, connective, path, depth, result, compiled, readable => by
      rw [branch] at compiled
      obtain ⟨_, _, compiled⟩ := Outcome.bind_eq_ok.mp compiled
      obtain ⟨inner, compiledInner, combined⟩ := Outcome.bind_eq_ok.mp compiled
      cases combined
      exact selects_conditions members compiledInner readable
  | .array items, connective, path, depth, result, compiled, _ => by cases compiled
  | .null, connective, path, depth, result, compiled, _ => by cases compiled
  | .bool flag, connective, path, depth, result, compiled, _ => by cases compiled
  | .integer number, connective, path, depth, result, compiled, _ => by cases compiled
  | .double number, connective, path, depth, result, compiled, _ => by cases compiled
  | .string text, connective, path, depth, result, compiled, _ => by cases compiled

end

/-- What a document compiles to decides as the document does, with its patterns at hand as well, on
every element that has the fields which the document compares. -/
theorem compile_preserves_meaning {document : Json} {condition : Option Expr}
    (compiled : compile document = .ok condition)
    (readable : Readable element (paths document)) :
    selects condition element = .ok (holds element document) ∧
      ∀ expression, condition = some expression →
        expression.compile.accepts element = .ok (holds element document) := by
  have decided : selects condition element = .ok (holds element document) := by
    cases document with
    | object members =>
        obtain ⟨inner, compiledInner, combined⟩ := Outcome.bind_eq_ok.mp compiled
        cases combined
        exact selects_conditions members compiledInner readable
    | _ => cases compiled
  refine ⟨decided, ?_⟩
  rintro expression rfl
  rw [Expr.accepts_compile]
  exact decided

/-- Branches that ask for nothing: under a negation, under a field and in a conjunction. -/
def emptyBranches : Json :=
  .object [("$or", .array [.object [("$not", .object [])], .object [("home", .object
      [("$and", .array []), ("city", .object [("$like", .string "R%")])])]]),
    ("name", .object [])]

def homeLikeRome : Expr :=
  .binary .or (.literal (.bool false))
    (.binary (.like false) (.path ["home", "city"]) (.literal (.string "R%")))

def roman : Value := .entity "Person" [("home", .entity "Address" [("city", .string "Rome")])]

theorem accepts_roman :
    compile emptyBranches = .ok (some homeLikeRome) ∧ Readable roman (paths emptyBranches) ∧
      holds roman emptyBranches = true ∧ homeLikeRome.compile.accepts roman = .ok true := by
  have compiled : compile emptyBranches = .ok (some homeLikeRome) := rfl
  have readable : Readable roman (paths emptyBranches) := by
    intro path member
    cases List.mem_singleton.mp member
    exact ⟨.string "Rome", rfl⟩
  have decided : holds roman emptyBranches = true := rfl
  have agreed := (compile_preserves_meaning compiled readable).2 homeLikeRome rfl
  rw [decided] at agreed
  exact ⟨compiled, readable, decided, agreed⟩

end Filter

end EntityCursor
