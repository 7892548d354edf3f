import EntityCursor.Channel.TableEngine
import EntityCursor.Proofs.Descriptor.Rows
import EntityCursor.Proofs.Filter.Paths

/-!
Filters on fields of nested entities. For the remote engine only the row is an entity, and what is
nested in it are records, of which a missing field is refused. In a materialized element they are
entities, of which a field that is not set reads as null. A filter over declared fields is therefore
refused by the engine if reading it in the process meets a nested field that is not set, and
everywhere else the two sides say the same.
-/

namespace EntityCursor

/-- The outcomes of two sides are alike, unless something is unset: then the first side fails. -/
inductive AlikeUnless {Left Right : Type} (unset : Prop) (alike : Left → Right → Prop) :
    Outcome Left → Outcome Right → Prop where
  | alike {left : Left} {right : Right} :
      ¬unset → alike left right → AlikeUnless unset alike (.ok left) (.ok right)
  | failed (failure other : QueryError) : AlikeUnless unset alike (.error failure) (.error other)
  | refused (failure : QueryError) (outcome : Outcome Right) :
      unset → AlikeUnless unset alike (.error failure) outcome

namespace AlikeUnless

variable {Left Right NextLeft NextRight Result Next : Type} {unset : Prop}

theorem congr {otherwise : Prop} {alike : Left → Right → Prop} {first : Outcome Left}
    {second : Outcome Right} (related : AlikeUnless unset alike first second)
    (iff : unset ↔ otherwise) : AlikeUnless otherwise alike first second := by
  rwa [← iff]

theorem mono {alike closer : Left → Right → Prop} {first : Outcome Left} {second : Outcome Right}
    (related : AlikeUnless unset alike first second)
    (implies : ∀ left right, alike left right → closer left right) :
    AlikeUnless unset closer first second := by
  cases related with
  | alike set both => exact .alike set (implies _ _ both)
  | failed failure other => exact .failed failure other
  | refused failure _ isUnset => exact .refused failure second isUnset

/-- The sides go on together, where what comes next may meet something unset as well. -/
theorem bind {alike : Left → Right → Prop} {nextAlike : NextLeft → NextRight → Prop}
    {first : Outcome Left} {second : Outcome Right} {nextFirst : Left → Outcome NextLeft}
    {nextSecond : Right → Outcome NextRight} {later : Right → Prop}
    (related : AlikeUnless unset alike first second)
    (next : ∀ left right, alike left right →
      AlikeUnless (later right) nextAlike (nextFirst left) (nextSecond right)) :
    AlikeUnless (unset ∨ ∃ right, second = .ok right ∧ later right) nextAlike
      (first >>= nextFirst) (second >>= nextSecond) := by
  cases related with
  | @alike left right set both =>
      refine (next left right both).congr ?_
      simp [set]
  | failed failure other => exact .failed failure other
  | refused failure outcome isUnset => exact .refused failure _ (.inl isUnset)

section Same

variable {first second : Outcome Result}

theorem bind_same (related : AlikeUnless unset Eq first second) (next : Result → Outcome Next) :
    AlikeUnless unset Eq (first >>= next) (second >>= next) := by
  have goOn : ∀ left right, left = right → AlikeUnless False Eq (next left) (next right) := by
    rintro result _ rfl
    cases next result with
    | ok final => exact .alike id rfl
    | error failure => exact .failed failure failure
  refine (related.bind goOn).congr ?_
  simp

theorem bind_test (related : AlikeUnless unset Eq first second) (test : Result → Outcome Bool)
    (later : Bool → Prop) {nextFirst nextSecond : Bool → Outcome Next}
    (next : ∀ holds, AlikeUnless (later holds) Eq (nextFirst holds) (nextSecond holds)) :
    AlikeUnless (unset ∨ ∃ holds, (second >>= test) = .ok holds ∧ later holds) Eq
      (first >>= fun result => test result >>= nextFirst)
      (second >>= fun result => test result >>= nextSecond) := by
  rw [← bind_assoc, ← bind_assoc]
  apply (related.bind_same test).bind
  rintro holds _ rfl
  exact next holds

theorem ok_of_ok (related : AlikeUnless unset Eq first second) {result : Result}
    (success : first = .ok result) : second = .ok result := by
  cases related with
  | alike _ same =>
      rw [← same]
      exact success
  | failed failure other => cases success
  | refused failure outcome _ => cases success

/-- The sides differ exactly if something is unset and the second side succeeds. -/
theorem agree_iff (related : AlikeUnless unset Eq first second) :
    (∀ result, first = .ok result ↔ second = .ok result) ↔
      (∃ failure, second = .error failure) ∨ ¬unset := by
  cases related with
  | alike set same => simp [set, same]
  | failed failure other => simp
  | refused failure _ isUnset =>
      cases second with
      | ok result => simp [isUnset]
      | error other => simp

end Same

end AlikeUnless

namespace Expr

/-- Evaluating an expression reads a field of a nested entity that is not set. What `and` and `or`
do not look at is not read. -/
def ReadsUnset (cache : Like.Cache) (element : Value) : Expr → Prop
  | .literal _ => False
  | .parameter _ => False
  | .property object name =>
      object.ReadsUnset cache element ∨
        object ≠ .element ∧
          (object.evaluateWith cache element >>= fun value => value.field? name) = .ok none
  | .not operand => operand.ReadsUnset cache element
  | .binary .and left right =>
      left.ReadsUnset cache element ∨
        (left.evaluateWith cache element >>= Value.condition?) = .ok true ∧
          right.ReadsUnset cache element
  | .binary .or left right =>
      left.ReadsUnset cache element ∨
        (left.evaluateWith cache element >>= Value.condition?) = .ok false ∧
          right.ReadsUnset cache element
  | .binary _ left right => left.ReadsUnset cache element ∨ right.ReadsUnset cache element

end Expr

namespace Registry

variable {registry : Registry} {descriptor : EntityDescriptor} {name entity : String}
  {rest : List String} {members : List (String × Json)} {assembled : Entity}

/-- The paths that follow declared fields through nested entities to a plain field, or to an
identifier and on into it. -/
inductive Follows (registry : Registry) : EntityDescriptor → List String → Prop where
  | identifier (descriptor : EntityDescriptor) (rest : List String) :
      Follows registry descriptor (idField :: rest)
  | plain {descriptor : EntityDescriptor} {name : String} {field : FieldDescriptor} :
      descriptor.field? name = some field → field.kind.Plain → Follows registry descriptor [name]
  | nested {descriptor target : EntityDescriptor} {name entity : String} {field : FieldDescriptor}
      {rest : List String} :
      descriptor.field? name = some field → field.kind = .entity entity →
        registry.get? entity = some target → Follows registry target rest →
        Follows registry descriptor (name :: rest)

/-- What the two sides have where `rest` is still to be followed: a value that has no types, or an
object and the entity that it was assembled to. -/
inductive Beside (registry : Registry) (rest : List String) : Value → Value → Prop where
  | untyped (document : Json) : Beside registry rest (.ofJson document) (.ofJson document)
  | nested {descriptor : EntityDescriptor} {members : List (String × Json)} {entity : String}
      {assembled : Entity} :
      registry.Follows descriptor rest →
      assemble (registry.convertMembers descriptor members) descriptor.fields
        (withId members (Entity.empty entity)) = .ok assembled →
        Beside registry rest (.record (Value.ofJsonMembers members)) assembled.toValue

theorem Beside.same {untyped typed : Value} (beside : registry.Beside [] untyped typed) :
    untyped = typed := by
  cases beside with
  | untyped document => rfl
  | nested follows _ => cases follows

/-- A field on a path is missing on both sides, or what it holds is beside each other. -/
theorem field_of_follows (follows : registry.Follows descriptor (name :: rest))
    (success : assemble (registry.convertMembers descriptor members) descriptor.fields
      (withId members (Entity.empty entity)) = .ok assembled) :
    (Fields.get? name members = none ∧ assembled.get? name = none) ∨
    ∃ document value, Fields.get? name members = some document ∧
      assembled.get? name = some value ∧ registry.Beside rest (.ofJson document) value := by
  rcases get?_of_assembled success name with
    ⟨_, held⟩ | ⟨different, field, document, value, declared, present, converted, held⟩ |
      ⟨different, undeclared | missing, unset⟩
  · cases present : Fields.get? name members with
    | none => exact .inl ⟨rfl, by rw [held, present, Option.map_none]⟩
    | some document =>
        exact .inr ⟨document, _, rfl, by rw [held, present, Option.map_some], .untyped document⟩
  · refine .inr ⟨document, value, present, held, ?_⟩
    cases follows with
    | identifier => exact absurd rfl different
    | plain found plain =>
        cases Option.some.inj (declared.symm.trans found)
        rw [convert_of_plain registry plain document converted]
        exact .untyped document
    | nested found kind registered deeper =>
        cases Option.some.inj (declared.symm.trans found)
        rcases null_or_object_of_convert kind converted with
          ⟨rfl, rfl⟩ | ⟨members, target, assembled, rfl, found, success, rfl⟩
        · exact .untyped .null
        · cases Option.some.inj (registered.symm.trans found)
          exact .nested deeper success
  · cases follows with
    | identifier => exact absurd rfl different
    | plain found _ =>
        rw [undeclared] at found
        cases found
    | nested found _ _ _ =>
        rw [undeclared] at found
        cases found
  · exact .inl ⟨missing, unset⟩

/-- Of the fields below an element only the untyped side refuses one that is not set. -/
theorem Beside.fieldOrNull {untyped typed : Value}
    (beside : registry.Beside (name :: rest) untyped typed) :
    AlikeUnless (typed.field? name = .ok none) (registry.Beside rest) (untyped.fieldOrNull name)
      (typed.fieldOrNull name) := by
  cases beside with
  | untyped document =>
      cases document with
      | object members =>
          have found := Value.get?_ofJsonMembers name members
          cases present : Fields.get? name members with
          | none =>
              simp only [Value.ofJson, Value.fieldOrNull, Value.field?, found, present,
                Option.map_none]
              exact .failed _ _
          | some document =>
              simp only [Value.ofJson, Value.fieldOrNull, Value.field?, found, present,
                Option.map_some, Option.getD_some]
              exact .alike (by simp) (.untyped document)
      | _ => exact .failed _ _
  | @nested _ members _ assembled follows success =>
      have found := Value.get?_ofJsonMembers name members
      rcases field_of_follows follows success with
        ⟨missing, unset⟩ | ⟨document, value, present, held, beside⟩
      · rw [missing, Option.map_none] at found
        rw [Entity.get?] at unset
        simp only [Value.fieldOrNull, Value.field?, found, Entity.toValue, unset]
        exact .refused _ _ trivial
      · rw [present, Option.map_some] at found
        rw [Entity.get?] at held
        simp only [Value.fieldOrNull, Value.field?, found, Entity.toValue, held, Option.getD_some]
        exact .alike (by simp) beside

theorem fieldOrNull_of_follows (follows : registry.Follows descriptor (name :: rest))
    (success : assemble (registry.convertMembers descriptor members) descriptor.fields
      (withId members (Entity.empty entity)) = .ok assembled) :
    AlikeUnless False (registry.Beside rest)
      ((TableEngine.untypedElement entity members).fieldOrNull name)
      (assembled.toValue.fieldOrNull name) := by
  have found := Value.get?_ofJsonMembers name members
  rcases field_of_follows follows success with
    ⟨missing, unset⟩ | ⟨document, value, present, held, beside⟩
  · rw [missing, Option.map_none] at found
    rw [Entity.get?] at unset
    simp only [Value.fieldOrNull, Value.field?, TableEngine.untypedElement, found, Entity.toValue,
      unset, Option.getD_none]
    exact .alike id (.untyped .null)
  · rw [present, Option.map_some] at found
    rw [Entity.get?] at held
    simp only [Value.fieldOrNull, Value.field?, TableEngine.untypedElement, found, Entity.toValue,
      held, Option.getD_some]
    exact .alike id beside

end Registry

namespace Expr

variable {registry : Registry} {descriptor : EntityDescriptor} {entity : String} {row : Row}
  {assembled : Entity}

theorem evaluateWith_properties {cache : Like.Cache} {untyped typed : Value}
    {path : List String} {object : Expr} (below : object ≠ .element)
    (related : AlikeUnless (object.ReadsUnset cache typed) (registry.Beside path)
      (object.evaluateWith cache untyped) (object.evaluateWith cache typed)) :
    AlikeUnless ((path.foldl property object).ReadsUnset cache typed) Eq
      ((path.foldl property object).evaluateWith cache untyped)
      ((path.foldl property object).evaluateWith cache typed) := by
  induction path generalizing object with
  | nil =>
      exact related.mono fun _ _ => Registry.Beside.same
  | cons name rest inductionHypothesis =>
      have further : AlikeUnless ((object.property name).ReadsUnset cache typed)
          (registry.Beside rest) ((object.property name).evaluateWith cache untyped)
          ((object.property name).evaluateWith cache typed) := by
        rw [evaluateWith, evaluateWith]
        refine (related.bind fun _ _ => Registry.Beside.fieldOrNull).congr ?_
        simp [ReadsUnset, below]
      exact inductionHypothesis (by simp [element]) further

theorem evaluateWith_path (cache : Like.Cache) {path : List String}
    (follows : registry.Follows descriptor path)
    (success : Registry.assemble (registry.convertMembers descriptor row) descriptor.fields
      (Registry.withId row (Entity.empty entity)) = .ok assembled) :
    AlikeUnless ((Expr.path path).ReadsUnset cache assembled.toValue) Eq
      ((Expr.path path).evaluateWith cache (TableEngine.untypedElement entity row))
      ((Expr.path path).evaluateWith cache assembled.toValue) := by
  cases path with
  | nil => cases follows
  | cons name rest =>
      have first : AlikeUnless ((element.property name).ReadsUnset cache assembled.toValue)
          (registry.Beside rest)
          ((element.property name).evaluateWith cache (TableEngine.untypedElement entity row))
          ((element.property name).evaluateWith cache assembled.toValue) := by
        refine (Registry.fieldOrNull_of_follows follows success).congr ?_
        simp [ReadsUnset, element]
      have whole := evaluateWith_properties (by simp [element]) first
      exact whole

theorem evaluateWith_over (cache : Like.Cache) {expression : Expr}
    (composed : expression.Over (registry.Follows descriptor))
    (success : Registry.assemble (registry.convertMembers descriptor row) descriptor.fields
      (Registry.withId row (Entity.empty entity)) = .ok assembled) :
    AlikeUnless (expression.ReadsUnset cache assembled.toValue) Eq
      (expression.evaluateWith cache (TableEngine.untypedElement entity row))
      (expression.evaluateWith cache assembled.toValue) := by
  induction composed with
  | refusal => exact .alike id rfl
  | compare comparison literal follows =>
      rw [evaluateWith, evaluateWith]
      refine ((evaluateWith_path cache follows success).bind_same _).congr ?_
      simp [ReadsUnset]
  | like negated literal follows =>
      rw [evaluateWith, evaluateWith]
      refine ((evaluateWith_path cache follows success).bind_same _).congr ?_
      simp [ReadsUnset]
  | not _ inductionHypothesis =>
      rw [evaluateWith, evaluateWith]
      exact inductionHypothesis.bind_same _
  | @and _ right _ _ leftHypothesis rightHypothesis =>
      rw [evaluateWith, evaluateWith]
      refine (leftHypothesis.bind_test Value.condition?
        (fun holds => holds = true ∧ right.ReadsUnset cache assembled.toValue) ?_).congr ?_
      · intro holds
        cases holds with
        | true => exact (rightHypothesis.bind_same _).congr (by simp)
        | false => exact .alike (by simp) rfl
      · simp [ReadsUnset]
  | @or _ right _ _ leftHypothesis rightHypothesis =>
      rw [evaluateWith, evaluateWith]
      refine (leftHypothesis.bind_test Value.condition?
        (fun holds => holds = false ∧ right.ReadsUnset cache assembled.toValue) ?_).congr ?_
      · intro holds
        cases holds with
        | true => exact .alike (by simp) rfl
        | false => exact (rightHypothesis.bind_same _).congr (by simp)
      · simp [ReadsUnset]

end Expr

namespace Filter

/-- What the remote engine accepts by a filter over declared fields, the process accepts as well.
The engine fails instead exactly if reading the filter in the process meets a field of a nested
entity that is not set, and still succeeds. -/
theorem accepts_nested_iff {registry : Registry} {entity : String} {descriptor : EntityDescriptor}
    {row : Row} {assembled : Entity} {document : Json} {expression : Expr}
    (registered : registry.get? entity = some descriptor)
    (materialized : registry.materialize entity row = .ok assembled)
    (follows : ∀ path ∈ paths document, registry.Follows descriptor path)
    (compiled : compile document = .ok (some expression)) :
    (∀ holds, expression.compile.accepts (TableEngine.untypedElement entity row) = .ok holds →
      expression.compile.accepts assembled.toValue = .ok holds) ∧
    ((∀ holds, expression.compile.accepts (TableEngine.untypedElement entity row) = .ok holds ↔
        expression.compile.accepts assembled.toValue = .ok holds) ↔
      (∃ failure, expression.compile.accepts assembled.toValue = .error failure) ∨
        ¬expression.ReadsUnset expression.compile.patterns assembled.toValue) := by
  rw [Registry.materialize, registered] at materialized
  have composed := (over_compile compiled).mono follows
  have evaluated := Expr.evaluateWith_over expression.compile.patterns composed materialized
  have related := evaluated.bind_same Value.condition?
  exact ⟨fun _ => related.ok_of_ok, related.agree_iff⟩

def address : EntityDescriptor :=
  ⟨"Address", [{ name := "city", kind := .string, isOptional := true }]⟩

def person : EntityDescriptor :=
  ⟨"Person", [{ name := "home", kind := .entity "Address" }]⟩

def homes : Registry := ⟨[("Address", address), ("Person", person)]⟩

def homeRow (home : List (String × Json)) : Row := [("home", .object home), ("id", .string "1")]

def homeInRome : Json := .object [("home", .object [("city", .string "Rome")])]

def cityIsRome : Expr := .equals (.path ["home", "city"]) (.literal (.string "Rome"))

/-- Where the city is known, the two sides agree. -/
theorem accepts_home_with_city :
    homes.materialize "Person" (homeRow [("city", .string "Turin")]) =
      .ok ⟨"Person", [("home", .entity "Address" [("city", .string "Turin")]),
        ("id", .string "1")]⟩ ∧
    compile homeInRome = .ok (some cityIsRome) ∧
    ∀ holds,
      cityIsRome.compile.accepts (TableEngine.untypedElement "Person"
        (homeRow [("city", .string "Turin")])) = .ok holds ↔
      cityIsRome.compile.accepts (.entity "Person" [("home", .entity "Address"
        [("city", .string "Turin")]), ("id", .string "1")]) = .ok holds := by
  have materialized : homes.materialize "Person" (homeRow [("city", .string "Turin")]) =
      .ok ⟨"Person", [("home", .entity "Address" [("city", .string "Turin")]),
        ("id", .string "1")]⟩ := rfl
  have registered : homes.get? "Person" = some person := rfl
  have compiled : compile homeInRome = .ok (some cityIsRome) := rfl
  have follows : ∀ path ∈ paths homeInRome, homes.Follows person path := by
    intro path member
    obtain rfl : path = ["home", "city"] := List.mem_singleton.mp member
    exact .nested rfl rfl rfl (.plain rfl trivial)
  refine ⟨materialized, compiled, ?_⟩
  apply (accepts_nested_iff registered materialized follows compiled).2.mpr
  right
  rintro (((ofElement | ⟨different, _⟩) | ⟨_, unset⟩) | ofLiteral)
  · exact ofElement
  · exact different rfl
  · cases unset
  · exact ofLiteral

/-- Where it is left out, the remote engine fails, while the process finds that it is not Rome. -/
theorem accepts_home_without_city :
    homes.materialize "Person" (homeRow []) =
      .ok ⟨"Person", [("home", .entity "Address" []), ("id", .string "1")]⟩ ∧
    compile homeInRome = .ok (some cityIsRome) ∧
    cityIsRome.compile.accepts (TableEngine.untypedElement "Person" (homeRow [])) =
      .error (.fieldNotSelected "city") ∧
    cityIsRome.compile.accepts
      (.entity "Person" [("home", .entity "Address" []), ("id", .string "1")]) = .ok false :=
  ⟨rfl, rfl, rfl, rfl⟩

end Filter

end EntityCursor
