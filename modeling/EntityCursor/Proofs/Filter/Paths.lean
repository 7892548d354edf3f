import EntityCursor.Filter.Document
import EntityCursor.Proofs.Fields
import EntityCursor.Proofs.Outcome

/-!
The paths of a filter document: the fields that it compares with something, each as the way to it
from the element. What a document compiles to is put together from comparisons of these fields by
`and`, `or` and `not`.
-/

namespace EntityCursor

namespace Filter

mutual

/-- The fields that the entries of an object compare, where the object is about the field at `path`.
-/
def pathsOfMembers (path : List String) : List (String × Json) → List (List String)
  | [] => []
  | (name, value) :: rest =>
      pathsOfEntry path (Key.ofName name) value ++ pathsOfMembers path rest

def pathsOfEntry (path : List String) (key : Key) : Json → List (List String)
  | .object members =>
      match key with
      | .negation => pathsOfMembers path members
      | .field field => pathsOfMembers (path ++ [field]) members
      | .operator _ => [path]
      | .allOf => []
      | .someOf => []
  | .array items =>
      match key with
      | .allOf => pathsOfItems path items
      | .someOf => pathsOfItems path items
      | .operator _ => [path]
      | .negation => []
      | .field _ => []
  | _ =>
      match key with
      | .operator _ => [path]
      | .field field => [path ++ [field]]
      | .allOf => []
      | .someOf => []
      | .negation => []

/-- The fields that the objects compare which `$and` or `$or` combine. -/
def pathsOfItems (path : List String) : List Json → List (List String)
  | [] => []
  | item :: rest => pathsOfItem path item ++ pathsOfItems path rest

def pathsOfItem (path : List String) : Json → List (List String)
  | .object members => pathsOfMembers path members
  | _ => []

end

def paths : Json → List (List String)
  | .object members => pathsOfMembers [] members
  | _ => []

end Filter

namespace Expr

/-- The expressions that are put together from comparisons of the fields at the given paths. -/
inductive Over (given : List String → Prop) : Expr → Prop where
  | refusal : Over given (.literal (.bool false))
  | compare (comparison : Comparison) {path : List String} (literal : Literal) :
      given path → Over given (.binary (.compare comparison) (.path path) (.literal literal))
  | like (negated : Bool) {path : List String} (literal : Literal) :
      given path → Over given (.binary (.like negated) (.path path) (.literal literal))
  | not {operand : Expr} : Over given operand → Over given (.not operand)
  | and {left right : Expr} :
      Over given left → Over given right → Over given (.binary .and left right)
  | or {left right : Expr} :
      Over given left → Over given right → Over given (.binary .or left right)

namespace Over

variable {given wider : List String → Prop}

theorem mono {expression : Expr} (composed : expression.Over given)
    (widens : ∀ path, given path → wider path) : expression.Over wider := by
  induction composed with
  | refusal => exact .refusal
  | compare comparison literal path => exact .compare comparison literal (widens _ path)
  | like negated literal path => exact .like negated literal (widens _ path)
  | not _ inductionHypothesis => exact .not inductionHypothesis
  | and _ _ leftHypothesis rightHypothesis => exact .and leftHypothesis rightHypothesis
  | or _ _ leftHypothesis rightHypothesis => exact .or leftHypothesis rightHypothesis

theorem conjunction? {conditions : List Expr}
    (composed : ∀ condition ∈ conditions, condition.Over given) :
    ∀ expression, Expr.conjunction? conditions = some expression → expression.Over given := by
  cases conditions with
  | nil =>
      intro expression combined
      cases combined
  | cons first rest =>
      intro expression combined
      cases combined
      apply List.foldlRecOn rest (Expr.binary .and) (composed first List.mem_cons_self)
      intro before overBefore condition member
      exact .and overBefore (composed condition (List.mem_cons_of_mem _ member))

theorem disjunction {conditions : List Expr}
    (composed : ∀ condition ∈ conditions, condition.Over given) :
    (Expr.disjunction conditions).Over given := by
  cases conditions with
  | nil => exact .refusal
  | cons first rest =>
      apply List.foldlRecOn rest (Expr.binary .or) (composed first List.mem_cons_self)
      intro before overBefore condition member
      exact .or overBefore (composed condition (List.mem_cons_of_mem _ member))

end Over

end Expr

namespace Filter

variable {path : List String} {depth : Nat}

theorem operator_of_comparisons {operator : String} {comparison : BinaryOperator}
    (found : Fields.get? operator comparisons = some comparison) :
    comparison ≠ .and ∧ comparison ≠ .or := by
  have all : ∀ pair ∈ comparisons, pair.2 ≠ .and ∧ pair.2 ≠ .or := by decide
  exact all _ (Fields.mem_of_get? found)

theorem over_comparison {operator : String} {operand : Json} {expression : Expr}
    (compared : comparison path operator operand = .ok expression) :
    expression.Over (· = path) := by
  rw [comparison] at compared
  split at compared
  · cases compared
  · split at compared
    · cases compared
    · next named found =>
        obtain ⟨literal, _, combined⟩ := Outcome.bind_eq_ok.mp compared
        cases combined
        cases named with
        | compare comparison => exact .compare comparison literal rfl
        | like negated => exact .like negated literal rfl
        | and => exact absurd rfl (operator_of_comparisons found).1
        | or => exact absurd rfl (operator_of_comparisons found).2

theorem over_negation {given : List String → Prop} {conditions : List Expr}
    (composed : ∀ condition ∈ conditions, condition.Over given) :
    (negation (Expr.conjunction? conditions)).Over given := by
  cases combined : Expr.conjunction? conditions with
  | none => exact .refusal
  | some condition => exact .not (Expr.Over.conjunction? composed condition combined)

theorem over_someOf {given : List String → Prop} {branches : List (Option Expr)}
    (composed : ∀ branch ∈ branches, ∀ condition, branch = some condition → condition.Over given)
    {expression : Expr} (combined : someOf branches = some expression) : expression.Over given := by
  rw [someOf] at combined
  split at combined
  · cases combined
  · cases combined
    apply Expr.Over.disjunction
    intro condition member
    obtain ⟨branch, present, same⟩ := List.mem_filterMap.mp member
    exact composed branch present condition same

theorem over_operator {operator : String} {operand : Json} {result : Option Expr}
    (compiled : (do return some (← comparison path operator operand)) = Except.ok result) :
    ∀ expression, result = some expression → expression.Over (· ∈ [path]) := by
  intro expression same
  obtain ⟨compared, success, combined⟩ := Outcome.bind_eq_ok.mp compiled
  cases combined
  cases same
  exact (over_comparison success).mono fun _ given => List.mem_singleton.mpr given

theorem over_scalarCondition {value : Json} (noObject : ∀ members, value ≠ .object members)
    (noArray : ∀ items, value ≠ .array items) {key : Key} {name : String} {result : Option Expr}
    (compiled : condition path depth key name value = .ok result) :
    ∀ expression, result = some expression → expression.Over (· ∈ pathsOfEntry path key value) := by
  intro expression same
  cases value with
  | object members => exact absurd rfl (noObject members)
  | array items => exact absurd rfl (noArray items)
  | _ =>
      cases key with
      | allOf => cases compiled
      | someOf => cases compiled
      | negation => cases compiled
      | operator operator => exact over_operator compiled expression same
      | field field =>
          obtain ⟨_, _, compiled⟩ := Outcome.bind_eq_ok.mp compiled
          obtain ⟨literal, _, combined⟩ := Outcome.bind_eq_ok.mp compiled
          cases combined
          cases same
          exact .compare .equal literal (List.mem_singleton.mpr rfl)

mutual

/-- The conditions of an object are put together from comparisons of the fields it compares. -/
theorem over_conditions : (members : List (String × Json)) → {path : List String} → {depth : Nat} →
    {results : List Expr} → conditions path depth members = .ok results →
      ∀ result ∈ results, result.Over (· ∈ pathsOfMembers path members)
  | [], path, depth, results, compiled => by
      cases compiled
      simp
  | (name, value) :: rest, path, depth, results, compiled => by
      rw [conditions] at compiled
      obtain ⟨first, compiledFirst, compiled⟩ := Outcome.bind_eq_ok.mp compiled
      obtain ⟨others, compiledRest, combined⟩ := Outcome.bind_eq_ok.mp compiled
      cases combined
      intro result member
      rw [pathsOfMembers]
      rcases List.mem_append.mp member with here | later
      · rw [Option.mem_toList] at here
        exact (over_condition value compiledFirst result here).mono
          fun path given => List.mem_append_left _ given
      · exact (over_conditions rest compiledRest result later).mono
          fun path given => List.mem_append_right _ given

theorem over_condition : (value : Json) → {path : List String} → {depth : Nat} → {key : Key} →
    {name : String} → {result : Option Expr} → condition path depth key name value = .ok result →
      ∀ expression, result = some expression → expression.Over (· ∈ pathsOfEntry path key value)
  | .object members, path, depth, key, name, result, compiled, expression, same => by
      cases key with
      | allOf => cases compiled
      | someOf => cases compiled
      | operator operator => exact over_operator compiled expression same
      | negation =>
          obtain ⟨_, _, compiled⟩ := Outcome.bind_eq_ok.mp compiled
          obtain ⟨inner, compiledInner, combined⟩ := Outcome.bind_eq_ok.mp compiled
          cases combined
          cases same
          exact over_negation (over_conditions members compiledInner)
      | field field =>
          obtain ⟨_, _, compiled⟩ := Outcome.bind_eq_ok.mp compiled
          obtain ⟨inner, compiledInner, combined⟩ := Outcome.bind_eq_ok.mp compiled
          cases combined
          exact Expr.Over.conjunction? (over_conditions members compiledInner) expression same
  | .array items, path, depth, key, name, result, compiled, expression, same => by
      cases key with
      | operator operator => exact over_operator compiled expression same
      | negation => cases compiled
      | field field =>
          obtain ⟨_, _, compiled⟩ := Outcome.bind_eq_ok.mp compiled
          cases compiled
      | allOf =>
          obtain ⟨branches, compiledItems, combined⟩ := Outcome.bind_eq_ok.mp compiled
          cases combined
          refine Expr.Over.conjunction? ?_ expression same
          intro condition member
          obtain ⟨branch, present, some⟩ := List.mem_filterMap.mp member
          exact over_branches items compiledItems branch present condition some
      | someOf =>
          obtain ⟨branches, compiledItems, combined⟩ := Outcome.bind_eq_ok.mp compiled
          cases combined
          exact over_someOf (over_branches items compiledItems) same
  | .null, path, depth, key, name, result, compiled, expression, same =>
      over_scalarCondition (by simp) (by simp) compiled expression same
  | .bool flag, path, depth, key, name, result, compiled, expression, same =>
      over_scalarCondition (by simp) (by simp) compiled expression same
  | .integer number, path, depth, key, name, result, compiled, expression, same =>
      over_scalarCondition (by simp) (by simp) compiled expression same
  | .double number, path, depth, key, name, result, compiled, expression, same =>
      over_scalarCondition (by simp) (by simp) compiled expression same
  | .string text, path, depth, key, name, result, compiled, expression, same =>
      over_scalarCondition (by simp) (by simp) compiled expression same

theorem over_branches : (items : List Json) → {connective : String} → {path : List String} →
    {depth : Nat} → {results : List (Option Expr)} →
      branches connective path depth items = .ok results →
      ∀ result ∈ results, ∀ expression, result = some expression →
        expression.Over (· ∈ pathsOfItems path items)
  | [], connective, path, depth, results, compiled => by
      cases compiled
      simp
  | item :: rest, connective, path, depth, results, compiled => by
      rw [branches] at compiled
      obtain ⟨first, compiledFirst, compiled⟩ := Outcome.bind_eq_ok.mp compiled
      obtain ⟨others, compiledRest, combined⟩ := Outcome.bind_eq_ok.mp compiled
      cases combined
      intro result member expression same
      rw [pathsOfItems]
      rcases List.mem_cons.mp member with rfl | later
      · exact (over_branch item compiledFirst expression same).mono
          fun path given => List.mem_append_left _ given
      · exact (over_branches rest compiledRest result later expression same).mono
          fun path given => List.mem_append_right _ given

theorem over_branch : (item : Json) → {connective : String} → {path : List String} →
    {depth : Nat} → {result : Option Expr} → branch connective path depth item = .ok result →
      ∀ expression, result = some expression → expression.Over (· ∈ pathsOfItem path item)
  | .object members, connective, path, depth, result, compiled, expression, same => by
      rw [branch] at compiled
      obtain ⟨_, _, compiled⟩ := Outcome.bind_eq_ok.mp compiled
      obtain ⟨inner, compiledInner, combined⟩ := Outcome.bind_eq_ok.mp compiled
      cases combined
      exact Expr.Over.conjunction? (over_conditions members compiledInner) expression same
  | .array items, connective, path, depth, result, compiled, _, _ => by cases compiled
  | .null, connective, path, depth, result, compiled, _, _ => by cases compiled
  | .bool flag, connective, path, depth, result, compiled, _, _ => by cases compiled
  | .integer number, connective, path, depth, result, compiled, _, _ => by cases compiled
  | .double number, connective, path, depth, result, compiled, _, _ => by cases compiled
  | .string text, connective, path, depth, result, compiled, _, _ => by cases compiled

end

/-- A document compiles to an expression over the fields that it compares. -/
theorem over_compile {document : Json} {expression : Expr}
    (compiled : compile document = .ok (some expression)) :
    expression.Over (· ∈ paths document) := by
  cases document with
  | object members =>
      obtain ⟨inner, compiledInner, combined⟩ := Outcome.bind_eq_ok.mp compiled
      exact Expr.Over.conjunction? (over_conditions members compiledInner) expression
        (Except.ok.inj combined)
  | _ => cases compiled

end Filter

end EntityCursor
