import EntityCursor.Filter.Document
import EntityCursor.Filter.Restriction
import EntityCursor.Proofs.Expr.Patterns
import EntityCursor.Proofs.Pipeline.Failures

/-!
What conditions fail with. When they are evaluated it is never a defect, and when they are read they
are refused as invalid filters only.
-/

namespace EntityCursor

/-- A failure for a condition that is no valid filter. -/
def QueryError.IsInvalidFilter (failure : QueryError) : Prop :=
  ∃ cause, failure = .invalidFilter cause

theorem QueryError.IsInvalidFilter.isOrdinary {failure : QueryError}
    (isInvalidFilter : failure.IsInvalidFilter) : failure.IsOrdinary := by
  obtain ⟨cause, rfl⟩ := isInvalidFilter
  rfl

open Outcome (FailsOnly)
open QueryError (IsInvalidFilter IsOrdinary)

theorem Value.failsOnly_condition? (value : Value) : FailsOnly IsOrdinary value.condition? := by
  rw [condition?.eq_def]
  split
  · exact .ok _
  · exact .ok _
  · exact .error rfl

namespace Like

theorem failsOnly_read (engine : RegexEngine) (pattern : String) :
    FailsOnly IsOrdinary (read engine pattern) := by
  rw [read]
  split
  · exact .ok _
  · exact .error rfl

theorem Cache.failsOnly_relates (cache : Cache) (value operand : Value) :
    FailsOnly IsOrdinary (cache.relates value operand) := by
  rw [Cache.relates.eq_def]
  split
  · next text pattern =>
      rw [Cache.accepts]
      split
      · exact .ok _
      · exact (failsOnly_read cache.engine pattern).bind fun _ _ => .ok _
  · exact .ok _

end Like

namespace Expr

theorem failsOnly_evaluateWith (cache : Like.Cache) (element : Value) (expression : Expr) :
    FailsOnly IsOrdinary (expression.evaluateWith cache element) := by
  induction expression with
  | literal value => exact .ok _
  | parameter position =>
      rw [evaluateWith]
      split
      · exact .ok _
      · exact .error rfl
  | property object name inductionHypothesis =>
      rw [evaluateWith]
      exact inductionHypothesis.bind fun value _ => value.failsOnly_fieldOrNull name
  | not operand inductionHypothesis =>
      rw [evaluateWith]
      exact inductionHypothesis.bind fun value _ =>
        value.failsOnly_condition?.bind fun _ _ => .ok _
  | binary operator left right leftHypothesis rightHypothesis =>
      have decides : FailsOnly IsOrdinary (do
          let value ← right.evaluateWith cache element
          let holds ← value.condition?
          return Value.bool holds) :=
        rightHypothesis.bind fun value _ => value.failsOnly_condition?.bind fun _ _ => .ok _
      cases operator with
      | compare comparison =>
          rw [evaluateWith]
          exact leftHypothesis.bind fun _ _ => rightHypothesis.bind fun _ _ => .ok _
      | like negated =>
          rw [evaluateWith]
          exact leftHypothesis.bind fun value _ => rightHypothesis.bind fun operand _ =>
            (Like.Cache.failsOnly_relates cache value operand).bind fun _ _ => .ok _
      | and =>
          rw [evaluateWith]
          refine leftHypothesis.bind fun value _ => value.failsOnly_condition?.bind ?_
          intro holds _
          cases holds with
          | true => exact decides
          | false => exact .ok _
      | or =>
          rw [evaluateWith]
          refine leftHypothesis.bind fun value _ => value.failsOnly_condition?.bind ?_
          intro holds _
          cases holds with
          | true => exact .ok _
          | false => exact decides

theorem failsOnly_accepts (expression : Expr) (element : Value) :
    FailsOnly IsOrdinary (expression.compile.accepts element) :=
  (failsOnly_evaluateWith _ element _).bind fun value _ => value.failsOnly_condition?

end Expr

theorem Literal.failsOnly_ofJson (document : Json) :
    FailsOnly IsInvalidFilter (Literal.ofJson document) := by
  cases document with
  | array items => exact .error ⟨_, rfl⟩
  | object members => exact .error ⟨_, rfl⟩
  | _ => exact .ok _

theorem Literal.failsOnly_ofValue (value : Value) :
    FailsOnly IsInvalidFilter (Literal.ofValue value) := by
  rw [ofValue.eq_def]
  split <;> first | exact .ok _ | exact .error ⟨_, rfl⟩

theorem Restriction.failsOnly_compile (restriction : Restriction) :
    FailsOnly IsInvalidFilter restriction.compile := by
  have read : FailsOnly IsInvalidFilter restriction.equalities := by
    induction restriction with
    | nil => exact .ok []
    | cons entry rest inductionHypothesis =>
        obtain ⟨field, _ | value⟩ := entry
        · exact inductionHypothesis
        · rw [equalities]
          exact (Literal.failsOnly_ofValue value).bind fun _ _ =>
            inductionHypothesis.bind fun _ _ => .ok _
  exact read.bind fun _ _ => .ok _

namespace Filter

@[simp]
theorem failsOnly_fault {Result : Type} (cause : FilterFault) :
    FailsOnly IsInvalidFilter (fault cause : Outcome Result) := .error ⟨_, rfl⟩

@[simp]
theorem failsOnly_requireDepth (depth : Nat) : FailsOnly IsInvalidFilter (requireDepth depth) := by
  rw [requireDepth]
  split
  · exact failsOnly_fault _
  · exact .ok ()

theorem failsOnly_comparison (path : List String) (operator : String) (operand : Json) :
    FailsOnly IsInvalidFilter (comparison path operator operand) := by
  rw [comparison]
  split
  · exact failsOnly_fault _
  · split
    · exact failsOnly_fault _
    · exact (Literal.failsOnly_ofJson operand).bind fun _ _ => .ok _

theorem failsOnly_scalarCondition (path : List String) (depth : Nat) (key : Key) (name : String)
    {scalar : Json} (noObject : ∀ members, scalar ≠ .object members)
    (noArray : ∀ items, scalar ≠ .array items) :
    FailsOnly IsInvalidFilter (condition path depth key name scalar) := by
  cases scalar with
  | object members => exact absurd rfl (noObject members)
  | array items => exact absurd rfl (noArray items)
  | _ =>
      cases key with
      | allOf => exact failsOnly_fault _
      | someOf => exact failsOnly_fault _
      | negation => exact failsOnly_fault _
      | operator operator => exact (failsOnly_comparison path operator _).bind fun _ _ => .ok _
      | field field =>
          exact (failsOnly_requireDepth _).bind fun _ _ =>
            (Literal.failsOnly_ofJson _).bind fun _ _ => .ok _

mutual

theorem failsOnly_conditions : (members : List (String × Json)) → (path : List String) →
    (depth : Nat) → FailsOnly IsInvalidFilter (conditions path depth members)
  | [], path, depth => .ok []
  | (name, value) :: rest, path, depth => by
      rw [conditions]
      exact (failsOnly_condition value path depth (Key.ofName name) name).bind fun _ _ =>
        (failsOnly_conditions rest path depth).bind fun _ _ => .ok _

theorem failsOnly_condition : (value : Json) → (path : List String) → (depth : Nat) →
    (key : Key) → (name : String) → FailsOnly IsInvalidFilter (condition path depth key name value)
  | .object members, path, depth, key, name => by
      have nested (path : List String) := failsOnly_conditions members path (depth + 1)
      cases key with
      | allOf => exact failsOnly_fault _
      | someOf => exact failsOnly_fault _
      | negation =>
          exact (failsOnly_requireDepth _).bind fun _ _ => (nested path).bind fun _ _ => .ok _
      | operator operator => exact (failsOnly_comparison path operator _).bind fun _ _ => .ok _
      | field field =>
          exact (failsOnly_requireDepth _).bind fun _ _ => (nested _).bind fun _ _ => .ok _
  | .array items, path, depth, key, name => by
      have combined := failsOnly_branches items name path (depth + 1)
      cases key with
      | allOf => exact combined.bind fun _ _ => .ok _
      | someOf => exact combined.bind fun _ _ => .ok _
      | negation => exact failsOnly_fault _
      | operator operator => exact (failsOnly_comparison path operator _).bind fun _ _ => .ok _
      | field field => exact (failsOnly_requireDepth _).bind fun _ _ => failsOnly_fault _
  | .null, path, depth, key, name =>
      failsOnly_scalarCondition path depth key name (by simp) (by simp)
  | .bool flag, path, depth, key, name =>
      failsOnly_scalarCondition path depth key name (by simp) (by simp)
  | .integer number, path, depth, key, name =>
      failsOnly_scalarCondition path depth key name (by simp) (by simp)
  | .double number, path, depth, key, name =>
      failsOnly_scalarCondition path depth key name (by simp) (by simp)
  | .string text, path, depth, key, name =>
      failsOnly_scalarCondition path depth key name (by simp) (by simp)

theorem failsOnly_branches : (items : List Json) → (connective : String) → (path : List String) →
    (depth : Nat) → FailsOnly IsInvalidFilter (branches connective path depth items)
  | [], connective, path, depth => .ok []
  | item :: rest, connective, path, depth => by
      rw [branches]
      exact (failsOnly_branch item connective path depth).bind fun _ _ =>
        (failsOnly_branches rest connective path depth).bind fun _ _ => .ok _

theorem failsOnly_branch : (item : Json) → (connective : String) → (path : List String) →
    (depth : Nat) → FailsOnly IsInvalidFilter (branch connective path depth item)
  | .object members, connective, path, depth => by
      rw [branch]
      exact (failsOnly_requireDepth depth).bind fun _ _ =>
        (failsOnly_conditions members path depth).bind fun _ _ => .ok _
  | .array items, connective, path, depth => failsOnly_fault _
  | .null, connective, path, depth => failsOnly_fault _
  | .bool flag, connective, path, depth => failsOnly_fault _
  | .integer number, connective, path, depth => failsOnly_fault _
  | .double number, connective, path, depth => failsOnly_fault _
  | .string text, connective, path, depth => failsOnly_fault _

end

theorem failsOnly_compile (document : Json) : FailsOnly IsInvalidFilter (compile document) := by
  cases document with
  | object members => exact (failsOnly_conditions members [] 1).bind fun _ _ => .ok _
  | _ => exact failsOnly_fault _

end Filter

end EntityCursor
