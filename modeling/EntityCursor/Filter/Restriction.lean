import EntityCursor.Expr.Basic

/-!
Restrictions: fields that must equal given values. An entry without a value asks for nothing.
-/

namespace EntityCursor

abbrev Restriction := List (String × Option Value)

namespace Restriction

def fields (restriction : Restriction) : List String :=
  restriction.filterMap fun (field, value) => value.map fun _ => field

def equalities : Restriction → Outcome (List Expr)
  | [] => .ok []
  | (_, none) :: rest => equalities rest
  | (field, some value) :: rest => do
      let literal ← Literal.ofValue value
      let others ← equalities rest
      return Expr.equals (Expr.field field) (.literal literal) :: others

def compile (restriction : Restriction) : Outcome (Option Expr) := do
  let equalities ← restriction.equalities
  return Expr.conjunction? equalities

end Restriction

end EntityCursor
