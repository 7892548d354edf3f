import EntityCursor.Expr.Json
import Mathlib.Algebra.Group.Nat.Defs

/-!
Expressions read back from their documents. Reading a form comes to reading its parts, so that an
expression comes back if and only if its literals and positions do: numbers have to be finite, since
JSON writes null for any other, and positions have to fit into 64 bits.
-/

namespace EntityCursor

def Literal.Portable : Literal → Prop
  | .number real => real.isFinite = true
  | _ => True

@[simp]
theorem BinaryOperator.ofName?_name (operator : BinaryOperator) :
    ofName? operator.name = some operator := by
  cases operator with
  | compare comparison => cases comparison <;> rfl
  | and => rfl
  | or => rfl
  | like negated => cases negated <;> rfl

namespace Expr

/-- All number literals are finite and all positions are numbers of 64 bits. -/
def Portable : Expr → Prop
  | .literal value => value.Portable
  | .property object _ => object.Portable
  | .parameter position => position < 2 ^ 64
  | .binary _ left right => left.Portable ∧ right.Portable
  | .not operand => operand.Portable

/-! Parts. -/

@[simp]
theorem literalOfJson?_toJson_iff (value : Literal) :
    literalOfJson? value.toJson = some value ↔ value.Portable := by
  cases value with
  | number real =>
      cases finite : real.isFinite <;>
        simp [Literal.toJson, literalOfJson?, Literal.ofJson, Literal.Portable, Except.toOption,
          finite]
  | _ => simp [Literal.toJson, literalOfJson?, Literal.ofJson, Literal.Portable, Except.toOption]

@[simp]
theorem positionOfJson?_integer_iff (position : Nat) :
    positionOfJson? (.integer position) = some position ↔ position < 2 ^ 64 := by
  simp only [positionOfJson?, Int.toNat_natCast, Option.ite_none_right_eq_some, and_true,
    Nat.pow_eq]
  omega

@[simp]
theorem operatorOfJson?_name (operator : BinaryOperator) :
    operatorOfJson? (.string operator.name) = some operator :=
  operator.ofName?_name

/-! Forms. -/

variable (numbered : Bool)

theorem ofJson?_value (value : Json) :
    ofJson? numbered (.object [("exprType", .string "Value"), ("value", value)]) =
      (do return .literal (← literalOfJson? value)) := rfl

theorem ofJson?_property (object : Json) (name : String) :
    ofJson? numbered (.object [("exprType", .string "Property"), ("object", object),
        ("property", .string name)]) =
      (do return .property (← ofJson? true object) name) := rfl

theorem ofJson?_parameter (position : Json) :
    ofJson? numbered (.object [("exprType", .string "Parameter"), ("position", position)]) =
      (do return .parameter (← positionOfJson? position)) := rfl

theorem ofJson?_binary (left operator right : Json) :
    ofJson? numbered (.object [("exprType", .string "Binary"), ("left", left), ("op", operator),
        ("right", right)]) =
      (do
        return .binary (← operatorOfJson? operator) (← ofJson? true left)
          (← ofJson? true right)) := rfl

theorem ofJson?_not (operand : Json) :
    ofJson? numbered (.object [("exprType", .string "Not"), ("value", operand)]) =
      (do return .not (← ofJson? true operand)) := rfl

/-- An expression comes back from its document, alone or inside of another one, if and only if it is
portable. -/
theorem ofJson?_toJson_iff (expression : Expr) :
    ofJson? numbered expression.toJson = some expression ↔ expression.Portable := by
  -- The parts of an expression stand inside of its document, where numbers may name forms.
  induction expression generalizing numbered with
  | literal value =>
      rw [toJson, ofJson?_value, Portable, ← literalOfJson?_toJson_iff]
      simp [Option.bind_eq_some_iff]
  | property object name inductionHypothesis =>
      rw [toJson, ofJson?_property, Portable, ← inductionHypothesis true]
      simp [Option.bind_eq_some_iff]
  | parameter position =>
      rw [toJson, ofJson?_parameter, Portable, ← positionOfJson?_integer_iff]
      simp [Option.bind_eq_some_iff]
  | binary operator left right leftHypothesis rightHypothesis =>
      rw [toJson, ofJson?_binary, operatorOfJson?_name, Portable, ← leftHypothesis true,
        ← rightHypothesis true]
      simp [Option.bind_eq_some_iff]
  | not operand inductionHypothesis =>
      rw [toJson, ofJson?_not, Portable, ← inductionHypothesis true]
      simp [Option.bind_eq_some_iff]

end Expr

end EntityCursor
