import EntityCursor.Expr.Basic
import EntityCursor.Json.Source
import EntityCursor.Json.Tagged

/-!
Expressions as JSON. Every expression is an object whose member `exprType` names its form, with the
parts of the form under their names.
-/

namespace EntityCursor

/-- The operator that a whole document names, alone or as the name of an empty choice. -/
def BinaryOperator.read? : Json → Option BinaryOperator
  | .string name => BinaryOperator.ofName? name
  | .object [(name, .null)] => BinaryOperator.ofName? name
  | _ => none

namespace Expr

inductive Form where
  | value
  | property
  | parameter
  | binary
  | not
deriving DecidableEq, Repr

namespace Form

def all : List Form := [.value, .property, .parameter, .binary, .not]

def name : Form → String
  | .value => "Value"
  | .property => "Property"
  | .parameter => "Parameter"
  | .binary => "Binary"
  | .not => "Not"

def parts : Form → List String
  | .value => ["value"]
  | .property => ["object", "property"]
  | .parameter => ["position"]
  | .binary => ["left", "op", "right"]
  | .not => ["value"]

end Form

/-! Writing. -/

def toJson : Expr → Json
  | .literal value => .object [("exprType", .string "Value"), ("value", value.toJson)]
  | .property object name =>
      .object [("exprType", .string "Property"), ("object", object.toJson),
        ("property", .string name)]
  | .parameter position =>
      .object [("exprType", .string "Parameter"), ("position", .integer position)]
  | .binary operator left right =>
      .object [("exprType", .string "Binary"), ("left", left.toJson), ("op", .string operator.name),
        ("right", right.toJson)]
  | .not operand => .object [("exprType", .string "Not"), ("value", operand.toJson)]

/-! Reading. -/

/-- The operator that a part of another document names: there an empty choice may also hold an
empty object. -/
def operatorOfJson? : Json → Option BinaryOperator
  | .object [(name, .object [])] => BinaryOperator.ofName? name
  | document => BinaryOperator.read? document

def literalOfJson? (document : Json) : Option Literal :=
  (Literal.ofJson document).toOption

def positionOfJson? : Json → Option Nat
  | .integer value => if 0 ≤ value ∧ value < Nat.pow 2 64 then some value.toNat else none
  | _ => none

def nameOfJson? : Json → Option String
  | .string name => some name
  | _ => none

def ofParts? (form : Form) (parts : List (String × Json.Part Expr)) : Option Expr :=
  let document? (name : String) : Option Json := (Fields.get? name parts).map (·.1)
  let expression? (name : String) : Option Expr := (Fields.get? name parts).bind (·.2)
  match form with
  | .value => do return .literal (← literalOfJson? (← document? "value"))
  | .property => do
      return .property (← expression? "object") (← nameOfJson? (← document? "property"))
  | .parameter => do return .parameter (← positionOfJson? (← document? "position"))
  | .binary => do
      return .binary (← operatorOfJson? (← document? "op")) (← expression? "left")
        (← expression? "right")
  | .not => do return .not (← expression? "value")

def union : TaggedUnion Form Expr :=
  { tag := "exprType", forms := Form.all, name := Form.name, parts := Form.parts,
    ofParts? := ofParts? }

def ofJson? (numbered : Bool) (document : Json) : Option Expr :=
  union.ofJson? numbered document

def read? (document : Json) : Option Expr :=
  ofJson? false document

end Expr

end EntityCursor
