import EntityCursor.Value.Order

/-!
Filter expressions: conditions on one element, built from literals, the element, its properties and
operators. Parameter 0 is the element; no other parameter is ever bound.
-/

namespace EntityCursor

inductive Literal where
  | bool (flag : Bool)
  | number (real : Binary64)
  | string (text : String)
  | null
deriving DecidableEq

namespace Literal

def toValue : Literal → Value
  | .bool flag => .bool flag
  | .number real => .number real
  | .string text => .string text
  | .null => .null

def toJson : Literal → Json
  | .bool flag => .bool flag
  | .number real => if real.isFinite then .double real else .null
  | .string text => .string text
  | .null => .null

def ofJson : Json → Outcome Literal
  | .null => .ok .null
  | .bool flag => .ok (.bool flag)
  | .integer value => .ok (.number (Binary64.ofInt value))
  | .double value => .ok (.number value)
  | .string text => .ok (.string text)
  | other => .error (.invalidFilter (.notAScalar other))

/-- A date becomes its text. -/
def ofValue : Value → Outcome Literal
  | .null => .ok .null
  | .bool flag => .ok (.bool flag)
  | .number real => .ok (.number real)
  | .string text => .ok (.string text)
  | .date moment => .ok (.string moment.text)
  | other => .error (.invalidFilter (.notAScalarValue other.kind))

end Literal

inductive Comparison where
  | equal
  | notEqual
  | less
  | lessOrEqual
  | greater
  | greaterOrEqual
deriving DecidableEq, Repr

/-- Whether a comparison holds. Of values that are not comparable only `notEqual` does. -/
def Comparison.holds (comparison : Comparison) (left right : Value) : Bool :=
  match comparison with
  | .equal => left.equals right
  | .notEqual => !left.equals right
  | .less => left.compare? right == some .lt
  | .lessOrEqual => left.compare? right == some .lt || left.compare? right == some .eq
  | .greater => left.compare? right == some .gt
  | .greaterOrEqual => left.compare? right == some .gt || left.compare? right == some .eq

inductive BinaryOperator where
  | compare (comparison : Comparison)
  | and
  | or
  | like (negated : Bool)
deriving DecidableEq, Repr

namespace BinaryOperator

def all : List BinaryOperator :=
  [.compare .equal, .compare .notEqual, .compare .less, .compare .lessOrEqual, .compare .greater,
    .compare .greaterOrEqual, .and, .or, .like false, .like true]

def name : BinaryOperator → String
  | .compare .equal => "Eq"
  | .compare .notEqual => "NotEq"
  | .compare .less => "Lt"
  | .compare .lessOrEqual => "LtEq"
  | .compare .greater => "Gt"
  | .compare .greaterOrEqual => "GtEq"
  | .and => "And"
  | .or => "Or"
  | .like false => "Like"
  | .like true => "NotLike"

def symbol : BinaryOperator → String
  | .compare .equal => "="
  | .compare .notEqual => "!="
  | .compare .less => "<"
  | .compare .lessOrEqual => "<="
  | .compare .greater => ">"
  | .compare .greaterOrEqual => ">="
  | .and => "AND"
  | .or => "OR"
  | .like false => "LIKE"
  | .like true => "NOT LIKE"

def ofName? (name : String) : Option BinaryOperator :=
  all.find? (·.name = name)

end BinaryOperator

inductive Expr where
  | literal (value : Literal)
  | property (object : Expr) (name : String)
  | parameter (position : Nat)
  | binary (operator : BinaryOperator) (left right : Expr)
  | not (operand : Expr)
deriving DecidableEq

namespace Expr

def element : Expr := .parameter 0

def field (name : String) : Expr := element.property name

def path (names : List String) : Expr := names.foldl property element

def equals (left right : Expr) : Expr := .binary (.compare .equal) left right

/-- Adds the properties of the element that an expression reads to those found before, each of them
once. -/
def addFields (found : List String) : Expr → List String
  | .property (.parameter 0) name => if name ∈ found then found else found ++ [name]
  | .property object _ => object.addFields found
  | .binary _ left right => right.addFields (left.addFields found)
  | .not operand => operand.addFields found
  | .literal _ => found
  | .parameter _ => found

def fields (expression : Expr) : List String :=
  expression.addFields []

/-- All expressions hold; nothing is asked for if there are none. -/
def conjunction? : List Expr → Option Expr
  | [] => none
  | first :: rest => some (rest.foldl (.binary .and) first)

/-- Some expression holds; nothing does if there are none. -/
def disjunction : List Expr → Expr
  | [] => .literal (.bool false)
  | first :: rest => rest.foldl (.binary .or) first

end Expr

end EntityCursor
