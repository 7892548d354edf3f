import EntityCursor.Expr.Basic

/-!
Filter documents: JSON objects that state conditions on an element. A name without dollar sign is a
field, and its value is what the field equals or an object of conditions on the field; `$and`, `$or`
and `$not` combine objects; the other names with a dollar sign compare the field that the object is
about. All entries of an object have to hold. A document that asks for nothing compiles to no
expression.
-/

namespace EntityCursor

namespace Filter

/-- What the name of an entry says. -/
inductive Key where
  | allOf
  | someOf
  | negation
  | operator (text : String)
  | field (name : String)
deriving DecidableEq, Repr

def Key.ofName (name : String) : Key :=
  if name = "$and" then .allOf
  else if name = "$or" then .someOf
  else if name = "$not" then .negation
  else if name.toList.head? = some '$' then .operator name
  else .field name

def comparisons : List (String × BinaryOperator) :=
  [("$eq", .compare .equal), ("$ne", .compare .notEqual), ("$gt", .compare .greater),
    ("$gte", .compare .greaterOrEqual), ("$lt", .compare .less), ("$lte", .compare .lessOrEqual),
    ("$like", .like false), ("$notLike", .like true)]

def fault {Result : Type} (cause : FilterFault) : Outcome Result :=
  .error (.invalidFilter cause)

def requireDepth (depth : Nat) : Outcome Unit :=
  if maximumFilterDepth < depth then fault .tooDeep else .ok ()

def comparison (path : List String) (operator : String) (operand : Json) : Outcome Expr := do
  if path.isEmpty then fault (.operatorWithoutField operator)
  else
    match Fields.get? operator comparisons with
    | none => fault (.unknownOperator operator)
    | some comparison =>
        let literal ← Literal.ofJson operand
        return .binary comparison (Expr.path path) (.literal literal)

/-- The condition of a combination by `$or`: a branch that asks for nothing makes it hold. -/
def someOf (branches : List (Option Expr)) : Option Expr :=
  if branches.any Option.isNone then none else some (Expr.disjunction (branches.filterMap id))

/-- A negated condition; what asks for nothing always holds, and its negation never does. -/
def negation (condition : Option Expr) : Expr :=
  match condition with
  | some condition => .not condition
  | none => .literal (.bool false)

mutual

/-- The conditions of the entries of an object about the field at `path`, on nesting level `depth`.
-/
def conditions (path : List String) (depth : Nat) : List (String × Json) → Outcome (List Expr)
  | [] => .ok []
  | (name, value) :: rest => do
      let condition ← condition path depth (Key.ofName name) name value
      let others ← conditions path depth rest
      return condition.toList ++ others

def condition (path : List String) (depth : Nat) (key : Key) (name : String) :
    Json → Outcome (Option Expr)
  | .object members =>
      match key with
      | .allOf => fault (.notAnArray name)
      | .someOf => fault (.notAnArray name)
      | .negation => do
          requireDepth (depth + 1)
          let inner ← conditions path (depth + 1) members
          return some (negation (Expr.conjunction? inner))
      | .operator operator => return some (← comparison path operator (.object members))
      | .field field => do
          requireDepth (depth + 1)
          let inner ← conditions (path ++ [field]) (depth + 1) members
          return Expr.conjunction? inner
  | .array items =>
      match key with
      | .allOf => do
          let branches ← branches name path (depth + 1) items
          return Expr.conjunction? (branches.filterMap id)
      | .someOf => do
          let branches ← branches name path (depth + 1) items
          return someOf branches
      | .negation => fault .negationOfNonObject
      | .operator operator => return some (← comparison path operator (.array items))
      | .field field => do
          requireDepth (depth + 1)
          fault (.arrayForField (path ++ [field]))
  | scalar =>
      match key with
      | .allOf => fault (.notAnArray name)
      | .someOf => fault (.notAnArray name)
      | .negation => fault .negationOfNonObject
      | .operator operator => return some (← comparison path operator scalar)
      | .field field => do
          requireDepth (depth + 1)
          let literal ← Literal.ofJson scalar
          return some (Expr.equals (Expr.path (path ++ [field])) (.literal literal))

def branches (connective : String) (path : List String) (depth : Nat) :
    List Json → Outcome (List (Option Expr))
  | [] => .ok []
  | item :: rest => do
      let condition ← branch connective path depth item
      let others ← branches connective path depth rest
      return condition :: others

def branch (connective : String) (path : List String) (depth : Nat) : Json → Outcome (Option Expr)
  | .object members => do
      requireDepth depth
      let inner ← conditions path depth members
      return Expr.conjunction? inner
  | _ => fault (.itemNotAnObject connective)

end

def compile : Json → Outcome (Option Expr)
  | .object members => do
      let inner ← conditions [] 1 members
      return Expr.conjunction? inner
  | other => fault (.notAnObject other)

end Filter

end EntityCursor
