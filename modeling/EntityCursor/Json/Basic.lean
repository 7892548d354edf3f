import EntityCursor.Binary64.Basic
import EntityCursor.Fields

/-!
JSON documents. A number is either a whole number or a floating-point number, and the two are told
apart by how they are written; the members of an object are kept under ascending names.
-/

namespace EntityCursor

inductive Json where
  | null
  | bool (flag : Bool)
  | integer (value : Int)
  | double (value : Binary64)
  | string (text : String)
  | array (items : List Json)
  | object (members : List (String × Json))
deriving Inhabited

/-- A table row as the remote engine keeps it. -/
abbrev Row := Fields Json

namespace Json

/-- The number a document stands for, rounded if it is a whole number that no floating-point number
equals. -/
def toBinary64? : Json → Option Binary64
  | .integer value => some (Binary64.ofInt value)
  | .double value => some value
  | _ => none

def isNull : Json → Bool
  | .null => true
  | _ => false

def ofStrings (texts : List String) : Json :=
  .array (texts.map .string)

def ofMembers (members : List (String × Json)) : Json :=
  .object (Fields.ofList members)

mutual

/-- Every object in the document has its members in ascending order. -/
def Ordered : Json → Prop
  | .array items => OrderedItems items
  | .object members => Fields.Ascending members ∧ OrderedMembers members
  | _ => True

def OrderedItems : List Json → Prop
  | [] => True
  | item :: rest => item.Ordered ∧ OrderedItems rest

def OrderedMembers : List (String × Json) → Prop
  | [] => True
  | (_, value) :: rest => value.Ordered ∧ OrderedMembers rest

end

end Json

end EntityCursor
