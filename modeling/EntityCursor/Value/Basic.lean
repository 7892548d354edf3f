import EntityCursor.Base64
import EntityCursor.Failure
import EntityCursor.Moment.Text

/-!
The values that cursors deliver. A full row becomes an entity, which has a name and typed fields; a
row that was narrowed to columns becomes a record. An entity field that is not set reads as nothing,
while a record has only the fields it was made with.
-/

namespace EntityCursor

inductive Value where
  | null
  | bool (flag : Bool)
  | number (real : Binary64)
  | string (text : String)
  | date (moment : Moment)
  | bytes (content : List UInt8)
  | array (items : List Value)
  | record (fields : List (String × Value))
  | entity (name : String) (fields : List (String × Value))
deriving Inhabited

abbrev Record := Fields Value

/-- A row that was given the types of its descriptor. -/
structure Entity where
  name : String
  fields : Record
deriving Inhabited

namespace Entity

def empty (name : String) : Entity := ⟨name, []⟩

def toValue (entity : Entity) : Value := .entity entity.name entity.fields

def get? (entity : Entity) (field : String) : Option Value :=
  Fields.get? field entity.fields

def set (entity : Entity) (field : String) (value : Value) : Entity :=
  { entity with fields := Fields.set field value entity.fields }

def id? (entity : Entity) : Option String :=
  match entity.get? "id" with
  | some (.string text) => some text
  | _ => none

/-- The record with exactly the given columns, null where the entity has no value. -/
def project (entity : Entity) (columns : List String) : Record :=
  Fields.ofList (columns.map fun column => (column, (entity.get? column).getD .null))

end Entity

namespace Value

def kind : Value → ValueKind
  | .null => .null
  | .bool _ => .boolean
  | .number _ => .number
  | .string _ => .string
  | .date _ => .date
  | .bytes _ => .bytes
  | .array _ => .array
  | .record _ => .record
  | .entity .. => .entity

def isNull : Value → Bool
  | .null => true
  | _ => false

def number? : Value → Option Binary64
  | .number real => some real
  | _ => none

def string? : Value → Option String
  | .string text => some text
  | _ => none

/-- The field of an entity, if it is set, or of a record, which must have it. -/
def field? (value : Value) (name : String) : Outcome (Option Value) :=
  match value with
  | .entity _ fields => .ok (Fields.get? name fields)
  | .record fields =>
      match Fields.get? name fields with
      | some entry => .ok (some entry)
      | none => .error (.fieldNotSelected name)
  | other => .error (.invalidOperation (.noFields name other.kind))

/-- The field of an entity or record, where a field that is not set reads as null. -/
def fieldOrNull (value : Value) (name : String) : Outcome Value :=
  match value.field? name with
  | .ok found => .ok (found.getD .null)
  | .error failure => .error failure

/-! Values and JSON. -/

mutual

/-- The value a document describes by itself: strings stay strings, and objects become records. -/
def ofJson : Json → Value
  | .null => .null
  | .bool flag => .bool flag
  | .integer value => .number (Binary64.ofInt value)
  | .double value => .number value
  | .string text => .string text
  | .array items => .array (ofJsonItems items)
  | .object members => .record (ofJsonMembers members)

def ofJsonItems : List Json → List Value
  | [] => []
  | item :: rest => ofJson item :: ofJsonItems rest

def ofJsonMembers : List (String × Json) → List (String × Value)
  | [] => []
  | (name, value) :: rest => (name, ofJson value) :: ofJsonMembers rest

end

/-- Numbers from here on are written as floating-point numbers even if they are whole. -/
def wholeNumberBound : Int := 9000000000000000

/-- A number that JSON has no form for is written as null. -/
def numberToJson (real : Binary64) : Json :=
  match real.toInt? with
  | some whole =>
      if -wholeNumberBound < whole ∧ whole < wholeNumberBound then .integer whole
      else .double real
  | none => if real.isFinite then .double real else .null

mutual

def toJson : Value → Json
  | .null => .null
  | .bool flag => .bool flag
  | .number real => numberToJson real
  | .string text => .string text
  | .date moment => .string moment.text
  | .bytes content => .string (String.ofList (Base64.encode content))
  | .array items => .array (itemsToJson items)
  | .record fields => .object (fieldsToJson fields)
  | .entity _ fields => .object (fieldsToJson fields)

def itemsToJson : List Value → List Json
  | [] => []
  | item :: rest => item.toJson :: itemsToJson rest

def fieldsToJson : List (String × Value) → List (String × Json)
  | [] => []
  | (name, value) :: rest => (name, value.toJson) :: fieldsToJson rest

end

end Value

end EntityCursor
