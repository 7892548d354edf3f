import EntityCursor.Descriptor.Basic
import EntityCursor.Json.Source
import EntityCursor.Json.Tagged

/-!
Descriptors as JSON. The kind of a field is named by `type`, with `element` for arrays and `entity`
for references; in a field descriptor these members stand beside those of the field itself. The two
flags of a field are false if they are left out.
-/

namespace EntityCursor

namespace FieldKind

def members : FieldKind → List (String × Json)
  | .string => [("type", .string "string")]
  | .number => [("type", .string "number")]
  | .boolean => [("type", .string "boolean")]
  | .date => [("type", .string "date")]
  | .bytes => [("type", .string "bytes")]
  | .array element => [("element", .object element.members), ("type", .string "array")]
  | .entity name => [("entity", .string name), ("type", .string "entity")]

inductive Form where
  | string
  | number
  | boolean
  | date
  | bytes
  | array
  | entity
deriving DecidableEq, Repr

namespace Form

def all : List Form := [.string, .number, .boolean, .date, .bytes, .array, .entity]

def name : Form → String
  | .string => "string"
  | .number => "number"
  | .boolean => "boolean"
  | .date => "date"
  | .bytes => "bytes"
  | .array => "array"
  | .entity => "entity"

def parts : Form → List String
  | .array => ["element"]
  | .entity => ["entity"]
  | _ => []

end Form

def ofParts? (form : Form) (parts : List (String × Json.Part FieldKind)) : Option FieldKind :=
  match form with
  | .string => some .string
  | .number => some .number
  | .boolean => some .boolean
  | .date => some .date
  | .bytes => some .bytes
  | .array => ((Fields.get? "element" parts).bind (·.2)).map .array
  | .entity =>
      match Fields.get? "entity" parts with
      | some (.string name, _) => some (.entity name)
      | _ => none

def union : TaggedUnion Form FieldKind :=
  { tag := "type", forms := Form.all, name := Form.name, parts := Form.parts, ofParts? := ofParts? }

def ofJson? (document : Json) : Option FieldKind :=
  union.ofJson? true document

/-- The kind that some of the members of an object describe. -/
def ofMembers? (members : List (String × Json)) : Option FieldKind :=
  ofJson? (.object members)

end FieldKind

namespace FieldDescriptor

def toJson (field : FieldDescriptor) : Json :=
  .ofMembers (field.kind.members ++ [("isOptional", .bool field.isOptional),
    ("isUnique", .bool field.isUnique), ("name", .string field.name)])

def flag? (name : String) (members : List (String × Json)) : Option Bool :=
  match Fields.get? name members with
  | none => some false
  | some (.bool flag) => some flag
  | some _ => none

def ofJson? : Json → Option FieldDescriptor
  | .object members => do
      match ← Fields.get? "name" members with
      | .string name =>
          return ⟨name, ← FieldKind.ofMembers? members, ← flag? "isOptional" members,
            ← flag? "isUnique" members⟩
      | _ => none
  | _ => none

end FieldDescriptor

namespace EntityDescriptor

def toJson (descriptor : EntityDescriptor) : Json :=
  .object [("fields", .array (descriptor.fields.map FieldDescriptor.toJson)),
    ("name", .string descriptor.name)]

def ofParts? (name fields : Option Json) : Option EntityDescriptor :=
  match name, fields with
  | some (.string name), some (.array fields) => do
      return ⟨name, ← fields.mapM FieldDescriptor.ofJson?⟩
  | _, _ => none

def ofJson? : Json → Option EntityDescriptor
  | .object members => ofParts? (Fields.get? "name" members) (Fields.get? "fields" members)
  | .array [name, fields] => ofParts? (some name) (some fields)
  | _ => none

/-- The descriptors in a document: all those of an array, or one. -/
def listOfJson? : Json → Option (List EntityDescriptor)
  | .array items => items.mapM ofJson?
  | document => (ofJson? document).map ([·])

end EntityDescriptor

end EntityCursor
