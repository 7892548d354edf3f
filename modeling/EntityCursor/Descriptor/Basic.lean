/-!
Entity descriptors: the name of an entity and its declared fields in order. A field has a kind;
kinds are built from five scalar kinds by arrays and by references to other entities.
-/

namespace EntityCursor

inductive FieldKind where
  | string
  | number
  | boolean
  | date
  | bytes
  | array (element : FieldKind)
  | entity (name : String)
deriving DecidableEq, Repr

namespace FieldKind

def name : FieldKind → String
  | .string => "string"
  | .number => "number"
  | .boolean => "boolean"
  | .date => "date"
  | .bytes => "bytes"
  | .array element => "array<" ++ element.name ++ ">"
  | .entity name => name

def reference? : FieldKind → Option String
  | .array element => element.reference?
  | .entity name => some name
  | _ => none

end FieldKind

structure FieldDescriptor where
  name : String
  kind : FieldKind
  /-- Whether null is a value of the field. -/
  isOptional : Bool := false
  isUnique : Bool := false
deriving DecidableEq, Repr

structure EntityDescriptor where
  name : String
  fields : List FieldDescriptor
deriving DecidableEq, Repr

/-- What can be wrong with a descriptor by itself. -/
inductive StructureFault where
  | namelessEntity
  | namelessField (entity : String)
  | repeatedField (entity field : String)
deriving DecidableEq, Repr

def StructureFault.message : StructureFault → String
  | .namelessEntity => "entity name must not be empty"
  | .namelessField entity => s!"entity '{entity}' has a field without a name"
  | .repeatedField entity field => s!"entity '{entity}' declares field '{field}' twice"

namespace EntityDescriptor

def field? (descriptor : EntityDescriptor) (name : String) : Option FieldDescriptor :=
  descriptor.fields.find? (·.name = name)

/-- The first fault among `fields`, where the names in `earlier` are taken. -/
def fieldFault? (entity : String) (earlier : List String) :
    List FieldDescriptor → Option StructureFault
  | [] => none
  | field :: rest =>
      if field.name = "" then some (.namelessField entity)
      else if field.name ∈ earlier then some (.repeatedField entity field.name)
      else fieldFault? entity (field.name :: earlier) rest

def fault? (descriptor : EntityDescriptor) : Option StructureFault :=
  if descriptor.name = "" then some .namelessEntity
  else fieldFault? descriptor.name [] descriptor.fields

end EntityDescriptor

end EntityCursor
