import EntityCursor.Descriptor.Registry
import EntityCursor.Value.Basic

/-!
From rows to entities. Every declared field of a row is converted to its kind: scalars must have the
form of their kind, a date may be a text or a number of milliseconds, bytes may be an array of small
numbers or base64 text, arrays are converted item by item and nested entities field by field, and
null is kept where the field is optional. The field `id` is taken over as it is, and members that
are not declared are passed over.

A row can be read into a new entity or merged into an old one, where a nested entity that is already
there takes up the new row instead of being replaced.
-/

namespace EntityCursor

def idField : String := "id"

/-- A place of an entity where a value is expected: the names of the entity and of the field, the
kind and whether null is a value. -/
structure Place where
  entity : String
  field : String
  kind : FieldKind
  isOptional : Bool

namespace Place

def ofField (entity : String) (field : FieldDescriptor) : Place :=
  ⟨entity, field.name, field.kind, field.isOptional⟩

/-- The place of an item of an array, where null is no value. -/
def item (place : Place) (position : Nat) (kind : FieldKind) : Place :=
  ⟨place.entity, place.field ++ "[" ++ toString position ++ "]", kind, false⟩

def mismatch (place : Place) (actual : Json) : QueryError :=
  .typeMismatch place.entity place.field place.kind actual

end Place

def byteOfJson? : Json → Option UInt8
  | .integer value => if 0 ≤ value ∧ value < 256 then some (UInt8.ofNat value.toNat) else none
  | _ => none

def scalarOfJson? (kind : FieldKind) (document : Json) : Option Value :=
  match kind, document with
  | .string, .string text => some (.string text)
  | .number, document => document.toBinary64?.map .number
  | .boolean, .bool flag => some (.bool flag)
  | .date, .string text => (Moment.read? text).map .date
  | .date, document => (document.toBinary64?.bind Moment.ofMilliseconds?).map .date
  | .bytes, .string text => (Base64.decode? text.toList).map .bytes
  | .bytes, .array items => (items.mapM byteOfJson?).map .bytes
  | _, _ => none

namespace Registry

def unregistered {Result : Type} (entity : String) : Outcome Result :=
  .error (.defect (.unregisteredNested entity))

/-- Sets the declared fields of an entity in order to the conversions that belong to them, up to the
first one that fails. -/
def assemble (conversions : List (String × Outcome Value)) :
    List FieldDescriptor → Entity → Outcome Entity
  | [], target => .ok target
  | field :: rest, target =>
      if field.name = idField then assemble conversions rest target
      else
        match Fields.get? field.name conversions with
        | none => assemble conversions rest target
        | some (.ok value) => assemble conversions rest (target.set field.name value)
        | some (.error failure) => .error failure

def withId (row : Row) (target : Entity) : Entity :=
  match Fields.get? idField row with
  | some id => target.set idField (Value.ofJson id)
  | none => target

mutual

def convert (registry : Registry) (place : Place) : Json → Outcome Value
  | .null => if place.isOptional then .ok .null else .error (place.mismatch .null)
  | .array items =>
      match place.kind with
      | .array element => (convertItems registry place element 0 items).map .array
      | kind =>
          match scalarOfJson? kind (.array items) with
          | some value => .ok value
          | none => .error (place.mismatch (.array items))
  | .object members =>
      match place.kind with
      | .entity name =>
          match registry.get? name with
          | none => unregistered name
          | some descriptor =>
              (assemble (convertMembers registry descriptor members) descriptor.fields
                (withId members (Entity.empty name))).map Entity.toValue
      | _ => .error (place.mismatch (.object members))
  | scalar =>
      match scalarOfJson? place.kind scalar with
      | some value => .ok value
      | none => .error (place.mismatch scalar)

def convertItems (registry : Registry) (place : Place) (element : FieldKind) (position : Nat) :
    List Json → Outcome (List Value)
  | [] => .ok []
  | item :: rest => do
      let value ← convert registry (place.item position element) item
      let others ← convertItems registry place element (position + 1) rest
      return value :: others

def convertMembers (registry : Registry) (descriptor : EntityDescriptor) :
    List (String × Json) → List (String × Outcome Value)
  | [] => []
  | (name, value) :: rest =>
      match descriptor.field? name with
      | some field =>
          (name, convert registry (Place.ofField descriptor.name field) value) ::
            convertMembers registry descriptor rest
      | none => convertMembers registry descriptor rest

end

def materialize (registry : Registry) (entity : String) (row : Row) : Outcome Entity :=
  match registry.get? entity with
  | none => .error (.unknownEntity entity)
  | some descriptor =>
      assemble (registry.convertMembers descriptor row) descriptor.fields
        (withId row (Entity.empty entity))

/-! Merging. What was set before a failure stays set, so the entity is part of either result. -/

/-- How a member changes the value of its field. -/
abbrev Update := Option Value → Outcome Unit × Option Value

def applyUpdates (updates : List (String × Update)) :
    List FieldDescriptor → Entity → Outcome Unit × Entity
  | [], target => (.ok (), target)
  | field :: rest, target =>
      if field.name = idField then applyUpdates updates rest target
      else
        match Fields.get? field.name updates with
        | none => applyUpdates updates rest target
        | some update =>
            let (outcome, value) := update (target.get? field.name)
            let target :=
              match value with
              | some value => target.set field.name value
              | none => target
            match outcome with
            | .ok () => applyUpdates updates rest target
            | .error failure => (.error failure, target)

def replacing (conversion : Outcome Value) : Update := fun old =>
  match conversion with
  | .ok value => (.ok (), some value)
  | .error failure => (.error failure, old)

mutual

/-- How a document at a place changes what is there: an object is merged into a nested entity, and
everything else replaces. -/
def update (registry : Registry) (place : Place) : Json → Update
  | .object members =>
      match place.kind with
      | .entity name => fun old =>
          match old with
          | some (.entity oldName fields) =>
              match registry.get? name with
              | none => (unregistered name, old)
              | some descriptor =>
                  let (outcome, merged) :=
                    applyUpdates (updateMembers registry descriptor members) descriptor.fields
                      (withId members ⟨oldName, fields⟩)
                  (outcome, some merged.toValue)
          | _ => replacing (convert registry place (.object members)) old
      | _ => replacing (convert registry place (.object members))
  | document => replacing (convert registry place document)

def updateMembers (registry : Registry) (descriptor : EntityDescriptor) :
    List (String × Json) → List (String × Update)
  | [] => []
  | (name, value) :: rest =>
      match descriptor.field? name with
      | some field =>
          (name, update registry (Place.ofField descriptor.name field) value) ::
            updateMembers registry descriptor rest
      | none => updateMembers registry descriptor rest

end

def merge (registry : Registry) (row : Row) (target : Entity) : Outcome Unit × Entity :=
  match registry.get? target.name with
  | none => (.error (.unknownEntity target.name), target)
  | some descriptor =>
      applyUpdates (registry.updateMembers descriptor row) descriptor.fields (withId row target)

/-! Output. -/

/-- The columns of a row. A column is taken out of the row as it is read, so that a repeated column
is null. -/
def columnsOf : (columns : List String) → (row record : Row) → Row
  | [], _, record => record
  | column :: rest, row, record =>
      columnsOf rest (Fields.erase column row)
        (Fields.set column ((Fields.get? column row).getD .null) record)

/-- The element that a row becomes: a record of the columns it was narrowed to, or an entity. -/
def element (registry : Registry) (entity : String) (row : Row) :
    (columns : Option (List String)) → Outcome Value
  | some columns => .ok (.record (Value.ofJsonMembers (columnsOf columns row [])))
  | none => (registry.materialize entity row).map Entity.toValue

end Registry

end EntityCursor
