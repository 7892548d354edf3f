import EntityCursor.Proofs.Descriptor.References

/-!
Members that are not declared. A row is materialized as if they were not there, whether they are
members of the row itself or of an object that becomes a nested entity: taking them out at any depth
changes neither the entity nor the failure.
-/

namespace EntityCursor

namespace Registry

variable {registry : Registry} {descriptor : EntityDescriptor} {entity : String}

mutual

/-- A document for a kind without the members that are not declared, at any depth. -/
def declaredPart (registry : Registry) (kind : FieldKind) : Json → Json
  | .array items =>
      match kind with
      | .array element => .array (declaredItems registry element items)
      | _ => .array items
  | .object members =>
      match kind with
      | .entity name =>
          match registry.get? name with
          | some descriptor => .object (declaredMembers registry descriptor members)
          | none => .object members
      | _ => .object members
  | document => document

def declaredItems (registry : Registry) (element : FieldKind) : List Json → List Json
  | [] => []
  | item :: rest => declaredPart registry element item :: declaredItems registry element rest

def declaredMembers (registry : Registry) (descriptor : EntityDescriptor) :
    List (String × Json) → List (String × Json)
  | [] => []
  | (name, document) :: rest =>
      if name = idField then (name, document) :: declaredMembers registry descriptor rest
      else
        match descriptor.field? name with
        | some field =>
            (name, declaredPart registry field.kind document) ::
              declaredMembers registry descriptor rest
        | none => declaredMembers registry descriptor rest

end

theorem declaredMembers_eq_mapKnown (row : Row) :
    registry.declaredMembers descriptor row = Fields.mapKnown (fun name =>
      if name = idField then some id
      else (descriptor.field? name).map fun field => registry.declaredPart field.kind) row := by
  induction row with
  | nil => rfl
  | cons member rest inductionHypothesis =>
      obtain ⟨name, document⟩ := member
      rw [declaredMembers, Fields.mapKnown_cons, inductionHypothesis]
      by_cases identifies : name = idField
      · rw [if_pos identifies, if_pos identifies]
        rfl
      · rw [if_neg identifies, if_neg identifies]
        cases descriptor.field? name with
        | none => rfl
        | some field => rfl

@[simp]
theorem get?_declaredMembers_id (row : Row) :
    Fields.get? idField (registry.declaredMembers descriptor row) = Fields.get? idField row := by
  rw [declaredMembers_eq_mapKnown, Fields.get?_mapKnown, if_pos rfl, Option.bind_some,
    Option.map_id]
  rfl

theorem get?_declaredMembers {name : String} {field : FieldDescriptor} (different : name ≠ idField)
    (declared : descriptor.field? name = some field) (row : Row) :
    Fields.get? name (registry.declaredMembers descriptor row) =
      (Fields.get? name row).map (registry.declaredPart field.kind) := by
  rw [declaredMembers_eq_mapKnown, Fields.get?_mapKnown, if_neg different, declared]
  rfl

theorem assemble_congr {conversions others : List (String × Outcome Value)}
    {fields : List FieldDescriptor}
    (same : ∀ field ∈ fields, field.name ≠ idField →
      Fields.get? field.name conversions = Fields.get? field.name others) (target : Entity) :
    assemble conversions fields target = assemble others fields target := by
  induction fields generalizing target with
  | nil => rfl
  | cons field rest inductionHypothesis =>
      have later := inductionHypothesis fun other member =>
        same other (List.mem_cons_of_mem _ member)
      rw [assemble, assemble]
      by_cases identifies : field.name = idField
      · rw [if_pos identifies, if_pos identifies, later]
      · rw [if_neg identifies, if_neg identifies, same field List.mem_cons_self identifies]
        split
        · exact later target
        · exact later _
        · rfl

/-- The documents of which the undeclared members do not matter. -/
def Stripped (registry : Registry) (document : Json) : Prop :=
  ∀ place : Place, registry.convert place (registry.declaredPart place.kind document) =
    registry.convert place document

theorem assemble_declaredMembers {row : Row}
    (stripped : ∀ name document, Fields.get? name row = some document →
      registry.Stripped document) (target : Entity) :
    assemble (registry.convertMembers descriptor (registry.declaredMembers descriptor row))
        descriptor.fields (withId (registry.declaredMembers descriptor row) target) =
      assemble (registry.convertMembers descriptor row) descriptor.fields (withId row target) := by
  rw [withId_congr (get?_declaredMembers_id row)]
  apply assemble_congr
  intro field member different
  obtain ⟨found, _, declared⟩ := exists_field? member
  rw [get?_convertMembers declared, get?_convertMembers declared,
    get?_declaredMembers different declared]
  cases present : Fields.get? field.name row with
  | none => rfl
  | some document =>
      have same := stripped field.name document present (Place.ofField descriptor.name found)
      exact congrArg some same

theorem convertItems_declaredItems {place : Place} {element : FieldKind} {items : List Json}
    (stripped : ∀ item ∈ items, registry.Stripped item) (position : Nat) :
    registry.convertItems place element position (registry.declaredItems element items) =
      registry.convertItems place element position items := by
  induction items generalizing position with
  | nil => rfl
  | cons item rest inductionHypothesis =>
      have first := stripped item List.mem_cons_self (place.item position element)
      have later := inductionHypothesis
        (fun other member => stripped other (List.mem_cons_of_mem _ member)) (position + 1)
      have sameElement : (place.item position element).kind = element := rfl
      rw [sameElement] at first
      rw [declaredItems, convertItems, convertItems, first, later]

theorem stripped (document : Json) : registry.Stripped document := by
  induction document using Json.nestedInduction with
  | array items inductionHypothesis =>
      intro place
      cases kind : place.kind with
      | array element =>
          simp only [declaredPart, convert, kind,
            convertItems_declaredItems inductionHypothesis]
      | _ => rfl
  | object members inductionHypothesis =>
      intro place
      cases kind : place.kind with
      | entity name =>
          cases registered : registry.get? name with
          | none => simp only [declaredPart, registered]
          | some nested =>
              simp only [declaredPart, convert, kind, registered,
                assemble_declaredMembers inductionHypothesis]
      | _ => rfl
  | _ => exact fun _ => rfl

theorem materialize_declaredMembers (registered : registry.get? entity = some descriptor)
    (row : Row) :
    registry.materialize entity (registry.declaredMembers descriptor row) =
      registry.materialize entity row := by
  rw [materialize, materialize, registered]
  exact assemble_declaredMembers (fun _ document _ => stripped document) _

end Registry

end EntityCursor
