import EntityCursor.Proofs.Descriptor.Rows

/-!
Values that conform to descriptors. What a value of a kind is does not refer to documents: scalars
are of their own kind, the items of an array are of the kind of its elements, and an entity has no
field but its identifier and declared ones, which have values of their kinds or, if they are
optional, null. Whatever a document holds, a conversion that succeeds gives a value of the kind.
-/

namespace EntityCursor

namespace Registry

variable {registry : Registry} {entity : String} {descriptor : EntityDescriptor}

mutual

/-- The values of a kind, where null is none of them. -/
inductive HasKind (registry : Registry) : FieldKind → Value → Prop where
  | string (text : String) : HasKind registry .string (.string text)
  | number (real : Binary64) : HasKind registry .number (.number real)
  | boolean (flag : Bool) : HasKind registry .boolean (.bool flag)
  | date (moment : Moment) : HasKind registry .date (.date moment)
  | bytes (content : List UInt8) : HasKind registry .bytes (.bytes content)
  | array {element : FieldKind} {items : List Value} :
      (∀ item ∈ items, HasKind registry element item) →
        HasKind registry (.array element) (.array items)
  | entity {name : String} {descriptor : EntityDescriptor} {fields : List (String × Value)} :
      registry.get? name = some descriptor →
      (∀ field value, Fields.get? field fields = some value →
        HasField registry descriptor field value) →
        HasKind registry (.entity name) (.entity name fields)

/-- The values that a field of an entity may hold. An identifier may be anything. -/
inductive HasField (registry : Registry) : EntityDescriptor → String → Value → Prop where
  | identifier (descriptor : EntityDescriptor) (value : Value) :
      HasField registry descriptor idField value
  | unknown {descriptor : EntityDescriptor} {name : String} {field : FieldDescriptor} :
      descriptor.field? name = some field → field.isOptional = true →
        HasField registry descriptor name .null
  | known {descriptor : EntityDescriptor} {name : String} {field : FieldDescriptor}
      {value : Value} :
      descriptor.field? name = some field → HasKind registry field.kind value →
        HasField registry descriptor name value

end

theorem hasKind_of_scalar {kind : FieldKind} {document : Json} {value : Value}
    (scalar : scalarOfJson? kind document = some value) : registry.HasKind kind value := by
  cases kind with
  | array element => cases document <;> cases scalar
  | entity name => cases document <;> cases scalar
  | string =>
      cases document with
      | string text =>
          cases scalar
          exact .string text
      | _ => cases scalar
  | boolean =>
      cases document with
      | bool flag =>
          cases scalar
          exact .boolean flag
      | _ => cases scalar
  | number =>
      obtain ⟨real, _, rfl⟩ := Option.map_eq_some_iff.mp scalar
      exact .number real
  | date =>
      cases document with
      | string text =>
          obtain ⟨moment, _, rfl⟩ := Option.map_eq_some_iff.mp scalar
          exact .date moment
      | integer milliseconds =>
          obtain ⟨moment, _, rfl⟩ := Option.map_eq_some_iff.mp scalar
          exact .date moment
      | double milliseconds =>
          obtain ⟨moment, _, rfl⟩ := Option.map_eq_some_iff.mp scalar
          exact .date moment
      | _ => cases scalar
  | bytes =>
      obtain ⟨content, rfl⟩ := scalarOfJson?_bytes scalar
      exact .bytes content

/-- The documents of which every conversion that succeeds gives a value of its place. -/
def Conforms (registry : Registry) (document : Json) : Prop :=
  ∀ place value, registry.convert place document = .ok value →
    value = .null ∧ place.isOptional = true ∨ registry.HasKind place.kind value

theorem hasKind_of_assembled {members : List (String × Json)} {assembled : Entity}
    (registered : registry.get? entity = some descriptor)
    (conform : ∀ name document, Fields.get? name members = some document →
      registry.Conforms document)
    (success : assemble (registry.convertMembers descriptor members) descriptor.fields
      (withId members (Entity.empty entity)) = .ok assembled) :
    registry.HasKind (.entity entity) assembled.toValue := by
  have sameName : assembled.name = entity := by
    rw [name_assemble success, name_withId]
    rfl
  rw [Entity.toValue, sameName]
  refine .entity registered ?_
  intro name value held
  rcases get?_of_assembled success name with
    ⟨rfl, _⟩ | ⟨_, field, document, converted, declared, present, success, found⟩ | ⟨_, _, unset⟩
  · exact .identifier descriptor value
  · cases Option.some.inj (found.symm.trans held)
    rcases conform name document present _ _ success with ⟨rfl, optional⟩ | ofKind
    · exact .unknown declared optional
    · exact .known declared ofKind
  · rw [Entity.get?, held] at unset
    cases unset

theorem conforms_object {members : List (String × Json)}
    (conform : ∀ name document, Fields.get? name members = some document →
      registry.Conforms document) : registry.Conforms (.object members) := by
  intro place value converted
  right
  cases kind : place.kind with
  | entity name =>
      rcases null_or_object_of_convert kind converted with
        ⟨notNull, _⟩ | ⟨_, nested, assembled, same, registered, success, rfl⟩
      · cases notNull
      · cases same
        exact hasKind_of_assembled registered conform success
  | _ =>
      rw [convert, kind] at converted
      cases converted

theorem hasKind_of_convertItems {place : Place} {element : FieldKind} {position : Nat}
    {items : List Json} {values : List Value}
    (conform : ∀ document ∈ items, registry.Conforms document)
    (converted : registry.convertItems place element position items = .ok values) :
    ∀ value ∈ values, registry.HasKind element value := by
  induction items generalizing position values with
  | nil =>
      cases converted
      simp
  | cons item rest inductionHypothesis =>
      rw [convertItems] at converted
      obtain ⟨first, success, converted⟩ := Outcome.bind_eq_ok.mp converted
      obtain ⟨others, later, converted⟩ := Outcome.bind_eq_ok.mp converted
      cases converted
      intro value member
      rcases List.mem_cons.mp member with rfl | member
      · rcases conform item List.mem_cons_self _ _ success with ⟨_, optional⟩ | ofKind
        · cases optional
        · exact ofKind
      · exact inductionHypothesis (fun document present => conform document
          (List.mem_cons_of_mem _ present)) later value member

theorem conforms_array {items : List Json}
    (conform : ∀ document ∈ items, registry.Conforms document) :
    registry.Conforms (.array items) := by
  intro place value converted
  right
  rw [convert] at converted
  split at converted
  · next element kind =>
      rw [kind]
      obtain ⟨values, all, rfl⟩ := Outcome.map_eq_ok.mp converted
      exact .array (hasKind_of_convertItems conform all)
  · exact hasKind_of_scalar (scalar_of_converted converted)

theorem conforms_scalar {document : Json}
    (scalar : ∀ place value, registry.convert place document = .ok value →
      scalarOfJson? place.kind document = some value) : registry.Conforms document :=
  fun place value converted => .inr (hasKind_of_scalar (scalar place value converted))

theorem conforms (registry : Registry) (document : Json) : registry.Conforms document := by
  induction document using Json.nestedInduction with
  | object members inductionHypothesis => exact conforms_object inductionHypothesis
  | array items inductionHypothesis => exact conforms_array inductionHypothesis
  | null =>
      intro place value converted
      rw [convert] at converted
      split at converted
      · next optional =>
          cases converted
          exact .inl ⟨rfl, optional⟩
      · cases converted
  | bool flag => exact conforms_scalar fun _ _ => scalar_of_converted
  | integer number => exact conforms_scalar fun _ _ => scalar_of_converted
  | double number => exact conforms_scalar fun _ _ => scalar_of_converted
  | string text => exact conforms_scalar fun _ _ => scalar_of_converted

theorem hasKind_of_materialize {row : Row} {assembled : Entity}
    (materialized : registry.materialize entity row = .ok assembled) :
    registry.HasKind (.entity entity) assembled.toValue := by
  rw [materialize] at materialized
  split at materialized
  · cases materialized
  · next descriptor registered =>
      exact hasKind_of_assembled registered (fun _ document _ => conforms registry document)
        materialized

/-- The elements of a chain over an entity: records of the columns, where they are known, or
entities that conform to their descriptor. -/
def IsElement (registry : Registry) (entity : String) (columns : Option (List String))
    (element : Value) : Prop :=
  match columns with
  | none => registry.HasKind (.entity entity) element
  | some columns => ∃ fields, element = .record fields ∧ Fields.HasNames columns fields

theorem isElement_of_element {row : Row} {columns : Option (List String)} {value : Value}
    (read : registry.element entity row columns = .ok value) :
    registry.IsElement entity columns value := by
  cases columns with
  | some columns =>
      cases read
      have narrowed : Fields.HasNames columns (columnsOf columns row []) :=
        (hasNames_columnsOf columns row .nil).congr (by simp)
      exact ⟨_, rfl, Value.hasNames_ofJsonMembers narrowed⟩
  | none =>
      obtain ⟨assembled, materialized, rfl⟩ := Outcome.map_eq_ok.mp read
      exact hasKind_of_materialize materialized

end Registry

end EntityCursor
