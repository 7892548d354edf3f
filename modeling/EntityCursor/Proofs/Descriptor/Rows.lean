import EntityCursor.Descriptor.Materialize
import EntityCursor.Proofs.Fields
import EntityCursor.Proofs.Json
import EntityCursor.Proofs.Outcome

/-!
Rows of plain fields. Where all declared fields are strings, numbers, booleans or arrays of these,
materializing a row changes nothing: every member becomes the value that its document describes by
itself. The element of a row is then the row itself, as an entity or, if it was narrowed to columns,
as a record.
-/

namespace EntityCursor

/-- Strings, numbers and booleans, and arrays of plain kinds. -/
def FieldKind.Plain : FieldKind → Prop
  | .string => True
  | .number => True
  | .boolean => True
  | .array element => element.Plain
  | .date => False
  | .bytes => False
  | .entity _ => False

namespace Value

theorem ofJsonMembers_eq_map (members : List (String × Json)) :
    ofJsonMembers members = members.map fun member => (member.1, ofJson member.2) := by
  induction members with
  | nil => rfl
  | cons member rest inductionHypothesis =>
      obtain ⟨name, value⟩ := member
      rw [ofJsonMembers, inductionHypothesis, List.map_cons]

@[simp]
theorem get?_ofJsonMembers (name : String) (members : List (String × Json)) :
    Fields.get? name (ofJsonMembers members) = (Fields.get? name members).map ofJson := by
  induction members with
  | nil => rfl
  | cons member rest inductionHypothesis =>
      obtain ⟨key, value⟩ := member
      by_cases same : key = name
      · simp [ofJsonMembers, Fields.get?, same]
      · simp [ofJsonMembers, Fields.get?, same, inductionHypothesis]

@[simp]
theorem names_ofJsonMembers (members : List (String × Json)) :
    Fields.names (ofJsonMembers members) = Fields.names members := by
  simp [ofJsonMembers_eq_map, Fields.names]

theorem ascending_ofJsonMembers {members : List (String × Json)}
    (ascending : Fields.Ascending members) : Fields.Ascending (ofJsonMembers members) := by
  rw [ofJsonMembers_eq_map, Fields.Ascending, List.pairwise_map]
  exact ascending

theorem hasNames_ofJsonMembers {listed : List String} {row : Row}
    (has : Fields.HasNames listed row) : Fields.HasNames listed (ofJsonMembers row) := by
  refine ⟨ascending_ofJsonMembers has.ascending, ?_⟩
  rw [names_ofJsonMembers]
  exact has.mem_names

theorem hasExactly_ofJsonMembers {listed : List String} {documentOf : String → Json} {row : Row}
    (exact : Fields.HasExactly listed documentOf row) :
    Fields.HasExactly listed (fun name => ofJson (documentOf name)) (ofJsonMembers row) := by
  refine ⟨ascending_ofJsonMembers exact.ascending, ?_⟩
  intro name
  rw [get?_ofJsonMembers, exact.get?_eq]
  by_cases member : name ∈ listed <;> simp [member]

end Value

@[simp]
theorem Entity.get?_set (entity : Entity) (field other : String) (value : Value) :
    (entity.set field value).get? other =
      if other = field then some value else entity.get? other :=
  Fields.get?_set field other value entity.fields

@[simp]
theorem Entity.get?_empty (entity name : String) : (Entity.empty entity).get? name = none := rfl

namespace Registry

variable {registry : Registry} {entity : String} {descriptor : EntityDescriptor}

theorem scalarOfJson?_of_plain {kind : FieldKind} (plain : kind.Plain) {document : Json}
    {value : Value} (scalar : scalarOfJson? kind document = some value) :
    value = Value.ofJson document := by
  cases kind with
  | date => exact plain.elim
  | bytes => exact plain.elim
  | entity name => exact plain.elim
  | array element => simp [scalarOfJson?] at scalar
  | string => cases document <;> simp_all [scalarOfJson?, Value.ofJson]
  | number => cases document <;> simp_all [scalarOfJson?, Json.toBinary64?, Value.ofJson]
  | boolean => cases document <;> simp_all [scalarOfJson?, Value.ofJson]

theorem scalarOfJson?_bytes {document : Json} {value : Value}
    (scalar : scalarOfJson? .bytes document = some value) : ∃ content, value = .bytes content := by
  cases document with
  | string text =>
      obtain ⟨content, _, same⟩ := Option.map_eq_some_iff.mp scalar
      exact ⟨content, same.symm⟩
  | array items =>
      obtain ⟨content, _, same⟩ := Option.map_eq_some_iff.mp scalar
      exact ⟨content, same.symm⟩
  | _ => cases scalar

theorem scalar_of_converted {place : Place} {document : Json} {value : Value}
    (converted : (match scalarOfJson? place.kind document with
      | some value => .ok value
      | none => .error (place.mismatch document) : Outcome Value) = .ok value) :
    scalarOfJson? place.kind document = some value := by
  split at converted
  · next found =>
      cases converted
      exact found
  · cases converted

theorem convert_of_scalar {place : Place} {document : Json} {value : Value}
    (scalar : scalarOfJson? place.kind document = some value) :
    registry.convert place document = .ok value := by
  cases document with
  | null => cases kind : place.kind <;> rw [kind] at scalar <;> cases scalar
  | object members => cases kind : place.kind <;> rw [kind] at scalar <;> cases scalar
  | array items =>
      rw [convert]
      split
      · next element kind =>
          rw [kind] at scalar
          cases scalar
      · rw [scalar]
  | _ => simp only [convert, scalar]

mutual

theorem convert_of_plain (registry : Registry) {place : Place} (plain : place.kind.Plain) :
    (document : Json) → {value : Value} → registry.convert place document = .ok value →
      value = Value.ofJson document
  | .null, value, converted => by
      by_cases optional : place.isOptional
      · simp [convert, optional] at converted
        rw [← converted, Value.ofJson]
      · simp [convert, optional] at converted
  | .bool _, _, converted => scalarOfJson?_of_plain plain (scalar_of_converted converted)
  | .integer _, _, converted => scalarOfJson?_of_plain plain (scalar_of_converted converted)
  | .double _, _, converted => scalarOfJson?_of_plain plain (scalar_of_converted converted)
  | .string _, _, converted => scalarOfJson?_of_plain plain (scalar_of_converted converted)
  | .object members, value, converted => by
      rw [convert] at converted
      split at converted
      · next kind =>
          rw [kind] at plain
          exact plain.elim
      · cases converted
  | .array items, value, converted => by
      rw [convert] at converted
      split at converted
      · next element kind =>
          have elementPlain : element.Plain := by
            rw [kind] at plain
            exact plain
          obtain ⟨values, all, rfl⟩ := Outcome.map_eq_ok.mp converted
          rw [Value.ofJson, convertItems_of_plain registry elementPlain items all]
      · exact scalarOfJson?_of_plain plain (scalar_of_converted converted)

theorem convertItems_of_plain (registry : Registry) {place : Place} {element : FieldKind}
    (plain : element.Plain) :
    (items : List Json) → {position : Nat} → {values : List Value} →
      registry.convertItems place element position items = .ok values →
      values = Value.ofJsonItems items
  | [], position, values, converted => by
      rw [convertItems] at converted
      cases converted
      rfl
  | item :: rest, position, values, converted => by
      rw [convertItems] at converted
      obtain ⟨value, first, converted⟩ := Outcome.bind_eq_ok.mp converted
      obtain ⟨others, later, converted⟩ := Outcome.bind_eq_ok.mp converted
      cases converted
      rw [Value.ofJsonItems, convert_of_plain registry plain item first,
        convertItems_of_plain registry plain rest later]

end

/-- Where an entity is expected, null is kept and an object is assembled; nothing else is
converted. -/
theorem null_or_object_of_convert {place : Place} {document : Json} {value : Value} {name : String}
    (kind : place.kind = .entity name) (converted : registry.convert place document = .ok value) :
    (document = .null ∧ value = .null) ∨
    ∃ members nested assembled, document = .object members ∧ registry.get? name = some nested ∧
      assemble (registry.convertMembers nested members) nested.fields
        (withId members (Entity.empty name)) = .ok assembled ∧
      value = assembled.toValue := by
  cases document with
  | object members =>
      rw [convert, kind] at converted
      cases registered : registry.get? name with
      | none =>
          simp only [registered] at converted
          cases converted
      | some nested =>
          simp only [registered] at converted
          obtain ⟨assembled, success, rfl⟩ := Outcome.map_eq_ok.mp converted
          exact .inr ⟨members, nested, assembled, rfl, rfl, success, rfl⟩
  | null =>
      rw [convert] at converted
      split at converted
      · cases converted
        exact .inl ⟨rfl, rfl⟩
      · cases converted
  | array items =>
      rw [convert, kind] at converted
      cases converted
  | _ =>
      rw [convert, kind] at converted
      · cases converted
      all_goals simp

/-! Assembling. -/

theorem assemble_cons {conversions : List (String × Outcome Value)} {field : FieldDescriptor}
    {rest : List FieldDescriptor} {target assembled : Entity}
    (success : assemble conversions (field :: rest) target = .ok assembled) :
    ((field.name = idField ∨ Fields.get? field.name conversions = none) ∧
      assemble conversions rest target = .ok assembled) ∨
    ∃ value, field.name ≠ idField ∧ Fields.get? field.name conversions = some (.ok value) ∧
      assemble conversions rest (target.set field.name value) = .ok assembled := by
  rw [assemble] at success
  split at success
  · next identifies => exact .inl ⟨.inl identifies, success⟩
  · next declared =>
      split at success
      · next missing => exact .inl ⟨.inr missing, success⟩
      · next value converted => exact .inr ⟨value, declared, converted, success⟩
      · cases success

theorem name_assemble {conversions : List (String × Outcome Value)}
    {fields : List FieldDescriptor} {target assembled : Entity}
    (success : assemble conversions fields target = .ok assembled) :
    assembled.name = target.name := by
  induction fields generalizing target with
  | nil =>
      cases success
      rfl
  | cons field rest inductionHypothesis =>
      rcases assemble_cons success with ⟨_, later⟩ | ⟨value, _, _, later⟩
      · exact inductionHypothesis later
      · have sameName := inductionHypothesis later
        exact sameName

theorem ascending_assemble {conversions : List (String × Outcome Value)}
    {fields : List FieldDescriptor} {target assembled : Entity}
    (success : assemble conversions fields target = .ok assembled)
    (ascending : Fields.Ascending target.fields) : Fields.Ascending assembled.fields := by
  induction fields generalizing target with
  | nil =>
      cases success
      exact ascending
  | cons field rest inductionHypothesis =>
      rcases assemble_cons success with ⟨_, later⟩ | ⟨value, _, _, later⟩
      · exact inductionHypothesis later ascending
      · exact inductionHypothesis later (Fields.ascending_set field.name value ascending)

/-- A field of an assembled entity is a conversion, or it is what it was before if there was nothing
to convert. -/
theorem get?_assemble {conversions : List (String × Outcome Value)}
    {fields : List FieldDescriptor} {target assembled : Entity}
    (success : assemble conversions fields target = .ok assembled) (name : String) :
    (name ≠ idField ∧ ∃ value, Fields.get? name conversions = some (.ok value) ∧
      assembled.get? name = some value) ∨
    ((name = idField ∨ name ∉ fields.map (·.name) ∨ Fields.get? name conversions = none) ∧
      assembled.get? name = target.get? name) := by
  induction fields generalizing target with
  | nil =>
      cases success
      exact .inr ⟨.inr (.inl (by simp)), rfl⟩
  | cons field rest inductionHypothesis =>
      -- A field that is set now may be set once more by the fields after it.
      rcases assemble_cons success with ⟨passed, later⟩ | ⟨value, declared, converted, later⟩
      · rcases inductionHypothesis later with set | ⟨reason, kept⟩
        · exact .inl set
        · refine .inr ⟨?_, kept⟩
          by_cases same : name = field.name
          · subst same
            exact passed.imp_right .inr
          · simpa [same] using reason
      · rcases inductionHypothesis later with set | ⟨reason, kept⟩
        · exact .inl set
        · by_cases same : name = field.name
          · subst same
            refine .inl ⟨declared, value, converted, ?_⟩
            rw [kept]
            exact Fields.get?_set_self field.name value target.fields
          · refine .inr ⟨by simpa [same] using reason, ?_⟩
            rw [kept]
            exact Fields.get?_set_of_ne same value target.fields

theorem convertMembers_eq_mapKnown (row : Row) :
    registry.convertMembers descriptor row = Fields.mapKnown (fun name =>
      (descriptor.field? name).map fun field =>
        registry.convert (Place.ofField descriptor.name field)) row := by
  induction row with
  | nil => rfl
  | cons member rest inductionHypothesis =>
      obtain ⟨name, document⟩ := member
      rw [convertMembers, Fields.mapKnown_cons, inductionHypothesis]
      cases descriptor.field? name with
      | none => rfl
      | some field => rfl

theorem get?_convertMembers {name : String} {field : FieldDescriptor}
    (declared : descriptor.field? name = some field) (row : Row) :
    Fields.get? name (registry.convertMembers descriptor row) =
      (Fields.get? name row).map (registry.convert (Place.ofField descriptor.name field)) := by
  rw [convertMembers_eq_mapKnown, Fields.get?_mapKnown, declared]
  rfl

theorem get?_convertMembers_of_undeclared {name : String}
    (undeclared : descriptor.field? name = none) (row : Row) :
    Fields.get? name (registry.convertMembers descriptor row) = none := by
  rw [convertMembers_eq_mapKnown, Fields.get?_mapKnown, undeclared]
  rfl

/-- A row of a table that can be read: its members stand in order, they are the identifier or
declared, and the row can be materialized. -/
structure Fits (registry : Registry) (entity : String) (descriptor : EntityDescriptor) (row : Row) :
    Prop where
  ascending : Fields.Ascending row
  known : ∀ name ∈ Fields.names row, name = idField ∨ (descriptor.field? name).isSome
  materializes : ∃ element, registry.materialize entity row = .ok element

@[simp]
theorem name_withId (row : Row) (target : Entity) : (withId row target).name = target.name := by
  rw [withId]
  split <;> rfl

theorem withId_congr {row other : Row} (same : Fields.get? idField row = Fields.get? idField other)
    (target : Entity) : withId row target = withId other target := by
  rw [withId, withId, same]

theorem ascending_withId (row : Row) {target : Entity}
    (ascending : Fields.Ascending target.fields) :
    Fields.Ascending (withId row target).fields := by
  rw [withId]
  split
  · exact Fields.ascending_set _ _ ascending
  · exact ascending

theorem get?_withId (row : Row) (target : Entity) (name : String) :
    (withId row target).get? name =
      if name = idField then ((Fields.get? idField row).map Value.ofJson).or (target.get? name)
      else target.get? name := by
  rw [withId]
  by_cases identifies : name = idField
  · subst identifies
    cases Fields.get? idField row with
    | none => rfl
    | some id => simp [Entity.get?, Entity.set]
  · rw [if_neg identifies]
    split
    · exact Fields.get?_set_of_ne identifies _ _
    · rfl

theorem mem_of_field? {name : String} {field : FieldDescriptor}
    (declared : descriptor.field? name = some field) :
    field ∈ descriptor.fields ∧ field.name = name := by
  rw [EntityDescriptor.field?] at declared
  exact ⟨List.mem_of_find?_eq_some declared, by simpa using List.find?_some declared⟩

/-- Looking up in a materialized entity finds the identifier as it is, the conversion of a declared
member, and nothing else. -/
theorem get?_of_assembled {row : Row} {assembled : Entity}
    (success : assemble (registry.convertMembers descriptor row) descriptor.fields
      (withId row (Entity.empty entity)) = .ok assembled) (name : String) :
    (name = idField ∧ assembled.get? name = (Fields.get? name row).map Value.ofJson) ∨
    (name ≠ idField ∧ ∃ field document value, descriptor.field? name = some field ∧
      Fields.get? name row = some document ∧
      registry.convert (Place.ofField descriptor.name field) document = .ok value ∧
      assembled.get? name = some value) ∨
    (name ≠ idField ∧ (descriptor.field? name = none ∨ Fields.get? name row = none) ∧
      assembled.get? name = none) := by
  rcases get?_assemble success name with ⟨different, value, converted, found⟩ | ⟨reason, kept⟩
  · cases declared : descriptor.field? name with
    | none =>
        rw [get?_convertMembers_of_undeclared declared] at converted
        cases converted
    | some field =>
        rw [get?_convertMembers declared] at converted
        obtain ⟨document, present, success⟩ := Option.map_eq_some_iff.mp converted
        exact .inr (.inl ⟨different, field, document, value, rfl, present, success, found⟩)
  · rw [get?_withId, Entity.get?_empty, Option.or_none] at kept
    by_cases identifies : name = idField
    · rw [if_pos identifies, ← identifies] at kept
      exact .inl ⟨identifies, kept⟩
    · rw [if_neg identifies] at kept
      refine .inr (.inr ⟨identifies, ?_, kept⟩)
      cases declared : descriptor.field? name with
      | none => exact .inl rfl
      | some field =>
          right
          rcases reason with same | undeclared | unconverted
          · exact absurd same identifies
          · obtain ⟨member, named⟩ := mem_of_field? declared
            exact absurd (List.mem_map.mpr ⟨field, member, named⟩) undeclared
          · rw [get?_convertMembers declared, Option.map_eq_none_iff] at unconverted
            exact unconverted

theorem get?_of_plain {row : Row} {assembled : Entity}
    (plain : ∀ field ∈ descriptor.fields, field.kind.Plain)
    (known : ∀ name ∈ Fields.names row, name = idField ∨ (descriptor.field? name).isSome)
    (success : assemble (registry.convertMembers descriptor row) descriptor.fields
      (withId row (Entity.empty entity)) = .ok assembled) (name : String) :
    assembled.get? name = (Fields.get? name row).map Value.ofJson := by
  rcases get?_of_assembled success name with
    ⟨_, found⟩ | ⟨_, field, document, value, declared, present, converted, found⟩ |
      ⟨different, reason, found⟩
  · exact found
  · have fieldPlain := plain field (mem_of_field? declared).1
    rw [found, present, Option.map_some, convert_of_plain registry fieldPlain document converted]
  · have missing : Fields.get? name row = none := by
      rcases reason with undeclared | missing
      · rw [Fields.get?_eq_none_iff_not_mem_names]
        intro member
        have declared := (known name member).resolve_left different
        rw [undeclared] at declared
        cases declared
      · exact missing
    rw [found, missing, Option.map_none]

theorem materialize_of_fits {row : Row} (registered : registry.get? entity = some descriptor)
    (plain : ∀ field ∈ descriptor.fields, field.kind.Plain)
    (fits : registry.Fits entity descriptor row) :
    registry.materialize entity row = .ok ⟨entity, Value.ofJsonMembers row⟩ := by
  obtain ⟨assembled, success⟩ := fits.materializes
  rw [success]
  rw [materialize, registered] at success
  have sameName : assembled.name = entity := by
    rw [name_assemble success, name_withId]
    rfl
  have ascending : Fields.Ascending assembled.fields :=
    ascending_assemble success (ascending_withId row Fields.ascending_nil)
  have sameFields : assembled.fields = Value.ofJsonMembers row := by
    apply Fields.eq_of_get?_eq ascending (Value.ascending_ofJsonMembers fits.ascending)
    intro name
    rw [Value.get?_ofJsonMembers]
    exact get?_of_plain plain fits.known success name
  obtain ⟨name, fields⟩ := assembled
  simp only at sameName sameFields
  rw [sameName, sameFields]

/-! Rows that were narrowed to columns. -/

/-- A column holds what the row has for it, unless it is listed more than once: it is taken out of
the row by the first mention. -/
theorem get?_columnsOf {row : Row} (ascending : Fields.Ascending row) (columns : List String)
    (record : Row) (name : String) :
    Fields.get? name (columnsOf columns row record) =
      if name ∈ columns then
        some (if columns.count name = 1 then (Fields.get? name row).getD .null else .null)
      else Fields.get? name record := by
  induction columns generalizing row record with
  | nil => simp [columnsOf]
  | cons column rest inductionHypothesis =>
      rw [columnsOf, inductionHypothesis (Fields.ascending_erase column ascending)]
      by_cases same : name = column
      · subst same
        by_cases later : name ∈ rest
        · have counted : 0 < rest.count name := List.count_pos_iff.mpr later
          simp [later, Nat.ne_of_gt counted, Fields.get?_erase_self ascending]
        · simp [later, List.count_eq_zero.mpr later]
      · rw [Fields.get?_erase_of_ne same, Fields.get?_set_of_ne same,
          List.count_cons_of_ne (Ne.symm same)]
        simp [same]

theorem hasNames_columnsOf (columns : List String) (row : Row) {record : Row}
    {listed : List String} (has : Fields.HasNames listed record) :
    Fields.HasNames (columns ++ listed) (columnsOf columns row record) := by
  induction columns generalizing row record listed with
  | nil => exact has
  | cons column rest inductionHypothesis =>
      refine (inductionHypothesis _ (has.set column _)).congr ?_
      simp [or_left_comm]

theorem ascending_columnsOf (columns : List String) (row : Row) :
    Fields.Ascending (columnsOf columns row []) :=
  (hasNames_columnsOf columns row .nil).ascending

/-- Rows as a query delivers them: rows of the table, or rows with exactly the columns that the
query narrows them to. -/
def Shaped (registry : Registry) (entity : String) (descriptor : EntityDescriptor)
    (columns : Option (List String)) (row : Row) : Prop :=
  match columns with
  | none => registry.Fits entity descriptor row
  | some columns =>
      columns.Nodup ∧ Fields.Ascending row ∧ ∀ name, name ∈ Fields.names row ↔ name ∈ columns

def plainElement (entity : String) (columns : Option (List String)) (row : Row) : Value :=
  match columns with
  | none => .entity entity (Value.ofJsonMembers row)
  | some _ => .record (Value.ofJsonMembers row)

theorem element_of_shaped {columns : Option (List String)} {row : Row}
    (registered : registry.get? entity = some descriptor)
    (plain : ∀ field ∈ descriptor.fields, field.kind.Plain)
    (shaped : registry.Shaped entity descriptor columns row) :
    registry.element entity row columns = .ok (plainElement entity columns row) := by
  cases columns with
  | none => simp [element, materialize_of_fits registered plain shaped, Except.map, plainElement,
      Entity.toValue]
  | some columns =>
      obtain ⟨distinct, ascending, covered⟩ := shaped
      have narrowed : columnsOf columns row [] = row := by
        apply Fields.eq_of_get?_eq (ascending_columnsOf columns row) ascending
        intro name
        rw [get?_columnsOf ascending]
        by_cases listed : name ∈ columns
        · have once : columns.count name = 1 := by rw [distinct.count, if_pos listed]
          obtain ⟨entry, found⟩ := Option.isSome_iff_exists.mp
            (Fields.get?_isSome_iff_mem_names.mpr ((covered name).mpr listed))
          simp [listed, once, found]
        · have missing := Fields.get?_eq_none_iff_not_mem_names.mpr
            (fun member => listed ((covered name).mp member))
          simp [listed, missing]
      rw [element, narrowed, plainElement]

end Registry

end EntityCursor
