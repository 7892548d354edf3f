import EntityCursor.Proofs.Base64
import EntityCursor.Proofs.Descriptor.Conformity
import EntityCursor.Proofs.Descriptor.References
import EntityCursor.Proofs.Moment.Text
import EntityCursor.Proofs.Value.Json

/-!
Rows that entities are written as. An entity that was materialized is written as a row that
materializes to the same entity: what the conversion of a document leaves, a document of the value
is converted to again. The form may change on the way. Numbers of milliseconds are written as
texts, arrays of bytes as texts too, and undeclared members are gone.
-/

namespace EntityCursor

/-- The moment is written with nothing left out: it has whole milliseconds, and its year has four
digits. -/
structure Moment.Printable (moment : Moment) : Prop where
  whole_milliseconds : moment.nanos % 1000000 = 0
  year_nonneg : 0 ≤ moment.toReading.date.year
  year_le : moment.toReading.date.year ≤ 9999

theorem Moment.read?_text_of_printable {moment : Moment} (proper : moment.Proper)
    (printable : moment.Printable) : Moment.read? moment.text = some moment := by
  have whole : moment.cutToMilliseconds = moment := by
    have nothingLeft := printable.whole_milliseconds
    rw [cutToMilliseconds, Nat.div_mul_cancel (Nat.dvd_of_mod_eq_zero nothingLeft)]
  rw [read?_text proper ⟨printable.year_nonneg, printable.year_le⟩, whole]

namespace Value

variable {holds : Moment → Prop}

mutual

/-- Every moment in the value, at any depth, is as required. -/
def EveryDate (holds : Moment → Prop) : Value → Prop
  | .date moment => holds moment
  | .array items => EveryDateOfItems holds items
  | .record fields => EveryDateOfFields holds fields
  | .entity _ fields => EveryDateOfFields holds fields
  | .null => True
  | .bool _ => True
  | .number _ => True
  | .string _ => True
  | .bytes _ => True

def EveryDateOfItems (holds : Moment → Prop) : List Value → Prop
  | [] => True
  | item :: rest => item.EveryDate holds ∧ EveryDateOfItems holds rest

def EveryDateOfFields (holds : Moment → Prop) : List (String × Value) → Prop
  | [] => True
  | (_, value) :: rest => value.EveryDate holds ∧ EveryDateOfFields holds rest

end

theorem everyDate_of_get? {fields : List (String × Value)} {name : String} {value : Value}
    (every : EveryDateOfFields holds fields) (found : Fields.get? name fields = some value) :
    value.EveryDate holds := by
  induction fields with
  | nil => cases found
  | cons field rest inductionHypothesis =>
      obtain ⟨key, first⟩ := field
      rw [Fields.get?] at found
      split at found
      · cases found
        exact every.1
      · exact inductionHypothesis every.2 found

end Value

namespace Registry

open Value (Alike EveryDateOfItems EveryDateOfFields fieldsToJson itemsToJson sameItems)

variable {registry : Registry} {descriptor : EntityDescriptor} {entity : String}

/-- The documents of which every conversion that succeeds gives a value that can be written and
converted at the same place again, which gives the same value. -/
def Rereads (registry : Registry) (document : Json) : Prop :=
  ∀ place value, registry.convert place document = .ok value →
    value.EveryDate Moment.Printable →
    ∃ again, registry.convert place value.toJson = .ok again ∧ again.same value = true

/-! Scalars. -/

theorem reread_date {place : Place} {moment : Moment} (kind : place.kind = .date)
    (proper : moment.Proper) (printable : moment.Printable) :
    registry.convert place (Value.date moment).toJson = .ok (.date moment) := by
  apply convert_of_scalar
  rw [kind, Value.toJson, scalarOfJson?, Moment.read?_text_of_printable proper printable,
    Option.map_some]

theorem reread_bytes {place : Place} (kind : place.kind = .bytes) (content : List UInt8) :
    registry.convert place (Value.bytes content).toJson = .ok (.bytes content) := by
  apply convert_of_scalar
  rw [kind, Value.toJson, scalarOfJson?, String.toList_ofList, Base64.decode?_encode,
    Option.map_some]

theorem reread_number {place : Place} {real : Binary64} (kind : place.kind = .number)
    (finite : real.isFinite) :
    ∃ again, registry.convert place (Value.number real).toJson = .ok again ∧
      again.same (.number real) = true := by
  rcases Value.numberToJson_cases finite with ⟨whole, written, same⟩ | written
  · refine ⟨.number (Binary64.ofInt whole), ?_, same⟩
    apply convert_of_scalar
    rw [kind, Value.toJson, written]
    rfl
  · refine ⟨.number real, ?_, Binary64.same_self finite⟩
    apply convert_of_scalar
    rw [kind, Value.toJson, written]
    rfl

theorem proper_of_scalar {document : Json} {moment : Moment}
    (scalar : scalarOfJson? .date document = some (.date moment)) : moment.Proper := by
  cases document with
  | string text =>
      obtain ⟨read, success, same⟩ := Option.map_eq_some_iff.mp scalar
      cases same
      exact Moment.proper_read? success
  | integer value =>
      obtain ⟨read, success, same⟩ := Option.map_eq_some_iff.mp scalar
      cases same
      exact Moment.proper_ofMilliseconds? success
  | double value =>
      obtain ⟨read, success, same⟩ := Option.map_eq_some_iff.mp scalar
      cases same
      exact Moment.proper_ofMilliseconds? success
  | _ => cases scalar

theorem reread_scalar {place : Place} {document : Json} {value : Value}
    (bounded : document.Bounded) (scalar : scalarOfJson? place.kind document = some value)
    (dates : value.EveryDate Moment.Printable) :
    ∃ again, registry.convert place value.toJson = .ok again ∧ again.same value = true := by
  have ofKind : registry.HasKind place.kind value := hasKind_of_scalar scalar
  cases kind : place.kind with
  | array element => cases document <;> rw [kind] at scalar <;> cases scalar
  | entity name => cases document <;> rw [kind] at scalar <;> cases scalar
  | string =>
      rw [kind] at ofKind
      cases ofKind with
      | string text =>
          refine ⟨.string text, convert_of_scalar ?_, by simp [Value.same]⟩
          rw [kind, Value.toJson, scalarOfJson?]
  | boolean =>
      rw [kind] at ofKind
      cases ofKind with
      | boolean flag =>
          refine ⟨.bool flag, convert_of_scalar ?_, by simp [Value.same]⟩
          rw [kind, Value.toJson, scalarOfJson?]
  | number =>
      rw [kind] at scalar
      obtain ⟨real, isNumber, rfl⟩ := Option.map_eq_some_iff.mp scalar
      exact reread_number kind (Json.isFinite_toBinary64? bounded isNumber)
  | date =>
      rw [kind] at ofKind scalar
      cases ofKind with
      | date moment =>
          refine ⟨.date moment, ?_, by simp [Value.same]⟩
          exact reread_date kind (proper_of_scalar scalar) dates
  | bytes =>
      rw [kind] at ofKind
      cases ofKind with
      | bytes content => exact ⟨.bytes content, reread_bytes kind content, by simp [Value.same]⟩

theorem rereads_scalar {document : Json} (bounded : document.Bounded)
    (isScalar : ∀ place value, registry.convert place document = .ok value →
      scalarOfJson? place.kind document = some value) : registry.Rereads document :=
  fun place value converted dates => reread_scalar bounded (isScalar place value converted) dates

/-! Arrays. -/

theorem reread_items {place : Place} {element : FieldKind} {items : List Json} {position : Nat}
    {values : List Value} (rereads : ∀ item ∈ items, registry.Rereads item)
    (converted : registry.convertItems place element position items = .ok values)
    (dates : EveryDateOfItems Moment.Printable values) :
    ∃ again, registry.convertItems place element position (itemsToJson values) = .ok again ∧
      sameItems again values = true := by
  induction items generalizing position values with
  | nil =>
      cases converted
      exact ⟨[], rfl, rfl⟩
  | cons item rest inductionHypothesis =>
      rw [convertItems] at converted
      obtain ⟨first, success, converted⟩ := Outcome.bind_eq_ok.mp converted
      obtain ⟨others, later, converted⟩ := Outcome.bind_eq_ok.mp converted
      cases converted
      obtain ⟨firstAgain, firstRead, firstSame⟩ :=
        rereads item List.mem_cons_self _ _ success dates.1
      obtain ⟨othersAgain, othersRead, othersSame⟩ := inductionHypothesis
        (fun other member => rereads other (List.mem_cons_of_mem _ member)) later dates.2
      refine ⟨firstAgain :: othersAgain, ?_, ?_⟩
      · rw [itemsToJson, convertItems, firstRead, othersRead]
        rfl
      · rw [sameItems, firstSame, othersSame]
        rfl

theorem rereads_array {items : List Json} (bounded : (Json.array items).Bounded)
    (rereads : ∀ item ∈ items, registry.Rereads item) : registry.Rereads (.array items) := by
  intro place value converted dates
  rw [convert] at converted
  split at converted
  · next element kind =>
      obtain ⟨values, all, rfl⟩ := Outcome.map_eq_ok.mp converted
      obtain ⟨again, read, same⟩ := reread_items rereads all dates
      refine ⟨.array again, ?_, ?_⟩
      · simp only [Value.toJson, convert, kind, read, Except.map]
      · rw [Value.same, same]
  · exact reread_scalar bounded (scalar_of_converted converted) dates

/-! Entities. -/

section Assembled

variable {row : Row} {assembled : Entity}
  (rereads : ∀ name document, Fields.get? name row = some document → registry.Rereads document)
  (success : assemble (registry.convertMembers descriptor row) descriptor.fields
    (withId row (Entity.empty entity)) = .ok assembled)
  (dates : EveryDateOfFields Moment.Printable assembled.fields)

include rereads success dates

/-- The fields of an assembled entity that are not the identifier can be written and converted
again. -/
theorem reread_field {name : String} (different : name ≠ idField) {value : Value}
    (held : assembled.get? name = some value) :
    ∃ field again, descriptor.field? name = some field ∧
      registry.convert (Place.ofField descriptor.name field) value.toJson = .ok again ∧
      again.same value = true := by
  rcases get?_of_assembled success name with
    ⟨same, _⟩ | ⟨_, field, document, converted, declared, present, success, found⟩ | ⟨_, _, unset⟩
  · exact absurd same different
  · cases Option.some.inj (found.symm.trans held)
    obtain ⟨again, read, same⟩ :=
      rereads name document present _ _ success (Value.everyDate_of_get? dates held)
    exact ⟨field, again, declared, read, same⟩
  · rw [unset] at held
    cases held

theorem reassembles (target : Entity) :
    ∃ again, assemble (registry.convertMembers descriptor (fieldsToJson assembled.fields))
      descriptor.fields target = .ok again := by
  apply exists_assembled
  intro field member different conversion found
  obtain ⟨_, _, declared⟩ := exists_field? member
  rw [get?_convertMembers declared, Value.get?_fieldsToJson] at found
  obtain ⟨_, present, rfl⟩ := Option.map_eq_some_iff.mp found
  obtain ⟨value, held, rfl⟩ := Option.map_eq_some_iff.mp present
  obtain ⟨field, again, sameDeclared, read, _⟩ :=
    reread_field rereads success dates different held
  cases declared.symm.trans sameDeclared
  exact ⟨again, read⟩

/-- The identifier is read again as it is, and every other field as its kind. -/
theorem alike_of_reassembled (bounded : Json.BoundedMembers row) {again : Entity}
    (successAgain : assemble (registry.convertMembers descriptor (fieldsToJson assembled.fields))
      descriptor.fields (withId (fieldsToJson assembled.fields) (Entity.empty entity)) = .ok again)
    (name : String) : Alike (again.get? name) (assembled.get? name) := by
  have written : Fields.get? name (fieldsToJson assembled.fields) =
      (assembled.get? name).map Value.toJson := Value.get?_fieldsToJson name assembled.fields
  rcases get?_of_assembled successAgain name with
    ⟨identifies, found⟩ | ⟨different, field, document, value, declared, present, read, found⟩ |
      ⟨different, reason, unset⟩
  · have taken : assembled.get? name = (Fields.get? name row).map Value.ofJson := by
      rcases get?_of_assembled success name with ⟨_, taken⟩ | ⟨different, _⟩ | ⟨different, _⟩
      · exact taken
      · exact absurd identifies different
      · exact absurd identifies different
    rw [found, written, taken]
    cases present : Fields.get? name row with
    | none => exact .none
    | some document =>
        exact .some (Value.same_ofJson_toJson _
          (Value.jsonShaped_ofJson document (Json.bounded_of_get? bounded present)))
  · rw [written] at present
    obtain ⟨old, held, rfl⟩ := Option.map_eq_some_iff.mp present
    obtain ⟨sameField, again, sameDeclared, readAgain, same⟩ :=
      reread_field rereads success dates different held
    cases declared.symm.trans sameDeclared
    cases read.symm.trans readAgain
    rw [found, held]
    exact .some same
  · rw [unset]
    cases held : assembled.get? name with
    | none => exact .none
    | some value =>
        obtain ⟨field, _, declared, _⟩ := reread_field rereads success dates different held
        rcases reason with undeclared | missing
        · rw [undeclared] at declared
          cases declared
        · rw [written, held] at missing
          cases missing

theorem reread_assembled (bounded : Json.BoundedMembers row) :
    ∃ again, assemble (registry.convertMembers descriptor (fieldsToJson assembled.fields))
        descriptor.fields (withId (fieldsToJson assembled.fields) (Entity.empty entity)) =
        .ok again ∧
      again.toValue.same assembled.toValue = true := by
  obtain ⟨again, successAgain⟩ := reassembles rereads success dates
    (withId (fieldsToJson assembled.fields) (Entity.empty entity))
  refine ⟨again, successAgain, ?_⟩
  have names : again.name = assembled.name := by
    rw [name_assemble successAgain, name_assemble success, name_withId, name_withId]
  have fields : Value.sameFields again.fields assembled.fields = true :=
    Value.sameFields_of_alike
      (ascending_assemble successAgain (ascending_withId _ Fields.ascending_nil))
      (ascending_assemble success (ascending_withId _ Fields.ascending_nil))
      (alike_of_reassembled rereads success dates bounded successAgain)
  rw [Entity.toValue, Entity.toValue, Value.same, names, fields]
  simp

end Assembled

theorem rereads_object {members : List (String × Json)} (bounded : (Json.object members).Bounded)
    (rereads : ∀ name document, Fields.get? name members = some document →
      registry.Rereads document) : registry.Rereads (.object members) := by
  intro place value converted dates
  cases kind : place.kind with
  | entity name =>
      rcases null_or_object_of_convert kind converted with
        ⟨notNull, _⟩ | ⟨_, nested, assembled, same, registered, success, rfl⟩
      · cases notNull
      · cases same
        obtain ⟨again, successAgain, sameValue⟩ := reread_assembled rereads success dates bounded
        refine ⟨again.toValue, ?_, sameValue⟩
        simp only [Entity.toValue, Value.toJson, convert, kind, registered, successAgain,
          Except.map]
  | _ =>
      rw [convert, kind] at converted
      cases converted

theorem rereads_of_bounded (document : Json) (bounded : document.Bounded) :
    registry.Rereads document := by
  induction document using Json.nestedInduction with
  | array items inductionHypothesis =>
      exact rereads_array bounded fun item member =>
        inductionHypothesis item member (Json.bounded_of_mem bounded member)
  | object members inductionHypothesis =>
      exact rereads_object bounded fun name document found =>
        inductionHypothesis name document found (Json.bounded_of_get? bounded found)
  | null =>
      intro place value converted _
      have same : value = .null := by
        rw [convert] at converted
        split at converted
        · exact (Except.ok.inj converted).symm
        · cases converted
      subst same
      exact ⟨.null, converted, rfl⟩
  | bool flag => exact rereads_scalar bounded fun _ _ => scalar_of_converted
  | integer number => exact rereads_scalar bounded fun _ _ => scalar_of_converted
  | double number => exact rereads_scalar bounded fun _ _ => scalar_of_converted
  | string text => exact rereads_scalar bounded fun _ _ => scalar_of_converted

/-- Reading a materialized entity again is the identity: the entity is written as a row, and the row
materializes to the same entity, if nothing of the moments in it is left out in writing. -/
theorem reread_materialized {row : Row} {assembled : Entity} (bounded : (Json.object row).Bounded)
    (materialized : registry.materialize entity row = .ok assembled)
    (dates : assembled.toValue.EveryDate Moment.Printable) :
    ∃ written again, assembled.toValue.toJson = .object written ∧
      registry.materialize entity written = .ok again ∧
      again.toValue.same assembled.toValue = true := by
  refine ⟨fieldsToJson assembled.fields, ?_⟩
  rw [materialize] at materialized ⊢
  cases registered : registry.get? entity with
  | none =>
      rw [registered] at materialized
      cases materialized
  | some descriptor =>
      rw [registered] at materialized
      obtain ⟨again, successAgain, same⟩ := reread_assembled
        (fun _ document found => rereads_of_bounded document (Json.bounded_of_get? bounded found))
        materialized dates bounded
      exact ⟨again, rfl, successAgain, same⟩

def harbour : EntityDescriptor :=
  ⟨"Harbour", [{ name := "opened", kind := .date }, { name := "seal", kind := .bytes }]⟩

def crossing : EntityDescriptor :=
  ⟨"Crossing", [{ name := "departed", kind := .date, isOptional := true },
    { name := "fares", kind := .array .number }, { name := "to", kind := .entity "Harbour" }]⟩

def crossings : Registry := ⟨[("Crossing", crossing), ("Harbour", harbour)]⟩

def crossingRow : Row :=
  [("departed", .null), ("fares", .array [.integer 12, .integer (-9007199254740993)]),
    ("id", .integer 7), ("note", .string "calm"),
    ("to", .object [("opened", .integer 1646092800250), ("seal", .array [.integer 255])])]

/-- The crossing as an entity. The last fare is rounded to an even number, and the note is passed
over. -/
def crossingEntity : Entity :=
  ⟨"Crossing", [("departed", .null),
    ("fares", .array [.number (Binary64.ofInt 12), .number (Binary64.ofInt (-9007199254740992))]),
    ("id", .number (Binary64.ofInt 7)),
    ("to", .entity "Harbour" [("opened", .date ⟨1646092800, 250000000⟩), ("seal", .bytes [255])])]⟩

/-- The crossing is read again from a row in which the moment and the seal are texts. -/
theorem reread_crossing :
    (Json.object crossingRow).Bounded ∧
    crossings.materialize "Crossing" crossingRow = .ok crossingEntity ∧
    crossingEntity.toValue.EveryDate Moment.Printable ∧
    ∃ written again, crossingEntity.toValue.toJson = .object written ∧
      crossings.materialize "Crossing" written = .ok again ∧
      again.toValue.same crossingEntity.toValue = true := by
  have bounded : (Json.object crossingRow).Bounded := by
    simp [crossingRow, Json.Bounded, Json.BoundedItems, Json.BoundedMembers]
  have materialized : crossings.materialize "Crossing" crossingRow = .ok crossingEntity := rfl
  have printable : Moment.Printable ⟨1646092800, 250000000⟩ := ⟨rfl, by decide, by decide⟩
  have dates : crossingEntity.toValue.EveryDate Moment.Printable := by
    simp [crossingEntity, Entity.toValue, Value.EveryDate, EveryDateOfItems, EveryDateOfFields,
      printable]
  exact ⟨bounded, materialized, dates, reread_materialized bounded materialized dates⟩

end Registry

end EntityCursor
