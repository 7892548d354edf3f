import EntityCursor.Proofs.Base64
import EntityCursor.Proofs.Descriptor.References
import EntityCursor.Proofs.Descriptor.Undeclared

/-!
Which rows are accepted, and what is reported of the others. A document is acceptable for a kind by
rules that say nothing of values or of the order in which a row is read. A row is materialized
exactly if its declared members are acceptable. Otherwise the failure is about the first offence: in
the order in which the fields are declared, and within a member in depth before what comes after it,
the first place whose document is acceptable neither as a whole nor in parts.
-/

namespace EntityCursor

/-- The number of milliseconds, cut off to a whole one, lies in the years that moments may have. -/
structure Moment.Reaches (milliseconds : Binary64) : Prop where
  isFinite : milliseconds.isFinite = true
  earliest_le : Moment.earliest * 1000 ≤ milliseconds.truncate
  lt_latest : milliseconds.truncate < (Moment.latest + 1) * 1000

@[simp]
theorem Moment.ofMilliseconds?_isSome_iff {milliseconds : Binary64} :
    (ofMilliseconds? milliseconds).isSome ↔ Reaches milliseconds := by
  have inSeconds : earliest ≤ milliseconds.truncate / 1000 ∧
        milliseconds.truncate / 1000 ≤ latest ↔
      earliest * 1000 ≤ milliseconds.truncate ∧
        milliseconds.truncate < (latest + 1) * 1000 := by omega
  unfold ofMilliseconds?
  dsimp only
  split
  · next finite =>
      rw [apply_ite Option.isSome, Option.isSome_some, Option.isSome_none]
      simp only [Bool.if_true_left, Bool.or_false, decide_eq_true_eq, inSeconds]
      exact ⟨fun range => ⟨finite, range.1, range.2⟩, fun reaches =>
        ⟨reaches.earliest_le, reaches.lt_latest⟩⟩
  · next infinite => exact iff_of_false nofun fun reaches => infinite reaches.isFinite

namespace Registry

variable {registry : Registry} {descriptor : EntityDescriptor} {entity : String}

/-! Acceptable documents. -/

/-- The documents that are acceptable for a kind. Null is one of them only where it is allowed,
which it is not for the items of an array. -/
inductive Acceptable (registry : Registry) : FieldKind → (isOptional : Bool) → Json → Prop where
  | null (kind : FieldKind) : Acceptable registry kind true .null
  | string (isOptional : Bool) (text : String) :
      Acceptable registry .string isOptional (.string text)
  | number (isOptional : Bool) {document : Json} {real : Binary64} :
      document.toBinary64? = some real → Acceptable registry .number isOptional document
  | boolean (isOptional : Bool) (flag : Bool) :
      Acceptable registry .boolean isOptional (.bool flag)
  | dateText (isOptional : Bool) {text : String} {moment : Moment} :
      Moment.read? text = some moment → Acceptable registry .date isOptional (.string text)
  | dateNumber (isOptional : Bool) {document : Json} {milliseconds : Binary64} :
      document.toBinary64? = some milliseconds → Moment.Reaches milliseconds →
        Acceptable registry .date isOptional document
  | bytesText (isOptional : Bool) (content : List UInt8) :
      Acceptable registry .bytes isOptional (.string (String.ofList (Base64.encode content)))
  | bytesItems (isOptional : Bool) (content : List UInt8) :
      Acceptable registry .bytes isOptional (.array (content.map fun byte => .integer byte.toNat))
  | array (isOptional : Bool) {element : FieldKind} {items : List Json} :
      (∀ item ∈ items, Acceptable registry element false item) →
        Acceptable registry (.array element) isOptional (.array items)
  | entity (isOptional : Bool) {name : String} {descriptor : EntityDescriptor}
      {members : List (String × Json)} :
      registry.get? name = some descriptor →
      (∀ field ∈ descriptor.fields, field.name ≠ idField → ∀ document,
        Fields.get? field.name members = some document →
        Acceptable registry field.kind field.isOptional document) →
        Acceptable registry (.entity name) isOptional (.object members)

/-- What a row has for a field, if anything, is acceptable. -/
def Admits (registry : Registry) (row : Row) (field : FieldDescriptor) : Prop :=
  field.name ≠ idField → ∀ document, Fields.get? field.name row = some document →
    registry.Acceptable field.kind field.isOptional document

def AcceptableRow (registry : Registry) (descriptor : EntityDescriptor) (row : Row) : Prop :=
  ∀ field ∈ descriptor.fields, registry.Admits row field

/-! Offences. -/

/-- Where a document stands: the field of an entity, and the positions in the arrays that lead to
the document inside of the field. -/
structure Location where
  entity : String
  field : String
  positions : List Nat
  kind : FieldKind
  isOptional : Bool

namespace Location

def ofField (entity : String) (field : FieldDescriptor) : Location :=
  ⟨entity, field.name, [], field.kind, field.isOptional⟩

def item (location : Location) (position : Nat) (element : FieldKind) : Location :=
  ⟨location.entity, location.field, location.positions ++ [position], element, false⟩

def path (location : Location) : String :=
  location.positions.foldl (fun text position => text ++ "[" ++ toString position ++ "]")
    location.field

def place (location : Location) : Place :=
  ⟨location.entity, location.path, location.kind, location.isOptional⟩

@[simp]
theorem place_ofField (entity : String) (field : FieldDescriptor) :
    (ofField entity field).place = Place.ofField entity field := rfl

@[simp]
theorem place_item (location : Location) (position : Nat) (element : FieldKind) :
    (location.item position element).place = location.place.item position element := by
  simp only [item, place, path, Place.item, List.foldl_append, List.foldl_cons, List.foldl_nil]

end Location

/-- A document and where it stands. -/
structure Offence where
  location : Location
  document : Json

def Offence.failure (offence : Offence) : QueryError :=
  .typeMismatch offence.location.entity offence.location.path offence.location.kind
    offence.document

/-- The parts of a document have places of their own. -/
def HasPlaces : FieldKind → Json → Prop
  | .array _, .array _ => True
  | .entity _, .object _ => True
  | _, _ => False

inductive FirstOffence (registry : Registry) : Location → Json → Offence → Prop where
  | here {location : Location} {document : Json} : ¬ HasPlaces location.kind document →
      ¬ registry.Acceptable location.kind location.isOptional document →
      FirstOffence registry location document ⟨location, document⟩
  | item {location : Location} {element : FieldKind} {before after : List Json} {item : Json}
      {offence : Offence} : location.kind = .array element →
      (∀ earlier ∈ before, registry.Acceptable element false earlier) →
      FirstOffence registry (location.item before.length element) item offence →
      FirstOffence registry location (.array (before ++ item :: after)) offence
  | member {location : Location} {name : String} {descriptor : EntityDescriptor}
      {members : List (String × Json)} {before after : List FieldDescriptor}
      {field : FieldDescriptor} {document : Json} {offence : Offence} :
      location.kind = .entity name → registry.get? name = some descriptor →
      descriptor.fields = before ++ field :: after →
      (∀ earlier ∈ before, registry.Admits members earlier) → field.name ≠ idField →
      Fields.get? field.name members = some document →
      FirstOffence registry (.ofField name field) document offence →
      FirstOffence registry location (.object members) offence

inductive FirstOffenceOfRow (registry : Registry) (entity : String)
    (descriptor : EntityDescriptor) (row : Row) (offence : Offence) : Prop where
  | member {before after : List FieldDescriptor} {field : FieldDescriptor} {document : Json} :
      descriptor.fields = before ++ field :: after →
      (∀ earlier ∈ before, registry.Admits row earlier) → field.name ≠ idField →
      Fields.get? field.name row = some document →
      registry.FirstOffence (.ofField entity field) document offence →
      FirstOffenceOfRow registry entity descriptor row offence

/-! Documents without places. -/

@[simp]
theorem byteOfJson?_eq_some_iff {document : Json} {byte : UInt8} :
    byteOfJson? document = some byte ↔ document = .integer byte.toNat := by
  cases document with
  | integer value =>
      rw [byteOfJson?, Json.integer.injEq]
      split
      · next small =>
          have same : (UInt8.ofNat value.toNat).toNat = value.toNat :=
            Base64.toNat_ofNat_of_lt (by omega)
          rw [Option.some.injEq, ← UInt8.toNat_inj, same]
          omega
      · next large =>
          have bound := byte.toNat_lt
          exact iff_of_false nofun (by omega)
  | _ => simp [byteOfJson?]

@[simp]
theorem mapM_byteOfJson?_eq_some_iff {items : List Json} {content : List UInt8} :
    items.mapM byteOfJson? = some content ↔
      items = content.map fun byte => .integer byte.toNat := by
  induction items generalizing content with
  | nil => cases content <;> simp
  | cons item rest inductionHypothesis =>
      simp only [List.mapM_cons, Option.bind_eq_bind, Option.bind_eq_some_iff,
        byteOfJson?_eq_some_iff, inductionHypothesis]
      cases content with
      | nil => simp
      | cons byte others => simp

theorem acceptable_of_milliseconds {document : Json} {moment : Moment}
    (read : document.toBinary64?.bind Moment.ofMilliseconds? = some moment) (isOptional : Bool) :
    registry.Acceptable .date isOptional document := by
  obtain ⟨milliseconds, isNumber, within⟩ := Option.bind_eq_some_iff.mp read
  have reaches : Moment.Reaches milliseconds := by
    rw [← Moment.ofMilliseconds?_isSome_iff, within]
    rfl
  exact .dateNumber isOptional isNumber reaches

theorem acceptable_of_scalar {kind : FieldKind} {document : Json} {value : Value}
    (scalar : scalarOfJson? kind document = some value) (isOptional : Bool) :
    registry.Acceptable kind isOptional document := by
  cases kind with
  | array element => cases document <;> cases scalar
  | entity name => cases document <;> cases scalar
  | string =>
      cases document with
      | string text => exact .string isOptional text
      | _ => cases scalar
  | boolean =>
      cases document with
      | bool flag => exact .boolean isOptional flag
      | _ => cases scalar
  | number =>
      obtain ⟨real, isNumber, _⟩ := Option.map_eq_some_iff.mp scalar
      exact .number isOptional isNumber
  | bytes =>
      cases document with
      | string text =>
          obtain ⟨content, read, _⟩ := Option.map_eq_some_iff.mp scalar
          have written : text = String.ofList (Base64.encode content) := by
            rw [← Base64.decode?_eq_some_iff.mp read, String.ofList_toList]
          rw [written]
          exact .bytesText isOptional content
      | array items =>
          obtain ⟨content, read, _⟩ := Option.map_eq_some_iff.mp scalar
          rw [mapM_byteOfJson?_eq_some_iff.mp read]
          exact .bytesItems isOptional content
      | _ => cases scalar
  | date =>
      cases document with
      | string text =>
          obtain ⟨moment, read, _⟩ := Option.map_eq_some_iff.mp scalar
          exact .dateText isOptional read
      | integer value =>
          obtain ⟨moment, read, _⟩ := Option.map_eq_some_iff.mp scalar
          exact acceptable_of_milliseconds read isOptional
      | double value =>
          obtain ⟨moment, read, _⟩ := Option.map_eq_some_iff.mp scalar
          exact acceptable_of_milliseconds read isOptional
      | _ => cases scalar

theorem convert_of_refused {place : Place} {document : Json}
    (leaf : ¬ HasPlaces place.kind document)
    (refused : ¬ registry.Acceptable place.kind place.isOptional document) :
    registry.convert place document = .error (place.mismatch document) := by
  have noScalar : scalarOfJson? place.kind document = none := by
    cases scalar : scalarOfJson? place.kind document with
    | none => rfl
    | some value => exact (refused (acceptable_of_scalar scalar place.isOptional)).elim
  cases document with
  | null =>
      rw [convert]
      split
      · next optional =>
          rw [optional] at refused
          exact (refused (.null place.kind)).elim
      · rfl
  | array items =>
      rw [convert]
      split
      · next element kind =>
          rw [kind] at leaf
          exact (leaf trivial).elim
      · rw [noScalar]
  | object members =>
      rw [convert]
      split
      · next name kind =>
          rw [kind] at leaf
          exact (leaf trivial).elim
      · rfl
  | _ => simp only [convert, noScalar]

/-! What is acceptable is converted. -/

theorem get?_convertMembers_of_mem (accepted : registry.Accepted)
    (registered : registry.get? entity = some descriptor) {field : FieldDescriptor}
    (declared : field ∈ descriptor.fields) (row : Row) :
    Fields.get? field.name (registry.convertMembers descriptor row) =
      (Fields.get? field.name row).map (registry.convert (Place.ofField entity field)) := by
  obtain ⟨named, faultless⟩ := accepted.faultless registered
  have found := EntityDescriptor.field?_of_mem
    (EntityDescriptor.nodup_of_faultless faultless) declared
  rw [get?_convertMembers found, named]

theorem exists_convertItems {place : Place} {element : FieldKind} {items : List Json}
    (each : ∀ item ∈ items, ∀ position, ∃ value,
      registry.convert (place.item position element) item = .ok value) (position : Nat) :
    ∃ values, registry.convertItems place element position items = .ok values := by
  induction items generalizing position with
  | nil => exact ⟨[], rfl⟩
  | cons item rest inductionHypothesis =>
      obtain ⟨value, first⟩ := each item List.mem_cons_self position
      obtain ⟨others, later⟩ := inductionHypothesis
        (fun other member => each other (List.mem_cons_of_mem _ member)) (position + 1)
      refine ⟨value :: others, ?_⟩
      rw [convertItems, first, later]
      rfl

/-- Wherever a document for this kind stands, it is converted. -/
def Converts (registry : Registry) (kind : FieldKind) (isOptional : Bool) (document : Json) :
    Prop :=
  ∀ place : Place, place.kind = kind → place.isOptional = isOptional →
    ∃ value, registry.convert place document = .ok value

theorem exists_assembled_row (accepted : registry.Accepted)
    (registered : registry.get? entity = some descriptor) {row : Row}
    {fields : List FieldDescriptor} (listed : fields ⊆ descriptor.fields)
    (each : ∀ field ∈ fields, field.name ≠ idField → ∀ document,
      Fields.get? field.name row = some document →
      registry.Converts field.kind field.isOptional document) (target : Entity) :
    ∃ assembled, assemble (registry.convertMembers descriptor row) fields target =
      .ok assembled := by
  apply exists_assembled
  intro field member different conversion found
  rw [get?_convertMembers_of_mem accepted registered (listed member)] at found
  obtain ⟨document, present, rfl⟩ := Option.map_eq_some_iff.mp found
  exact each field member different document present (Place.ofField entity field) rfl rfl

theorem scalarOfJson?_date_of_number {document : Json} {milliseconds : Binary64}
    (isNumber : document.toBinary64? = some milliseconds) :
    scalarOfJson? .date document = (Moment.ofMilliseconds? milliseconds).map .date := by
  cases document with
  | integer value =>
      cases isNumber
      rfl
  | double value =>
      cases isNumber
      rfl
  | _ => cases isNumber

theorem converts_of_scalar {kind : FieldKind} {document : Json} {value : Value}
    (scalar : scalarOfJson? kind document = some value) (isOptional : Bool) :
    registry.Converts kind isOptional document := by
  rintro place rfl _
  exact ⟨value, convert_of_scalar scalar⟩

theorem converts_of_acceptable (accepted : registry.Accepted) {kind : FieldKind}
    {isOptional : Bool} {document : Json}
    (acceptable : registry.Acceptable kind isOptional document) :
    registry.Converts kind isOptional document := by
  induction acceptable with
  | null kind =>
      intro place _ optional
      refine ⟨.null, ?_⟩
      rw [convert, if_pos optional]
  | string isOptional text => exact converts_of_scalar rfl isOptional
  | boolean isOptional flag => exact converts_of_scalar rfl isOptional
  | @number isOptional document real isNumber =>
      have scalar : scalarOfJson? .number document = some (.number real) := by
        rw [scalarOfJson?, isNumber, Option.map_some]
      exact converts_of_scalar scalar isOptional
  | @dateText isOptional text moment read =>
      have scalar : scalarOfJson? .date (.string text) = some (.date moment) := by
        rw [scalarOfJson?, read, Option.map_some]
      exact converts_of_scalar scalar isOptional
  | @dateNumber isOptional document milliseconds isNumber reaches =>
      obtain ⟨moment, within⟩ := Option.isSome_iff_exists.mp
        (Moment.ofMilliseconds?_isSome_iff.mpr reaches)
      have scalar : scalarOfJson? .date document = some (.date moment) := by
        rw [scalarOfJson?_date_of_number isNumber, within, Option.map_some]
      exact converts_of_scalar scalar isOptional
  | bytesText isOptional content =>
      have scalar : scalarOfJson? .bytes (.string (String.ofList (Base64.encode content))) =
          some (.bytes content) := by
        rw [scalarOfJson?, String.toList_ofList, Base64.decode?_encode, Option.map_some]
      exact converts_of_scalar scalar isOptional
  | bytesItems isOptional content =>
      have scalar : scalarOfJson? .bytes (.array (content.map fun byte => .integer byte.toNat)) =
          some (.bytes content) := by
        rw [scalarOfJson?, mapM_byteOfJson?_eq_some_iff.mpr rfl, Option.map_some]
      exact converts_of_scalar scalar isOptional
  | @array isOptional element items _ inductionHypothesis =>
      intro place kind _
      have each : ∀ item ∈ items, ∀ position, ∃ value,
          registry.convert (place.item position element) item = .ok value :=
        fun item member position => inductionHypothesis item member _ rfl rfl
      obtain ⟨values, all⟩ := exists_convertItems each 0
      refine ⟨.array values, ?_⟩
      simp only [convert, kind, all, Except.map]
  | @entity isOptional name descriptor members registered _ inductionHypothesis =>
      intro place kind _
      obtain ⟨assembled, success⟩ := exists_assembled_row accepted registered
        (List.Subset.refl _) inductionHypothesis (withId members (Entity.empty name))
      refine ⟨assembled.toValue, ?_⟩
      simp only [convert, kind, registered, success, Except.map]

/-! What is refused is refused for the first offence. -/

theorem assemble_append (conversions : List (String × Outcome Value))
    (before after : List FieldDescriptor) (target : Entity) :
    assemble conversions (before ++ after) target =
      assemble conversions before target >>= assemble conversions after := by
  induction before generalizing target with
  | nil => rfl
  | cons field rest inductionHypothesis =>
      rw [List.cons_append, assemble, assemble]
      split
      · exact inductionHypothesis target
      · split
        · exact inductionHypothesis target
        · exact inductionHypothesis _
        · rfl

theorem convertItems_of_offence {place : Place} {element : FieldKind} {before : List Json}
    {item : Json} {position : Nat} {failure : QueryError}
    (earlier : ∀ other ∈ before, registry.Converts element false other)
    (failed : registry.convert (place.item (position + before.length) element) item =
      .error failure) (after : List Json) :
    registry.convertItems place element position (before ++ item :: after) = .error failure := by
  induction before generalizing position with
  | nil =>
      rw [List.length_nil, Nat.add_zero] at failed
      rw [List.nil_append, convertItems, failed]
      rfl
  | cons first rest inductionHypothesis =>
      obtain ⟨value, success⟩ := earlier first List.mem_cons_self (place.item position element)
        rfl rfl
      rw [List.length_cons, Nat.add_comm rest.length, ← Nat.add_assoc] at failed
      have later := inductionHypothesis
        (fun other member => earlier other (List.mem_cons_of_mem _ member)) failed
      rw [List.cons_append, convertItems, success, later]
      rfl

/-- A row that has an offence is not assembled, and what is reported is the failure of the member
that has it. -/
theorem assemble_of_offence (accepted : registry.Accepted)
    (registered : registry.get? entity = some descriptor) {row : Row}
    {before after : List FieldDescriptor} {field : FieldDescriptor} {document : Json}
    {failure : QueryError} (declared : descriptor.fields = before ++ field :: after)
    (earlier : ∀ other ∈ before, registry.Admits row other) (different : field.name ≠ idField)
    (present : Fields.get? field.name row = some document)
    (failed : registry.convert (Place.ofField entity field) document = .error failure)
    (target : Entity) :
    assemble (registry.convertMembers descriptor row) descriptor.fields target =
      .error failure := by
  have listed : before ⊆ descriptor.fields := by simp [declared]
  have member : field ∈ descriptor.fields := by simp [declared]
  obtain ⟨assembled, success⟩ := exists_assembled_row accepted registered listed
    (fun other isBefore notId document found =>
      converts_of_acceptable accepted (earlier other isBefore notId document found)) target
  have conversion : Fields.get? field.name (registry.convertMembers descriptor row) =
      some (.error failure) := by
    rw [get?_convertMembers_of_mem accepted registered member, present, Option.map_some, failed]
  rw [declared, assemble_append, success, Outcome.ok_bind, assemble, if_neg different]
  simp only [conversion]

theorem convert_of_offence (accepted : registry.Accepted) {location : Location} {document : Json}
    {offence : Offence} (first : registry.FirstOffence location document offence) :
    registry.convert location.place document = .error offence.failure := by
  -- The failure of the place inside goes through every array and entity around it as it is.
  induction first with
  | here leaf refused => exact convert_of_refused leaf refused
  | @item location element before after item offence kind earlier _ inductionHypothesis =>
      have sameKind : location.place.kind = .array element := kind
      rw [Location.place_item, ← Nat.zero_add before.length] at inductionHypothesis
      have failed := convertItems_of_offence
        (fun other member => converts_of_acceptable accepted (earlier other member))
        inductionHypothesis after
      simp only [convert, sameKind, failed, Except.map]
  | @member location name descriptor members before after field document offence kind registered
      declared earlier different present _ inductionHypothesis =>
      rw [Location.place_ofField] at inductionHypothesis
      have failed := assemble_of_offence accepted registered declared earlier different present
        inductionHypothesis (withId members (Entity.empty name))
      have sameKind : location.place.kind = .entity name := kind
      simp only [convert, sameKind, registered, failed, Except.map]

/-! Every document is acceptable or has a first offence. -/

theorem forall_or_exists_first {Entry : Type} (holds : Entry → Prop) (entries : List Entry) :
    (∀ entry ∈ entries, holds entry) ∨
      ∃ before entry after, entries = before ++ entry :: after ∧
        (∀ earlier ∈ before, holds earlier) ∧ ¬ holds entry := by
  classical
  cases found : entries.find? fun entry => ¬ holds entry with
  | none =>
      left
      simpa using List.find?_eq_none.mp found
  | some entry =>
      right
      obtain ⟨fails, before, after, split, earlier⟩ := List.find?_eq_some_iff_append.mp found
      exact ⟨before, entry, after, split, by simpa using earlier, by simpa using fails⟩

/-- The documents of which this is known wherever they stand. -/
def Decided (registry : Registry) (document : Json) : Prop :=
  ∀ location : Location, registry.Resolves location.kind →
    registry.Acceptable location.kind location.isOptional document ∨
      ∃ offence, registry.FirstOffence location document offence

theorem decided_leaf {location : Location} {document : Json}
    (leaf : ¬ HasPlaces location.kind document) :
    registry.Acceptable location.kind location.isOptional document ∨
      ∃ offence, registry.FirstOffence location document offence := by
  by_cases acceptable : registry.Acceptable location.kind location.isOptional document
  · exact .inl acceptable
  · exact .inr ⟨_, .here leaf acceptable⟩

theorem acceptableRow_or_offence (closed : registry.IsClosed)
    (registered : registry.get? entity = some descriptor) {row : Row}
    (decided : ∀ name document, Fields.get? name row = some document →
      registry.Decided document) :
    registry.AcceptableRow descriptor row ∨
      ∃ offence, registry.FirstOffenceOfRow entity descriptor row offence := by
  rcases forall_or_exists_first (registry.Admits row) descriptor.fields with
    all | ⟨before, field, after, declared, earlier, refused⟩
  · exact .inl all
  · right
    simp only [Admits, Classical.not_forall] at refused
    obtain ⟨different, document, present, refused⟩ := refused
    have resolves : registry.Resolves field.kind :=
      closed entity descriptor registered field (by simp [declared])
    obtain ⟨offence, first⟩ :=
      (decided field.name document present (.ofField entity field) resolves).resolve_left refused
    exact ⟨offence, .member declared earlier different present first⟩

theorem decided_array {items : List Json} (decided : ∀ item ∈ items, registry.Decided item) :
    registry.Decided (.array items) := by
  intro location resolves
  cases kind : location.kind with
  | array element =>
      have resolvesElement : registry.Resolves element := by
        intro target refers
        exact resolves target (by rw [kind]; exact refers)
      rcases forall_or_exists_first (registry.Acceptable element false) items with
        all | ⟨before, item, after, rfl, earlier, refused⟩
      · exact .inl (.array location.isOptional all)
      · obtain ⟨offence, first⟩ := (decided item (by simp)
          (location.item before.length element) resolvesElement).resolve_left refused
        exact .inr ⟨offence, .item kind earlier first⟩
  | _ =>
      rw [← kind]
      exact decided_leaf (by simp [HasPlaces, kind])

theorem decided_object (closed : registry.IsClosed) {members : List (String × Json)}
    (decided : ∀ name document, Fields.get? name members = some document →
      registry.Decided document) : registry.Decided (.object members) := by
  intro location resolves
  cases kind : location.kind with
  | entity name =>
      have known : registry.contains name := resolves name (by rw [kind]; rfl)
      obtain ⟨descriptor, registered⟩ := Option.isSome_iff_exists.mp known
      rcases acceptableRow_or_offence closed registered decided with
        all | ⟨offence, declared, earlier, different, present, first⟩
      · exact .inl (.entity location.isOptional registered all)
      · exact .inr ⟨offence, .member kind registered declared earlier different present first⟩
  | _ =>
      rw [← kind]
      exact decided_leaf (by simp [HasPlaces, kind])

theorem decided (closed : registry.IsClosed) (document : Json) : registry.Decided document := by
  induction document using Json.nestedInduction with
  | array items inductionHypothesis => exact decided_array inductionHypothesis
  | object members inductionHypothesis => exact decided_object closed inductionHypothesis
  | _ => exact fun location _ => decided_leaf (by cases location.kind <;> simp [HasPlaces])

/-! Rows. -/

theorem materialize_of_acceptableRow (accepted : registry.Accepted)
    (registered : registry.get? entity = some descriptor) {row : Row}
    (acceptable : registry.AcceptableRow descriptor row) :
    ∃ assembled, registry.materialize entity row = .ok assembled := by
  rw [materialize, registered]
  exact exists_assembled_row accepted registered (List.Subset.refl _)
    (fun field member different document present => converts_of_acceptable accepted
      (acceptable field member different document present)) _

theorem materialize_of_offence (accepted : registry.Accepted)
    (registered : registry.get? entity = some descriptor) {row : Row} {offence : Offence}
    (first : registry.FirstOffenceOfRow entity descriptor row offence) :
    registry.materialize entity row = .error offence.failure := by
  obtain ⟨declared, earlier, different, present, first⟩ := first
  rw [materialize, registered]
  exact assemble_of_offence accepted registered declared earlier different present
    (convert_of_offence accepted first) _

/-- A row is materialized exactly if what it has for declared fields is acceptable. Otherwise the
failure is the one of its first offence. Members that are not declared do not matter. -/
theorem materialize_exact (accepted : registry.Accepted) (valid : registry.validate = .ok ())
    (registered : registry.get? entity = some descriptor) (row : Row) :
    ((∃ assembled, registry.materialize entity row = .ok assembled) ↔
      registry.AcceptableRow descriptor row) ∧
    (∀ failure, registry.materialize entity row = .error failure ↔
      ∃ offence, registry.FirstOffenceOfRow entity descriptor row offence ∧
        failure = offence.failure) ∧
    registry.materialize entity (registry.declaredMembers descriptor row) =
      registry.materialize entity row := by
  have undeclared := materialize_declaredMembers registered row
  have decidedMembers : ∀ name document, Fields.get? name row = some document →
      registry.Decided document := fun _ document _ => decided (isClosed_of_validate valid) document
  rcases acceptableRow_or_offence (isClosed_of_validate valid) registered decidedMembers with
    acceptable | ⟨offence, first⟩
  · obtain ⟨assembled, success⟩ := materialize_of_acceptableRow accepted registered acceptable
    refine ⟨iff_of_true ⟨assembled, success⟩ acceptable, ?_, undeclared⟩
    intro failure
    rw [success]
    refine iff_of_false nofun ?_
    rintro ⟨offence, first, _⟩
    cases success.symm.trans (materialize_of_offence accepted registered first)
  · have failed := materialize_of_offence accepted registered first
    refine ⟨iff_of_false ?_ ?_, ?_, undeclared⟩
    · rintro ⟨assembled, success⟩
      cases success.symm.trans failed
    · intro acceptable
      obtain ⟨assembled, success⟩ := materialize_of_acceptableRow accepted registered acceptable
      cases success.symm.trans failed
    · intro failure
      constructor
      · intro failedSo
        cases failed.symm.trans failedSo
        exact ⟨offence, first, rfl⟩
      · rintro ⟨other, otherFirst, rfl⟩
        exact materialize_of_offence accepted registered otherFirst

def port : EntityDescriptor :=
  ⟨"Port", [{ name := "city", kind := .string },
    { name := "berths", kind := .array (.array .number) }]⟩

def voyage : EntityDescriptor :=
  ⟨"Voyage", [{ name := "departed", kind := .date, isOptional := true },
    { name := "stops", kind := .array (.entity "Port") }]⟩

def voyages : Registry := ⟨[("Port", port), ("Voyage", voyage)]⟩

def voyageRow : Row :=
  [("departed", .null), ("note", .array []),
    ("stops", .array [.object [("city", .string "Rome")],
      .object [("berths", .array [.array [.integer 4], .array [.integer 5, .null]]),
        ("city", .string "Oslo")]])]

/-- The first offence of the voyage is a berth of its second port. -/
theorem first_offence_of_voyage :
    voyages.Accepted ∧ voyages.validate = .ok () ∧ voyages.get? "Voyage" = some voyage ∧
    voyages.materialize "Voyage" voyageRow =
      .error (.typeMismatch "Port" "berths[1][1]" .number .null) ∧
    ∃ offence, voyages.FirstOffenceOfRow "Voyage" voyage voyageRow offence ∧
      QueryError.typeMismatch "Port" "berths[1][1]" .number .null = offence.failure := by
  have withPort : Registry.empty.register port = .ok ⟨[("Port", port)]⟩ := rfl
  have withBoth : Registry.register ⟨[("Port", port)]⟩ voyage = .ok voyages := rfl
  have accepted : voyages.Accepted := .register (.register .empty withPort) withBoth
  have valid : voyages.validate = .ok () := rfl
  have registered : voyages.get? "Voyage" = some voyage := rfl
  have failed : voyages.materialize "Voyage" voyageRow =
      .error (.typeMismatch "Port" "berths[1][1]" .number .null) := by rfl
  exact ⟨accepted, valid, registered, failed,
    ((materialize_exact accepted valid registered voyageRow).2.1 _).mp failed⟩

end Registry

end EntityCursor
