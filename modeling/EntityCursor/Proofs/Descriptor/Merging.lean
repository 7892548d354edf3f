import EntityCursor.Proofs.Descriptor.Registration
import EntityCursor.Proofs.Descriptor.Rows

/-!
Merging against materializing. Merging a second row into the entity of a first one changes values in
place, while materializing builds them anew. The two are tied by an operation on rows that knows
nothing of values: the second row is put over the first one, and nested objects over nested objects.
Merging the second row comes to what materializing the overlay comes to, the failure included: field
by field the update of a value gives what the conversion of the overlaid document gives.
-/

namespace EntityCursor

namespace Registry

/-! Overlays. -/

mutual

/-- A document for a value of the given kind, put over the one that is there. Where an entity is
expected, an object is put over an object member by member, and everything else replaces what is
there. -/
def overlay (registry : Registry) (kind : FieldKind) (old : Option Json) : Json → Json
  | .object members =>
      match kind, old with
      | .entity name, some (.object oldMembers) =>
          match registry.get? name with
          | some descriptor => .object (overlayRow registry descriptor oldMembers members)
          | none => .object members
      | _, _ => .object members
  | document => document

def overlayRow (registry : Registry) (descriptor : EntityDescriptor) (old : Row) : Row → Row
  | [] => old
  | (name, document) :: rest =>
      let laid :=
        if name = idField then document
        else
          match descriptor.field? name with
          | some field => overlay registry field.kind (Fields.get? name old) document
          | none => document
      Fields.set name laid (overlayRow registry descriptor old rest)

end

variable {registry : Registry} {descriptor : EntityDescriptor} {name : String}

/-- Where no entity is expected or no object is there, a document replaces what is there. -/
theorem overlay_of_fresh {kind : FieldKind} {old : Option Json} {document : Json}
    (fresh : ∀ name oldMembers, kind = .entity name → old ≠ some (.object oldMembers)) :
    registry.overlay kind old document = document := by
  cases document with
  | object members =>
      rw [overlay]
      exact fresh
  | _ => rfl

theorem get?_overlayRow (first second : Row) (name : String) :
    Fields.get? name (registry.overlayRow descriptor first second) =
      match Fields.get? name second with
      | none => Fields.get? name first
      | some document =>
          some (if name = idField then document
            else
              match descriptor.field? name with
              | some field => registry.overlay field.kind (Fields.get? name first) document
              | none => document) := by
  induction second with
  | nil => rfl
  | cons member rest inductionHypothesis =>
      obtain ⟨key, document⟩ := member
      rw [overlayRow, Fields.get?_set]
      by_cases same : name = key
      · subst same
        rw [if_pos rfl, Fields.get?_cons_self]
      · rw [if_neg same, Fields.get?_cons_of_ne (Ne.symm same)]
        exact inductionHypothesis

/-! Updates and conversions in step. -/

/-- The result of an update says the same as a conversion: the new value or the failure, whatever is
left of the old value then. -/
inductive Matches : Outcome Unit × Option Value → Outcome Value → Prop where
  | value (value : Value) : Matches (.ok (), some value) (.ok value)
  | failed (failure : QueryError) (left : Option Value) :
      Matches (.error failure, left) (.error failure)

/-- What there is to do for a field when a row is merged and when the overlay is materialized, where
`old` and `fresh` are the values of the field before that on either side. -/
inductive InStep (old fresh : Option Value) : Option Update → Option (Outcome Value) → Prop where
  | absent : old = fresh → InStep old fresh none none
  | kept (value : Value) : old = some value → InStep old fresh none (some (.ok value))
  | updated {update : Update} {conversion : Outcome Value} :
      Matches (update old) conversion → InStep old fresh (some update) (some conversion)

def mergeOutcome (result : Outcome Unit × Entity) : Outcome Entity :=
  result.1.map fun _ => result.2

/-- Merging and materializing before the given fields: the entities differ under the names of these
fields only, and there the two are in step. -/
structure Aligned (updates : List (String × Update)) (conversions : List (String × Outcome Value))
    (fields : List FieldDescriptor) (merged fresh : Entity) : Prop where
  sameName : merged.name = fresh.name
  mergedAscending : Fields.Ascending merged.fields
  freshAscending : Fields.Ascending fresh.fields
  sameElsewhere : ∀ name, name = idField ∨ name ∉ fields.map (·.name) →
    merged.get? name = fresh.get? name
  inStep : ∀ field ∈ fields, field.name ≠ idField →
    InStep (merged.get? field.name) (fresh.get? field.name) (Fields.get? field.name updates)
      (Fields.get? field.name conversions)

namespace Aligned

variable {updates : List (String × Update)} {conversions : List (String × Outcome Value)}
  {field : FieldDescriptor} {rest : List FieldDescriptor} {merged fresh : Entity}

theorem eq_of_nil (aligned : Aligned updates conversions [] merged fresh) : merged = fresh := by
  have sameName := aligned.sameName
  have sameFields : merged.fields = fresh.fields := by
    apply Fields.eq_of_get?_eq aligned.mergedAscending aligned.freshAscending
    intro name
    exact aligned.sameElsewhere name (.inr (by simp))
  obtain ⟨name, fields⟩ := merged
  simp only at sameName sameFields
  rw [sameName, sameFields]

/-- Whatever is done for the first field, the fields after it are as they were. -/
theorem pass (aligned : Aligned updates conversions (field :: rest) merged fresh)
    (once : field.name ∉ rest.map (·.name)) {merging assembling : Entity}
    (named : merging.name = assembling.name) (ascendingMerging : Fields.Ascending merging.fields)
    (ascendingAssembling : Fields.Ascending assembling.fields)
    (here : merging.get? field.name = assembling.get? field.name)
    (before : ∀ name, name ≠ field.name → merging.get? name = merged.get? name)
    (after : ∀ name, name ≠ field.name → assembling.get? name = fresh.get? name) :
    Aligned updates conversions rest merging assembling := by
  refine ⟨named, ascendingMerging, ascendingAssembling, ?_, ?_⟩
  · intro name elsewhere
    by_cases same : name = field.name
    · rw [same, here]
    · rw [before name same, after name same]
      apply aligned.sameElsewhere
      simpa [same] using elsewhere
  · intro other member declared
    have different : other.name ≠ field.name := by
      intro same
      exact once (List.mem_map.mpr ⟨other, member, same⟩)
    rw [before _ different, after _ different]
    exact aligned.inStep other (List.mem_cons_of_mem _ member) declared

theorem unchanged (aligned : Aligned updates conversions (field :: rest) merged fresh)
    (once : field.name ∉ rest.map (·.name))
    (same : merged.get? field.name = fresh.get? field.name) :
    Aligned updates conversions rest merged fresh :=
  aligned.pass once aligned.sameName aligned.mergedAscending aligned.freshAscending same
    (fun _ _ => rfl) (fun _ _ => rfl)

theorem kept (aligned : Aligned updates conversions (field :: rest) merged fresh)
    (once : field.name ∉ rest.map (·.name)) {value : Value}
    (held : merged.get? field.name = some value) :
    Aligned updates conversions rest merged (fresh.set field.name value) := by
  have named : merged.name = (fresh.set field.name value).name := aligned.sameName
  have ascending : Fields.Ascending (fresh.set field.name value).fields :=
    Fields.ascending_set _ _ aligned.freshAscending
  apply aligned.pass once named aligned.mergedAscending ascending
  · rw [held, Entity.get?_set, if_pos rfl]
  · intro name _
    rfl
  · intro name different
    rw [Entity.get?_set, if_neg different]

theorem set (aligned : Aligned updates conversions (field :: rest) merged fresh)
    (once : field.name ∉ rest.map (·.name)) (value : Value) :
    Aligned updates conversions rest (merged.set field.name value)
      (fresh.set field.name value) := by
  have named : (merged.set field.name value).name = (fresh.set field.name value).name :=
    aligned.sameName
  apply aligned.pass once named (Fields.ascending_set _ _ aligned.mergedAscending)
    (Fields.ascending_set _ _ aligned.freshAscending)
  · rw [Entity.get?_set, Entity.get?_set, if_pos rfl, if_pos rfl]
  · intro name different
    rw [Entity.get?_set, if_neg different]
  · intro name different
    rw [Entity.get?_set, if_neg different]

end Aligned

/-- Two runs over the fields that are in step come to the same. -/
theorem applyUpdates_eq_assemble {updates : List (String × Update)}
    {conversions : List (String × Outcome Value)} {fields : List FieldDescriptor}
    (distinct : (fields.map (·.name)).Nodup) {merged fresh : Entity}
    (aligned : Aligned updates conversions fields merged fresh) :
    mergeOutcome (applyUpdates updates fields merged) = assemble conversions fields fresh := by
  induction fields generalizing merged fresh with
  | nil =>
      rw [aligned.eq_of_nil]
      rfl
  | cons field rest inductionHypothesis =>
      rw [List.map_cons] at distinct
      obtain ⟨once, distinctRest⟩ := List.nodup_cons.mp distinct
      rw [applyUpdates, assemble]
      by_cases identifies : field.name = idField
      · rw [if_pos identifies, if_pos identifies]
        have same := aligned.sameElsewhere field.name (.inl identifies)
        exact inductionHypothesis distinctRest (aligned.unchanged once same)
      · rw [if_neg identifies, if_neg identifies]
        have step := aligned.inStep field List.mem_cons_self identifies
        generalize Fields.get? field.name updates = update? at step ⊢
        generalize Fields.get? field.name conversions = conversion? at step ⊢
        cases step with
        | absent same => exact inductionHypothesis distinctRest (aligned.unchanged once same)
        | kept value held => exact inductionHypothesis distinctRest (aligned.kept once held)
        | @updated update conversion matched =>
            dsimp only
            generalize update (merged.get? field.name) = result at matched ⊢
            cases matched with
            | failed failure left => rfl
            | value value => exact inductionHypothesis distinctRest (aligned.set once value)

/-! One row over another. -/

theorem updateMembers_eq_mapKnown (row : Row) :
    registry.updateMembers descriptor row = Fields.mapKnown (fun name =>
      (descriptor.field? name).map fun field =>
        registry.update (Place.ofField descriptor.name field)) row := by
  induction row with
  | nil => rfl
  | cons member rest inductionHypothesis =>
      obtain ⟨name, document⟩ := member
      rw [updateMembers, Fields.mapKnown_cons, inductionHypothesis]
      cases descriptor.field? name with
      | none => rfl
      | some field => rfl

theorem get?_updateMembers {field : FieldDescriptor}
    (declared : descriptor.field? name = some field) (row : Row) :
    Fields.get? name (registry.updateMembers descriptor row) =
      (Fields.get? name row).map (registry.update (Place.ofField descriptor.name field)) := by
  rw [updateMembers_eq_mapKnown, Fields.get?_mapKnown, declared]
  rfl

/-- A value that is the conversion of a document, or no value where there is no document. -/
def Converted (registry : Registry) (place : Place) : Option Json → Option Value → Prop
  | none, old => old = none
  | some document, old => ∃ value, registry.convert place document = .ok value ∧ old = some value

theorem converted_of_assembled {entity : String} {field : FieldDescriptor} {row : Row}
    {assembled : Entity} (different : name ≠ idField)
    (declared : descriptor.field? name = some field)
    (success : assemble (registry.convertMembers descriptor row) descriptor.fields
      (withId row (Entity.empty entity)) = .ok assembled) :
    registry.Converted (Place.ofField descriptor.name field) (Fields.get? name row)
      (assembled.get? name) := by
  rcases get?_of_assembled success name with
    ⟨identifies, _⟩ | ⟨_, other, document, value, found, present, converted, held⟩ |
      ⟨_, undeclared | missing, unset⟩
  · exact absurd identifies different
  · cases Option.some.inj (declared.symm.trans found)
    rw [present]
    exact ⟨value, converted, held⟩
  · rw [undeclared] at declared
    cases declared
  · rw [missing]
    exact unset

/-- The documents of which updating says the same as converting what they are put over. -/
def Mergeable (registry : Registry) (document : Json) : Prop :=
  ∀ place oldDocument old, registry.Converted place oldDocument old →
    Matches (registry.update place document old)
      (registry.convert place (registry.overlay place.kind oldDocument document))

theorem mergeOutcome_eq_assemble {entity : String}
    (distinct : (descriptor.fields.map (·.name)).Nodup) {first second : Row} {assembled : Entity}
    (success : assemble (registry.convertMembers descriptor first) descriptor.fields
      (withId first (Entity.empty entity)) = .ok assembled)
    (mergeable : ∀ name document, Fields.get? name second = some document →
      registry.Mergeable document) :
    mergeOutcome (applyUpdates (registry.updateMembers descriptor second) descriptor.fields
        (withId second assembled)) =
      assemble (registry.convertMembers descriptor (registry.overlayRow descriptor first second))
        descriptor.fields
        (withId (registry.overlayRow descriptor first second) (Entity.empty entity)) := by
  have ascending : Fields.Ascending assembled.fields :=
    ascending_assemble success (ascending_withId first Fields.ascending_nil)
  have sameName : assembled.name = entity := by
    rw [name_assemble success, name_withId]
    rfl
  apply applyUpdates_eq_assemble distinct
  constructor
  · rw [name_withId, name_withId, sameName]
    rfl
  · exact ascending_withId second ascending
  · exact ascending_withId _ Fields.ascending_nil
  · intro name elsewhere
    rw [get?_withId, get?_withId, Entity.get?_empty, Option.or_none, get?_overlayRow]
    rcases get?_of_assembled success name with
      ⟨identifies, held⟩ | ⟨different, field, _, _, declared, _⟩ | ⟨different, _, unset⟩
    · subst identifies
      cases present : Fields.get? idField second with
      | none => simp [held]
      | some id => simp
    · obtain ⟨member, named⟩ := mem_of_field? declared
      rcases elsewhere with identifies | undeclared
      · exact absurd identifies different
      · exact absurd (List.mem_map.mpr ⟨field, member, named⟩) undeclared
    · rw [if_neg different, if_neg different, unset]
  · intro field member different
    have declared := EntityDescriptor.field?_of_mem distinct member
    have converted := converted_of_assembled different declared success
    rw [get?_withId, get?_withId, if_neg different, if_neg different, Entity.get?_empty,
      get?_updateMembers declared, get?_convertMembers declared, get?_overlayRow]
    cases present : Fields.get? field.name second with
    | some document =>
        simp only [if_neg different, declared, Option.map_some]
        exact .updated (mergeable field.name document present _ _ _ converted)
    | none =>
        simp only [Option.map_none]
        generalize Fields.get? field.name first = oldDocument at converted ⊢
        cases oldDocument with
        | none => exact .absent converted
        | some oldDocument =>
            obtain ⟨value, success, held⟩ := converted
            simp only [Option.map_some, success]
            exact .kept value held

theorem matches_replacing (conversion : Outcome Value) (old : Option Value) :
    Matches (replacing conversion old) conversion := by
  cases conversion with
  | ok value => exact .value value
  | error failure => exact .failed failure old

theorem matches_of_mergeOutcome {result : Outcome Unit × Entity} {outcome : Outcome Entity}
    (same : mergeOutcome result = outcome) :
    Matches (result.1, some result.2.toValue) (outcome.map Entity.toValue) := by
  obtain ⟨done | failure, merged⟩ := result
  all_goals
    rw [← same]
  · exact .failed _ _
  · exact .value _

/-- Where an entity is expected only an object becomes one, and only null becomes something else. -/
theorem converted_entity {place : Place} {oldDocument : Option Json} {old : Option Value}
    (kind : place.kind = .entity name) (converted : registry.Converted place oldDocument old) :
    (∃ oldMembers nested assembled, oldDocument = some (.object oldMembers) ∧
      registry.get? name = some nested ∧
      assemble (registry.convertMembers nested oldMembers) nested.fields
        (withId oldMembers (Entity.empty name)) = .ok assembled ∧
      old = some assembled.toValue) ∨
    ((∀ oldMembers, oldDocument ≠ some (.object oldMembers)) ∧
      (old = none ∨ old = some .null)) := by
  cases oldDocument with
  | none => exact .inr ⟨by simp, .inl converted⟩
  | some oldDocument =>
      obtain ⟨value, success, rfl⟩ := converted
      rcases null_or_object_of_convert kind success with
        ⟨rfl, rfl⟩ | ⟨oldMembers, nested, assembled, rfl, registered, assembling, rfl⟩
      · exact .inr ⟨by simp, .inr rfl⟩
      · exact .inl ⟨oldMembers, nested, assembled, rfl, registered, assembling, rfl⟩

theorem mergeable_object (accepted : registry.Accepted) {members : List (String × Json)}
    (mergeable : ∀ name document, Fields.get? name members = some document →
      registry.Mergeable document) : registry.Mergeable (.object members) := by
  intro place oldDocument old converted
  cases kind : place.kind with
  | entity name =>
      rcases converted_entity kind converted with
        ⟨oldMembers, nested, assembled, rfl, registered, success, rfl⟩ | ⟨noObject, absent⟩
      · have distinct :=
          EntityDescriptor.nodup_of_faultless (accepted.faultless registered).2
        have merged := mergeOutcome_eq_assemble distinct success mergeable
        have overlaid : registry.overlay (.entity name) (some (.object oldMembers))
            (.object members) = .object (registry.overlayRow nested oldMembers members) := by
          simp only [overlay, registered]
        rw [overlaid, convert, update]
        simp only [kind, registered, Entity.toValue]
        exact matches_of_mergeOutcome merged
      · rw [overlay_of_fresh fun _ oldMembers _ => noObject oldMembers, update, kind]
        rcases absent with rfl | rfl
        · exact matches_replacing _ none
        · exact matches_replacing _ (some .null)
  | _ =>
      rw [overlay_of_fresh (by simp), update]
      simp only [kind]
      exact matches_replacing _ old

theorem mergeable_of_accepted (accepted : registry.Accepted) (document : Json) :
    registry.Mergeable document := by
  induction document using Json.nestedInduction with
  | object members inductionHypothesis => exact mergeable_object accepted inductionHypothesis
  | _ => exact fun _ _ old _ => matches_replacing _ old

/-- Merging a second row into the entity of a first one is materializing the second row put over the
first one, and it fails as that does. -/
theorem merge_eq_materialize_overlay (accepted : registry.Accepted) {entity : String}
    (registered : registry.get? entity = some descriptor) {first : Row} {assembled : Entity}
    (materialized : registry.materialize entity first = .ok assembled) (second : Row) :
    mergeOutcome (registry.merge second assembled) =
      registry.materialize entity (registry.overlayRow descriptor first second) := by
  rw [materialize, registered] at materialized ⊢
  have sameName : assembled.name = entity := by
    rw [name_assemble materialized, name_withId]
    rfl
  have distinct := EntityDescriptor.nodup_of_faultless (accepted.faultless registered).2
  rw [merge, sameName, registered]
  exact mergeOutcome_eq_assemble distinct materialized fun _ document _ =>
    mergeable_of_accepted accepted document

def address : EntityDescriptor :=
  ⟨"Address", [{ name := "city", kind := .string }, { name := "zip", kind := .string }]⟩

def resident : EntityDescriptor :=
  ⟨"Resident", [{ name := "home", kind := .entity "Address" }]⟩

def residents : Registry := ⟨[("Address", address), ("Resident", resident)]⟩

/-- A new city is merged into a home, which keeps its zip. -/
theorem merge_of_new_city :
    residents.Accepted ∧ residents.get? "Resident" = some resident ∧
    residents.materialize "Resident"
        [("home", .object [("city", .string "Turin"), ("zip", .string "1")])] =
      .ok ⟨"Resident", [("home", .entity "Address"
        [("city", .string "Turin"), ("zip", .string "1")])]⟩ ∧
    mergeOutcome (residents.merge [("home", .object [("city", .string "Rome")])]
        ⟨"Resident", [("home", .entity "Address"
          [("city", .string "Turin"), ("zip", .string "1")])]⟩) =
      .ok ⟨"Resident", [("home", .entity "Address"
        [("city", .string "Rome"), ("zip", .string "1")])]⟩ := by
  have withAddress : Registry.empty.register address = .ok ⟨[("Address", address)]⟩ := rfl
  have withBoth : Registry.register ⟨[("Address", address)]⟩ resident = .ok residents := rfl
  have accepted : residents.Accepted := .register (.register .empty withAddress) withBoth
  have registered : residents.get? "Resident" = some resident := rfl
  have materialized : residents.materialize "Resident"
      [("home", .object [("city", .string "Turin"), ("zip", .string "1")])] =
        .ok ⟨"Resident", [("home", .entity "Address"
          [("city", .string "Turin"), ("zip", .string "1")])]⟩ := rfl
  refine ⟨accepted, registered, materialized, ?_⟩
  rw [merge_eq_materialize_overlay accepted registered materialized]
  rfl

end Registry

end EntityCursor
