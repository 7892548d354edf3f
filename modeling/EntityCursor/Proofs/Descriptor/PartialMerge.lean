import EntityCursor.Proofs.Descriptor.Conformity
import EntityCursor.Proofs.Descriptor.References

/-!
What a merge leaves behind, whether it ends or stops at a failure. Merging goes through the declared
fields one by one, and what one field comes to carries over to all of them: an entity that conforms
to its descriptor still conforms, at whatever depth a member was refused. Up to the field at which a
merge stops, the entity is that of merging a row without the members from that field on. The fields
behind it are as they were.
-/

namespace EntityCursor

namespace Registry

variable {registry : Registry} {descriptor : EntityDescriptor} {entity : String}

/-! The fields one by one. -/

section Updates

variable {updates : List (String × Update)} {field : FieldDescriptor}
  {fields : List FieldDescriptor} {target : Entity}

/-- What updating one field comes to: an outcome, and the entity that is left. -/
inductive UpdateStep (updates : List (String × Update)) (field : FieldDescriptor)
    (target : Entity) : Outcome Unit → Entity → Prop where
  | passed : field.name = idField ∨ Fields.get? field.name updates = none →
      UpdateStep updates field target (.ok ()) target
  | unset {update : Update} {outcome : Outcome Unit} : field.name ≠ idField →
      Fields.get? field.name updates = some update →
      update (target.get? field.name) = (outcome, none) →
      UpdateStep updates field target outcome target
  | set {update : Update} {outcome : Outcome Unit} {value : Value} : field.name ≠ idField →
      Fields.get? field.name updates = some update →
      update (target.get? field.name) = (outcome, some value) →
      UpdateStep updates field target outcome (target.set field.name value)

def andThen (result : Outcome Unit × Entity) (later : Entity → Outcome Unit × Entity) :
    Outcome Unit × Entity :=
  match result with
  | (.ok (), next) => later next
  | (.error failure, left) => (.error failure, left)

@[simp]
theorem andThen_done (result : Outcome Unit × Entity) :
    andThen result (fun next => (.ok (), next)) = result := by
  obtain ⟨failure | done, left⟩ := result
  · rfl
  · rfl

theorem exists_updateStep (updates : List (String × Update)) (field : FieldDescriptor)
    (target : Entity) :
    ∃ outcome next, UpdateStep updates field target outcome next ∧
      ∀ rest, applyUpdates updates (field :: rest) target =
        andThen (outcome, next) (applyUpdates updates rest) := by
  simp only [applyUpdates]
  split
  · next identifies => exact ⟨_, _, .passed (.inl identifies), fun _ => rfl⟩
  · next different =>
      split
      · next missing => exact ⟨_, _, .passed (.inr missing), fun _ => rfl⟩
      · next update found =>
          rcases result : update (target.get? field.name) with ⟨outcome, none | value⟩
          · exact ⟨_, _, .unset different found result, fun _ => by cases outcome <;> rfl⟩
          · exact ⟨_, _, .set different found result, fun _ => by cases outcome <;> rfl⟩

/-- What every update of a field keeps, updating all of them keeps, up to a failure too. -/
theorem applyUpdates_induction {motive : Entity → Prop}
    (step : ∀ field ∈ fields, ∀ target outcome next,
      UpdateStep updates field target outcome next → motive target → motive next)
    (initial : motive target) : motive (applyUpdates updates fields target).2 := by
  induction fields generalizing target with
  | nil => exact initial
  | cons field rest inductionHypothesis =>
      obtain ⟨outcome, next, first, run⟩ := exists_updateStep updates field target
      have kept := step field List.mem_cons_self target outcome next first initial
      rw [run]
      cases outcome with
      | error failure => exact kept
      | ok done =>
          exact inductionHypothesis
            (fun other member => step other (List.mem_cons_of_mem _ member)) kept

theorem applyUpdates_append (updates : List (String × Update))
    (before after : List FieldDescriptor) (target : Entity) :
    applyUpdates updates (before ++ after) target =
      andThen (applyUpdates updates before target) (applyUpdates updates after) := by
  induction before generalizing target with
  | nil => rfl
  | cons field rest inductionHypothesis =>
      obtain ⟨outcome, next, _, run⟩ := exists_updateStep updates field target
      rw [List.cons_append, run, run]
      cases outcome with
      | error failure => rfl
      | ok done => exact inductionHypothesis next

theorem applyUpdates_of_passed
    (passed : ∀ field ∈ fields, field.name = idField ∨ Fields.get? field.name updates = none)
    (target : Entity) : applyUpdates updates fields target = (.ok (), target) := by
  induction fields with
  | nil => rfl
  | cons field rest inductionHypothesis =>
      have later := inductionHypothesis fun other member =>
        passed other (List.mem_cons_of_mem _ member)
      rw [applyUpdates]
      split
      · exact later
      · next different =>
          rw [(passed field List.mem_cons_self).resolve_left different]
          exact later

theorem applyUpdates_congr {others : List (String × Update)}
    (same : ∀ field ∈ fields, field.name ≠ idField →
      Fields.get? field.name updates = Fields.get? field.name others) (target : Entity) :
    applyUpdates updates fields target = applyUpdates others fields target := by
  induction fields generalizing target with
  | nil => rfl
  | cons field rest inductionHypothesis =>
      have later : applyUpdates updates rest = applyUpdates others rest :=
        funext (inductionHypothesis fun other member => same other (List.mem_cons_of_mem _ member))
      rw [applyUpdates, applyUpdates, later]
      split
      · rfl
      · next different => rw [same field List.mem_cons_self different]

/-- A failure is met at one of the fields, after updating the fields before it. -/
theorem applyUpdates_stopped {failure : QueryError} {left : Entity}
    (failed : applyUpdates updates fields target = (.error failure, left)) :
    ∃ before field after reached, fields = before ++ field :: after ∧
      applyUpdates updates before target = (.ok (), reached) ∧
      UpdateStep updates field reached (.error failure) left ∧
      applyUpdates updates (before ++ [field]) target = (.error failure, left) := by
  induction fields generalizing target with
  | nil => cases failed
  | cons field rest inductionHypothesis =>
      obtain ⟨outcome, next, step, run⟩ := exists_updateStep updates field target
      rw [run] at failed
      cases outcome with
      | error _ =>
          cases failed
          exact ⟨[], field, rest, target, rfl, rfl, step, run []⟩
      | ok done =>
          obtain ⟨before, stopped, after, reached, rfl, earlier, stop, whole⟩ :=
            inductionHypothesis failed
          refine ⟨field :: before, stopped, after, reached, rfl, ?_, stop, ?_⟩
          · rw [run]
            exact earlier
          · rw [List.cons_append, run]
            exact whole

namespace UpdateStep

variable {outcome : Outcome Unit} {next : Entity} {name : String}

theorem name_eq (step : UpdateStep updates field target outcome next) :
    next.name = target.name := by
  cases step <;> rfl

theorem get?_of_ne (step : UpdateStep updates field target outcome next)
    (different : name ≠ field.name) : next.get? name = target.get? name := by
  cases step with
  | passed _ => rfl
  | unset _ _ _ => rfl
  | set _ _ _ => rw [Entity.get?_set, if_neg different]

theorem get?_of_absent (step : UpdateStep updates field target outcome next)
    (absent : Fields.get? name updates = none) : next.get? name = target.get? name := by
  cases step with
  | passed _ => rfl
  | unset _ _ _ => rfl
  | set _ found _ =>
      have different : name ≠ field.name := by
        rintro rfl
        cases absent.symm.trans found
      rw [Entity.get?_set, if_neg different]

theorem name_ne_idField {failure : QueryError} {left : Entity}
    (step : UpdateStep updates field target (.error failure) left) : field.name ≠ idField := by
  cases step with
  | unset different _ _ => exact different
  | set different _ _ => exact different

end UpdateStep

theorem get?_applyUpdates_of_absent {name : String} (absent : Fields.get? name updates = none)
    (fields : List FieldDescriptor) (target : Entity) :
    (applyUpdates updates fields target).2.get? name = target.get? name :=
  applyUpdates_induction (motive := fun entity => entity.get? name = target.get? name)
    (fun _ _ _ _ _ step kept => (step.get?_of_absent absent).trans kept) rfl

theorem get?_applyUpdates_of_not_mem {name : String} (elsewhere : name ∉ fields.map (·.name))
    (updates : List (String × Update)) (target : Entity) :
    (applyUpdates updates fields target).2.get? name = target.get? name := by
  apply applyUpdates_induction (motive := fun entity => entity.get? name = target.get? name)
  · intro field member _ _ _ step kept
    have different : name ≠ field.name := by
      rintro rfl
      exact elsewhere (List.mem_map.mpr ⟨field, member, rfl⟩)
    exact (step.get?_of_ne different).trans kept
  · rfl

end Updates

/-! Conforming entities. -/

/-- The values that may stand at a place. -/
def Suits (registry : Registry) (place : Place) (value : Value) : Prop :=
  value = .null ∧ place.isOptional = true ∨ registry.HasKind place.kind value

theorem hasField_iff_suits {name : String} {field : FieldDescriptor} {value : Value}
    (different : name ≠ idField) (declared : descriptor.field? name = some field) :
    registry.HasField descriptor name value ↔
      registry.Suits (Place.ofField descriptor.name field) value := by
  constructor
  · intro held
    cases held with
    | identifier => exact absurd rfl different
    | unknown found optional =>
        cases declared.symm.trans found
        exact .inl ⟨rfl, optional⟩
    | known found ofKind =>
        cases declared.symm.trans found
        exact .inr ofKind
  · rintro (⟨rfl, optional⟩ | ofKind)
    · exact .unknown declared optional
    · exact .known declared ofKind

/-- Every field that is set may be set to its value. -/
def HasFields (registry : Registry) (descriptor : EntityDescriptor) (target : Entity) : Prop :=
  ∀ name value, target.get? name = some value → registry.HasField descriptor name value

theorem HasFields.set {target : Entity} (conforming : registry.HasFields descriptor target)
    {name : String} {value : Value} (suits : registry.HasField descriptor name value) :
    registry.HasFields descriptor (target.set name value) := by
  intro other held
  rw [Entity.get?_set]
  split
  · next same =>
      rintro ⟨⟩
      rw [same]
      exact suits
  · exact conforming other held

theorem hasKind_entity_iff {target : Entity}
    (registered : registry.get? entity = some descriptor) :
    registry.HasKind (.entity entity) target.toValue ↔
      target.name = entity ∧ registry.HasFields descriptor target := by
  obtain ⟨name, fields⟩ := target
  constructor
  · intro conforming
    cases conforming with
    | entity found held =>
        cases registered.symm.trans found
        exact ⟨rfl, held⟩
  · rintro ⟨rfl, held⟩
    exact .entity registered held

/-- The documents that leave a value which may stand at its place, if there was one before or none.
-/
def Keeps (registry : Registry) (document : Json) : Prop :=
  ∀ place old, (∀ value, old = some value → registry.Suits place value) →
    ∀ value, (registry.update place document old).2 = some value → registry.Suits place value

theorem keeps_replacing {place : Place} {document : Json} {old : Option Value}
    (suits : ∀ value, old = some value → registry.Suits place value) {value : Value}
    (left : (replacing (registry.convert place document) old).2 = some value) :
    registry.Suits place value := by
  cases converted : registry.convert place document with
  | ok new =>
      rw [converted] at left
      cases left
      exact conforms registry document place value converted
  | error failure =>
      rw [converted] at left
      exact suits value left

section Rows

variable {row : Row}
  (keeps : ∀ name document, Fields.get? name row = some document → registry.Keeps document)

include keeps

theorem hasFields_of_updateStep {field : FieldDescriptor} (member : field ∈ descriptor.fields)
    {target next : Entity} {outcome : Outcome Unit}
    (step : UpdateStep (registry.updateMembers descriptor row) field target outcome next)
    (conforming : registry.HasFields descriptor target) :
    registry.HasFields descriptor next := by
  cases step with
  | passed _ => exact conforming
  | unset _ _ _ => exact conforming
  | @set update outcome value different found result =>
      obtain ⟨_, _, declared⟩ := exists_field? member
      rw [get?_updateMembers declared] at found
      obtain ⟨document, present, rfl⟩ := Option.map_eq_some_iff.mp found
      apply conforming.set
      rw [hasField_iff_suits different declared]
      have left := congrArg Prod.snd result
      refine keeps field.name document present _ _ ?_ value left
      intro old held
      exact (hasField_iff_suits different declared).mp (conforming field.name old held)

theorem hasFields_of_updateMembers {target : Entity}
    (conforming : registry.HasFields descriptor target) :
    registry.HasFields descriptor
      (applyUpdates (registry.updateMembers descriptor row) descriptor.fields
        (withId row target)).2 := by
  have identified : registry.HasFields descriptor (withId row target) := by
    rw [withId]
    split
    · exact conforming.set (.identifier descriptor _)
    · exact conforming
  exact applyUpdates_induction
    (fun _ member _ _ _ step kept => hasFields_of_updateStep keeps member step kept) identified

end Rows

@[simp]
theorem name_applyUpdates (updates : List (String × Update)) (fields : List FieldDescriptor)
    (target : Entity) : (applyUpdates updates fields target).2.name = target.name :=
  applyUpdates_induction (motive := fun entity => entity.name = target.name)
    (fun _ _ _ _ _ step kept => step.name_eq.trans kept) rfl

/-- An object that is merged into a nested entity leaves one that conforms, even if it is refused
half-way. -/
theorem keeps_object {members : List (String × Json)}
    (keeps : ∀ name document, Fields.get? name members = some document →
      registry.Keeps document) : registry.Keeps (.object members) := by
  intro place old suits value left
  cases kind : place.kind with
  | entity name =>
      simp only [update, kind] at left
      split at left
      · next oldName fields =>
          have nested : registry.HasKind (.entity name) (Entity.mk oldName fields).toValue := by
            rw [← kind]
            rcases suits _ rfl with ⟨isNull, _⟩ | ofKind
            · cases isNull
            · exact ofKind
          split at left
          · exact suits value left
          · next descriptor registered =>
              obtain ⟨named, conforming⟩ := (hasKind_entity_iff registered).mp nested
              cases left
              refine .inr ?_
              rw [kind, hasKind_entity_iff registered, name_applyUpdates, name_withId]
              exact ⟨named, hasFields_of_updateMembers keeps conforming⟩
      · exact keeps_replacing suits left
  | _ =>
      simp only [update, kind] at left
      exact keeps_replacing suits left

theorem keeps (document : Json) : registry.Keeps document := by
  induction document using Json.nestedInduction with
  | object members inductionHypothesis => exact keeps_object inductionHypothesis
  | _ => exact fun _ _ suits _ left => keeps_replacing suits left

/-! Where a merge stops. -/

/-- The identifier of a row and its members for the listed fields. -/
def restrictedTo (listed : List FieldDescriptor) (row : Row) : Row :=
  row.filter fun member => member.1 = idField ∨ member.1 ∈ listed.map (·.name)

@[simp]
theorem get?_restrictedTo (listed : List FieldDescriptor) (row : Row) (name : String) :
    Fields.get? name (restrictedTo listed row) =
      if name = idField ∨ name ∈ listed.map (·.name) then Fields.get? name row else none := by
  have kept := Fields.get?_filter
    (fun name => decide (name = idField ∨ name ∈ listed.map (·.name))) name row
  rw [restrictedTo]
  simpa only [decide_eq_true_eq] using kept

theorem get?_updateMembers_of_absent {row : Row} {name : String}
    (absent : Fields.get? name row = none) :
    Fields.get? name (registry.updateMembers descriptor row) = none := by
  rw [updateMembers_eq_mapKnown, Fields.get?_mapKnown, absent]
  cases descriptor.field? name with
  | none => rfl
  | some field => rfl

theorem get?_updateMembers_restrictedTo {name : String} {field : FieldDescriptor}
    (declared : descriptor.field? name = some field) (listed : List FieldDescriptor) (row : Row) :
    Fields.get? name (registry.updateMembers descriptor (restrictedTo listed row)) =
      if name = idField ∨ name ∈ listed.map (·.name) then
        Fields.get? name (registry.updateMembers descriptor row)
      else none := by
  rw [get?_updateMembers declared, get?_updateMembers declared, get?_restrictedTo]
  split
  · rfl
  · rfl

/-- Merging the members for the first fields only is updating these fields. -/
theorem merge_restrictedTo (accepted : registry.Accepted) {target : Entity}
    (registered : registry.get? target.name = some descriptor)
    {before after : List FieldDescriptor} (declared : descriptor.fields = before ++ after)
    (row : Row) :
    registry.merge (restrictedTo before row) target =
      applyUpdates (registry.updateMembers descriptor row) before (withId row target) := by
  have distinct := EntityDescriptor.nodup_of_faultless (accepted.faultless registered).2
  have found : ∀ field ∈ before ++ after, descriptor.field? field.name = some field := by
    rw [← declared]
    exact fun field member => EntityDescriptor.field?_of_mem distinct member
  rw [declared, List.map_append] at distinct
  have apart := (List.nodup_append.mp distinct).2.2
  have sameId : withId (restrictedTo before row) target = withId row target := by
    apply withId_congr
    rw [get?_restrictedTo, if_pos (.inl rfl)]
  have sameBefore : applyUpdates (registry.updateMembers descriptor (restrictedTo before row))
      before = applyUpdates (registry.updateMembers descriptor row) before := by
    funext target
    apply applyUpdates_congr
    intro field member _
    rw [get?_updateMembers_restrictedTo (found field (List.mem_append_left _ member)),
      if_pos (.inr (List.mem_map.mpr ⟨field, member, rfl⟩))]
  have passedAfter : applyUpdates (registry.updateMembers descriptor (restrictedTo before row))
      after = fun target => (.ok (), target) := by
    funext target
    apply applyUpdates_of_passed
    intro field member
    by_cases identifies : field.name = idField
    · exact .inl identifies
    · right
      have behind : field.name ∉ before.map (·.name) := fun isBefore =>
        apart field.name isBefore field.name (List.mem_map.mpr ⟨field, member, rfl⟩) rfl
      rw [get?_updateMembers_restrictedTo (found field (List.mem_append_right _ member)),
        if_neg (not_or.mpr ⟨identifies, behind⟩)]
  simp only [merge, registered]
  rw [sameId, declared, applyUpdates_append, sameBefore, passedAfter, andThen_done]

/-- A merge stopped at a field of its descriptor: it comes to what merging the members up to this
field comes to. -/
structure StopsAt (registry : Registry) (row : Row) (target left : Entity)
    (failure : QueryError) (before : List FieldDescriptor) (field : FieldDescriptor)
    (after : List FieldDescriptor) : Prop where
  different : field.name ≠ idField
  stops : registry.merge (restrictedTo (before ++ [field]) row) target = (.error failure, left)
  passes : (registry.merge (restrictedTo before row) target).1 = .ok ()
  earlier : ∀ name, name = idField ∨ name ∈ before.map (·.name) →
    left.get? name = (registry.merge (restrictedTo before row) target).2.get? name
  later : ∀ other ∈ after, other.name ≠ idField → left.get? other.name = target.get? other.name

theorem exists_stopsAt (accepted : registry.Accepted) {target left : Entity}
    (registered : registry.get? target.name = some descriptor) {row : Row} {failure : QueryError}
    (failed : registry.merge row target = (.error failure, left)) :
    ∃ before field after, descriptor.fields = before ++ field :: after ∧
      registry.StopsAt row target left failure before field after := by
  simp only [merge, registered] at failed
  obtain ⟨before, field, after, reached, declared, passes, step, stops⟩ :=
    applyUpdates_stopped failed
  have distinct := EntityDescriptor.nodup_of_faultless (accepted.faultless registered).2
  rw [declared, List.map_append, List.map_cons] at distinct
  obtain ⟨_, distinctRest, apart⟩ := List.nodup_append.mp distinct
  have earlierMerge : registry.merge (restrictedTo before row) target = (.ok (), reached) := by
    rw [merge_restrictedTo accepted registered declared, passes]
  have throughField : descriptor.fields = (before ++ [field]) ++ after := by simp [declared]
  refine ⟨before, field, after, declared, step.name_ne_idField, ?_, ?_, ?_, ?_⟩
  · rw [merge_restrictedTo accepted registered throughField, stops]
  · rw [earlierMerge]
  · intro name isEarlier
    have elsewhere : name ≠ field.name := by
      rcases isEarlier with rfl | member
      · exact step.name_ne_idField.symm
      · exact apart name member field.name List.mem_cons_self
    rw [earlierMerge]
    exact step.get?_of_ne elsewhere
  · intro other member different
    have elsewhere : other.name ≠ field.name := by
      intro same
      exact (List.nodup_cons.mp distinctRest).1 (same ▸ List.mem_map.mpr ⟨other, member, rfl⟩)
    have behind : other.name ∉ before.map (·.name) := fun isBefore =>
      apart other.name isBefore other.name
        (List.mem_cons_of_mem _ (List.mem_map.mpr ⟨other, member, rfl⟩)) rfl
    have unchanged := get?_applyUpdates_of_not_mem behind
      (registry.updateMembers descriptor row) (withId row target)
    rw [passes, get?_withId, if_neg different] at unchanged
    exact (step.get?_of_ne elsewhere).trans unchanged

/-- Whether a merge ends or stops, the entity conforms to its descriptor, and what the row says
nothing of is unchanged. A merge that stops has stopped at one of the declared fields. -/
theorem merge_conforms (accepted : registry.Accepted) {target merged : Entity}
    (registered : registry.get? target.name = some descriptor)
    (conforming : registry.HasKind (.entity target.name) target.toValue) {row : Row}
    {outcome : Outcome Unit} (merging : registry.merge row target = (outcome, merged)) :
    registry.HasKind (.entity target.name) merged.toValue ∧
    (∀ name, Fields.get? name row = none → merged.get? name = target.get? name) ∧
    ∀ failure, outcome = .error failure → ∃ before field after,
      descriptor.fields = before ++ field :: after ∧
      registry.StopsAt row target merged failure before field after := by
  have left : (applyUpdates (registry.updateMembers descriptor row) descriptor.fields
      (withId row target)).2 = merged := by
    have run := congrArg Prod.snd merging
    simpa only [merge, registered] using run
  refine ⟨?_, ?_, ?_⟩
  · have held := ((hasKind_entity_iff registered).mp conforming).2
    rw [hasKind_entity_iff registered, ← left, name_applyUpdates, name_withId]
    exact ⟨rfl, hasFields_of_updateMembers (fun _ document _ => keeps document) held⟩
  · intro name absent
    rw [← left, get?_applyUpdates_of_absent (get?_updateMembers_of_absent absent), get?_withId]
    split
    · next identifies =>
        rw [identifies] at absent
        rw [absent, Option.map_none, Option.none_or]
    · rfl
  · rintro failure rfl
    exact exists_stopsAt accepted registered merging

def household : EntityDescriptor :=
  ⟨"Household", [{ name := "head", kind := .string }, { name := "home", kind := .entity "Address" },
    { name := "rooms", kind := .number }]⟩

def households : Registry := ⟨[("Address", address), ("Household", household)]⟩

def householdOf (head city : String) : Entity :=
  ⟨"Household", [("head", .string head),
    ("home", .entity "Address" [("city", .string city), ("zip", .string "1")]),
    ("rooms", .number (Binary64.ofInt 3))]⟩

def movingRow : Row :=
  [("head", .string "Eve"), ("home", .object [("city", .string "Rome"), ("zip", .integer 5)]),
    ("rooms", .integer 4)]

/-- The merge stops at the zip of the new home. The head of the household and the city are new, and
the number of rooms is the old one. -/
theorem merge_of_moving :
    households.Accepted ∧ households.get? "Household" = some household ∧
    households.HasKind (.entity "Household") (householdOf "Ada" "Turin").toValue ∧
    households.merge movingRow (householdOf "Ada" "Turin") =
      (.error (.typeMismatch "Address" "zip" .string (.integer 5)), householdOf "Eve" "Rome") ∧
    households.HasKind (.entity "Household") (householdOf "Eve" "Rome").toValue ∧
    ∃ before field after, household.fields = before ++ field :: after ∧
      households.StopsAt movingRow (householdOf "Ada" "Turin") (householdOf "Eve" "Rome")
        (.typeMismatch "Address" "zip" .string (.integer 5)) before field after := by
  have withAddress : Registry.empty.register address = .ok ⟨[("Address", address)]⟩ := rfl
  have withBoth : Registry.register ⟨[("Address", address)]⟩ household = .ok households := rfl
  have accepted : households.Accepted := .register (.register .empty withAddress) withBoth
  have registered : households.get? "Household" = some household := rfl
  have materialized : households.materialize "Household"
      [("head", .string "Ada"),
        ("home", .object [("city", .string "Turin"), ("zip", .string "1")]),
        ("rooms", .integer 3)] = .ok (householdOf "Ada" "Turin") := rfl
  have conforming := hasKind_of_materialize materialized
  have merging : households.merge movingRow (householdOf "Ada" "Turin") =
      (.error (.typeMismatch "Address" "zip" .string (.integer 5)), householdOf "Eve" "Rome") := rfl
  obtain ⟨conforms, _, stops⟩ := merge_conforms accepted registered conforming merging
  exact ⟨accepted, registered, conforming, merging, conforms, stops _ rfl⟩

end Registry

end EntityCursor
