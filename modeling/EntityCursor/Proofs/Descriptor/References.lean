import EntityCursor.Proofs.Descriptor.Merging

/-!
What validating a registry is for: every reference leads to a registered entity, so that rows are
refused for the types of their members only, whether they are materialized or merged.
-/

namespace EntityCursor

/-- A failure for a member that does not have the declared type. -/
inductive QueryError.IsMismatch : QueryError → Prop where
  | intro (entity field : String) (expected : FieldKind) (actual : Json) :
      IsMismatch (.typeMismatch entity field expected actual)

namespace Registry

open Outcome (FailsOnly)
open QueryError (IsMismatch)

variable {registry : Registry} {descriptor : EntityDescriptor}

/-- What a kind refers to is registered. -/
def Resolves (registry : Registry) (kind : FieldKind) : Prop :=
  ∀ target, kind.reference? = some target → registry.contains target

/-- The entities that a registry knows refer to registered entities only. -/
def IsClosed (registry : Registry) : Prop :=
  ∀ name descriptor, registry.get? name = some descriptor →
    ∀ field ∈ descriptor.fields, registry.Resolves field.kind

theorem isClosed_of_validate (valid : registry.validate = .ok ()) : registry.IsClosed := by
  intro name descriptor registered field declared target refers
  rw [validate] at valid
  split at valid
  · cases valid
  · next noneDangling => exact contains_of_noneDangling noneDangling registered declared refers

/-! Failing only for mismatches. -/

theorem exists_field? {field : FieldDescriptor} (declared : field ∈ descriptor.fields) :
    ∃ found ∈ descriptor.fields, descriptor.field? field.name = some found := by
  cases search : descriptor.field? field.name with
  | none =>
      have different := List.find?_eq_none.mp search field declared
      simp at different
  | some found => exact ⟨found, List.mem_of_find?_eq_some search, rfl⟩

theorem failsOnly_mismatch (place : Place) (actual : Json) {Result : Type} :
    FailsOnly IsMismatch (.error (place.mismatch actual) : Outcome Result) :=
  .error (.intro _ _ _ _)

variable {allowed : QueryError → Prop}

theorem failsOnly_assemble {conversions : List (String × Outcome Value)}
    {fields : List FieldDescriptor} (target : Entity)
    (each : ∀ field ∈ fields, field.name ≠ idField →
      ∀ conversion, Fields.get? field.name conversions = some conversion →
      FailsOnly allowed conversion) :
    FailsOnly allowed (assemble conversions fields target) := by
  induction fields generalizing target with
  | nil => exact .ok target
  | cons field rest inductionHypothesis =>
      have later (target : Entity) : FailsOnly allowed (assemble conversions rest target) :=
        inductionHypothesis target fun other member =>
          each other (List.mem_cons_of_mem _ member)
      have first := each field List.mem_cons_self
      rw [assemble]
      split
      · exact later target
      · next declared =>
          cases found : Fields.get? field.name conversions with
          | none => exact later target
          | some conversion =>
              cases conversion with
              | ok value => exact later _
              | error failure => exact .error (first declared _ found failure rfl)

theorem exists_assembled {conversions : List (String × Outcome Value)}
    {fields : List FieldDescriptor}
    (each : ∀ field ∈ fields, field.name ≠ idField →
      ∀ conversion, Fields.get? field.name conversions = some conversion →
      ∃ value, conversion = .ok value) (target : Entity) :
    ∃ assembled, assemble conversions fields target = .ok assembled := by
  have neverFails : FailsOnly (fun _ => False) (assemble conversions fields target) := by
    apply failsOnly_assemble
    intro field member different conversion found
    obtain ⟨value, rfl⟩ := each field member different conversion found
    exact .ok value
  cases outcome : assemble conversions fields target with
  | error failure => exact (neverFails failure outcome).elim
  | ok assembled => exact ⟨assembled, rfl⟩

theorem failsOnly_applyUpdates {updates : List (String × Update)} {fields : List FieldDescriptor}
    (target : Entity)
    (each : ∀ field ∈ fields, ∀ update, Fields.get? field.name updates = some update →
      ∀ old, FailsOnly allowed (update old).1) :
    FailsOnly allowed (applyUpdates updates fields target).1 := by
  induction fields generalizing target with
  | nil => exact .ok ()
  | cons field rest inductionHypothesis =>
      have later (target : Entity) : FailsOnly allowed (applyUpdates updates rest target).1 :=
        inductionHypothesis target fun other member =>
          each other (List.mem_cons_of_mem _ member)
      have first := each field List.mem_cons_self
      rw [applyUpdates]
      split
      · exact later target
      · cases found : Fields.get? field.name updates with
        | none => exact later target
        | some update =>
            have updated := first update found (target.get? field.name)
            dsimp only
            rcases outcome : (update (target.get? field.name)) with ⟨failure | done, value⟩
            · rw [outcome] at updated
              exact .error (updated failure rfl)
            · exact later _

/-- The documents that are refused as mismatches only, at places whose references are registered. -/
def RefusesMismatches (registry : Registry) (document : Json) : Prop :=
  ∀ place : Place, registry.Resolves place.kind →
    FailsOnly IsMismatch (registry.convert place document)

theorem failsOnly_convertMembers (closed : registry.IsClosed) {name : String}
    (registered : registry.get? name = some descriptor) {row : Row}
    (refuses : ∀ member document, Fields.get? member row = some document →
      registry.RefusesMismatches document) (target : Entity) :
    FailsOnly IsMismatch
      (assemble (registry.convertMembers descriptor row) descriptor.fields target) := by
  apply failsOnly_assemble
  intro field declared _ conversion found
  obtain ⟨same, sameDeclared, search⟩ := exists_field? declared
  rw [get?_convertMembers search] at found
  obtain ⟨document, present, rfl⟩ := Option.map_eq_some_iff.mp found
  exact refuses _ document present _ (closed name descriptor registered same sameDeclared)

theorem failsOnly_convertItems {place : Place} {element : FieldKind}
    (resolves : registry.Resolves element) {items : List Json}
    (refuses : ∀ item ∈ items, registry.RefusesMismatches item) (position : Nat) :
    FailsOnly IsMismatch (registry.convertItems place element position items) := by
  induction items generalizing position with
  | nil => exact .ok []
  | cons item rest inductionHypothesis =>
      have first := refuses item List.mem_cons_self (place.item position element) resolves
      have later := inductionHypothesis (fun other member =>
        refuses other (List.mem_cons_of_mem _ member)) (position + 1)
      rw [convertItems]
      exact first.bind fun value _ => later.bind fun others _ => .ok _

theorem failsOnly_scalar {place : Place} {document : Json} :
    FailsOnly IsMismatch
      (match scalarOfJson? place.kind document with
        | some value => .ok value
        | none => .error (place.mismatch document)) := by
  split
  · exact .ok _
  · exact failsOnly_mismatch place document

theorem refusesMismatches (closed : registry.IsClosed) (document : Json) :
    registry.RefusesMismatches document := by
  intro place resolves
  induction document using Json.nestedInduction generalizing place with
  | null =>
      rw [convert]
      split
      · exact .ok Value.null
      · exact failsOnly_mismatch place .null
  | array items inductionHypothesis =>
      rw [convert]
      split
      · next element kind =>
          have resolvesElement : registry.Resolves element := by
            intro target refers
            exact resolves target (by rw [kind]; exact refers)
          exact (failsOnly_convertItems resolvesElement inductionHypothesis 0).map _
      · split
        · exact .ok _
        · exact failsOnly_mismatch place _
  | object members inductionHypothesis =>
      rw [convert]
      split
      · next name kind =>
          have known := resolves name (by rw [kind]; rfl)
          split
          · next unknown => simp [contains, unknown] at known
          · next descriptor registered =>
              exact (failsOnly_convertMembers closed registered inductionHypothesis _).map _
      · exact failsOnly_mismatch place _
  | bool flag => exact failsOnly_scalar
  | integer number => exact failsOnly_scalar
  | double number => exact failsOnly_scalar
  | string text => exact failsOnly_scalar

theorem failsOnly_replacing {conversion : Outcome Value} (refuses : FailsOnly allowed conversion)
    (old : Option Value) : FailsOnly allowed (replacing conversion old).1 := by
  cases conversion with
  | ok value => exact .ok ()
  | error failure => exact .error (refuses failure rfl)

theorem failsOnly_updateMembers (closed : registry.IsClosed) {name : String}
    (registered : registry.get? name = some descriptor) {row : Row}
    (refuses : ∀ member document, Fields.get? member row = some document → ∀ place : Place,
      registry.Resolves place.kind → ∀ old,
      FailsOnly IsMismatch (registry.update place document old).1)
    (target : Entity) :
    FailsOnly IsMismatch
      (applyUpdates (registry.updateMembers descriptor row) descriptor.fields target).1 := by
  apply failsOnly_applyUpdates
  intro field declared update found
  obtain ⟨same, sameDeclared, search⟩ := exists_field? declared
  rw [get?_updateMembers search] at found
  obtain ⟨document, present, rfl⟩ := Option.map_eq_some_iff.mp found
  exact refuses _ document present _ (closed name descriptor registered same sameDeclared)

theorem failsOnly_update (closed : registry.IsClosed) (document : Json) {place : Place}
    (resolves : registry.Resolves place.kind) (old : Option Value) :
    FailsOnly IsMismatch (registry.update place document old).1 := by
  induction document using Json.nestedInduction generalizing place old with
  | object members inductionHypothesis =>
      have replaced := failsOnly_replacing
        (refusesMismatches closed (.object members) place resolves)
      rw [update]
      cases kind : place.kind with
      | entity name =>
          have known := resolves name (by rw [kind]; rfl)
          dsimp only
          split
          · split
            · next unknown => simp [contains, unknown] at known
            · next descriptor registered =>
                exact failsOnly_updateMembers closed registered
                  (fun member document present place resolves old =>
                    inductionHypothesis member document present resolves old) _
          · exact replaced old
      | _ => exact replaced old
  | null => exact failsOnly_replacing (refusesMismatches closed _ place resolves) old
  | bool flag => exact failsOnly_replacing (refusesMismatches closed _ place resolves) old
  | integer number => exact failsOnly_replacing (refusesMismatches closed _ place resolves) old
  | double number => exact failsOnly_replacing (refusesMismatches closed _ place resolves) old
  | string text => exact failsOnly_replacing (refusesMismatches closed _ place resolves) old
  | array items _ => exact failsOnly_replacing (refusesMismatches closed _ place resolves) old

theorem failsOnly_materialize (closed : registry.IsClosed) {entity : String}
    (known : registry.contains entity) (row : Row) :
    FailsOnly IsMismatch (registry.materialize entity row) := by
  rw [materialize]
  split
  · next unknown => simp [contains, unknown] at known
  · next descriptor registered =>
      exact failsOnly_convertMembers closed registered
        (fun _ document _ => refusesMismatches closed document) _

theorem failsOnly_merge (closed : registry.IsClosed) {target : Entity}
    (known : registry.contains target.name) (row : Row) :
    FailsOnly IsMismatch (registry.merge row target).1 := by
  rw [merge]
  split
  · next unknown => simp [contains, unknown] at known
  · next descriptor registered =>
      exact failsOnly_updateMembers closed registered
        (fun _ document _ _ resolves old => failsOnly_update closed document resolves old) _

end Registry

end EntityCursor
