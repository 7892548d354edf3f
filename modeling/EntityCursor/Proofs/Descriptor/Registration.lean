import EntityCursor.Descriptor.Registry
import EntityCursor.Proofs.Fields

/-!
Registries that are built by registering. A descriptor is filed under its own name, and only if it
has no fault, so that its fields have different names.
-/

namespace EntityCursor

namespace EntityDescriptor

theorem fieldFault?_eq_none_iff {entity : String} {earlier : List String}
    {fields : List FieldDescriptor} :
    fieldFault? entity earlier fields = none ↔
      (∀ field ∈ fields, field.name ≠ "" ∧ field.name ∉ earlier) ∧
        (fields.map (·.name)).Nodup := by
  induction fields generalizing earlier with
  | nil => simp [fieldFault?]
  | cons field rest inductionHypothesis =>
      have laterNames : (∀ other ∈ rest, other.name ≠ field.name) ↔
          field.name ∉ rest.map (·.name) := by
        simp [eq_comm]
      rw [fieldFault?, List.forall_mem_cons, List.map_cons, List.nodup_cons, ← laterNames]
      by_cases nameless : field.name = ""
      · simp [nameless]
      · by_cases taken : field.name ∈ earlier
        · rw [if_neg nameless, if_pos taken]
          simp [taken]
        · rw [if_neg nameless, if_neg taken, inductionHypothesis]
          constructor
          · rintro ⟨names, distinct⟩
            refine ⟨⟨⟨nameless, taken⟩, fun other member => ?_⟩, fun other member => ?_, distinct⟩
            · exact ⟨(names other member).1, List.not_mem_of_not_mem_cons (names other member).2⟩
            · exact List.ne_of_not_mem_cons (names other member).2
          · rintro ⟨⟨_, names⟩, different, distinct⟩
            refine ⟨fun other member => ⟨(names other member).1, ?_⟩, distinct⟩
            exact List.not_mem_cons_of_ne_of_not_mem (different other member) (names other member).2

@[simp]
theorem fault?_eq_none_iff {descriptor : EntityDescriptor} :
    descriptor.fault? = none ↔ descriptor.name ≠ "" ∧
      (∀ field ∈ descriptor.fields, field.name ≠ "") ∧
        (descriptor.fields.map (·.name)).Nodup := by
  rw [fault?]
  by_cases nameless : descriptor.name = ""
  · simp [nameless]
  · rw [if_neg nameless, fieldFault?_eq_none_iff]
    simp [nameless]

theorem nodup_of_faultless {descriptor : EntityDescriptor} (faultless : descriptor.fault? = none) :
    (descriptor.fields.map (·.name)).Nodup :=
  (fault?_eq_none_iff.mp faultless).2.2

theorem field?_of_mem {descriptor : EntityDescriptor}
    (distinct : (descriptor.fields.map (·.name)).Nodup) {field : FieldDescriptor}
    (member : field ∈ descriptor.fields) : descriptor.field? field.name = some field := by
  obtain ⟨name, fields⟩ := descriptor
  simp only [field?] at distinct member ⊢
  induction fields with
  | nil => cases member
  | cons first rest inductionHypothesis =>
      rw [List.map_cons] at distinct
      obtain ⟨once, distinctRest⟩ := List.nodup_cons.mp distinct
      rcases List.mem_cons.mp member with rfl | later
      · simp
      · have different : first.name ≠ field.name := by
          intro same
          exact once (same ▸ List.mem_map.mpr ⟨field, later, rfl⟩)
        rw [List.find?_cons_of_neg (by simpa using different)]
        exact inductionHypothesis distinctRest later

end EntityDescriptor

namespace Registry

/-- The registries that registering descriptors gives. -/
inductive Accepted : Registry → Prop where
  | empty : Accepted empty
  | register {registry longer : Registry} {descriptor : EntityDescriptor} :
      Accepted registry → registry.register descriptor = .ok longer → Accepted longer

theorem Accepted.faultless {registry : Registry} {name : String} {descriptor : EntityDescriptor}
    (accepted : registry.Accepted) (registered : registry.get? name = some descriptor) :
    descriptor.name = name ∧ descriptor.fault? = none := by
  induction accepted with
  | empty => cases registered
  | @register registry longer added _ success inductionHypothesis =>
      rw [Registry.register] at success
      split at success
      · cases success
      · next faultless =>
          split at success
          · cases success
          · cases success
            rw [get?, Fields.get?_set] at registered
            split at registered
            · next same =>
                cases registered
                exact ⟨same.symm, faultless⟩
            · exact inductionHypothesis registered

theorem Accepted.ascending {registry : Registry} (accepted : registry.Accepted) :
    Fields.Ascending registry.descriptors := by
  induction accepted with
  | empty => exact Fields.ascending_nil
  | register _ success inductionHypothesis =>
      unfold Registry.register at success
      split at success
      · cases success
      · split at success
        · cases success
        · cases success
          exact Fields.ascending_set _ _ inductionHypothesis

theorem Accepted.get?_of_mem {registry : Registry} (accepted : registry.Accepted) {name : String}
    {descriptor : EntityDescriptor} (member : (name, descriptor) ∈ registry.descriptors) :
    registry.get? name = some descriptor :=
  Fields.get?_of_mem accepted.ascending member

theorem contains_of_noneDangling {registry : Registry} {name target : String}
    {descriptor : EntityDescriptor} {field : FieldDescriptor}
    (noneDangling : registry.danglingReference? = none)
    (registered : registry.get? name = some descriptor) (declared : field ∈ descriptor.fields)
    (refers : field.kind.reference? = some target) : registry.contains target = true := by
  unfold danglingReference? at noneDangling
  have perField := List.findSome?_eq_none_iff.mp noneDangling _ (Fields.mem_of_get? registered)
  have here := List.findSome?_eq_none_iff.mp perField field declared
  simp only [refers] at here
  split at here
  · assumption
  · cases here

end Registry

end EntityCursor
