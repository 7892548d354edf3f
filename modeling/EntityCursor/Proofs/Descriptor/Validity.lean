import EntityCursor.Proofs.Descriptor.Registration
import EntityCursor.Proofs.Outcome
import Mathlib.Data.List.Perm.Subperm
import Mathlib.Logic.Relation

/-!
What validating finds out about a registry. The references between entities form a graph, and a
registry is valid exactly if every reference leads to a registered entity and no way along the
references leads back to where it began. The search in depth is exact because of two invariants:
every entity on the path leads to the one that is visited, and every entity that is done is
grounded, which means that no way from it goes on forever.
-/

namespace EntityCursor

/-- A kind names an entity, itself or as the element of an array. -/
inductive FieldKind.Mentions : FieldKind → String → Prop where
  | entity (name : String) : Mentions (.entity name) name
  | array {element : FieldKind} {name : String} : Mentions element name →
      Mentions (.array element) name

@[simp]
theorem FieldKind.reference?_eq_some_iff {kind : FieldKind} {name : String} :
    kind.reference? = some name ↔ kind.Mentions name := by
  constructor
  · intro refers
    induction kind with
    | array element inductionHypothesis => exact .array (inductionHypothesis refers)
    | entity target =>
        cases refers
        exact .entity name
    | _ => cases refers
  · intro mentions
    induction mentions with
    | entity name => rfl
    | array _ inductionHypothesis => exact inductionHypothesis

namespace Registry

variable {registry : Registry}

/-- A registered entity has a field that refers to another entity. -/
def Refers (registry : Registry) (entity target : String) : Prop :=
  ∃ descriptor field, registry.get? entity = some descriptor ∧ field ∈ descriptor.fields ∧
    field.kind.Mentions target

/-- Some way along the references leads from one entity to another. -/
def Leads (registry : Registry) : String → String → Prop :=
  Relation.TransGen registry.Refers

/-- Every way along the references from an entity comes to an end. -/
def Grounded (registry : Registry) : String → Prop :=
  Acc fun target entity => registry.Refers entity target

def referred (registry : Registry) (entity : String) : List String :=
  ((registry.get? entity).map targets).getD []

@[simp]
theorem mem_targets_iff {descriptor : EntityDescriptor} {target : String} :
    target ∈ targets descriptor ↔ ∃ field ∈ descriptor.fields, field.kind.Mentions target := by
  simp only [targets, List.mem_filterMap, FieldKind.reference?_eq_some_iff]

@[simp]
theorem mem_referred_iff {entity target : String} :
    target ∈ registry.referred entity ↔ registry.Refers entity target := by
  unfold referred Refers
  cases registry.get? entity with
  | none => simp
  | some descriptor => simp

theorem Grounded.not_leads {entity : String} (grounded : registry.Grounded entity) :
    ¬ registry.Leads entity entity := by
  induction grounded with
  | intro entity _ inductionHypothesis =>
      intro cycle
      -- The cycle is entered at the next entity on it instead.
      obtain ⟨target, refers, back⟩ := Relation.TransGen.head'_iff.mp cycle
      exact inductionHypothesis target refers (Relation.TransGen.tail' back refers)

/-! The search. -/

section Folding

variable {Failure Found : Type} {visiting : List Found → Found → Except Failure (List Found)}

theorem exists_of_foldlM_error {entries done : List Found} {failure : Failure}
    (failed : entries.foldlM visiting done = .error failure) :
    ∃ entry ∈ entries, ∃ earlier, visiting earlier entry = .error failure := by
  induction entries generalizing done with
  | nil => cases failed
  | cons first rest inductionHypothesis =>
      rw [List.foldlM_cons] at failed
      rcases Outcome.bind_eq_error.mp failed with here | ⟨between, _, later⟩
      · exact ⟨first, List.mem_cons_self, done, here⟩
      · obtain ⟨entry, member, there⟩ := inductionHypothesis later
        exact ⟨entry, List.mem_cons_of_mem _ member, there⟩

theorem foldlM_ok (good : Found → Prop) {entries done after : List Found}
    (visits : ∀ entry ∈ entries, ∀ earlier later, (∀ other ∈ earlier, good other) →
      visiting earlier entry = .ok later →
      earlier ⊆ later ∧ entry ∈ later ∧ ∀ other ∈ later, good other)
    (goodDone : ∀ other ∈ done, good other) (finished : entries.foldlM visiting done = .ok after) :
    done ⊆ after ∧ entries ⊆ after ∧ ∀ other ∈ after, good other := by
  induction entries generalizing done with
  | nil =>
      cases finished
      exact ⟨List.Subset.refl _, List.nil_subset _, goodDone⟩
  | cons first rest inductionHypothesis =>
      rw [List.foldlM_cons] at finished
      obtain ⟨between, visited, finished⟩ := Outcome.bind_eq_ok.mp finished
      obtain ⟨kept, here, goodBetween⟩ :=
        visits first List.mem_cons_self done between goodDone visited
      obtain ⟨keptLater, restDone, goodAfter⟩ := inductionHypothesis
        (fun entry member => visits entry (List.mem_cons_of_mem _ member)) goodBetween finished
      refine ⟨List.Subset.trans kept keptLater, ?_, goodAfter⟩
      exact List.cons_subset.mpr ⟨keptLater here, restDone⟩

end Folding

theorem visit_of_fresh {fuel : Nat} {path done : List String} {name : String}
    (notDone : name ∉ done) (fresh : name ∉ path) :
    registry.visit (fuel + 1) path done name =
      ((registry.referred name).foldlM (registry.visit fuel (name :: path)) done >>= fun after =>
        .ok (name :: after)) := by
  unfold visit
  rw [if_neg notDone, if_neg fresh]
  rfl

/-- An entity that is met again leads back to itself, since every entity on the path leads to the
one that is visited. -/
theorem leads_of_visit {fuel : Nat} {path done : List String} {name found : String}
    (leading : ∀ earlier ∈ path, registry.Leads earlier name)
    (failed : registry.visit fuel path done name = .error found) : registry.Leads found found := by
  induction fuel generalizing path done name with
  | zero => cases failed
  | succ fuel inductionHypothesis =>
      by_cases isDone : name ∈ done
      · rw [visit, if_pos isDone] at failed
        cases failed
      · by_cases again : name ∈ path
        · rw [visit, if_neg isDone, if_pos again] at failed
          cases failed
          exact leading _ again
        · rw [visit_of_fresh isDone again] at failed
          rcases Outcome.bind_eq_error.mp failed with below | ⟨_, _, ended⟩
          · obtain ⟨target, next, earlier, failedThere⟩ := exists_of_foldlM_error below
            have refers : registry.Refers name target := mem_referred_iff.mp next
            apply inductionHypothesis _ failedThere
            intro other member
            rcases List.mem_cons.mp member with rfl | before
            · exact .single refers
            · exact (leading other before).tail refers
          · cases ended

/-- The names that are on the way of a search: registered ones without repetition. -/
structure IsPath (registry : Registry) (path : List String) : Prop where
  distinct : path.Nodup
  registered : path ⊆ Fields.names registry.descriptors

theorem IsPath.length_le {path : List String} (isPath : registry.IsPath path) :
    path.length ≤ registry.size := by
  have shorter := (List.subperm_of_subset isPath.distinct isPath.registered).length_le
  unfold Fields.names at shorter
  rwa [List.length_map] at shorter

@[simp]
theorem mem_names_iff {name : String} :
    name ∈ Fields.names registry.descriptors ↔ registry.contains name = true :=
  Fields.get?_isSome_iff_mem_names.symm

theorem IsPath.cons {path : List String} (isPath : registry.IsPath path) {name : String}
    (known : registry.contains name = true) (fresh : name ∉ path) :
    registry.IsPath (name :: path) :=
  ⟨List.nodup_cons.mpr ⟨fresh, isPath.distinct⟩,
    List.cons_subset.mpr ⟨mem_names_iff.mpr known, isPath.registered⟩⟩

/-- A search that meets no entity again is done with the entity that it began with, and everything
that is done is grounded. The path cannot use the fuel up, since it has no repetition. -/
theorem grounded_of_visit (closed : ∀ entity target, registry.Refers entity target →
      registry.contains target = true)
    {fuel : Nat} {path done after : List String} {name : String} (isPath : registry.IsPath path)
    (enough : registry.size < fuel + path.length) (known : registry.contains name = true)
    (grounded : ∀ entity ∈ done, registry.Grounded entity)
    (finished : registry.visit fuel path done name = .ok after) :
    done ⊆ after ∧ name ∈ after ∧ ∀ entity ∈ after, registry.Grounded entity := by
  induction fuel generalizing path done after name with
  | zero =>
      have bound := isPath.length_le
      omega
  | succ fuel inductionHypothesis =>
      by_cases isDone : name ∈ done
      · rw [visit, if_pos isDone] at finished
        cases finished
        exact ⟨List.Subset.refl _, isDone, grounded⟩
      · by_cases again : name ∈ path
        · rw [visit, if_neg isDone, if_pos again] at finished
          cases finished
        · rw [visit_of_fresh isDone again] at finished
          obtain ⟨visited, folded, ended⟩ := Outcome.bind_eq_ok.mp finished
          cases ended
          -- A longer path leaves less fuel, so that their sum stays above the number of entities.
          have longer : registry.IsPath (name :: path) := isPath.cons known again
          have enoughLeft : registry.size < fuel + (name :: path).length := by
            rw [List.length_cons]
            omega
          obtain ⟨kept, nextDone, groundedVisited⟩ :=
            foldlM_ok registry.Grounded
              (fun target next earlier later groundedEarlier visitedTarget =>
                inductionHypothesis longer enoughLeft
                  (closed name target (mem_referred_iff.mp next)) groundedEarlier visitedTarget)
              grounded folded
          have groundedName : registry.Grounded name :=
            Acc.intro name fun target refers =>
              groundedVisited target (nextDone (mem_referred_iff.mpr refers))
          refine ⟨List.subset_cons_of_subset name kept, List.mem_cons_self, ?_⟩
          exact List.forall_mem_cons.mpr ⟨groundedName, groundedVisited⟩

theorem leads_of_cycle? {name : String} (met : registry.cycle? = some name) :
    registry.Leads name name := by
  unfold cycle? at met
  dsimp only at met
  split at met
  · cases met
  · next found failed =>
      cases met
      obtain ⟨start, _, earlier, visited⟩ := exists_of_foldlM_error failed
      exact leads_of_visit (by simp) visited

theorem acyclic_of_cycle? (closed : ∀ entity target, registry.Refers entity target →
      registry.contains target = true) (none : registry.cycle? = none) (name : String) :
    ¬ registry.Leads name name := by
  unfold cycle? at none
  dsimp only at none
  split at none
  · next after finished =>
      have start : registry.IsPath [] := ⟨List.nodup_nil, List.nil_subset _⟩
      obtain ⟨_, allDone, grounded⟩ := foldlM_ok registry.Grounded
        (fun entity member earlier later groundedEarlier visited =>
          grounded_of_visit closed start (by simp) (mem_names_iff.mp member) groundedEarlier
            visited)
        (by simp) finished
      intro cycle
      obtain ⟨target, ⟨descriptor, _, registered, _⟩, _⟩ := Relation.TransGen.head'_iff.mp cycle
      have known : registry.contains name = true := by
        unfold contains
        rw [registered]
        rfl
      exact (grounded name (allDone (mem_names_iff.mpr known))).not_leads cycle
  · cases none

/-! References that lead nowhere. -/

theorem dangling_of_danglingReference? (accepted : registry.Accepted) {entity field target : String}
    (found : registry.danglingReference? = some (entity, field, target)) :
    ∃ descriptor declared, registry.get? entity = some descriptor ∧
      declared ∈ descriptor.fields ∧ declared.name = field ∧ declared.kind.Mentions target ∧
      registry.contains target = false := by
  unfold danglingReference? at found
  obtain ⟨⟨name, descriptor⟩, member, found⟩ := List.exists_of_findSome?_eq_some found
  obtain ⟨declared, isDeclared, found⟩ := List.exists_of_findSome?_eq_some found
  have registered := accepted.get?_of_mem member
  split at found
  · next reference refers =>
      split at found
      · cases found
      · next unknown =>
          simp only [Option.some.injEq, Prod.mk.injEq] at found
          obtain ⟨rfl, rfl, rfl⟩ := found
          rw [(accepted.faultless registered).1]
          exact ⟨descriptor, declared, registered, isDeclared, rfl,
            FieldKind.reference?_eq_some_iff.mp refers, by simpa using unknown⟩
  · cases found

theorem danglingReference?_eq_none_iff (accepted : registry.Accepted) :
    registry.danglingReference? = none ↔
      ∀ entity target, registry.Refers entity target → registry.contains target = true := by
  constructor
  · rintro noneDangling entity target ⟨descriptor, field, registered, declared, mentions⟩
    exact contains_of_noneDangling noneDangling registered declared
      (FieldKind.reference?_eq_some_iff.mpr mentions)
  · intro closed
    cases found : registry.danglingReference? with
    | none => rfl
    | some reference =>
        obtain ⟨entity, field, target⟩ := reference
        obtain ⟨descriptor, declared, registered, isDeclared, _, mentions, unknown⟩ :=
          dangling_of_danglingReference? accepted found
        have known := closed entity target ⟨descriptor, declared, registered, isDeclared, mentions⟩
        rw [unknown] at known
        cases known

/-- A registry is valid exactly if every reference leads to a registered entity and no entity leads
back to itself. What is reported otherwise is a reference that leads nowhere, or an entity that
leads back to itself. -/
theorem validate_exact (accepted : registry.Accepted) :
    (registry.validate = .ok () ↔
      (∀ entity target, registry.Refers entity target → registry.contains target = true) ∧
        ∀ entity, ¬ registry.Leads entity entity) ∧
    (∀ entity field target, registry.validate = .error (.dangling entity field target) →
      ∃ descriptor declared, registry.get? entity = some descriptor ∧
        declared ∈ descriptor.fields ∧ declared.name = field ∧ declared.kind.Mentions target ∧
        registry.contains target = false) ∧
    ∀ name, registry.validate = .error (.cycle name) → registry.Leads name name := by
  unfold validate
  have resolved := danglingReference?_eq_none_iff accepted
  cases dangling : registry.danglingReference? with
  | some reference =>
      obtain ⟨entity, field, target⟩ := reference
      rw [dangling] at resolved
      refine ⟨?_, ?_, nofun⟩
      · refine iff_of_false nofun ?_
        rintro ⟨closed, _⟩
        cases resolved.mpr closed
      · rintro _ _ _ ⟨⟩
        exact dangling_of_danglingReference? accepted dangling
  | none =>
      have closed := resolved.mp dangling
      cases met : registry.cycle? with
      | none => exact ⟨iff_of_true rfl ⟨closed, acyclic_of_cycle? closed met⟩, nofun, nofun⟩
      | some name =>
          have cycle := leads_of_cycle? met
          refine ⟨?_, nofun, ?_⟩
          · refine iff_of_false nofun ?_
            rintro ⟨_, acyclic⟩
            exact acyclic name cycle
          · rintro _ ⟨⟩
            exact cycle

def journey : EntityDescriptor :=
  ⟨"Journey", [{ name := "legs", kind := .array (.array (.entity "Stop")) }]⟩

def line : EntityDescriptor :=
  ⟨"Line",
    [{ name := "name", kind := .string }, { name := "ends", kind := .array (.entity "Stop") }]⟩

def stop : EntityDescriptor :=
  ⟨"Stop", [{ name := "line", kind := .entity "Line" }]⟩

def plainStop : EntityDescriptor := ⟨"Stop", [{ name := "line", kind := .string }]⟩

/-- Two registries with three entities each. In the second one stops and lines refer to each
other. -/
def network (stop : EntityDescriptor) : Registry :=
  ⟨[("Journey", journey), ("Line", line), ("Stop", stop)]⟩

/-- A stop that names its line only leads nowhere, and one that refers to it leads back to itself.
The journey, from which both are reached, does not lie on the cycle. -/
theorem validate_network :
    (network plainStop).Accepted ∧ (network plainStop).validate = .ok () ∧
    (∀ entity, ¬ (network plainStop).Leads entity entity) ∧
    (network stop).Accepted ∧ (network stop).validate = .error (.cycle "Stop") ∧
    (network stop).Leads "Stop" "Stop" := by
  have acceptedWith (last : EntityDescriptor) (filed : Registry.register
      ⟨[("Journey", journey), ("Line", line)]⟩ last = .ok (network last)) :
      (network last).Accepted := by
    have withJourney : empty.register journey = .ok ⟨[("Journey", journey)]⟩ := rfl
    have withLine : Registry.register ⟨[("Journey", journey)]⟩ line =
        .ok ⟨[("Journey", journey), ("Line", line)]⟩ := rfl
    exact .register (.register (.register .empty withJourney) withLine) filed
  have acceptedPlain := acceptedWith plainStop rfl
  have acceptedLooping := acceptedWith stop rfl
  have valid : (network plainStop).validate = .ok () := rfl
  have looping : (network stop).validate = .error (.cycle "Stop") := rfl
  exact ⟨acceptedPlain, valid, ((validate_exact acceptedPlain).1.mp valid).2, acceptedLooping,
    looping, (validate_exact acceptedLooping).2.2 "Stop" looping⟩

end Registry

end EntityCursor
