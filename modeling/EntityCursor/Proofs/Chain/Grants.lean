import EntityCursor.Proofs.Chain.Split

/-!
What a policy grants. A front part of the operators above the root is granted if the policy has a
flag for every operator in it, if the sorts in it are not too many, and if no limit stands before
its end where the policy stops after limits. The granted front parts are those that are no longer
than what is handed over.
-/

namespace EntityCursor

namespace Policy

/-- What a policy asks of the operators that are handed over after `sorts` sorts. -/
structure Grants (policy : Policy) (sorts : Nat) (front : List Operator) : Prop where
  flagged : ∀ operator ∈ front, policy.Flags operator
  sorted : sorts + front.countP isSort ≤ policy.maxPushedSorts.toNat
  limited : policy.stopAfterLimit = true → ∀ operator ∈ front.dropLast, isLimit operator = false

variable {policy : Policy} {sorts : Nat}

@[simp]
theorem grants_nil_iff : policy.Grants sorts [] ↔ sorts ≤ policy.maxPushedSorts.toNat := by
  constructor
  · intro grants
    exact grants.sorted
  · intro few
    exact ⟨by simp, few, by simp⟩

theorem grants_cons_iff {first : Operator} {rest : List Operator} :
    policy.Grants sorts (first :: rest) ↔
      policy.Flags first ∧ (policy.stopAfterLimit = true → isLimit first = true → rest = []) ∧
        policy.Grants (sorts + if isSort first then 1 else 0) rest := by
  have limits : (∀ operator ∈ (first :: rest).dropLast, isLimit operator = false) ↔
      (isLimit first = true → rest = []) ∧
        ∀ operator ∈ rest.dropLast, isLimit operator = false := by
    cases rest with
    | nil => simp
    | cons second others => simp
  constructor
  · rintro ⟨flagged, sorted, limited⟩
    rw [List.countP_cons] at sorted
    obtain ⟨flaggedFirst, flaggedRest⟩ := List.forall_mem_cons.mp flagged
    refine ⟨flaggedFirst, fun stops => (limits.mp (limited stops)).1, flaggedRest, by omega, ?_⟩
    intro stops
    exact (limits.mp (limited stops)).2
  · rintro ⟨flaggedFirst, limitedFirst, flagged, sorted, limited⟩
    refine ⟨List.forall_mem_cons.mpr ⟨flaggedFirst, flagged⟩, ?_, ?_⟩
    · rw [List.countP_cons]
      omega
    · intro stops
      exact limits.mpr ⟨limitedFirst stops, limited stops⟩

/-- A front part of the operators is granted if and only if it is no longer than what is handed
over. -/
theorem grants_take_iff {counted : UInt8} (within : counted ≤ policy.maxPushedSorts)
    {operators : List Operator} {pushed length : Nat}
    (split : policy.pushedFrom? counted operators = some pushed)
    (bound : length ≤ operators.length) :
    policy.Grants counted.toNat (operators.take length) ↔ length ≤ pushed := by
  induction operators generalizing counted pushed length with
  | nil =>
      cases split
      rw [List.take_nil, grants_nil_iff]
      exact iff_of_true (UInt8.le_iff_toNat_le.mp within) bound
  | cons first rest inductionHypothesis =>
      cases length with
      | zero =>
          rw [List.take_zero, grants_nil_iff]
          exact iff_of_true (UInt8.le_iff_toNat_le.mp within) (Nat.zero_le _)
      | succ length =>
          have boundRest : length ≤ rest.length := Nat.le_of_succ_le_succ bound
          obtain ⟨next, counts, ⟨refused, rfl⟩ | ⟨allowed, ends⟩⟩ := cases_of_pushedFrom?_cons split
          · -- Only a sort that is one too many can have its flag set and not be handed over.
            rw [List.take_succ_cons, grants_cons_iff, ← toNat_of_count? counts]
            refine iff_of_false ?_ (Nat.not_succ_le_zero length)
            rintro ⟨flagged, _, grants⟩
            refine Bool.eq_false_iff.mp refused (allows_iff.mpr ⟨flagged, fun _ => ?_⟩)
            exact UInt8.le_iff_toNat_le.mpr (Nat.le_of_add_right_le grants.sorted)
          · have flagged := (allows_iff.mp allowed).1
            have withinNext := le_of_allows counts within allowed
            rw [List.take_succ_cons, grants_cons_iff, ← toNat_of_count? counts]
            obtain ⟨stops, rfl⟩ | ⟨goesOn, later, splitRest, rfl⟩ := ends
            · -- The limit is the last operator that is handed over.
              obtain ⟨stop, limit⟩ := Bool.and_eq_true_iff.mp stops
              constructor
              · rintro ⟨_, isLast, _⟩
                have empty := congrArg List.length (isLast stop limit)
                rw [List.length_take_of_le boundRest, List.length_nil] at empty
                omega
              · intro short
                obtain rfl : length = 0 := by omega
                refine ⟨flagged, fun _ _ => List.take_zero, ?_⟩
                exact grants_nil_iff.mpr (UInt8.le_iff_toNat_le.mp withinNext)
            · rw [inductionHypothesis withinNext splitRest boundRest]
              constructor
              · rintro ⟨_, _, short⟩
                omega
              · intro short
                refine ⟨flagged, fun stop limit => ?_, by omega⟩
                rw [stop, limit] at goesOn
                cases goesOn

end Policy

end EntityCursor
