import EntityCursor.Proofs.Chain.Grants

/-!
The counter of sorts. While the operators of a chain are handed over one by one, the sorts among
them are counted in eight bits. Main statement: no more sorts are handed over than the policy says,
and the counter holds their number, except where a policy grants 255 sorts and more than 255 stand
in a row of operators that it hands over. There the counter runs over and the split fails.
-/

namespace EntityCursor

namespace Policy

variable {policy : Policy} {first : Operator} {rest : List Operator}

/-- Operators that are handed over, whatever the number of sorts among them, and that more may
follow. -/
structure Passes (policy : Policy) (front : List Operator) : Prop where
  flagged : ∀ operator ∈ front, policy.Flags operator
  unlimited : policy.stopAfterLimit = true → ∀ operator ∈ front, isLimit operator = false

@[simp]
theorem passes_nil (policy : Policy) : policy.Passes [] := by
  constructor <;> simp

@[simp]
theorem passes_cons_iff {front : List Operator} :
    policy.Passes (first :: front) ↔
      policy.Flags first ∧ (policy.stopAfterLimit && isLimit first) = false ∧
        policy.Passes front := by
  constructor
  · rintro ⟨flagged, unlimited⟩
    obtain ⟨flaggedFirst, flaggedRest⟩ := List.forall_mem_cons.mp flagged
    refine ⟨flaggedFirst, ?_, flaggedRest, fun stops => ?_⟩
    · cases stops : policy.stopAfterLimit with
      | false => rfl
      | true => exact unlimited stops first List.mem_cons_self
    · exact (List.forall_mem_cons.mp (unlimited stops)).2
  · rintro ⟨flaggedFirst, unlimitedFirst, flagged, unlimited⟩
    refine ⟨List.forall_mem_cons.mpr ⟨flaggedFirst, flagged⟩, fun stops => ?_⟩
    refine List.forall_mem_cons.mpr ⟨?_, unlimited stops⟩
    rwa [stops, Bool.true_and] at unlimitedFirst

/-- No number of sorts is too many, and behind `sorts` others there are more of them than eight bits
can count. -/
def RunsOver (policy : Policy) (sorts : Nat) (operators : List Operator) : Prop :=
  policy.maxPushedSorts = 255 ∧
    ∃ front later, operators = front ++ later ∧ policy.Passes front ∧
      255 < sorts + front.countP isSort

theorem toNat_le_last (sorts : UInt8) : sorts.toNat ≤ 255 :=
  Nat.le_of_lt_succ (UInt8.toNat_lt sorts)

@[simp]
theorem not_runsOver_nil {sorts : Nat} (fits : sorts ≤ 255) : ¬ policy.RunsOver sorts [] := by
  rintro ⟨-, front, later, split, -, many⟩
  rw [(List.append_eq_nil_iff.mp split.symm).1, List.countP_nil] at many
  omega

theorem runsOver_cons_iff {sorts : Nat} (fits : sorts ≤ 255) :
    policy.RunsOver sorts (first :: rest) ↔
      policy.Flags first ∧ (policy.stopAfterLimit && isLimit first) = false ∧
        policy.RunsOver (sorts + if isSort first then 1 else 0) rest := by
  constructor
  · rintro ⟨all, front, later, split, passes, many⟩
    cases front with
    | nil =>
        rw [List.countP_nil] at many
        omega
    | cons other front =>
        obtain ⟨rfl, splitRest⟩ := List.cons_eq_cons.mp split
        obtain ⟨flagged, unlimited, passes⟩ := passes_cons_iff.mp passes
        rw [List.countP_cons] at many
        exact ⟨flagged, unlimited, all, front, later, splitRest, passes, by omega⟩
  · rintro ⟨flagged, unlimited, all, front, later, split, passes, many⟩
    refine ⟨all, first :: front, later, by rw [split, List.cons_append],
      passes_cons_iff.mpr ⟨flagged, unlimited, passes⟩, ?_⟩
    rw [List.countP_cons]
    omega

theorem not_runsOver_of_few {sorts : Nat} {operators : List Operator}
    (few : policy.maxPushedSorts < 255) : ¬ policy.RunsOver sorts operators := by
  rintro ⟨all, -⟩
  rw [all] at few
  exact UInt8.lt_irrefl _ few

/-- The split fails exactly where the counter runs over. -/
theorem pushedFrom?_eq_none_iff {sorts : UInt8} (within : sorts ≤ policy.maxPushedSorts)
    {operators : List Operator} :
    policy.pushedFrom? sorts operators = none ↔ policy.RunsOver sorts.toNat operators := by
  induction operators generalizing sorts with
  | nil =>
      exact iff_of_false (Option.some_ne_none 0)
        (not_runsOver_nil (toNat_le_last sorts))
  | cons first rest inductionHypothesis =>
      rw [runsOver_cons_iff (toNat_le_last sorts)]
      cases counts : count? sorts first with
      | none =>
          obtain ⟨isSorted, rfl⟩ := count?_eq_none_iff.mp counts
          have all : policy.maxPushedSorts = 255 :=
            UInt8.le_antisymm (UInt8.le_iff_toNat_le.mpr (toNat_le_last _)) within
          cases first with
          | sortBy keys =>
              refine iff_of_true (by simp [pushedFrom?, counts]) ⟨trivial, ?_, all, [], rest, rfl,
                policy.passes_nil, ?_⟩
              · exact Bool.and_false _
              · rw [if_pos isSorted]
                decide
          | _ => cases isSorted
      | some counted =>
          rw [← toNat_of_count? counts]
          cases allowed : policy.allows counted first with
          | false =>
              rw [pushedFrom?_of_refused counts allowed]
              refine iff_of_false (Option.some_ne_none 0) ?_
              -- A policy that grants all sorts refuses only what it has no flag for.
              rintro ⟨flagged, -, all, -⟩
              refine Bool.eq_false_iff.mp allowed (allows_iff.mpr ⟨flagged, fun _ => ?_⟩)
              rw [all]
              exact UInt8.le_iff_toNat_le.mpr (toNat_le_last _)
          | true =>
              have flagged := (allows_iff.mp allowed).1
              cases stops : policy.stopAfterLimit && isLimit first with
              | true =>
                  rw [pushedFrom?_of_stops counts allowed stops]
                  exact iff_of_false (Option.some_ne_none 1) fun runs => Bool.noConfusion runs.2.1
              | false =>
                  rw [pushedFrom?_of_goesOn counts allowed stops, Option.map_eq_none_iff,
                    inductionHypothesis (le_of_allows counts within allowed)]
                  exact ⟨fun runs => ⟨flagged, rfl, runs⟩, fun runs => runs.2.2⟩

theorem exists_pushedFrom? {operators : List Operator} (fits : ¬ policy.RunsOver 0 operators) :
    ∃ pushed, policy.pushedFrom? 0 operators = some pushed :=
  Option.ne_none_iff_exists'.mp (mt (pushedFrom?_eq_none_iff UInt8.zero_le).mp fits)

/-- The number of sorts fits into the counter exactly if the policy does not grant all 255 sorts that
can be counted to a row of operators with more sorts than that, and no more sorts are handed over
than the policy grants. -/
theorem counts_sorts_iff (policy : Policy) (chain : Chain) :
    (policy.pushedLength? chain.nodes = none ↔ policy.RunsOver 0 chain.operators) ∧
    ∀ length, policy.pushedLength? chain.nodes = some length →
      (chain.nodes.take length).countP isSort ≤ policy.maxPushedSorts.toNat := by
  constructor
  · rw [Chain.nodes, pushedLength?, Option.map_eq_none_iff]
    exact pushedFrom?_eq_none_iff UInt8.zero_le
  · intro length split
    rw [Chain.nodes, pushedLength?] at split
    obtain ⟨pushed, splitRest, rfl⟩ := Option.map_eq_some_iff.mp split
    have granted := (grants_take_iff UInt8.zero_le splitRest (pushedFrom?_le_length splitRest)).mpr
      (Nat.le_refl pushed)
    have bound := granted.sorted
    rw [UInt8.toNat_zero, Nat.zero_add] at bound
    rw [Chain.nodes, Nat.add_comm, List.take_succ_cons, List.countP_cons]
    exact bound

/-- A policy that grants all sorts that can be counted. -/
def generous : Policy := { maxPushedSorts := 255 }

def sortedOften : Chain := ⟨"Person", List.replicate 256 (.sortBy [⟨"name", true⟩])⟩

/-- The counter runs over at the last of 256 sorts. -/
theorem generous_runs_over : generous.pushedLength? sortedOften.nodes = none := by
  decide +kernel

end Policy

end EntityCursor
