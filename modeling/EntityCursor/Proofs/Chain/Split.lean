import EntityCursor.Chain.Plan
import EntityCursor.Proofs.Outcome

/-!
How a chain is split. What a policy hands over to the remote engine is a front part of the chain
that consists of operators the engine knows, so that it can always be written as a query.
-/

namespace EntityCursor

namespace Operator

/-- An operator that query documents have a form for. -/
def Sendable : Operator → Prop
  | .take _ => True
  | .skip _ => True
  | .project _ => True
  | .expressionFilter .. => True
  | .sortBy _ => True
  | .scan _ => False
  | .predicateFilter _ => False
  | .aggregate .. => False
  | .map _ => False

end Operator

namespace Policy

theorem sendable_of_allows {policy : Policy} {sorts : UInt8} {operator : Operator}
    (allowed : policy.allows sorts operator = true) : operator.Sendable := by
  cases operator with
  | scan entity => cases allowed
  | predicateFilter predicate => cases allowed
  | aggregate name aggregation => cases allowed
  | map transform => cases allowed
  | _ => trivial

/-- The flag of a policy for an operator is set. Sorts have no flag, since only their number counts,
and some operators are never handed over. -/
def Flags (policy : Policy) : Operator → Prop
  | .take _ => policy.pushTake = true
  | .skip _ => policy.pushSkip = true
  | .project _ => policy.pushProject = true
  | .expressionFilter .. => policy.pushExpressionFilter = true
  | .sortBy _ => True
  | .scan _ => False
  | .predicateFilter _ => False
  | .aggregate .. => False
  | .map _ => False

variable {policy : Policy} {sorts counted : UInt8} {operator : Operator}

theorem allows_iff :
    policy.allows counted operator = true ↔
      policy.Flags operator ∧ (isSort operator = true → counted ≤ policy.maxPushedSorts) := by
  cases operator <;> simp [allows, Flags, isSort]

@[simp]
theorem count?_eq_none_iff : count? sorts operator = none ↔ isSort operator = true ∧ sorts = 255 := by
  unfold count?
  split <;> simp_all

theorem toNat_of_count? (counts : count? sorts operator = some counted) :
    counted.toNat = sorts.toNat + if isSort operator then 1 else 0 := by
  unfold count? at counts
  split at counts
  · next isSorted =>
      split at counts
      · cases counts
      · next notLast =>
          cases counts
          have small := UInt8.toNat_lt sorts
          have below : sorts.toNat ≠ 255 := fun last => notLast (UInt8.toNat_inj.mp last)
          rw [if_pos isSorted, UInt8.toNat_add]
          exact Nat.mod_eq_of_lt (show sorts.toNat + 1 < 256 by omega)
  · next other =>
      cases counts
      rw [if_neg other, Nat.add_zero]

theorem le_of_allows (counts : count? sorts operator = some counted)
    (within : sorts ≤ policy.maxPushedSorts) (allowed : policy.allows counted operator = true) :
    counted ≤ policy.maxPushedSorts := by
  by_cases isSorted : isSort operator = true
  · exact (allows_iff.mp allowed).2 isSorted
  · rw [count?, if_neg isSorted] at counts
    cases counts
    exact within

/-! The first operator is kept, or it ends what is handed over, or more may follow it. -/

section First

variable {first : Operator} {rest : List Operator} {pushed : Nat}

theorem pushedFrom?_of_refused (counts : count? sorts first = some counted)
    (refused : policy.allows counted first = false) :
    policy.pushedFrom? sorts (first :: rest) = some 0 := by
  simp [pushedFrom?, counts, refused]

theorem pushedFrom?_of_stops (counts : count? sorts first = some counted)
    (allowed : policy.allows counted first = true)
    (stops : (policy.stopAfterLimit && isLimit first) = true) :
    policy.pushedFrom? sorts (first :: rest) = some 1 := by
  rw [pushedFrom?, counts, Option.bind_eq_bind, Option.bind_some, if_pos allowed, if_pos stops]

theorem pushedFrom?_of_goesOn (counts : count? sorts first = some counted)
    (allowed : policy.allows counted first = true)
    (goesOn : (policy.stopAfterLimit && isLimit first) = false) :
    policy.pushedFrom? sorts (first :: rest) = (policy.pushedFrom? counted rest).map (1 + ·) := by
  rw [pushedFrom?, counts, Option.bind_eq_bind, Option.bind_some, if_pos allowed, goesOn,
    if_neg Bool.false_ne_true]

theorem cases_of_pushedFrom?_cons
    (split : policy.pushedFrom? sorts (first :: rest) = some pushed) :
    ∃ counted, count? sorts first = some counted ∧
      (policy.allows counted first = false ∧ pushed = 0 ∨
        policy.allows counted first = true ∧
          ((policy.stopAfterLimit && isLimit first) = true ∧ pushed = 1 ∨
            (policy.stopAfterLimit && isLimit first) = false ∧
              ∃ later, policy.pushedFrom? counted rest = some later ∧ pushed = later + 1)) := by
  cases counts : count? sorts first with
  | none => simp [pushedFrom?, counts] at split
  | some counted =>
      refine ⟨counted, rfl, ?_⟩
      cases allowed : policy.allows counted first with
      | false =>
          rw [pushedFrom?_of_refused counts allowed] at split
          exact .inl ⟨rfl, (Option.some.inj split).symm⟩
      | true =>
          refine .inr ⟨rfl, ?_⟩
          cases stops : policy.stopAfterLimit && isLimit first with
          | true =>
              rw [pushedFrom?_of_stops counts allowed stops] at split
              exact .inl ⟨rfl, (Option.some.inj split).symm⟩
          | false =>
              rw [pushedFrom?_of_goesOn counts allowed stops] at split
              obtain ⟨later, splitRest, rfl⟩ := Option.map_eq_some_iff.mp split
              exact .inr ⟨rfl, later, splitRest, Nat.add_comm 1 later⟩

end First

theorem sendable_of_pushed {operators : List Operator} {pushed : Nat}
    (split : policy.pushedFrom? sorts operators = some pushed) :
    ∀ operator ∈ operators.take pushed, operator.Sendable := by
  induction operators generalizing sorts pushed with
  | nil =>
      intro operator member
      rw [List.take_nil] at member
      cases member
  | cons first rest inductionHypothesis =>
      intro operator member
      obtain ⟨counted, -, ⟨-, rfl⟩ | ⟨allowed, ⟨-, rfl⟩ | ⟨-, later, splitRest, rfl⟩⟩⟩ :=
        cases_of_pushedFrom?_cons split
      · cases member
      · rw [List.take_succ_cons, List.take_zero] at member
        rw [List.mem_singleton.mp member]
        exact sendable_of_allows allowed
      · rw [List.take_succ_cons] at member
        rcases List.mem_cons.mp member with rfl | isLater
        · exact sendable_of_allows allowed
        · exact inductionHypothesis splitRest operator isLater

theorem pushedFrom?_le_length {operators : List Operator} {pushed : Nat}
    (split : policy.pushedFrom? sorts operators = some pushed) : pushed ≤ operators.length := by
  induction operators generalizing sorts pushed with
  | nil =>
      cases split
      exact Nat.le_refl 0
  | cons first rest inductionHypothesis =>
      rw [List.length_cons]
      obtain ⟨counted, -, ⟨-, rfl⟩ | ⟨-, ⟨-, rfl⟩ | ⟨-, later, splitRest, rfl⟩⟩⟩ :=
        cases_of_pushedFrom?_cons split
      · exact Nat.zero_le _
      · omega
      · exact Nat.succ_le_succ (inductionHypothesis splitRest)

@[simp]
theorem pushedFrom?_scanOnly (operators : List Operator) :
    scanOnly.pushedFrom? 0 operators = some 0 := by
  cases operators with
  | nil => rfl
  | cons first rest => cases first <;> simp [pushedFrom?, count?, allows, scanOnly, isSort]

end Policy

namespace Plan

theorem pushOperators_of_sendable (query : Query) {operators : List Operator}
    (sendable : ∀ operator ∈ operators, operator.Sendable) :
    ∃ longer, pushOperators query operators = .ok longer := by
  induction operators generalizing query with
  | nil => exact ⟨query, rfl⟩
  | cons operator rest inductionHypothesis =>
      have first := sendable operator List.mem_cons_self
      obtain ⟨next, pushed⟩ : ∃ next, pushOperator query operator = .ok next := by
        cases operator with
        | scan entity => exact first.elim
        | predicateFilter predicate => exact first.elim
        | aggregate name aggregation => exact first.elim
        | map transform => exact first.elim
        | _ => exact ⟨_, rfl⟩
      obtain ⟨longer, pushedRest⟩ :=
        inductionHypothesis next fun other member =>
          sendable other (List.mem_cons_of_mem _ member)
      exact ⟨longer, by rw [pushOperators, pushed, Outcome.ok_bind, pushedRest]⟩

theorem pushOperators_append (query : Query) (front back : List Operator) :
    pushOperators query (front ++ back) =
      (pushOperators query front >>= fun longer => pushOperators longer back) := by
  induction front generalizing query with
  | nil => rfl
  | cons operator rest inductionHypothesis =>
      rw [List.cons_append, pushOperators, pushOperators, bind_assoc]
      congr
      funext next
      exact inductionHypothesis next

theorem takesNothing_of_afterLastEmptyTake? {operators : List Operator}
    (none : afterLastEmptyTake? operators = none) :
    ∀ operator ∈ operators, operator.takesNothing = false := by
  induction operators with
  | nil =>
      intro operator member
      cases member
  | cons first rest inductionHypothesis =>
      rw [afterLastEmptyTake?] at none
      split at none
      · cases none
      · next search =>
          split at none
          · cases none
          · next takes =>
              intro operator member
              rcases List.mem_cons.mp member with rfl | later
              · exact Bool.eq_false_iff.mpr takes
              · exact inductionHypothesis search operator later

theorem exists_divide {policy : Policy} (entity : String) {operators : List Operator} {pushed : Nat}
    (split : policy.pushedFrom? 0 operators = some pushed) :
    ∃ query, pushOperators (.scan entity) (operators.take pushed) = .ok query ∧
      divide policy entity operators = .ok ⟨entity, some query, operators.drop pushed, false⟩ := by
  obtain ⟨query, written⟩ :=
    pushOperators_of_sendable (.scan entity) (Policy.sendable_of_pushed split)
  refine ⟨query, written, ?_⟩
  simp [divide, split, written]

theorem divide_of_overflow {policy : Policy} (entity : String) {operators : List Operator}
    (overflows : policy.pushedFrom? 0 operators = none) :
    divide policy entity operators = .error .overflow := by
  simp [divide, overflows]

theorem exists_of_divide {policy : Policy} {entity : String} {operators : List Operator}
    {plan : Plan} (divided : divide policy entity operators = .ok plan) :
    ∃ pushed query, policy.pushedFrom? 0 operators = some pushed ∧
      pushOperators (.scan entity) (operators.take pushed) = .ok query ∧
      plan = ⟨entity, some query, operators.drop pushed, false⟩ := by
  cases split : policy.pushedFrom? 0 operators with
  | none =>
      rw [divide_of_overflow entity split] at divided
      cases divided
  | some pushed =>
      obtain ⟨query, written, same⟩ := exists_divide entity split
      rw [same] at divided
      exact ⟨pushed, query, rfl, written, (Except.ok.inj divided).symm⟩

theorem ofOperators_of_emptyTake {policy : Policy} {entity : String}
    {operators later : List Operator} (search : afterLastEmptyTake? operators = some later) :
    ofOperators policy (.scan entity :: operators) = .ok ⟨entity, none, later, true⟩ := by
  simp [ofOperators, search]

theorem ofOperators_eq_divide (policy : Policy) (entity : String) {operators : List Operator}
    (search : afterLastEmptyTake? operators = none) :
    ofOperators policy (.scan entity :: operators) = divide policy entity operators := by
  simp [ofOperators, search]

end Plan

end EntityCursor
