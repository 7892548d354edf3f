import EntityCursor.Cursor.Basic
import EntityCursor.Proofs.Chain.SortCounter
import EntityCursor.Proofs.Channel.Execution
import Mathlib.Data.List.Forall2

/-!
How far a chain is handed over. Main statement: what is handed over is the longest front part that
the policy grants, the query document has one operation for each of its operators, in order, and all
other operators stay in the process.
-/

namespace EntityCursor

namespace Chain

/-- No scan stands above the root. -/
def WellFormed (chain : Chain) : Prop :=
  ∀ operator ∈ chain.operators, operator.isScan = false

theorem walk_of_wellFormed {chain : Chain} (wellFormed : chain.WellFormed) :
    chain.walk = .ok chain.nodes := by
  unfold walk
  rw [List.any_eq_false.mpr fun operator member =>
    Bool.eq_false_iff.mp (wellFormed operator member)]
  rfl

end Chain

theorem Cursor.explain_of_wellFormed {cursor : Cursor} (wellFormed : cursor.chain.WellFormed) :
    cursor.explain = Plan.ofOperators cursor.policy cursor.chain.nodes := by
  unfold explain
  rw [Chain.walk_of_wellFormed wellFormed, Outcome.ok_bind]

theorem Cursor.wellFormed_of_explain {cursor : Cursor} {plan : Plan}
    (explained : cursor.explain = .ok plan) : cursor.chain.WellFormed := by
  intro operator member
  by_contra scans
  have walked : cursor.chain.walk = .error (.defect .scanAboveRoot) :=
    if_pos (List.any_eq_true.mpr ⟨operator, member, Bool.of_not_eq_false scans⟩)
  rw [explain, walked] at explained
  cases explained

@[simp]
theorem Operator.takesNothing_iff {operator : Operator} :
    operator.takesNothing = true ↔ operator = .take 0 := by
  unfold takesNothing
  split <;> simp_all

theorem Plan.afterLastEmptyTake?_of_not_mem {operators : List Operator}
    (takes : .take 0 ∉ operators) : afterLastEmptyTake? operators = none := by
  induction operators with
  | nil => rfl
  | cons operator rest inductionHypothesis =>
      obtain ⟨first, later⟩ := not_or.mp (mt List.mem_cons.mpr takes)
      rw [afterLastEmptyTake?, inductionHypothesis later]
      apply if_neg
      intro takesNothing
      exact first (Operator.takesNothing_iff.mp takesNothing).symm

/-! How operators are written. -/

/-- The outermost operation of a query says the same as an operator. -/
def Operator.IsWritten : Operator → Query → Prop
  | .scan entity, .scan written => written = entity
  | .take count, .take written _ => written = count
  | .skip count, .skip written _ => written = count
  | .project columns, .select written _ => written = columns
  | .expressionFilter _ expression, .filter written _ => written = expression
  | .sortBy keys, .sort written _ => written = keys
  | _, _ => False

namespace Plan

theorem nodes_pushOperator {query longer : Query} {operator : Operator}
    (pushed : pushOperator query operator = .ok longer) :
    longer.nodes = query.nodes ++ [longer] ∧ operator.IsWritten longer := by
  unfold pushOperator at pushed
  split at pushed <;> cases pushed <;> exact ⟨rfl, rfl⟩

theorem nodes_pushOperators {query longer : Query} {operators : List Operator}
    (pushed : pushOperators query operators = .ok longer) :
    ∃ added, longer.nodes = query.nodes ++ added ∧
      List.Forall₂ Operator.IsWritten operators added := by
  induction operators generalizing query with
  | nil =>
      cases pushed
      exact ⟨[], by simp, .nil⟩
  | cons operator rest inductionHypothesis =>
      rw [pushOperators] at pushed
      obtain ⟨next, pushedFirst, pushedRest⟩ := Outcome.bind_eq_ok.mp pushed
      obtain ⟨nodes, written⟩ := nodes_pushOperator pushedFirst
      obtain ⟨added, nodesRest, writtenRest⟩ := inductionHypothesis pushedRest
      refine ⟨next :: added, ?_, .cons written writtenRest⟩
      rw [nodesRest, nodes, List.append_assoc, List.singleton_append]

end Plan

/-! The split. -/

/-- A query stands for the first operators of a chain, as many as a policy can grant. -/
structure Chain.SplitsAt (chain : Chain) (policy : Policy) (pushed : Nat) (query : Query) :
    Prop where
  within : pushed ≤ chain.operators.length
  /-- The query has one operation for the root and for each of the operators, in order. -/
  written : List.Forall₂ Operator.IsWritten
    (.scan chain.entity :: chain.operators.take pushed) query.nodes
  granted : policy.Grants 0 (chain.operators.take pushed)
  longest : ∀ longer, pushed < longer → longer ≤ chain.operators.length →
    ¬ policy.Grants 0 (chain.operators.take longer)
  columns : query.selectedColumns? =
    Chain.selectedColumns? ⟨chain.entity, chain.operators.take pushed⟩

namespace Cursor

variable {cursor : Cursor}

/-- The longest part of a chain that the policy grants is handed over, and nothing else is. -/
theorem splits_at_longest (wellFormed : cursor.chain.WellFormed)
    (takes : .take 0 ∉ cursor.chain.operators) (few : cursor.policy.maxPushedSorts < 255) :
    ∃ pushed query,
      cursor.explain = .ok ⟨cursor.chain.entity, some query, cursor.chain.operators.drop pushed,
        false⟩ ∧
      cursor.chain.SplitsAt cursor.policy pushed query := by
  obtain ⟨pushed, split⟩ := Policy.exists_pushedFrom? (Policy.not_runsOver_of_few few)
  obtain ⟨query, written, divided⟩ := Plan.exists_divide cursor.chain.entity split
  have planned := (Plan.ofOperators_eq_divide cursor.policy cursor.chain.entity
    (Plan.afterLastEmptyTake?_of_not_mem takes)).trans divided
  have none : (0 : UInt8) ≤ cursor.policy.maxPushedSorts := UInt8.zero_le
  have within := Policy.pushedFrom?_le_length split
  refine ⟨pushed, query, (explain_of_wellFormed wellFormed).trans planned, within, ?_, ?_, ?_, ?_⟩
  · obtain ⟨added, nodes, isWritten⟩ := Plan.nodes_pushOperators written
    rw [nodes]
    exact .cons rfl isWritten
  · exact (Policy.grants_take_iff none split within).mpr (Nat.le_refl _)
  · intro longer more bound grants
    exact Nat.not_le_of_lt more ((Policy.grants_take_iff none split bound).mp grants)
  · rw [TableEngine.selectedColumns?_pushOperators written, Chain.selectedColumns?_eq_foldl]
    rfl

def twiceSorted : Cursor :=
  (((ofEntity {} "Person").sortBy [⟨"name", true⟩]).take 5).sortBy [⟨"age", true⟩]

/-- The second sort is one too many, and everything before it is handed over. -/
theorem twiceSorted_splits :
    twiceSorted.chain.WellFormed ∧ .take 0 ∉ twiceSorted.chain.operators ∧
      twiceSorted.policy.maxPushedSorts < 255 ∧
      twiceSorted.explain = .ok ⟨"Person", some (.take 5 (.sort [⟨"name", true⟩] (.scan "Person"))),
        [.sortBy [⟨"age", true⟩]], false⟩ ∧
      twiceSorted.chain.SplitsAt twiceSorted.policy 2
        (.take 5 (.sort [⟨"name", true⟩] (.scan "Person"))) := by
  have wellFormed : twiceSorted.chain.WellFormed := by
    intro operator member
    change operator ∈ [.sortBy [⟨"name", true⟩], .take 5, .sortBy [⟨"age", true⟩]] at member
    simp only [List.mem_cons, List.not_mem_nil, or_false] at member
    rcases member with rfl | rfl | rfl <;> rfl
  have takes : .take 0 ∉ twiceSorted.chain.operators := by
    simp [twiceSorted, sortBy, take, extend, Chain.extend, ofEntity, Chain.scan]
  have few : twiceSorted.policy.maxPushedSorts < 255 := by decide
  have planned : twiceSorted.explain =
      .ok ⟨"Person", some (.take 5 (.sort [⟨"name", true⟩] (.scan "Person"))),
        [.sortBy [⟨"age", true⟩]], false⟩ := rfl
  obtain ⟨pushed, query, explained, splits⟩ := splits_at_longest wellFormed takes few
  rw [planned] at explained
  simp only [Except.ok.injEq, Plan.mk.injEq, Option.some.injEq] at explained
  obtain ⟨_, rfl, remaining, _⟩ := explained
  have two : pushed = 2 := by
    have lengths := congrArg List.length remaining
    have three : twiceSorted.chain.operators.length = 3 := rfl
    rw [List.length_drop, three, List.length_singleton] at lengths
    omega
  exact ⟨wellFormed, takes, few, planned, two ▸ splits⟩

end Cursor

end EntityCursor
