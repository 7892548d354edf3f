import EntityCursor.Proofs.Chain.Longest
import EntityCursor.Proofs.Cursor.Pushdown

/-!
Chains that take nothing somewhere. Their plan has no query, and the operators after the last such
take are applied to no elements. The same chain can be split as if no operator took nothing. Main
statement: where that gives an answer, the shortcut gives the same one, it leaves the engine alone,
and nothing before the last such take makes a difference.
-/

namespace EntityCursor

namespace Plan

/-- The plan of a list of operators that begins with a scan, with a query also where some operator
takes nothing. -/
def withoutShortcut (policy : Policy) : List Operator → Outcome Plan
  | .scan entity :: rest => divide policy entity rest
  | _ => .error (.defect .noRootScan)

theorem ofOperators_eq_withoutShortcut (policy : Policy) (entity : String)
    {operators : List Operator} (takes : .take 0 ∉ operators) :
    ofOperators policy (.scan entity :: operators) =
      withoutShortcut policy (.scan entity :: operators) :=
  ofOperators_eq_divide policy entity (afterLastEmptyTake?_of_not_mem takes)

theorem afterLastEmptyTake?_append (front : List Operator) {later : List Operator}
    (last : .take 0 ∉ later) : afterLastEmptyTake? (front ++ .take 0 :: later) = some later := by
  induction front with
  | nil =>
      rw [List.nil_append, afterLastEmptyTake?, afterLastEmptyTake?_of_not_mem last]
      rfl
  | cons operator rest inductionHypothesis =>
      rw [List.cons_append, afterLastEmptyTake?, inductionHypothesis]

end Plan

theorem Operator.exists_last_emptyTake {operators : List Operator} (taken : .take 0 ∈ operators) :
    ∃ front later, operators = front ++ .take 0 :: later ∧ .take 0 ∉ later := by
  obtain ⟨later, front, reversed, last⟩ :=
    List.eq_append_cons_of_mem (List.mem_reverse.mpr taken)
  refine ⟨front.reverse, later.reverse, ?_, mt List.mem_reverse.mp last⟩
  rw [← List.reverse_reverse operators, reversed]
  simp

/-! No rows on the engine. -/

@[simp]
theorem Operator.onRows_nil (entity : String) (operator : Operator) :
    operator.onRows entity [] = .ok [] := by
  cases operator with
  | sortBy keys => simp [onRows, TableEngine.sortRows]
  | _ => simp [onRows, TableEngine.filterRows]

namespace TableEngine

variable {tables : Fields (List Row)} {query longer : Query} {rows : List Row}

/-- A query that can be executed can be executed before operators are pushed on it, and if there
are no rows then, there are none later. -/
theorem execute_of_pushOperators {operators : List Operator}
    (pushed : Plan.pushOperators query operators = .ok longer)
    (executed : execute tables longer = .ok rows) :
    ∃ before, execute tables query = .ok before ∧ (before = [] → rows = []) := by
  induction operators generalizing query with
  | nil =>
      cases pushed
      exact ⟨rows, executed, id⟩
  | cons operator rest inductionHypothesis =>
      rw [Plan.pushOperators] at pushed
      obtain ⟨next, pushedFirst, pushedRest⟩ := Outcome.bind_eq_ok.mp pushed
      obtain ⟨between, executedNext, noneLater⟩ := inductionHypothesis pushedRest
      rw [(execute_pushOperator tables pushedFirst).1] at executedNext
      obtain ⟨before, executedFirst, applied⟩ := Outcome.bind_eq_ok.mp executedNext
      refine ⟨before, executedFirst, ?_⟩
      rintro rfl
      rw [operator.onRows_nil] at applied
      exact noneLater (Except.ok.inj applied).symm

theorem execute_of_emptyTake {front back : List Operator}
    (pushed : Plan.pushOperators query (front ++ .take 0 :: back) = .ok longer)
    (executed : execute tables longer = .ok rows) : rows = [] := by
  rw [Plan.pushOperators_append] at pushed
  obtain ⟨middle, _, pushedBack⟩ := Outcome.bind_eq_ok.mp pushed
  have pushedLater : Plan.pushOperators (.take 0 middle) back = .ok longer := pushedBack
  obtain ⟨before, executedTake, noneLater⟩ := execute_of_pushOperators pushedLater executed
  apply noneLater
  obtain ⟨found, _, taken⟩ := Outcome.bind_eq_ok.mp executedTake
  exact (Except.ok.inj taken).symm

end TableEngine

theorem Plan.Gives.nothing {plan : Plan} {query : Query} {registry : Registry}
    {engine : TableEngine} {course : Course Value Unit} (gives : plan.Gives registry engine course)
    (reachable : engine.Reachable) (remote : plan.remote = some query)
    (empty : ∀ rows, TableEngine.execute engine.tables query = .ok rows → rows = []) :
    course = .whole [] ∨ course.Stuck := by
  rw [Plan.Gives, remote] at gives
  obtain ⟨rows, executed, runs⟩ := gives
  obtain rfl := empty rows executed
  obtain ⟨_, held, failAfter⟩ := TableEngine.find?_openQuery reachable executed
  by_cases failing : engine.failAfter = some 0
  · have failed : ((TableEngine.store registry).rows plan.entity query.selectedColumns?).pull
        (some ⟨engine.lastHandle + 1⟩) (TableEngine.openQuery query engine).2 =
          (.error (.remote (TableEngine.injectedFailure 0)), some ⟨engine.lastHandle + 1⟩,
            (TableEngine.openQuery query engine).2) := by
      simp [Store.rows, TableEngine.next, held, failAfter,
        failing]
    exact .inr ⟨_, (Puller.Runs.fails failed).unique runs⟩
  · have ended : ((TableEngine.store registry).rows plan.entity query.selectedColumns?).pull
        (some ⟨engine.lastHandle + 1⟩) (TableEngine.openQuery query engine).2 =
          (.ok none, some ⟨engine.lastHandle + 1⟩,
            (TableEngine.openQuery query engine).2) := by
      simp [Store.rows, TableEngine.next, held, failAfter,
        failing]
    exact .inl ((Puller.Runs.ends ended).unique runs)

/-! No elements in the process. -/

namespace Course

theorem after_whole_nil {operator : Operator} (sendable : operator.Sendable) :
    (whole []).after operator = whole [] := by
  cases operator with
  | scan entity => exact sendable.elim
  | predicateFilter predicate => exact sendable.elim
  | aggregate field aggregation => exact sendable.elim
  | map transform => exact sendable.elim
  | take count => exact (take_whole count []).trans (by rw [List.take_nil])
  | skip count => exact (skip_whole count []).trans (by rw [List.drop_nil])
  | project columns => rfl
  | expressionFilter predicate expression => rfl
  | sortBy keys => simp [after, sorted, attempt, attemptFrom, whole, sortByKeys]

theorem foldl_after_whole_nil {operators : List Operator}
    (sendable : ∀ operator ∈ operators, operator.Sendable) :
    operators.foldl Course.after (whole []) = whole [] := by
  induction operators with
  | nil => rfl
  | cons operator rest inductionHypothesis =>
      rw [List.foldl_cons, after_whole_nil (sendable operator List.mem_cons_self)]
      exact inductionHypothesis fun other member => sendable other (List.mem_cons_of_mem _ member)

theorem foldl_after_emptyTake (course : Course Value Unit) (front later : List Operator) :
    (front ++ .take 0 :: later).foldl Course.after course =
      later.foldl Course.after (whole []) := by
  rw [List.foldl_append, List.foldl_cons, after, take_zero]
  rfl

end Course

namespace Cursor

variable {State : Type} {cursor : Cursor} {front later : List Operator}

theorem explain_of_emptyTake (wellFormed : cursor.chain.WellFormed)
    (split : cursor.chain.operators = front ++ .take 0 :: later) (last : .take 0 ∉ later) :
    cursor.explain = .ok ⟨cursor.chain.entity, none, later, true⟩ := by
  rw [explain_of_wellFormed wellFormed, Chain.nodes, split]
  exact Plan.ofOperators_of_emptyTake (Plan.afterLastEmptyTake?_append front last)

/-- An answer that the operators after a split make of the rows is what the operators after the last
empty take make of no elements. -/
theorem answer_of_split {entity : String} {query : Query} {registry : Registry}
    {engine : TableEngine} {source : Course Value Unit} {elements : List Value} {pushed : Nat}
    (last : .take 0 ∉ later) (reachable : engine.Reachable)
    (gives : Plan.Gives ⟨entity, some query, (front ++ .take 0 :: later).drop pushed, false⟩
      registry engine source)
    (isPushed : Plan.pushOperators (.scan entity) ((front ++ .take 0 :: later).take pushed) =
      .ok query)
    (sendable : ∀ operator ∈ (front ++ .take 0 :: later).take pushed, operator.Sendable)
    (answered : (((front ++ .take 0 :: later).drop pushed).foldl Course.after source).answer =
      .ok elements) :
    (later.foldl Course.after (.whole [])).answer = .ok elements := by
  rcases Nat.lt_or_ge front.length pushed with more | less
  · -- The last empty take is handed over, and the rows are none or cannot be read.
    obtain ⟨count, rfl⟩ : ∃ count, pushed = front.length + (count + 1) :=
      ⟨pushed - front.length - 1, by omega⟩
    rw [List.take_length_add_append, List.take_succ_cons] at isPushed sendable
    rw [List.drop_length_add_append, List.drop_succ_cons] at answered
    have empty : ∀ rows, TableEngine.execute engine.tables query = .ok rows → rows = [] :=
      fun rows executed => TableEngine.execute_of_emptyTake isPushed executed
    rcases gives.nothing reachable rfl empty with rfl | stuck
    · have sendableLater : ∀ operator ∈ later.take count, operator.Sendable := by
        intro operator member
        exact sendable operator (List.mem_append_right _ (List.mem_cons_of_mem _ member))
      rw [← List.take_append_drop count later, List.foldl_append,
        Course.foldl_after_whole_nil sendableLater]
      exact answered
    · have takes : ∀ operator ∈ later.drop count, operator.takesNothing = false := by
        intro operator member
        apply Bool.eq_false_iff.mpr
        intro takesNothing
        rw [Operator.takesNothing_iff.mp takesNothing] at member
        exact last (List.mem_of_mem_drop member)
      obtain ⟨failure, failed⟩ := (stuck.foldl_after takes).fails.answer
      rw [failed] at answered
      cases answered
  · -- The last empty take stays in the process, and no row is asked for.
    rwa [List.drop_append_of_le_length less, Course.foldl_after_emptyTake] at answered

theorem toArray_of_withoutShortcut {registry : Registry} {request : Request}
    {world : World TableEngine} {elements : List Value} (wellFormed : cursor.chain.WellFormed)
    (split : cursor.chain.operators = front ++ .take 0 :: later) (last : .take 0 ∉ later)
    (reachable : world.channel.Reachable)
    (answered : (cursor.toArrayBy (Plan.withoutShortcut cursor.policy cursor.chain.nodes)
      (TableEngine.store registry) request world).1 = .ok elements) :
    (cursor.toArray (TableEngine.store registry) request world).1 = .ok elements := by
  rcases refused_or_takes (Plan.withoutShortcut cursor.policy cursor.chain.nodes) registry request
      world with ⟨failure, refused⟩ | ⟨plan, source, planned, contained, gives, takes⟩
  · rw [refused.toArrayBy] at answered
    cases answered
  · obtain ⟨pushed, query, divided, written, rfl⟩ := Plan.exists_of_divide planned
    have sendable := Policy.sendable_of_pushed divided
    rw [takes.toArrayBy, Course.through_reverse] at answered
    rw [toArray_of_no_query (explain_of_emptyTake wellFormed split last) contained rfl,
      Course.through_reverse]
    rw [split] at written sendable gives answered
    exact answer_of_split last reachable gives written sendable answered

theorem toArray_congr {other : Cursor} (explained : other.explain = cursor.explain)
    (scanned : other.chain.scannedEntity = cursor.chain.scannedEntity) (store : Store State)
    (request : Request) (world : World State) :
    other.toArray store request world = cursor.toArray store request world := by
  simp only [toArray, toArrayBy, iterateBy, explained, scanned]

/-- The shortcut is nothing but a shortcut: where the split gives an answer, the shortcut gives the
same one, without a call to the engine, and what comes before the last empty take makes no
difference, whatever its predicates, transforms and folds do. -/
theorem shortcut_preserves_answers (wellFormed : cursor.chain.WellFormed)
    (taken : .take 0 ∈ cursor.chain.operators) :
    ∃ front later, cursor.chain.operators = front ++ .take 0 :: later ∧ .take 0 ∉ later ∧
      cursor.explain = .ok ⟨cursor.chain.entity, none, later, true⟩ ∧
      (∀ (registry : Registry) (request : Request) (world : World TableEngine) elements,
        world.channel.Reachable →
        (cursor.toArrayBy (Plan.withoutShortcut cursor.policy cursor.chain.nodes)
            (TableEngine.store registry) request world).1 = .ok elements →
        (cursor.toArray (TableEngine.store registry) request world).1 = .ok elements) ∧
      (∀ {State : Type} (store : Store State) (request : Request)
        (world : World (List EntityCursor.Call × State)),
        (cursor.toArray store.recorded request world).2.channel.1 = world.channel.1) ∧
      ∀ (other : Cursor) (otherFront : List Operator), other.chain.WellFormed →
        other.chain.entity = cursor.chain.entity →
        other.chain.operators = otherFront ++ .take 0 :: later →
        ∀ {State : Type} (store : Store State) (request : Request) (world : World State),
          other.toArray store request world = cursor.toArray store request world := by
  obtain ⟨front, later, split, last⟩ := Operator.exists_last_emptyTake taken
  have explained := explain_of_emptyTake wellFormed split last
  refine ⟨front, later, split, last, explained, ?_, ?_, ?_⟩
  · intro registry request world elements reachable answered
    exact toArray_of_withoutShortcut wellFormed split last reachable answered
  · intro State store request world
    obtain ⟨calls, added, _, silent⟩ := cursor.keeps_toArray store request world
    rw [added, silent (.inl taken), List.append_nil]
  · intro other otherFront otherWellFormed sameEntity otherSplit State store request world
    apply toArray_congr
    · rw [explain_of_emptyTake otherWellFormed otherSplit last, explained, sameEntity]
    · simp only [Chain.scannedEntity, Chain.walk_of_wellFormed wellFormed,
        Chain.walk_of_wellFormed otherWellFormed, sameEntity, Outcome.ok_bind]

def person : EntityDescriptor := ⟨"Person", [{ name := "name", kind := .string }]⟩

def onePerson : TableEngine :=
  TableEngine.insert {} "Person" [.object [("name", .string "Ada")]]

def firstOfNobody : Cursor := ((ofEntity {} "Person").take 0).minBy "name"

/-- The smallest name of nobody is null, with the shortcut and without it. -/
theorem firstOfNobody_is_null :
    firstOfNobody.chain.WellFormed ∧ .take 0 ∈ firstOfNobody.chain.operators ∧
      (firstOfNobody.toArrayBy (Plan.withoutShortcut {} firstOfNobody.chain.nodes)
        (TableEngine.store ⟨[("Person", person)]⟩) (.internal "nobody")
        { channel := onePerson }).1 = .ok [.null] ∧
      (firstOfNobody.toArray (TableEngine.store ⟨[("Person", person)]⟩) (.internal "nobody")
        { channel := onePerson }).1 = .ok [.null] := by
  have wellFormed : firstOfNobody.chain.WellFormed := by
    intro operator member
    change operator ∈ [.take 0, .aggregate "name" .least] at member
    simp only [List.mem_cons, List.not_mem_nil, or_false] at member
    rcases member with rfl | rfl <;> rfl
  have taken : .take 0 ∈ firstOfNobody.chain.operators := List.mem_cons_self
  have answered : (firstOfNobody.toArrayBy (Plan.withoutShortcut {} firstOfNobody.chain.nodes)
      (TableEngine.store ⟨[("Person", person)]⟩) (.internal "nobody")
      { channel := onePerson }).1 = .ok [.null] := rfl
  obtain ⟨_, _, _, _, _, keeps, _⟩ := shortcut_preserves_answers wellFormed taken
  exact ⟨wellFormed, taken, answered, keeps _ _ _ _ (.insert _ _ .fresh) answered⟩

end Cursor

end EntityCursor
