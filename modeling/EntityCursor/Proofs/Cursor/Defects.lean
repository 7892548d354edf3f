import EntityCursor.Proofs.Chain.SortCounter
import EntityCursor.Proofs.Cursor.Fidelity
import EntityCursor.Proofs.Descriptor.References
import EntityCursor.Proofs.Filter.Refusals

/-!
Defects do not show. However a cursor is built, its chain can be planned and its plan can be run, so
that over a valid registry no terminal operation and no pull of a stream fails with a defect, unless
a function that the caller has handed in returns one.
-/

namespace EntityCursor

open Outcome (FailsOnly)
open QueryError (IsInvalidFilter IsOrdinary IsMismatch)

theorem QueryError.IsMismatch.isOrdinary {failure : QueryError} (mismatch : failure.IsMismatch) :
    failure.IsOrdinary := by
  cases mismatch
  rfl

/-! Building, with every operation and whatever is handed in. -/

namespace Cursor

inductive Call where
  | select (columns : List String)
  | take (count : Nat)
  | skip (count : Nat)
  | filter (predicate : Predicate)
  | filterWith (predicate : Predicate) (expression : Expr)
  | filterExpression (expression : Expr)
  | filterDocument (document : Json)
  | filterWhere (restriction : Restriction)
  | sortBy (keys : List SortKey)
  | minBy (field : String)
  | maxBy (field : String)
  | aggregateBy (field : String) (initial : Option Value) (step : Fold)
  | map (transform : Transform)

def perform (cursor : Cursor) : Call → Outcome Cursor
  | .select columns => .ok (cursor.select columns)
  | .take count => .ok (cursor.take count)
  | .skip count => .ok (cursor.skip count)
  | .filter predicate => .ok (cursor.filter predicate)
  | .filterWith predicate expression => cursor.filterWith predicate expression
  | .filterExpression expression => cursor.filterExpression expression
  | .filterDocument document => cursor.filterDocument document
  | .filterWhere restriction => cursor.filterWhere restriction
  | .sortBy keys => .ok (cursor.sortBy keys)
  | .minBy field => .ok (cursor.minBy field)
  | .maxBy field => .ok (cursor.maxBy field)
  | .aggregateBy field initial step => .ok (cursor.aggregateBy field initial step)
  | .map transform => .ok (cursor.map transform)

def performAll (cursor : Cursor) : List Call → Outcome Cursor
  | [] => .ok cursor
  | call :: rest => do
      let longer ← cursor.perform call
      longer.performAll rest

/-- The function that the caller hands in with a call returns a failure. -/
def Call.Raises (failure : QueryError) : Call → Prop
  | .filter predicate => ∃ element, predicate element = .error failure
  | .filterWith predicate _ => ∃ element, predicate element = .error failure
  | .aggregateBy _ _ step => ∃ accumulated candidate, step accumulated candidate = .error failure
  | .map transform => ∃ element, transform element = .error failure
  | _ => False

/-- A failure that is no defect, or one that a function of the caller returns. -/
def Excused (calls : List Call) (failure : QueryError) : Prop :=
  failure.IsOrdinary ∨ ∃ call ∈ calls, call.Raises failure

theorem Excused.mono {calls more : List Call} {failure : QueryError}
    (excused : Excused calls failure) (widens : ∀ call ∈ calls, call ∈ more) :
    Excused more failure := by
  rcases excused with ordinary | ⟨call, member, raises⟩
  · exact .inl ordinary
  · exact .inr ⟨call, widens call member, raises⟩

/-- No operator of a chain is a scan, and what the functions of its operators fail with is excused
by the calls. -/
structure Attributed (calls : List Call) (cursor : Cursor) : Prop where
  noScan : ∀ operator ∈ cursor.chain.operators, operator.isScan = false
  raises : ∀ operator ∈ cursor.chain.operators, ∀ failure, operator.Raises failure →
    Excused calls failure

namespace Attributed

variable {calls : List Call} {cursor longer : Cursor}

theorem ofEntity (policy : Policy) (entity : String) :
    (ofEntity policy entity).Attributed [] := by
  constructor
  · intro operator member
    cases member
  · intro operator member
    cases member

theorem mono (attributed : cursor.Attributed calls) {more : List Call}
    (widens : ∀ call ∈ calls, call ∈ more) : cursor.Attributed more :=
  ⟨attributed.noScan, fun operator member failure raised =>
    (attributed.raises operator member failure raised).mono widens⟩

theorem extend (attributed : cursor.Attributed calls) {operator : Operator}
    (noScan : operator.isScan = false)
    (raises : ∀ failure, operator.Raises failure → Excused calls failure) :
    (cursor.extend operator).Attributed calls := by
  constructor
  · exact List.forall_mem_append.mpr ⟨attributed.noScan, List.forall_mem_singleton.mpr noScan⟩
  · exact List.forall_mem_append.mpr ⟨attributed.raises, List.forall_mem_singleton.mpr raises⟩

theorem filterExpression (attributed : cursor.Attributed calls) {expression : Expr}
    (filtered : cursor.filterExpression expression = .ok longer) : longer.Attributed calls := by
  obtain ⟨_, _, extended⟩ := Outcome.bind_eq_ok.mp filtered
  cases extended
  apply attributed.extend rfl
  rintro failure ⟨element, raised⟩
  exact .inl (expression.failsOnly_accepts element failure raised)

theorem filterOptional (attributed : cursor.Attributed calls) {condition : Option Expr}
    (filtered : cursor.filterOptional condition = .ok longer) : longer.Attributed calls := by
  cases condition with
  | none =>
      cases filtered
      exact attributed
  | some expression => exact attributed.filterExpression filtered

/-- A call adds no failures but those of the function that it comes with. -/
theorem perform (attributed : cursor.Attributed calls) {call : Call}
    (called : cursor.perform call = .ok longer) : longer.Attributed (calls ++ [call]) := by
  have before : cursor.Attributed (calls ++ [call]) :=
    attributed.mono fun other member => List.mem_append_left _ member
  have here (failure : QueryError) (raises : call.Raises failure) :
      Excused (calls ++ [call]) failure :=
    .inr ⟨call, List.mem_append_right _ List.mem_cons_self, raises⟩
  cases call with
  | select columns =>
      cases called
      exact before.extend rfl fun _ raised => raised.elim
  | take count =>
      cases called
      exact before.extend rfl fun _ raised => raised.elim
  | skip count =>
      cases called
      exact before.extend rfl fun _ raised => raised.elim
  | sortBy keys =>
      cases called
      exact before.extend rfl fun _ raised => raised.elim
  | minBy field =>
      cases called
      exact before.extend rfl fun _ raised => raised.elim
  | maxBy field =>
      cases called
      exact before.extend rfl fun _ raised => raised.elim
  | filter predicate =>
      cases called
      exact before.extend rfl here
  | aggregateBy field initial step =>
      cases called
      exact before.extend rfl here
  | map transform =>
      cases called
      exact before.extend rfl here
  | filterWith predicate expression =>
      obtain ⟨_, _, extended⟩ := Outcome.bind_eq_ok.mp called
      cases extended
      exact before.extend rfl here
  | filterExpression expression => exact before.filterExpression called
  | filterDocument document =>
      obtain ⟨_, _, filtered⟩ := Outcome.bind_eq_ok.mp called
      exact before.filterOptional filtered
  | filterWhere restriction =>
      obtain ⟨_, _, filtered⟩ := Outcome.bind_eq_ok.mp called
      obtain ⟨_, _, filtered⟩ := Outcome.bind_eq_ok.mp filtered
      exact before.filterOptional filtered

theorem performAll (attributed : cursor.Attributed calls) {more : List Call}
    (called : cursor.performAll more = .ok longer) : longer.Attributed (calls ++ more) := by
  induction more generalizing cursor calls with
  | nil =>
      cases called
      rw [List.append_nil]
      exact attributed
  | cons call rest inductionHypothesis =>
      obtain ⟨next, performed, called⟩ := Outcome.bind_eq_ok.mp called
      have whole := inductionHypothesis (attributed.perform performed) called
      rw [List.append_assoc] at whole
      exact whole

/-- A chain of which no operator is a scan can be planned unless the counter of sorts runs over, and
the operators of the process are among its operators. -/
theorem explain (attributed : cursor.Attributed calls) :
    cursor.explain = .error .overflow ∧ cursor.policy.RunsOver 0 cursor.chain.operators ∨ ∃ plan, cursor.explain = .ok plan ∧
      ∀ operator ∈ plan.localOperators, operator ∈ cursor.chain.operators := by
  have noScan : cursor.chain.operators.any Operator.isScan = false := by
    rw [List.any_eq_false]
    intro operator member
    simp [attributed.noScan operator member]
  have explained : cursor.explain =
      Plan.ofOperators cursor.policy (.scan cursor.chain.entity :: cursor.chain.operators) := by
    simp [Cursor.explain, Chain.walk, noScan, Chain.nodes]
  rw [explained]
  cases search : Plan.afterLastEmptyTake? cursor.chain.operators with
  | some later =>
      obtain ⟨front, split⟩ := Plan.suffix_of_afterLastEmptyTake? search
      refine .inr ⟨_, Plan.ofOperators_of_emptyTake search, ?_⟩
      intro operator member
      rw [split]
      exact List.mem_append_right _ member
  | none =>
      rw [Plan.ofOperators_eq_divide _ _ search]
      cases split : cursor.policy.pushedFrom? 0 cursor.chain.operators with
      | none =>
          have runsOver := (Policy.pushedFrom?_eq_none_iff UInt8.zero_le).mp split
          exact .inl ⟨Plan.divide_of_overflow cursor.chain.entity split, runsOver⟩
      | some pushed =>
          obtain ⟨query, _, planned⟩ := Plan.exists_divide cursor.chain.entity split
          exact .inr ⟨_, planned, fun operator member => List.mem_of_mem_drop member⟩

end Attributed

theorem failsOnly_requireSelected (cursor : Cursor) (fields : List String) :
    FailsOnly IsOrdinary (cursor.requireSelected fields) := by
  rw [requireSelected]
  split
  · exact .ok ()
  · split
    · exact .error rfl
    · exact .ok ()

theorem failsOnly_filterOptional (cursor : Cursor) (condition : Option Expr) :
    FailsOnly IsOrdinary (cursor.filterOptional condition) := by
  cases condition with
  | none => exact .ok cursor
  | some expression => exact (cursor.failsOnly_requireSelected _).bind fun _ _ => .ok _

theorem failsOnly_perform (cursor : Cursor) (call : Call) :
    FailsOnly IsOrdinary (cursor.perform call) := by
  cases call with
  | filterWith predicate expression =>
      exact (cursor.failsOnly_requireSelected _).bind fun _ _ => .ok _
  | filterExpression expression =>
      exact (cursor.failsOnly_requireSelected _).bind fun _ _ => .ok _
  | filterDocument document =>
      exact ((Filter.failsOnly_compile document).mono fun _ => IsInvalidFilter.isOrdinary).bind
        fun condition _ => cursor.failsOnly_filterOptional condition
  | filterWhere restriction =>
      exact (cursor.failsOnly_requireSelected _).bind fun _ _ =>
        (restriction.failsOnly_compile.mono fun _ => IsInvalidFilter.isOrdinary).bind
          fun condition _ => cursor.failsOnly_filterOptional condition
  | _ => exact .ok _

end Cursor

/-! Running. -/

variable {State : Type} {store : Store State} {allowed : QueryError → Prop}

theorem Store.failsOnly_rows (closed : store.registry.IsClosed) {entity : String}
    (known : store.registry.contains entity) (columns : Option (List String)) :
    (store.rows entity columns).FailsOnly IsOrdinary := by
  intro handle state
  cases handle with
  | none => exact .ok none
  | some handle =>
      simp only [Store.rows]
      rcases store.channel.next handle state with ⟨failure | (_ | row), after⟩
      · exact .error rfl
      · exact .ok none
      · cases columns with
        | some columns => exact .ok _
        | none =>
            have materialized := Registry.failsOnly_materialize closed known row
            exact ((materialized.map Entity.toValue).mono fun _ => IsMismatch.isOrdinary).map some

namespace QueryStream

/-- What the pulls of a stream fail with is allowed. -/
def FailsOnly (store : Store State) (allowed : QueryError → Prop) (stream : QueryStream) : Prop :=
  (stream.elements store).FailsOnly allowed

variable {stream : QueryStream}

theorem FailsOnly.next (fails : stream.FailsOnly store allowed) (world : World State) :
    Outcome.FailsOnly allowed (stream.next store world).1 ∧
      (stream.next store world).2.1.FailsOnly store allowed := by
  rw [QueryStream.next]
  split
  · exact ⟨.ok none, fails⟩
  · exact ⟨fails _ _, fails⟩

theorem failsOnly_close (stream : QueryStream) (store : Store State) (world : World State) :
    Outcome.FailsOnly IsOrdinary (stream.close store world).1 := by
  rw [close]
  split
  · exact .ok ()
  · split
    · exact .ok ()
    · split
      · exact .ok ()
      · exact .error rfl

theorem FailsOnly.close (fails : stream.FailsOnly store allowed) (world : World State) :
    (stream.close store world).2.1.FailsOnly store allowed := by
  rw [QueryStream.close]
  split
  · exact fails
  · split
    · exact fails
    · split
      · exact fails
      · exact fails

theorem FailsOnly.reached {later : QueryStream} (fails : stream.FailsOnly store allowed)
    (reached : stream.Reached store later) : later.FailsOnly store allowed := by
  induction reached with
  | obtained => exact fails
  | next world _ inductionHypothesis => exact (inductionHypothesis.next world).2
  | close world _ inductionHypothesis => exact inductionHypothesis.close world

theorem FailsOnly.visit {Result : Type} (fails : stream.FailsOnly store allowed)
    {step : Result → Value → Outcome (Option Unit) × Result}
    (steps : ∀ result element, Outcome.FailsOnly allowed (step result element).1)
    (result : Result) (world : World State) :
    Outcome.FailsOnly allowed (stream.visit store step result world).1 := by
  rw [QueryStream.visit]
  split
  · exact .ok ()
  · exact (Puller.FailsOnly.forEach fails steps _ _ _).map _

theorem FailsOnly.drain (fails : stream.FailsOnly store allowed)
    (closes : ∀ failure, failure.IsOrdinary → allowed failure) (world : World State) :
    ∀ item ∈ (stream.drain store world).1, Outcome.FailsOnly allowed item := by
  have gathers (gathered : List Value) (element : Value) :
      Outcome.FailsOnly allowed (gather gathered element).1 := .ok none
  have visited := fails.visit gathers [] world
  rcases gathering : stream.visit store gather [] world with ⟨outcome, elements, after, worldAfter⟩
  have ended := (after.failsOnly_close store worldAfter).mono closes
  rcases closing : after.close store worldAfter with ⟨closed, final, worldFinal⟩
  rw [gathering] at visited
  rw [closing] at ended
  have delivered : ∀ item ∈ elements.reverse.map Except.ok, Outcome.FailsOnly allowed item := by
    intro item member
    obtain ⟨element, _, rfl⟩ := List.mem_map.mp member
    exact .ok element
  simp only [QueryStream.drain, gathering, closing]
  cases outcome with
  | ok done =>
      cases closed with
      | ok done => exact delivered
      | error failure =>
          exact List.forall_mem_append.mpr
            ⟨delivered, List.forall_mem_singleton.mpr (.error (ended failure rfl))⟩
  | error failure =>
      have failed : ∀ item ∈ elements.reverse.map Except.ok ++ [.error failure],
          Outcome.FailsOnly allowed item :=
        List.forall_mem_append.mpr
          ⟨delivered, List.forall_mem_singleton.mpr (.error (visited failure rfl))⟩
      cases closed with
      | ok done => exact failed
      | error closeFailure => exact failed

end QueryStream

namespace Cursor

variable {calls : List Call} {cursor : Cursor}

theorem Attributed.ofPlan (attributed : cursor.Attributed calls)
    (closed : store.registry.IsClosed) {plan : Plan}
    (known : store.registry.contains plan.entity)
    (among : ∀ operator ∈ plan.localOperators, operator ∈ cursor.chain.operators)
    (handle : Option Handle) :
    (QueryStream.ofPlan plan handle).FailsOnly store (Excused calls) := by
  have rows := store.failsOnly_rows closed known (plan.remote.bind Query.selectedColumns?)
  have excused : (store.rows plan.entity (plan.remote.bind Query.selectedColumns?)).FailsOnly
      (Excused calls) :=
    fun handle state => (rows handle state).mono fun _ => .inl
  apply Puller.FailsOnly.counting
  apply excused.stack (fun _ => .inl)
  · intro operator member
    exact attributed.noScan operator (among operator (List.mem_reverse.mp member))
  · intro operator member
    exact attributed.raises operator (among operator (List.mem_reverse.mp member))

/-- Opening fails with nothing but excused failures, and so do the pulls of what was opened. -/
theorem Attributed.stream (attributed : cursor.Attributed calls)
    (closed : store.registry.IsClosed) (request : Request) (world : World State) :
    FailsOnly (Excused calls) (cursor.stream store request world).1 ∧
      ∀ stream, (cursor.stream store request world).1 = .ok stream →
        stream.FailsOnly store (Excused calls) := by
  have planned := attributed.explain
  have obtains := cursor.obtains_stream store request world
  rcases streamed : cursor.stream store request world with ⟨obtained, after⟩
  rw [streamed] at obtains
  cases obtains with
  | unplanned explained =>
      rw [explained] at planned
      obtain ⟨⟨⟩, -⟩ | ⟨plan, ⟨⟩, -⟩ := planned
      exact ⟨.error (.inl rfl), by rintro stream ⟨⟩⟩
  | unregistered explained missing => exact ⟨.error (.inl rfl), by rintro stream ⟨⟩⟩
  | refused explained contained remote asked => exact ⟨.error (.inl rfl), by rintro stream ⟨⟩⟩
  | shortCircuited explained contained remote =>
      rw [explained] at planned
      obtain ⟨⟨⟩, -⟩ | ⟨plan, ⟨⟩, among⟩ := planned
      refine ⟨.ok _, ?_⟩
      rintro stream ⟨⟩
      exact attributed.ofPlan closed contained among none
  | @opened _ _ handle _ fields explained contained remote asked =>
      rw [explained] at planned
      obtain ⟨⟨⟩, -⟩ | ⟨plan, ⟨⟩, among⟩ := planned
      refine ⟨.ok _, ?_⟩
      rintro stream ⟨⟩
      exact attributed.ofPlan closed contained among (some handle)

theorem failsOnly_finish {Result : Type} {request : Request} {scope : Scope}
    {outcome : Outcome Result} (fails : FailsOnly allowed outcome)
    (closes : ∀ failure, failure.IsOrdinary → allowed failure) (stream : QueryStream)
    (world : World State) :
    FailsOnly allowed (finish store request scope outcome stream world).1 := by
  have ended := (stream.failsOnly_close store world).mono closes
  rw [finish.eq_def]
  split
  · exact .ok _
  · next closing =>
      rw [closing] at ended
      exact .error (ended _ rfl)
  · exact .error (fails _ rfl)
  · exact .error (fails _ rfl)

theorem Attributed.iterate {Result Kept : Type} (attributed : cursor.Attributed calls)
    (closed : store.registry.IsClosed) {request : Request} {terminal : String}
    (widens : ∀ failure, Excused calls failure → allowed failure)
    {consume : Kept → QueryStream → World State → Outcome Result × Kept × QueryStream × World State}
    {kept : Kept}
    (consumes : ∀ stream world, stream.FailsOnly store (Excused calls) →
      FailsOnly allowed (consume kept stream world).1)
    (world : World State) :
    FailsOnly allowed (cursor.iterate store request terminal consume kept world).1 := by
  simp only [Cursor.iterate, iterateBy, streamBy_explain]
  generalize Scope.enter _ _ _ = scope
  have opening := attributed.stream closed request { world with journal := scope.2 }
  generalize cursor.stream store request { world with journal := scope.2 } = obtained at opening ⊢
  rcases obtained with ⟨failure | stream, opened⟩
  · exact .error (widens failure (opening.1 failure rfl))
  · have consumed := consumes stream opened (opening.2 stream rfl)
    exact failsOnly_finish consumed (fun failure ordinary => widens failure (.inl ordinary)) _ _

section Terminals

variable {calls : List Call} {cursor : Cursor} (attributed : cursor.Attributed calls)
  (closed : store.registry.IsClosed) (request : Request) (world : World State)

include attributed closed

theorem Attributed.forEach {Kept : Type}
    (widens : ∀ failure, Excused calls failure → allowed failure)
    {step : Kept → Value → Outcome (Option Unit) × Kept}
    (steps : ∀ kept element, FailsOnly allowed (step kept element).1) (kept : Kept) :
    FailsOnly allowed (cursor.forEach store request step kept world).1 := by
  apply attributed.iterate closed widens
  intro stream world fails
  have widened : stream.FailsOnly store allowed :=
    fun state world => (fails state world).mono widens
  exact widened.visit steps kept world

theorem Attributed.toArray : FailsOnly (Excused calls) (cursor.toArray store request world).1 := by
  have gathered : FailsOnly (Excused calls) (cursor.iterate store request "to_array"
      (QueryStream.visit store QueryStream.gather) [] world).1 :=
    attributed.iterate closed (fun _ => id)
      (fun stream world fails => fails.visit (fun _ _ => .ok none) [] world) world
  exact gathered.map _

theorem Attributed.first : FailsOnly (Excused calls) (cursor.first store request world).1 := by
  have iterated : (cursor.first store request world).1 =
      (cursor.iterate store request "first" (fun (_ : Unit) stream world =>
        ((stream.next store world).1, (), (stream.next store world).2)) () world).1 := rfl
  rw [iterated]
  exact attributed.iterate closed (fun _ => id)
    (fun stream world fails => (fails.next world).1) world

theorem Attributed.count : FailsOnly (Excused calls) (cursor.count store request world).1 := by
  have counts (total : Nat) (element : Value) : FailsOnly (Excused calls)
      ((.ok none, total + 1) : Outcome (Option Unit) × Nat).1 := .ok none
  exact (attributed.forEach closed request world (fun _ => id) counts 0).map _

end Terminals

/-- What a cursor fails with is excused by the calls that built it and by the functions that its
terminal operations are given, whichever of them runs it and however its stream is pulled. -/
structure Accountable (store : Store State) (calls : List Call) (cursor : Cursor) : Prop where
  toArray : ∀ request world, FailsOnly (Excused calls) (cursor.toArray store request world).1
  forEach : ∀ {Kept : Type} request (step : Kept → Value → Outcome (Option Unit) × Kept) kept world,
    FailsOnly (fun failure =>
        Excused calls failure ∨ ∃ kept element, (step kept element).1 = .error failure)
      (cursor.forEach store request step kept world).1
  first : ∀ request world, FailsOnly (Excused calls) (cursor.first store request world).1
  count : ∀ request world, FailsOnly (Excused calls) (cursor.count store request world).1
  min : ∀ request field world, FailsOnly (Excused calls) (cursor.min store request field world).1
  max : ∀ request field world, FailsOnly (Excused calls) (cursor.max store request field world).1
  aggregate : ∀ request field initial step world,
    FailsOnly (Excused (calls ++ [.aggregateBy field initial step]))
      (cursor.aggregate store request field initial step world).1
  stream : ∀ request world, FailsOnly (Excused calls) (cursor.stream store request world).1
  pulls : ∀ request world stream, (cursor.stream store request world).1 = .ok stream →
    ∀ later, stream.Reached store later → ∀ world,
      FailsOnly (Excused calls) (later.next store world).1 ∧
      FailsOnly (Excused calls) (later.close store world).1 ∧
      ∀ item ∈ (later.drain store world).1, FailsOnly (Excused calls) item

theorem Attributed.accountable {calls : List Call} {cursor : Cursor}
    (attributed : cursor.Attributed calls) (closed : store.registry.IsClosed) :
    cursor.Accountable store calls := by
  -- An extreme is looked for by no function of the caller.
  have extreme {call : Call} {longer : Cursor} (called : cursor.perform call = .ok longer)
      (silent : ∀ failure, ¬call.Raises failure) : longer.Attributed calls := by
    have after := attributed.perform called
    refine ⟨after.noScan, ?_⟩
    intro operator member failure raised
    rcases after.raises operator member failure raised with ordinary | ⟨other, among, raises⟩
    · exact .inl ordinary
    · rcases List.mem_append.mp among with before | here
      · exact .inr ⟨other, before, raises⟩
      · cases List.mem_singleton.mp here
        exact absurd raises (silent failure)
  constructor
  · exact attributed.toArray closed
  · intro Kept request step kept world
    exact attributed.forEach closed request world (fun _ => .inl)
      (fun kept element failure failed => .inr ⟨kept, element, failed⟩) kept
  · exact attributed.first closed
  · exact attributed.count closed
  · intro request field world
    have called : cursor.perform (.minBy field) = .ok (cursor.minBy field) := rfl
    have found := extreme called fun _ => id
    exact (found.first closed request world).map _
  · intro request field world
    have called : cursor.perform (.maxBy field) = .ok (cursor.maxBy field) := rfl
    have found := extreme called fun _ => id
    exact (found.first closed request world).map _
  · intro request field initial step world
    have called : cursor.perform (.aggregateBy field initial step) =
        .ok (cursor.aggregateBy field initial step) := rfl
    have found := attributed.perform called
    exact (found.first closed request world).map _
  · intro request world
    exact (attributed.stream closed request world).1
  · intro request world stream obtained later reached worldLater
    have fails := ((attributed.stream closed request world).2 stream obtained).reached reached
    refine ⟨(fails.next worldLater).1, ?_, fails.drain (fun _ => .inl) worldLater⟩
    exact (later.failsOnly_close store worldLater).mono fun _ => .inl

/-- Over a valid registry every cursor that calls have built can be planned unless its sorts are more
than can be counted, and it fails with a defect only if a function of its caller does; and rows are
refused for their types only. -/
theorem defects_from_callers_only (store : Store State)
    (valid : store.registry.validate = .ok ()) :
    (∀ policy entity calls cursor, (ofEntity policy entity).performAll calls = .ok cursor →
      (¬ cursor.policy.RunsOver 0 cursor.chain.operators → ∃ plan, cursor.explain = .ok plan) ∧
        cursor.Accountable store calls ∧
        ∀ call, FailsOnly IsOrdinary (cursor.perform call)) ∧
    (∀ entity row, store.registry.contains entity →
      FailsOnly IsMismatch (store.registry.materialize entity row)) ∧
    ∀ target row, store.registry.contains target.name →
      FailsOnly IsMismatch (store.registry.merge row target).1 := by
  have closed := Registry.isClosed_of_validate valid
  refine ⟨?_, fun _ row known => Registry.failsOnly_materialize closed known row,
    fun _ row known => Registry.failsOnly_merge closed known row⟩
  intro policy entity calls cursor called
  have attributed : cursor.Attributed calls := (Attributed.ofEntity policy entity).performAll called
  refine ⟨fun fits => ?_, attributed.accountable closed, cursor.failsOnly_perform⟩
  obtain ⟨-, runsOver⟩ | ⟨plan, explained, -⟩ := attributed.explain
  · exact absurd runsOver fits
  · exact ⟨plan, explained⟩

def parcel : EntityDescriptor :=
  ⟨"Parcel",
    [{ name := "sender", kind := .entity "Office" }, { name := "weight", kind := .number }]⟩

def office : EntityDescriptor := ⟨"Office", [{ name := "city", kind := .string }]⟩

def parcels : Registry := ⟨[("Office", office), ("Parcel", parcel)]⟩

def parcelRow (weight : Json) : Row :=
  [("id", .string "1"), ("sender", .object [("city", .string "Rome")]), ("weight", weight)]

def oneParcel : TableEngine := TableEngine.insert {} "Parcel" [.object (parcelRow (.integer 3))]

def brokenCalls : List Call := [.take 1, .map fun _ => .error (.defect .noRootScan)]

/-- The defect that a cursor fails with here is the one of its caller, and a parcel without a number
for its weight is refused as a mismatch. -/
theorem broken_parcels :
    parcels.validate = .ok () ∧
    (∃ cursor, (ofEntity {} "Parcel").performAll brokenCalls = .ok cursor ∧
      (cursor.toArray ⟨TableEngine.channel, parcels⟩ (.internal "parcels")
        { channel := oneParcel }).1 = .error (.defect .noRootScan)) ∧
    (∃ call ∈ brokenCalls, call.Raises (.defect .noRootScan)) ∧
    ∃ failure, parcels.materialize "Parcel" (parcelRow (.string "heavy")) = .error failure ∧
      failure.IsMismatch := by
  have valid : parcels.validate = .ok () := rfl
  obtain ⟨cursors, refuses, _⟩ :=
    defects_from_callers_only ⟨TableEngine.channel, parcels⟩ valid
  have built : ∃ cursor, (ofEntity {} "Parcel").performAll brokenCalls = .ok cursor ∧
      (cursor.toArray ⟨TableEngine.channel, parcels⟩ (.internal "parcels")
        { channel := oneParcel }).1 = .error (.defect .noRootScan) := ⟨_, rfl, rfl⟩
  refine ⟨valid, built, ?_, ?_⟩
  · obtain ⟨cursor, called, failed⟩ := built
    obtain ⟨_, accountable, _⟩ := cursors _ _ _ _ called
    rcases accountable.toArray _ _ _ failed with ordinary | raised
    · cases ordinary
    · exact raised
  · have refused : parcels.materialize "Parcel" (parcelRow (.string "heavy")) =
        .error (.typeMismatch "Parcel" "weight" .number (.string "heavy")) := rfl
    exact ⟨_, refused, refuses "Parcel" _ rfl _ refused⟩

end Cursor

end EntityCursor
