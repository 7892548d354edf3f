import EntityCursor.Proofs.Chain.Split
import EntityCursor.Proofs.Cursor.Session

/-!
The discipline that cursors keep with the handles of the remote engine. Every iteration opens one
query at most, which is the one of its plan, and what it opens it closes once and last, whatever
fails on the way and however the elements are pulled.
-/

namespace EntityCursor

namespace Cursor

variable {State : Type} {store : Store State} {cursor : Cursor} {registry : Registry}

@[simp]
theorem streamBy_explain (cursor : Cursor) (store : Store State) (request : Request)
    (world : World State) :
    streamBy cursor.explain store request world = cursor.stream store request world := rfl

@[simp]
theorem iterateBy_explain {Result Kept : Type} (cursor : Cursor) (store : Store State)
    (request : Request) (terminal : String)
    (consume : Kept → QueryStream → World State →
      Outcome Result × Kept × QueryStream × World State) (kept : Kept) (world : World State) :
    cursor.iterateBy cursor.explain store request terminal consume kept world =
      cursor.iterate store request terminal consume kept world := rfl

theorem planned_of_explain {plan : Plan} (explained : cursor.explain = .ok plan) :
    Plan.ofOperators cursor.policy (.scan cursor.chain.entity :: cursor.chain.operators) =
      .ok plan := by
  by_cases scans : cursor.chain.operators.any Operator.isScan
  · simp [explain, Chain.walk, scans] at explained
  · simpa [explain, Chain.walk, Chain.nodes, scans] using explained

/-- How the chain of a cursor is divided. If some operator takes nothing, only the operators after
the last such one are left; elsewhere the query is that of the operators the policy hands over. -/
inductive Divides (cursor : Cursor) : Plan → Prop where
  | emptyTake {later : List Operator} :
      Plan.afterLastEmptyTake? cursor.chain.operators = some later →
      Divides cursor ⟨cursor.chain.entity, none, later, true⟩
  | split {pushed : Nat} {query : Query} :
      Plan.afterLastEmptyTake? cursor.chain.operators = none →
      cursor.policy.pushedFrom? 0 cursor.chain.operators = some pushed →
      Plan.pushOperators (.scan cursor.chain.entity) (cursor.chain.operators.take pushed) =
        .ok query →
      Divides cursor
        ⟨cursor.chain.entity, some query, cursor.chain.operators.drop pushed, false⟩

theorem divides_of_explain {plan : Plan} (explained : cursor.explain = .ok plan) :
    cursor.Divides plan := by
  have planned := planned_of_explain explained
  cases search : Plan.afterLastEmptyTake? cursor.chain.operators with
  | some later =>
      rw [Plan.ofOperators_of_emptyTake search] at planned
      cases planned
      exact .emptyTake search
  | none =>
      rw [Plan.ofOperators_eq_divide _ _ search] at planned
      obtain ⟨pushed, query, split, written, rfl⟩ := Plan.exists_of_divide planned
      exact .split search split written

theorem plan_of_explain {plan : Plan} (explained : cursor.explain = .ok plan) :
    plan.entity = cursor.chain.entity ∧
      (plan.remote = none ∨
        ∀ operator ∈ cursor.chain.operators, operator.takesNothing = false) := by
  cases divides_of_explain explained with
  | emptyTake search => exact ⟨rfl, .inl rfl⟩
  | split search split written => exact ⟨rfl, .inr (Plan.takesNothing_of_afterLastEmptyTake? search)⟩

theorem remote_eq_none_iff {plan : Plan} (explained : cursor.explain = .ok plan) :
    plan.remote = none ↔ plan.shortCircuit = true := by
  cases divides_of_explain explained with
  | emptyTake search => exact iff_of_true rfl rfl
  | split search split written => exact iff_of_false nofun nofun

/-- What obtaining a stream can come to: there is no plan over a registered entity, the query of the
plan is refused, or there is a stream over no query or over the query of the plan. -/
inductive Obtains (cursor : Cursor) (store : Store State) (request : Request)
    (world : World State) : Outcome QueryStream → World State → Prop where
  | unplanned {failure : QueryError} : cursor.explain = .error failure →
      Obtains cursor store request world (.error failure) world
  | unregistered {plan : Plan} : cursor.explain = .ok plan →
      store.registry.contains plan.entity = false →
      Obtains cursor store request world (.error (.unknownEntity plan.entity)) world
  | refused {plan : Plan} {query : Query} {failure : ChannelError} {state : State} :
      cursor.explain = .ok plan → store.registry.contains plan.entity = true →
      plan.remote = some query →
      store.channel.openQuery query world.channel = (.error failure, state) →
      Obtains cursor store request world (.error (.remote failure))
        { world.log .trace "QUERY_SPLIT" (splitFields request plan) with channel := state }
  | shortCircuited {plan : Plan} : cursor.explain = .ok plan →
      store.registry.contains plan.entity = true → plan.remote = none →
      Obtains cursor store request world (.ok (QueryStream.ofPlan plan none))
        { world.log .trace "QUERY_SPLIT" (splitFields request plan) with
          metrics := world.metrics.countOpened false plan.localOperators.length }
  | opened {plan : Plan} {query : Query} {handle : Handle} {state : State}
      (fields : List (String × String)) :
      cursor.explain = .ok plan → store.registry.contains plan.entity = true →
      plan.remote = some query →
      store.channel.openQuery query world.channel = (.ok handle, state) →
      Obtains cursor store request world (.ok (QueryStream.ofPlan plan (some handle)))
        { (world.log .trace "QUERY_SPLIT" (splitFields request plan)).log .info "REMOTE_OPEN" fields
          with
          channel := state
          metrics := world.metrics.countOpened true plan.localOperators.length }

theorem obtains_stream (cursor : Cursor) (store : Store State) (request : Request)
    (world : World State) :
    cursor.Obtains store request world (cursor.stream store request world).1
      (cursor.stream store request world).2 := by
  cases explained : cursor.explain with
  | error failure =>
      simp only [stream, streamBy, explained]
      exact .unplanned explained
  | ok plan =>
      cases contained : store.registry.contains plan.entity with
      | false =>
          simp only [stream, streamBy, explained, contained, Bool.false_eq_true, if_false]
          exact .unregistered explained contained
      | true =>
          simp only [stream, streamBy, explained, contained, if_true, QueryStream.openPlan]
          cases remote : plan.remote with
          | none => exact .shortCircuited explained contained remote
          | some query =>
              rcases asked : store.channel.openQuery query world.channel with
                ⟨failure | handle, state⟩
              · simp only [World.channel_log, asked]
                exact .refused explained contained remote asked
              · simp only [World.channel_log, asked]
                exact .opened _ explained contained remote asked

theorem rows_of_stream {request : Request} {world after : World State} {stream : QueryStream}
    (streamed : cursor.stream store request world = (.ok stream, after)) : stream.rows = 0 := by
  have obtains := cursor.obtains_stream store request world
  rw [streamed] at obtains
  cases obtains <;> rfl

/-- The calls that may come from an iteration: none, or the calls for the query of the plan. -/
def Permits (cursor : Cursor) (registry : Registry) (calls : List Call) : Prop :=
  calls = [] ∨
    ∃ plan query, cursor.explain = .ok plan ∧ registry.contains plan.entity = true ∧
      plan.remote = some query ∧
      (calls = [.opened query none] ∨ ∃ handle count, calls = query.session handle count)

def Completes (cursor : Cursor) (registry : Registry) (handle : Option Handle)
    (calls : List Call) : Prop :=
  match handle with
  | none => calls = []
  | some handle =>
      ∃ plan query count, cursor.explain = .ok plan ∧ registry.contains plan.entity = true ∧
        plan.remote = some query ∧ calls = query.session handle count

theorem Completes.permits {handle : Option Handle} {calls : List Call}
    (completes : cursor.Completes registry handle calls) : cursor.Permits registry calls := by
  cases handle with
  | none => exact .inl completes
  | some handle =>
      obtain ⟨plan, query, count, explained, contained, remote, session⟩ := completes
      exact .inr ⟨plan, query, explained, contained, remote, .inr ⟨handle, count, session⟩⟩

theorem Permits.silent {calls : List Call} (permits : cursor.Permits registry calls)
    (idle : .take 0 ∈ cursor.chain.operators ∨ registry.contains cursor.chain.entity = false) :
    calls = [] := by
  rcases permits with silent | ⟨plan, query, explained, contained, remote, _⟩
  · exact silent
  · rcases idle with member | unregistered
    · rcases (plan_of_explain explained).2 with silent | takes
      · rw [silent] at remote
        cases remote
      · have something := takes (.take 0) member
        simp [Operator.takesNothing] at something
    · rw [(plan_of_explain explained).1, unregistered] at contained
      cases contained

def Opens (cursor : Cursor) (registry : Registry) (handle : Option Handle)
    (before calls : List Call) : Prop :=
  match handle with
  | none => calls = before
  | some handle =>
      ∃ plan query, cursor.explain = .ok plan ∧ registry.contains plan.entity = true ∧
        plan.remote = some query ∧ calls = before ++ [.opened query (some handle)]

theorem Opens.completes {handle : Option Handle} {before opened calls : List Call}
    (opens : cursor.Opens registry handle before opened)
    (finished : QueryStream.Finished handle opened calls) :
    ∃ added, calls = before ++ added ∧ cursor.Completes registry handle added := by
  obtain ⟨count, ended⟩ := finished
  cases handle with
  | none =>
      refine ⟨[], ?_, rfl⟩
      rw [ended, opens]
      simp [Call.fetches, Call.closing]
  | some handle =>
      obtain ⟨plan, query, explained, contained, remote, asked⟩ := opens
      refine ⟨query.session handle count, ?_, plan, query, count, explained, contained, remote, rfl⟩
      rw [ended, asked]
      simp [Call.fetches, Call.closing, Query.session]

/-- As long as a stream is used, its query is closed once at most. -/
theorem Opens.closes_once {handle : Option Handle} {before opened calls : List Call}
    {stream : QueryStream} (opens : cursor.Opens registry handle before opened)
    (accounted : QueryStream.Accounted handle opened stream calls) :
    ∃ added, calls = before ++ added ∧ added.countP Call.isClose ≤ 1 := by
  obtain ⟨opening, asked, none⟩ : ∃ opening, opened = before ++ opening ∧
      opening.countP Call.isClose = 0 := by
    cases handle with
    | none => exact ⟨[], by simpa [Opens] using opens, rfl⟩
    | some handle =>
        obtain ⟨_, _, _, _, _, asked⟩ := opens
        exact ⟨_, asked, rfl⟩
  cases accounted with
  | isOpen count _ _ made =>
      refine ⟨opening ++ Call.fetches handle count, ?_, ?_⟩
      · rw [made, asked, List.append_assoc]
      · simp [none]
  | isClosed count _ _ made =>
      refine ⟨opening ++ (Call.fetches handle count ++ Call.closing handle), ?_, ?_⟩
      · rw [made, asked, List.append_assoc]
      · simp [none]

variable {request : Request} {world : World (List Call × State)}

theorem openQuery_recorded {query : Query} {state after : List Call × State}
    {outcome : Except ChannelError Handle}
    (asked : store.recorded.channel.openQuery query state = (outcome, after)) :
    after.1 = state.1 ++ [.opened query outcome.toOption] := by
  cases asked
  rfl

theorem stream_recorded (cursor : Cursor) (store : Store State) (request : Request)
    (world : World (List Call × State)) :
    match cursor.stream store.recorded request world with
    | (.error _, after) =>
        ∃ calls, after.channel.1 = world.channel.1 ++ calls ∧ cursor.Permits store.registry calls
    | (.ok stream, opened) =>
        stream.closed = false ∧
          cursor.Opens store.registry stream.handle? world.channel.1 opened.channel.1 := by
  have obtains := cursor.obtains_stream store.recorded request world
  rcases streamed : cursor.stream store.recorded request world with ⟨obtained, after⟩
  rw [streamed] at obtains
  cases obtains with
  | unplanned explained => exact ⟨[], by simp, .inl rfl⟩
  | unregistered explained missing => exact ⟨[], by simp, .inl rfl⟩
  | refused explained contained remote asked =>
      exact ⟨_, openQuery_recorded asked,
        .inr ⟨_, _, explained, contained, remote, .inl rfl⟩⟩
  | shortCircuited explained contained remote =>
      dsimp only
      rw [QueryStream.handle?_ofPlan]
      exact ⟨rfl, rfl⟩
  | opened fields explained contained remote asked =>
      dsimp only
      rw [QueryStream.handle?_ofPlan]
      exact ⟨rfl, _, _, explained, contained, remote, openQuery_recorded asked⟩

@[simp]
theorem channel_finish {Result : Type} (store : Store State) (request : Request) (scope : Scope)
    (outcome : Outcome Result) (stream : QueryStream) (world : World State) :
    (finish store request scope outcome stream world).2.channel =
      (stream.close store world).2.2.channel := by
  rcases ended : stream.close store world with ⟨failure | _, after, worldAfter⟩
  · cases outcome <;> simp only [finish, ended, reportFailure, World.channel_log]
  · cases outcome <;> simp only [finish, ended, reportFailure, reportCompletion]

theorem outcome_finish {Result : Type} {store : Store State} {request : Request}
    {scope : Scope} {outcome : Outcome Result} {stream : QueryStream} {world : World State}
    (closes : (stream.close store world).1 = .ok ()) :
    (finish store request scope outcome stream world).1 = outcome := by
  rcases ended : stream.close store world with ⟨failure | _, after, worldAfter⟩
  · rw [ended] at closes
    cases closes
  · cases outcome <;> simp only [finish, ended]

/-- An iteration keeps the discipline if what it does with its stream is pulling. -/
theorem iterate_recorded {Result Kept : Type} (cursor : Cursor) (store : Store State)
    (request : Request) (terminal : String)
    {consume : Kept → QueryStream → World (List Call × State) →
      Outcome Result × Kept × QueryStream × World (List Call × State)}
    (pulls : ∀ {handle before stream} {world : World (List Call × State)} kept,
      QueryStream.Accounted handle before stream world.channel.1 →
      QueryStream.Accounted handle before (consume kept stream world).2.2.1
        (consume kept stream world).2.2.2.channel.1)
    (kept : Kept) (world : World (List Call × State)) :
    ∃ calls,
      (cursor.iterate store.recorded request terminal consume kept world).2.2.channel.1 =
        world.channel.1 ++ calls ∧ cursor.Permits store.registry calls := by
  simp only [iterate, iterateBy, streamBy_explain]
  generalize Scope.enter _ _ _ = scope
  have obtained := cursor.stream_recorded store request { world with journal := scope.2 }
  rcases streamed : cursor.stream store.recorded request { world with journal := scope.2 } with
    ⟨failure | stream, opened⟩
  · rw [streamed] at obtained
    exact obtained
  · rw [streamed] at obtained
    obtain ⟨waiting, opens⟩ := obtained
    have pulled := pulls kept (.fresh waiting opened.channel.1)
    obtain ⟨calls, added, completes⟩ := opens.completes pulled.finished_close
    refine ⟨calls, ?_, completes.permits⟩
    rw [← added, channel_finish]

/-- A run makes calls that the cursor permits, and none if some operator takes nothing or the
scanned entity is not registered. -/
def Keeps (cursor : Cursor) (registry : Registry)
    (run : World (List Call × State) → World (List Call × State)) : Prop :=
  ∀ world, ∃ calls, (run world).channel.1 = world.channel.1 ++ calls ∧
    cursor.Permits registry calls ∧
    (.take 0 ∈ cursor.chain.operators ∨ registry.contains cursor.chain.entity = false → calls = [])

theorem keeps_of_permits {run : World (List Call × State) → World (List Call × State)}
    (permitted : ∀ world, ∃ calls, (run world).channel.1 = world.channel.1 ++ calls ∧
      cursor.Permits registry calls) : cursor.Keeps registry run := by
  intro world
  obtain ⟨calls, added, permits⟩ := permitted world
  exact ⟨calls, added, permits, permits.silent⟩

theorem keeps_forEach {Kept : Type} (cursor : Cursor) (store : Store State) (request : Request)
    (step : Kept → Value → Outcome (Option Unit) × Kept) (kept : Kept) :
    cursor.Keeps store.registry fun world =>
      (cursor.forEach store.recorded request step kept world).2.2 := by
  apply keeps_of_permits
  intro world
  exact cursor.iterate_recorded store request "for_each"
    (fun kept accounted => accounted.visit step kept) kept world

theorem keeps_toArray (cursor : Cursor) (store : Store State) (request : Request) :
    cursor.Keeps store.registry fun world =>
      (cursor.toArray store.recorded request world).2 := by
  apply keeps_of_permits
  intro world
  exact cursor.iterate_recorded store request "to_array"
    (fun kept accounted => accounted.visit QueryStream.gather kept) [] world

theorem keeps_first (cursor : Cursor) (store : Store State) (request : Request) :
    cursor.Keeps store.registry fun world => (cursor.first store.recorded request world).2 := by
  apply keeps_of_permits
  intro world
  simp only [first]
  apply cursor.iterate_recorded store request "first"
  intro handle before stream world _ accounted
  exact accounted.next

/-- Whatever the actions of a caller on a stream, its query is closed once at most while it is used
and once when it is given up or drained, and a stream that was closed leaves the channel alone. -/
def StreamKeeps (cursor : Cursor) (store : Store State) (request : Request)
    (world : World (List Call × State)) : Prop :=
  match cursor.stream store.recorded request world with
  | (.error _, after) =>
      ∃ calls, after.channel.1 = world.channel.1 ++ calls ∧ cursor.Permits store.registry calls
  | (.ok stream, opened) =>
      ∀ actions : List QueryStream.Action,
        let (final, after) := stream.performAll store.recorded opened actions
        (∃ calls, after.channel.1 = world.channel.1 ++ calls ∧ calls.countP Call.isClose ≤ 1) ∧
        (∃ calls, (final.drop store.recorded true after).channel.1 = world.channel.1 ++ calls ∧
          cursor.Completes store.registry stream.handle? calls) ∧
        (∃ calls, (final.drain store.recorded after).2.channel.1 = world.channel.1 ++ calls ∧
          cursor.Completes store.registry stream.handle? calls) ∧
        (.close ∈ actions → final.next store.recorded after = (.ok none, final, after))

theorem stream_keeps (cursor : Cursor) (store : Store State) (request : Request)
    (world : World (List Call × State)) : cursor.StreamKeeps store request world := by
  have obtained := cursor.stream_recorded store request world
  rw [StreamKeeps]
  rcases streamed : cursor.stream store.recorded request world with ⟨failure | stream, opened⟩
  · rw [streamed] at obtained
    exact obtained
  · rw [streamed] at obtained
    obtain ⟨waiting, opens⟩ := obtained
    intro actions
    have fresh := QueryStream.Accounted.fresh waiting opened.channel.1
    have accounted := fresh.performAll store actions
    refine ⟨?_, ?_, ?_, ?_⟩
    · obtain ⟨calls, added, closes⟩ := opens.closes_once accounted
      exact ⟨calls, added, closes⟩
    · exact opens.completes accounted.finished_drop
    · exact opens.completes accounted.finished_drain
    · intro member
      have closed := QueryStream.closed_of_close_mem store.recorded stream opened member
      simp [QueryStream.next, closed]

/-- The handles of the remote engine are safe with cursors, whatever fails when. -/
theorem handle_discipline (cursor : Cursor) (store : Store State) (request : Request) :
    cursor.Keeps store.registry (fun world =>
      (cursor.toArray store.recorded request world).2) ∧
    (∀ {Kept : Type} (step : Kept → Value → Outcome (Option Unit) × Kept) (kept : Kept),
      cursor.Keeps store.registry fun world =>
        (cursor.forEach store.recorded request step kept world).2.2) ∧
    cursor.Keeps store.registry (fun world => (cursor.first store.recorded request world).2) ∧
    cursor.Keeps store.registry (fun world => (cursor.count store.recorded request world).2) ∧
    (∀ field, (cursor.minBy field).Keeps store.registry fun world =>
      (cursor.min store.recorded request field world).2) ∧
    (∀ field, (cursor.maxBy field).Keeps store.registry fun world =>
      (cursor.max store.recorded request field world).2) ∧
    (∀ field initial step, (cursor.aggregateBy field initial step).Keeps store.registry fun world =>
      (cursor.aggregate store.recorded request field initial step world).2) ∧
    ∀ world, cursor.StreamKeeps store request world := by
  refine ⟨cursor.keeps_toArray store request, ?_, cursor.keeps_first store request, ?_, ?_, ?_, ?_,
    cursor.stream_keeps store request⟩
  · intro Kept step kept
    exact cursor.keeps_forEach store request step kept
  · exact cursor.keeps_forEach store request (fun total _ => (.ok none, total + 1)) 0
  · intro field
    exact (cursor.minBy field).keeps_first store request
  · intro field
    exact (cursor.maxBy field).keeps_first store request
  · intro field initial step
    exact (cursor.aggregateBy field initial step).keeps_first store request

end Cursor

end EntityCursor
