import Mathlib.Algebra.GroupWithZero.Nat
import EntityCursor.Proofs.Cursor.Planned
import EntityCursor.Proofs.Cursor.Terminals

/-!
What the counters of a store tell. Callers run terminal operations and obtain streams, which they
pull from, close and give up in any order, and a ledger notes what they can see: what every terminal
operation came to and how many elements it pulled, and the plan of every iteration that was opened.
The counters agree with the ledger and with what the engine counts, whatever fails. An iteration is
counted at two points only, after it is opened and when it is reported, so that three lemmas on
counting carry the invariant over all uses of the store.
-/

namespace EntityCursor

def pulledBySuccesses (outcomes : List (Outcome Nat)) : Nat :=
  (outcomes.filterMap Except.toOption).sum

/-- Counters that agree with the opened queries of an engine, with what terminal operations came to
and with the plans of the opened iterations. -/
structure Metrics.Accounts (metrics : Metrics) (opens : Nat) (outcomes : List (Outcome Nat))
    (plans : List Plan) : Prop where
  completed_eq :
    metrics.completed = UInt64.ofNat (outcomes.countP fun outcome => outcome.isOk)
  failed_eq : metrics.failed = UInt64.ofNat (outcomes.countP fun outcome => !outcome.isOk)
  remoteQueries_eq : metrics.remoteQueries = UInt64.ofNat opens
  opened_eq : metrics.remoteQueries + metrics.shortCircuits = UInt64.ofNat plans.length
  localStages_eq :
    metrics.localStages = UInt64.ofNat (plans.map fun plan => plan.localOperators.length).sum
  rowsReturned_eq : metrics.rowsReturned = UInt64.ofNat (pulledBySuccesses outcomes)

namespace Metrics.Accounts

variable {metrics : Metrics} {opens : Nat} {outcomes : List (Outcome Nat)} {plans : List Plan}

theorem start : Metrics.Accounts {} 0 [] [] := by
  constructor <;> rfl

theorem opened (accounts : metrics.Accounts opens outcomes plans) (plan : Plan) :
    (metrics.countOpened plan.remote.isSome plan.localOperators.length).Accounts
      (opens + if plan.remote.isSome then 1 else 0) outcomes (plans ++ [plan]) := by
  have stages : metrics.localStages + UInt64.ofNat plan.localOperators.length =
      UInt64.ofNat ((plans ++ [plan]).map fun plan => plan.localOperators.length).sum := by
    rw [accounts.localStages_eq, List.map_append, List.sum_append, UInt64.ofNat_add]
    simp
  have iterations : metrics.remoteQueries + metrics.shortCircuits + 1 =
      UInt64.ofNat (plans ++ [plan]).length := by
    rw [accounts.opened_eq, List.length_append, UInt64.ofNat_add]
    rfl
  cases remote : plan.remote with
  | none =>
      refine ⟨accounts.completed_eq, accounts.failed_eq, accounts.remoteQueries_eq, ?_, stages,
        accounts.rowsReturned_eq⟩
      rw [← iterations, UInt64.add_assoc]
      rfl
  | some query =>
      refine ⟨accounts.completed_eq, accounts.failed_eq, ?_, ?_, stages,
        accounts.rowsReturned_eq⟩
      · simp only [Option.isSome_some, if_true, countOpened]
        rw [accounts.remoteQueries_eq, UInt64.ofNat_add]
        rfl
      · rw [← iterations, UInt64.add_assoc, UInt64.add_comm _ 1, ← UInt64.add_assoc]
        rfl

theorem completed (accounts : metrics.Accounts opens outcomes plans) (rows : Nat) :
    (metrics.countCompleted rows).Accounts opens (outcomes ++ [.ok rows]) plans := by
  refine ⟨?_, ?_, accounts.remoteQueries_eq, accounts.opened_eq, accounts.localStages_eq, ?_⟩
  · rw [List.countP_append, UInt64.ofNat_add, ← accounts.completed_eq]
    rfl
  · rw [List.countP_append, UInt64.ofNat_add, ← accounts.failed_eq]
    exact (UInt64.add_zero _).symm
  · rw [pulledBySuccesses, List.filterMap_append, List.sum_append, UInt64.ofNat_add]
    simp only [countCompleted, accounts.rowsReturned_eq, pulledBySuccesses]
    rfl

theorem failed (accounts : metrics.Accounts opens outcomes plans) (failure : QueryError) :
    metrics.countFailed.Accounts opens (outcomes ++ [.error failure]) plans := by
  refine ⟨?_, ?_, accounts.remoteQueries_eq, accounts.opened_eq, accounts.localStages_eq, ?_⟩
  · rw [List.countP_append, UInt64.ofNat_add, ← accounts.completed_eq]
    exact (UInt64.add_zero _).symm
  · rw [List.countP_append, UInt64.ofNat_add, ← accounts.failed_eq]
    rfl
  · rw [pulledBySuccesses, List.filterMap_append, List.sum_append]
    exact accounts.rowsReturned_eq

theorem finished_eq (accounts : metrics.Accounts opens outcomes plans) :
    metrics.completed + metrics.failed = UInt64.ofNat outcomes.length := by
  rw [accounts.completed_eq, accounts.failed_eq, ← UInt64.ofNat_add,
    List.length_eq_countP_add_countP fun outcome : Outcome Nat => outcome.isOk]
  simp

end Metrics.Accounts

def World.Uncounted (world after : World TableEngine) : Prop :=
  after.metrics = world.metrics ∧ after.channel.opens = world.channel.opens

theorem World.Uncounted.trans {world between after : World TableEngine}
    (first : world.Uncounted between) (second : between.Uncounted after) :
    world.Uncounted after :=
  ⟨second.1.trans first.1, second.2.trans first.2⟩

/-! Streams. -/

@[simp]
theorem TableEngine.opens_next (handle : Handle) (engine : TableEngine) :
    (next handle engine).2.opens = engine.opens := by
  rcases next_cases handle engine with
    ⟨_, fetched⟩ | ⟨rows, served, _, ⟨_, fetched⟩ | ⟨_, ⟨_, fetched⟩ | ⟨row, rest, _, fetched⟩⟩⟩
  all_goals rw [fetched]

@[simp]
theorem TableEngine.opens_close (handle : Handle) (engine : TableEngine) :
    (close handle engine).2.opens = engine.opens := by
  rcases close_cases handle engine with ⟨_, closed⟩ | ⟨_, closed⟩
  all_goals rw [closed]

namespace QueryStream

variable {registry : Registry} {stream after : QueryStream} {world worldAfter : World TableEngine}

theorem opens_of_leads {entity : String} {columns : Option (List String)}
    {handle handleAfter : Option Handle} {engine engineAfter : TableEngine}
    (leads : ((TableEngine.store registry).rows entity columns).Leads handle engine handleAfter
      engineAfter) : engineAfter.opens = engine.opens := by
  induction leads with
  | rest => rfl
  | @pull handle _ engine _ _ inductionHypothesis =>
      rw [inductionHypothesis]
      cases handle with
      | none => rfl
      | some handle =>
          have same := TableEngine.opens_next handle engine
          rcases fetched : TableEngine.next handle engine with ⟨failure | (_ | row), after⟩
          all_goals
            rw [fetched] at same
            simpa [Store.rows, fetched] using same

theorem PulledTo.uncounted
    (pulled : stream.PulledTo (TableEngine.store registry) world after worldAfter) :
    world.Uncounted worldAfter := by
  obtain ⟨progress, engine, rfl, rfl, leads⟩ := pulled
  exact ⟨rfl, opens_of_leads leads.of_counting.of_stack⟩

@[simp]
theorem uncounted_close (stream : QueryStream) (registry : Registry) (world : World TableEngine) :
    world.Uncounted (stream.close (TableEngine.store registry) world).2.2 := by
  cases closed : stream.closed with
  | true =>
      simp only [close, closed, if_true]
      exact ⟨rfl, rfl⟩
  | false =>
      cases held : stream.handle? with
      | none =>
          simp only [close, closed, held, Bool.false_eq_true, if_false]
          exact ⟨rfl, rfl⟩
      | some handle =>
          have same := TableEngine.opens_close handle world.channel
          rcases ended : TableEngine.close handle world.channel with ⟨failure | _, engine⟩
          all_goals
            rw [ended] at same
            simp only [close, closed, held, TableEngine.channel_store, TableEngine.close_channel, ended,
              Bool.false_eq_true, if_false]
            exact ⟨rfl, same⟩

@[simp]
theorem uncounted_drop (stream : QueryStream) (registry : Registry) (hasRuntime : Bool)
    (world : World TableEngine) :
    world.Uncounted (stream.drop (TableEngine.store registry) hasRuntime world) := by
  cases held : stream.handle? with
  | none =>
      simp only [drop, held]
      exact ⟨rfl, rfl⟩
  | some handle =>
      cases hasRuntime with
      | false =>
          simp only [drop, held, Bool.false_eq_true, if_false]
          exact ⟨rfl, rfl⟩
      | true =>
          have same := TableEngine.opens_close handle world.channel
          rcases ended : TableEngine.close handle world.channel with ⟨failure | _, engine⟩
          all_goals
            rw [ended] at same
            simp only [drop, held, TableEngine.channel_store, TableEngine.close_channel, ended, if_true]
            exact ⟨rfl, same⟩

@[simp]
theorem uncounted_drain (stream : QueryStream) (registry : Registry) (world : World TableEngine) :
    world.Uncounted (stream.drain (TableEngine.store registry) world).2 := by
  have pulled := (pulledTo_visit (TableEngine.store registry) gather [] stream world).uncounted
  rcases visited : stream.visit (TableEngine.store registry) gather [] world with
    ⟨outcome, gathered, after, worldAfter⟩
  have closes := after.uncounted_close registry worldAfter
  rcases ended : after.close (TableEngine.store registry) worldAfter with
    ⟨closed, final, worldFinal⟩
  rw [visited] at pulled
  rw [ended] at closes
  simp only [drain, visited, ended]
  cases outcome <;> cases closed <;> exact pulled.trans closes

@[simp]
theorem uncounted_perform (stream : QueryStream) (registry : Registry)
    (world : World TableEngine) (action : Action) :
    world.Uncounted (stream.perform (TableEngine.store registry) world action).2 := by
  cases action with
  | next => exact (pulledTo_next (TableEngine.store registry) stream world).uncounted
  | close => exact stream.uncounted_close registry world

end QueryStream

/-! Iterations. -/

namespace Cursor

variable {State : Type} {registry : Registry} {request : Request}
  {outcomes : List (Outcome Nat)} {plans : List Plan}

/-- The plan of the iteration that a cursor opens, if it opens one. -/
def opens? (cursor : Cursor) (store : Store State) (request : Request) (world : World State) :
    Option Plan :=
  match (cursor.stream store request world).1 with
  | .error _ => none
  | .ok _ => cursor.explain.toOption

theorem outcome_stream_congr (cursor : Cursor) (store : Store State) (request : Request)
    {world other : World State} (same : other.channel = world.channel) :
    (cursor.stream store request other).1 = (cursor.stream store request world).1 := by
  cases explained : cursor.explain with
  | error failure => simp only [stream, streamBy, explained]
  | ok plan =>
      cases contained : store.registry.contains plan.entity with
      | false => simp [stream, streamBy, explained, contained]
      | true =>
          simp only [stream, streamBy, explained, contained, if_true, QueryStream.openPlan, World.channel_log,
            same]
          cases plan.remote with
          | none => rfl
          | some query =>
              rcases asked : store.channel.openQuery query world.channel with ⟨_ | _, _⟩
              all_goals simp only [asked]

/-- An iteration that obtains a stream is counted as opened, and nothing is counted without one. -/
theorem accounts_stream {cursor : Cursor} {world other after : World TableEngine}
    {obtained : Outcome QueryStream}
    (streamed : cursor.stream (TableEngine.store registry) request world = (obtained, after))
    (same : other.channel = world.channel)
    (accounts : world.metrics.Accounts world.channel.opens outcomes plans) :
    after.metrics.Accounts after.channel.opens outcomes
      (plans ++ (cursor.opens? (TableEngine.store registry) request other).toList) := by
  have obtains := cursor.obtains_stream (TableEngine.store registry) request world
  rw [opens?, outcome_stream_congr cursor _ request same, streamed]
  rw [streamed] at obtains
  cases obtains with
  | unplanned explained =>
      simp only [Option.toList_none, List.append_nil]
      exact accounts
  | unregistered explained missing =>
      simp only [Option.toList_none, List.append_nil]
      exact accounts
  | @refused plan query failure engine explained contained remote asked =>
      rcases TableEngine.openQuery_cases query world.channel with ⟨_, _, opened⟩ | ⟨_, _, opened⟩
      · cases opened.symm.trans asked
        simp only [Option.toList_none, List.append_nil]
        exact accounts
      · cases opened.symm.trans asked
  | @shortCircuited plan explained contained remote =>
      have counted := accounts.opened plan
      rw [remote] at counted
      rw [explained]
      exact counted
  | @opened plan query handle engine fields explained contained remote asked =>
      have counted := accounts.opened plan
      rw [remote] at counted
      rcases TableEngine.openQuery_cases query world.channel with ⟨_, _, opened⟩ | ⟨_, _, opened⟩
      · cases opened.symm.trans asked
      · cases opened.symm.trans asked
        rw [explained]
        exact counted

/-- An iteration is counted as completed or as failed when it is reported. -/
theorem accounts_finish {Result : Type} {scope : Scope} {outcome reported : Outcome Result}
    {stream : QueryStream} {world after : World TableEngine}
    (finished : finish (TableEngine.store registry) request scope outcome stream world =
      (reported, after))
    (accounts : world.metrics.Accounts world.channel.opens outcomes plans) :
    after.metrics.Accounts after.channel.opens (outcomes ++ [reported.map fun _ => stream.rows])
      plans := by
  obtain ⟨sameMetrics, sameOpens⟩ := stream.uncounted_close registry world
  rcases closed : stream.close (TableEngine.store registry) world with
    ⟨closeFailure | _, final, worldAfter⟩
  all_goals
    rw [closed] at sameMetrics sameOpens
    rw [← sameMetrics, ← sameOpens] at accounts
  · cases outcome with
    | error failure =>
        simp only [finish, closed] at finished
        cases finished
        exact accounts.failed failure
    | ok result =>
        simp only [finish, closed] at finished
        cases finished
        exact accounts.failed closeFailure
  · cases outcome with
    | error failure =>
        simp only [finish, closed] at finished
        cases finished
        exact accounts.failed failure
    | ok result =>
        simp only [finish, closed] at finished
        cases finished
        exact accounts.completed stream.rows

end Cursor

/-- A terminal operation is counted with what its caller can see. -/
theorem TerminalOperation.accounts_run (operation : TerminalOperation) (cursor : Cursor)
    (registry : Registry) (request : Request) {world : World TableEngine}
    {outcomes : List (Outcome Nat)} {plans : List Plan}
    (accounts : world.metrics.Accounts world.channel.opens outcomes plans) :
    let store := TableEngine.store registry
    let ran := operation.run cursor store request world
    ran.2.metrics.Accounts ran.2.channel.opens
      (outcomes ++ [ran.1.map fun _ => operation.pulled cursor store request world])
      (plans ++ ((operation.source cursor).opens? store request world).toList) := by
  intro store
  let form : operation.Form TableEngine := operation.form
  -- Entering the scope logs, but it leaves the channel and the counters as they are.
  have sameChannel : world.channel = (form.begun cursor request world).channel := rfl
  rcases streamed : (operation.source cursor).stream store request (form.begun cursor request world)
    with ⟨failure | stream, opened⟩
  · have counted := Cursor.accounts_stream streamed sameChannel accounts
    rw [form.run_of_error streamed]
    exact counted.failed failure
  · have counted := Cursor.accounts_stream streamed sameChannel accounts
    obtain ⟨outcome, kept, after, worldAfter, consumed, pulled, ran⟩ := form.run_of_ok streamed
    obtain ⟨sameMetrics, sameOpens⟩ := pulled.uncounted
    rw [← sameMetrics, ← sameOpens] at counted
    rcases finished : Cursor.finish store request (form.scope cursor request) outcome after
      worldAfter with ⟨failure | result, final⟩
    · have reported := Cursor.accounts_finish finished counted
      rw [ran, finished]
      exact reported
    · have reported := Cursor.accounts_finish finished counted
      -- The counted rows are those of the stream, the ledger notes what the caller was given.
      have same := form.pulled_of_ok streamed (Cursor.rows_of_stream streamed) consumed
        (by rw [finished])
      rw [ran, finished, same]
      exact reported

/-! Callers. -/

/-- What callers do with a store and with the streams that they got from it. -/
inductive StoreUse : Type 1 where
  | terminal (cursor : Cursor) (request : Request) (operation : TerminalOperation)
  | stream (cursor : Cursor) (request : Request)
  /-- Pulls from a stream or closes it. -/
  | act (index : Nat) (action : QueryStream.Action)
  /-- Gives up a stream that may still be open. -/
  | drop (index : Nat) (hasRuntime : Bool)
  /-- Takes all that is left of a stream. -/
  | drain (index : Nat)
  /-- Adds rows to a table of the engine. -/
  | insert (entity : String) (documents : List Json)

def StoreUse.isTerminal : StoreUse → Bool
  | .terminal .. => true
  | _ => false

/-- The world of a store over a table engine, and what its callers have seen. -/
structure Ledger where
  world : World TableEngine
  /-- The streams in the hands of callers. -/
  streams : List QueryStream := []
  /-- What the terminal operations came to: the number of elements they pulled, or their failure. -/
  outcomes : List (Outcome Nat) := []
  /-- The plans of the iterations that were opened. -/
  plans : List Plan := []

namespace Ledger

def start (tables : Fields (List Row)) (limit : Option Nat) (journal : Journal) : Ledger where
  world := { channel := { tables := tables, failAfter := limit }, journal := journal }

def use (registry : Registry) (ledger : Ledger) : StoreUse → Ledger
  | .terminal cursor request operation =>
      let store := TableEngine.store registry
      let (outcome, after) := operation.run cursor store request ledger.world
      let rows := operation.pulled cursor store request ledger.world
      { ledger with
        world := after
        outcomes := ledger.outcomes ++ [outcome.map fun _ => rows]
        plans := ledger.plans ++
          ((operation.source cursor).opens? store request ledger.world).toList }
  | .stream cursor request =>
      let store := TableEngine.store registry
      let (obtained, after) := cursor.stream store request ledger.world
      { ledger with
        world := after
        streams := ledger.streams ++ obtained.toOption.toList
        plans := ledger.plans ++ (cursor.opens? store request ledger.world).toList }
  | .act index action =>
      match ledger.streams[index]? with
      | none => ledger
      | some stream =>
          let (stream, after) := stream.perform (TableEngine.store registry) ledger.world action
          { ledger with world := after, streams := ledger.streams.set index stream }
  | .drop index hasRuntime =>
      match ledger.streams[index]? with
      | none => ledger
      | some stream =>
          { ledger with
            world := stream.drop (TableEngine.store registry) hasRuntime ledger.world
            streams := ledger.streams.eraseIdx index }
  | .drain index =>
      match ledger.streams[index]? with
      | none => ledger
      | some stream =>
          { ledger with
            world := (stream.drain (TableEngine.store registry) ledger.world).2
            streams := ledger.streams.eraseIdx index }
  | .insert entity documents =>
      { ledger with
        world := { ledger.world with
          channel := ledger.world.channel.insert entity documents } }

def useAll (registry : Registry) (ledger : Ledger) (uses : List StoreUse) : Ledger :=
  uses.foldl (use registry) ledger

/-- The counters of a store agree with its ledger. -/
def Balances (ledger : Ledger) : Prop :=
  ledger.world.metrics.Accounts ledger.world.channel.opens ledger.outcomes ledger.plans

theorem Balances.uncounted {ledger : Ledger} (balances : ledger.Balances)
    {after : World TableEngine} (uncounted : ledger.world.Uncounted after)
    (streams : List QueryStream) :
    Balances { ledger with world := after, streams := streams } := by
  rw [Balances, ← uncounted.1, ← uncounted.2] at balances
  exact balances

theorem Balances.use {ledger : Ledger} (balances : ledger.Balances) (registry : Registry)
    (storeUse : StoreUse) : (ledger.use registry storeUse).Balances := by
  cases storeUse with
  | terminal cursor request operation =>
      exact operation.accounts_run cursor registry request balances
  | stream cursor request => exact Cursor.accounts_stream rfl rfl balances
  | act index action =>
      rw [Ledger.use]
      split
      · exact balances
      · next stream _ =>
          exact balances.uncounted (stream.uncounted_perform registry ledger.world action) _
  | drop index hasRuntime =>
      rw [Ledger.use]
      split
      · exact balances
      · next stream _ =>
          exact balances.uncounted (stream.uncounted_drop registry hasRuntime ledger.world) _
  | drain index =>
      rw [Ledger.use]
      split
      · exact balances
      · next stream _ =>
          exact balances.uncounted (stream.uncounted_drain registry ledger.world) _
  | insert entity documents => exact balances

theorem Balances.useAll {ledger : Ledger} (balances : ledger.Balances) (registry : Registry)
    (uses : List StoreUse) : (ledger.useAll registry uses).Balances := by
  induction uses generalizing ledger with
  | nil => exact balances
  | cons storeUse rest inductionHypothesis =>
      exact inductionHypothesis (balances.use registry storeUse)

theorem length_outcomes_use (registry : Registry) (ledger : Ledger) (storeUse : StoreUse) :
    (ledger.use registry storeUse).outcomes.length =
      ledger.outcomes.length + if storeUse.isTerminal then 1 else 0 := by
  cases storeUse with
  | terminal cursor request operation => exact List.length_append
  | stream cursor request => rfl
  | insert entity documents => rfl
  | _ =>
      rw [use]
      split <;> rfl

theorem length_outcomes_useAll (registry : Registry) (ledger : Ledger) (uses : List StoreUse) :
    (ledger.useAll registry uses).outcomes.length =
      ledger.outcomes.length + uses.countP StoreUse.isTerminal := by
  induction uses generalizing ledger with
  | nil => rfl
  | cons storeUse rest inductionHypothesis =>
      have later := inductionHypothesis (ledger.use registry storeUse)
      rw [length_outcomes_use] at later
      rw [List.countP_cons, useAll, List.foldl_cons]
      rw [useAll] at later
      omega

/-- All guests are counted, nobody is asked for first, and all elements of a table that is missing
are asked for. -/
example :
    let cursor := Cursor.ofEntity .scanOnly "Guest"
    let request := Request.internal "guests"
    ((start [] none {}).useAll Cursor.guests
      [.terminal cursor request .toArray,
        .insert "Guest" [.object [("arrival", .string "2022-03-01"), ("id", .string "7")]],
        .terminal cursor request .count,
        .terminal (cursor.take 0) request .first]).world.metrics =
      { completed := 2, failed := 1, remoteQueries := 1, shortCircuits := 1, localStages := 0,
        rowsReturned := 1 } := rfl

end Ledger

end EntityCursor
