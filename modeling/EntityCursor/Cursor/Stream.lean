import EntityCursor.Chain.Plan
import EntityCursor.Channel.Basic
import EntityCursor.Cursor.Request
import EntityCursor.Descriptor.Materialize
import EntityCursor.Journal.Metrics
import EntityCursor.Journal.Scope
import EntityCursor.Pipeline.Stage

/-!
Streams: opened iterations that deliver the elements of a plan one at a time. A stream holds the
handle of its remote query, if it has one, until it is closed; closing it again does nothing, and a
closed stream delivers nothing.
-/

namespace EntityCursor

/-- What cursors run on: a channel to the remote engine and the descriptors of the entities. -/
structure Store (State : Type) where
  channel : Channel State
  registry : Registry

/-- Everything that running a cursor changes. -/
structure World (State : Type) where
  channel : State
  journal : Journal := {}
  metrics : Metrics := {}

namespace World

variable {State : Type}

def log (world : World State) (severity : Severity) (event : String)
    (fields : List (String × String)) : World State :=
  { world with journal := world.journal.log severity event fields }

variable (world : World State) (severity : Severity) (event : String)
  (fields : List (String × String))

@[simp]
theorem channel_log : (world.log severity event fields).channel = world.channel := rfl

@[simp]
theorem metrics_log : (world.log severity event fields).metrics = world.metrics := rfl

@[simp]
theorem journal_log :
    (world.log severity event fields).journal = world.journal.log severity event fields := rfl

end World

def Store.rows {State : Type} (store : Store State) (entity : String)
    (columns : Option (List String)) : Puller (Option Handle) State where
  pull := fun handle state =>
    match handle with
    | none => (.ok none, none, state)
    | some handle =>
        match store.channel.next handle state with
        | (.ok (some row), state) =>
            ((store.registry.element entity row columns).map some, some handle, state)
        | (.ok none, state) => (.ok none, some handle, state)
        | (.error failure, state) => (.error (.remote failure), some handle, state)
  remaining := fun handle state =>
    match handle with
    | none => 0
    | some handle => store.channel.pending handle state
  remaining_pull := by
    intro handle after state stateAfter value delivered
    rcases handle with _ | handle
    · simp at delivered
    · rcases fetched : store.channel.next handle state with ⟨failure | (_ | row), middle⟩ <;>
        simp [fetched] at delivered
      obtain ⟨_, rfl, rfl⟩ := delivered
      exact store.channel.pending_next fetched

structure QueryStream where
  entity : String
  /-- The columns that the remote engine narrows its rows to. -/
  columns : Option (List String)
  /-- The operators applied in the process, the one applied last in front. -/
  operators : List Operator
  /-- The number of delivered elements, and what the operators and the source remember. -/
  progress : Nat × Running (Option Handle) operators
  closed : Bool

namespace QueryStream

variable {State : Type}

def rows (stream : QueryStream) : Nat := stream.progress.1

def handle? (stream : QueryStream) : Option Handle := stream.progress.2.base

def ofPlan (plan : Plan) (handle : Option Handle) : QueryStream where
  entity := plan.entity
  columns := plan.remote.bind Query.selectedColumns?
  operators := plan.localOperators.reverse
  progress := (0, Running.start handle plan.localOperators.reverse)
  closed := false

def openPlan (store : Store State) (request : Request) (plan : Plan) (world : World State) :
    Outcome QueryStream × World State :=
  match plan.remote with
  | none => (.ok (ofPlan plan none), world)
  | some query =>
      match store.channel.openQuery query world.channel with
      | (.error failure, state) => (.error (.remote failure), { world with channel := state })
      | (.ok handle, state) =>
          let world := { world with channel := state }.log .info "REMOTE_OPEN"
            [("entity", query.entity), ("handle", toString handle.number),
              ("request_id", request.id), ("root", query.kind)]
          (.ok (ofPlan plan (some handle)), world)

def elements (store : Store State) (stream : QueryStream) :
    Puller (Nat × Running (Option Handle) stream.operators) State :=
  ((store.rows stream.entity stream.columns).stack stream.operators).counting

def next (store : Store State) (stream : QueryStream) (world : World State) :
    Outcome (Option Value) × QueryStream × World State :=
  if stream.closed then (.ok none, stream, world)
  else
    let (outcome, progress, state) := (stream.elements store).pull stream.progress world.channel
    (outcome, { stream with progress := progress }, { world with channel := state })

def closeFields (stream : QueryStream) (handle : Handle) : List (String × String) :=
  [("entity", stream.entity), ("handle", toString handle.number)]

def withoutHandle (stream : QueryStream) : QueryStream :=
  { stream with progress := (stream.progress.1, stream.progress.2.setBase none), closed := true }

/-- Closes the remote query. The handle is given up even if closing fails. -/
def close (store : Store State) (stream : QueryStream) (world : World State) :
    Outcome Unit × QueryStream × World State :=
  if stream.closed then (.ok (), stream, world)
  else
    match stream.handle? with
    | none => (.ok (), stream.withoutHandle, world)
    | some handle =>
        match store.channel.close handle world.channel with
        | (.ok (), state) =>
            (.ok (), stream.withoutHandle,
              { world with channel := state }.log .info "REMOTE_CLOSE" (stream.closeFields handle))
        | (.error failure, state) =>
            (.error (.remote failure), stream.withoutHandle, { world with channel := state })

/-- Gives up a stream that may still be open. Its query is closed in the background if there is a
runtime to do so. -/
def drop (store : Store State) (hasRuntime : Bool) (stream : QueryStream) (world : World State) :
    World State :=
  match stream.handle? with
  | none => world
  | some handle =>
      if hasRuntime then
        match store.channel.close handle world.channel with
        | (.ok (), state) =>
            { world with channel := state }.log .info "REMOTE_CLOSE" (stream.closeFields handle)
        | (.error failure, state) =>
            { world with channel := state }.log .warn "REMOTE_CLOSE_FAILED"
              (stream.closeFields handle ++ [("error", failure.message)])
      else
        world.log .warn "REMOTE_CLOSE_SKIPPED"
          (stream.closeFields handle ++ [("reason", "no async runtime")])

/-- Hands the elements of a stream to `step`, which goes on with a new result, ends the visit or
fails. -/
def visit {Result : Type} (store : Store State)
    (step : Result → Value → Outcome (Option Unit) × Result) (result : Result)
    (stream : QueryStream) (world : World State) :
    Outcome Unit × Result × QueryStream × World State :=
  if stream.closed then (.ok (), result, stream, world)
  else
    let (outcome, result, progress, state) :=
      (stream.elements store).forEach step result stream.progress world.channel
    (outcome.map fun _ => (), result, { stream with progress := progress },
      { world with channel := state })

/-- A step that gathers all elements, the last one in front. -/
def gather (gathered : List Value) (element : Value) : Outcome (Option Unit) × List Value :=
  (.ok none, element :: gathered)

/-- All elements of a stream, which is closed at the end and at the first failure. A failure is the
last item. -/
def drain (store : Store State) (stream : QueryStream) (world : World State) :
    List (Outcome Value) × World State :=
  let (outcome, gathered, stream, world) := stream.visit store gather [] world
  let delivered := gathered.reverse.map Except.ok
  let (closed, _, world) := stream.close store world
  match outcome, closed with
  | .ok (), .ok () => (delivered, world)
  | .ok (), .error failure => (delivered ++ [.error failure], world)
  | .error failure, .ok () => (delivered ++ [.error failure], world)
  | .error failure, .error closeFailure =>
      (delivered ++ [.error failure],
        world.log .warn "REMOTE_CLOSE_FAILED" [("error", closeFailure.message)])

end QueryStream

end EntityCursor
