import EntityCursor.Cursor.Basic
import EntityCursor.Proofs.Pipeline.Footprint

/-!
What cursors ask of the remote engine. A recorded channel notes every call, and the calls of an
iteration are a session: a query is opened, its handle is fetched from some number of times, and it
is closed. The invariant that carries the proof says how the calls made so far fit the state of the
stream, and that the stream has its handle as long as the handle is not closed.
-/

namespace EntityCursor

inductive Call where
  /-- A query was to be opened, which gave a handle or failed. -/
  | opened (query : Query) (handle : Option Handle)
  | fetched (handle : Handle)
  | closed (handle : Handle)

namespace Call

def isClose : Call → Bool
  | .closed _ => true
  | _ => false

/-- Some number of fetches from an open query; without handle there is nothing to fetch from. -/
def fetches (handle : Option Handle) (count : Nat) : List Call :=
  match handle with
  | none => []
  | some handle => List.replicate count (.fetched handle)

def closing : Option Handle → List Call
  | none => []
  | some handle => [.closed handle]

@[simp]
theorem fetches_zero (handle : Option Handle) : fetches handle 0 = [] := by
  cases handle <;> rfl

@[simp]
theorem fetches_append (handle : Option Handle) (count more : Nat) :
    fetches handle count ++ fetches handle more = fetches handle (count + more) := by
  cases handle with
  | none => rfl
  | some handle => exact List.replicate_append_replicate

@[simp]
theorem countP_isClose_fetches (handle : Option Handle) (count : Nat) :
    (fetches handle count).countP isClose = 0 := by
  cases handle with
  | none => rfl
  | some handle =>
      rw [List.countP_eq_zero]
      intro call member
      rw [List.eq_of_mem_replicate member]
      simp [isClose]

@[simp]
theorem countP_isClose_closing (handle : Option Handle) :
    (closing handle).countP isClose ≤ 1 := by
  cases handle <;> simp [closing, isClose]

end Call

/-- The calls for a query that is opened with success: the opening, fetches from the handle that it
gave, and one closing of this handle. -/
def Query.session (query : Query) (handle : Handle) (count : Nat) : List Call :=
  .opened query (some handle) :: (List.replicate count (.fetched handle) ++ [.closed handle])

section Recording

variable {State : Type}

/-- A channel that notes the calls it gets, the first one in front. -/
def Channel.recorded (channel : Channel State) : Channel (List Call × State) where
  openQuery := fun query (calls, state) =>
    let (outcome, state) := channel.openQuery query state
    (outcome, (calls ++ [.opened query outcome.toOption], state))
  next := fun handle (calls, state) =>
    let (outcome, state) := channel.next handle state
    (outcome, (calls ++ [.fetched handle], state))
  close := fun handle (calls, state) =>
    let (outcome, state) := channel.close handle state
    (outcome, (calls ++ [.closed handle], state))
  pending := fun handle (_, state) => channel.pending handle state
  pending_next := by
    intro handle state after row delivered
    simp only [Prod.mk.injEq] at delivered
    obtain ⟨outcome, rfl⟩ := delivered
    exact channel.pending_next (Prod.ext outcome rfl)

def Store.recorded (store : Store State) : Store (List Call × State) :=
  { store with channel := store.channel.recorded }

end Recording

namespace QueryStream

variable {State : Type} {store : Store State}

/-- A stream over a handle or over none, and the calls that were made since it was opened: fetches,
and a closing once the stream is closed. A closed stream has no handle. -/
inductive Accounted (handle : Option Handle) (before : List Call) (stream : QueryStream)
    (calls : List Call) : Prop where
  | isOpen (count : Nat) : stream.closed = false → stream.handle? = handle →
      calls = before ++ Call.fetches handle count → Accounted handle before stream calls
  | isClosed (count : Nat) : stream.closed = true → stream.handle? = none →
      calls = before ++ (Call.fetches handle count ++ Call.closing handle) →
      Accounted handle before stream calls

theorem Accounted.fresh {stream : QueryStream} (waiting : stream.closed = false)
    (calls : List Call) : Accounted stream.handle? calls stream calls :=
  .isOpen 0 waiting rfl (by simp)

/-- The calls of a stream that was closed. -/
def Finished (handle : Option Handle) (before calls : List Call) : Prop :=
  ∃ count, calls = before ++ (Call.fetches handle count ++ Call.closing handle)

theorem pull_rows (entity : String) (columns : Option (List String)) (handle : Option Handle)
    (channel : List Call × State) :
    ((store.recorded.rows entity columns).pull handle channel).2.1 = handle ∧
      ((store.recorded.rows entity columns).pull handle channel).2.2.1 =
        channel.1 ++ Call.fetches handle 1 := by
  cases handle with
  | none => simp [Store.rows, Call.fetches]
  | some handle =>
      obtain ⟨calls, state⟩ := channel
      rcases fetched : store.channel.next handle state with ⟨failure | (_ | row), after⟩
      all_goals
        simp [Store.rows, Store.recorded, Channel.recorded, fetched, Call.fetches]

theorem fetches_of_leads {entity : String} {columns : Option (List String)}
    {handle handleAfter : Option Handle} {channel channelAfter : List Call × State}
    (leads : (store.recorded.rows entity columns).Leads handle channel handleAfter channelAfter) :
    handleAfter = handle ∧ ∃ count, channelAfter.1 = channel.1 ++ Call.fetches handle count := by
  induction leads with
  | rest => exact ⟨rfl, 0, by simp⟩
  | @pull handle after channel channelAfter later inductionHypothesis =>
      obtain ⟨sameHandle, fetchedOnce⟩ := pull_rows entity columns handle channel
      obtain ⟨same, count, fetched⟩ := inductionHypothesis
      rw [sameHandle] at same fetched
      refine ⟨same, 1 + count, ?_⟩
      rw [fetched, fetchedOnce, List.append_assoc, Call.fetches_append]

/-- What pulling the elements of an open stream does to its calls. -/
theorem Accounted.of_leads {handle : Option Handle} {before : List Call} {stream : QueryStream}
    {channel channelAfter : List Call × State}
    {progress : Nat × Running (Option Handle) stream.operators}
    (accounted : Accounted handle before stream channel.1) (waiting : stream.closed = false)
    (leads : (stream.elements store.recorded).Leads stream.progress channel progress
      channelAfter) :
    Accounted handle before { stream with progress := progress } channelAfter.1 := by
  -- Whatever the operators do, the channel only sees pulls of the source below them.
  obtain ⟨same, more, fetched⟩ := fetches_of_leads leads.of_counting.of_stack
  cases accounted with
  | isClosed count closed => simp [closed] at waiting
  | isOpen count _ held calls =>
      change stream.progress.2.base = handle at held
      rw [held] at same fetched
      refine Accounted.isOpen (count + more) ?_ ?_ ?_
      · exact waiting
      · exact same
      · rw [fetched, calls, List.append_assoc, Call.fetches_append]

@[simp]
theorem base_setBase {Base : Type} (changed : Base) {operators : List Operator}
    (running : Running Base operators) : (running.setBase changed).base = changed := by
  induction operators with
  | nil => rfl
  | cons operator below inductionHypothesis => exact inductionHypothesis running.2

@[simp]
theorem base_start {Base : Type} (base : Base) (operators : List Operator) :
    (Running.start base operators).base = base := by
  induction operators with
  | nil => rfl
  | cons operator below inductionHypothesis => exact inductionHypothesis

@[simp]
theorem handle?_ofPlan (plan : Plan) (handle : Option Handle) :
    (ofPlan plan handle).handle? = handle := by
  simp [handle?, ofPlan]

@[simp]
theorem handle?_withoutHandle (stream : QueryStream) : stream.withoutHandle.handle? = none := by
  simp [handle?, withoutHandle]

variable {handle : Option Handle} {before : List Call} {stream : QueryStream}
  {world : World (List Call × State)}

theorem Accounted.next (accounted : Accounted handle before stream world.channel.1) :
    Accounted handle before (stream.next store.recorded world).2.1
      (stream.next store.recorded world).2.2.channel.1 := by
  cases closed : stream.closed with
  | true =>
      simp only [QueryStream.next, closed, if_true]
      exact accounted
  | false =>
      simp only [QueryStream.next, closed, Bool.false_eq_true, if_false]
      have leads := (stream.elements store.recorded).leads_pull stream.progress world.channel
      exact closed ▸ accounted.of_leads closed leads

theorem Accounted.visit {Result : Type} (accounted : Accounted handle before stream world.channel.1)
    (step : Result → Value → Outcome (Option Unit) × Result) (result : Result) :
    Accounted handle before (stream.visit store.recorded step result world).2.2.1
      (stream.visit store.recorded step result world).2.2.2.channel.1 := by
  cases closed : stream.closed with
  | true =>
      simp only [QueryStream.visit, closed, if_true]
      exact accounted
  | false =>
      simp only [QueryStream.visit, closed, Bool.false_eq_true, if_false]
      have leads := (stream.elements store.recorded).leads_forEach step result stream.progress
        world.channel
      exact closed ▸ accounted.of_leads closed leads

/-- Closing closes the query if that was not done before. -/
theorem Accounted.close (store : Store State)
    (accounted : Accounted handle before stream world.channel.1) :
    Accounted handle before (stream.close store.recorded world).2.1
        (stream.close store.recorded world).2.2.channel.1 ∧
      (stream.close store.recorded world).2.1.closed = true := by
  cases accounted with
  | isClosed count closed gone calls =>
      simp only [QueryStream.close, closed, if_true]
      exact ⟨.isClosed count closed gone calls, trivial⟩
  | isOpen count waiting held calls =>
      cases handle with
      | none =>
          simp only [QueryStream.close, waiting, held, Bool.false_eq_true, if_false]
          refine ⟨.isClosed count rfl (handle?_withoutHandle stream) ?_, rfl⟩
          rw [calls]
          simp [Call.closing]
      | some handle =>
          -- The stream gives its handle up also if the channel fails to close it.
          rcases ended : store.channel.close handle world.channel.2 with ⟨failure | _, after⟩
          all_goals
            simp only [QueryStream.close, waiting, held, Bool.false_eq_true, if_false,
              Store.recorded, Channel.recorded, ended]
            refine ⟨.isClosed count rfl (handle?_withoutHandle stream) ?_, rfl⟩
            simp [calls, Call.closing]

theorem Accounted.finished_close (accounted : Accounted handle before stream world.channel.1) :
    Finished handle before (stream.close store.recorded world).2.2.channel.1 := by
  obtain ⟨after, closed⟩ := accounted.close store
  cases after with
  | isOpen count waiting => simp [closed] at waiting
  | isClosed count _ _ calls => exact ⟨count, calls⟩

theorem Accounted.finished_drop (accounted : Accounted handle before stream world.channel.1) :
    Finished handle before (stream.drop store.recorded true world).channel.1 := by
  cases accounted with
  | isClosed count _ gone calls =>
      simp only [QueryStream.drop, gone]
      exact ⟨count, calls⟩
  | isOpen count _ held calls =>
      cases handle with
      | none =>
          simp only [QueryStream.drop, held]
          exact ⟨count, by simpa [Call.closing] using calls⟩
      | some handle =>
          rcases ended : store.channel.close handle world.channel.2 with ⟨failure | _, after⟩
          all_goals
            simp only [QueryStream.drop, held, if_true, Store.recorded, Channel.recorded, ended]
            exact ⟨count, by simp [calls, Call.closing]⟩

theorem channel_drain (store : Store State) (stream : QueryStream) (world : World State) :
    (stream.drain store world).2.channel =
      ((stream.visit store gather [] world).2.2.1.close store
        (stream.visit store gather [] world).2.2.2).2.2.channel := by
  rcases visited : stream.visit store gather [] world with ⟨outcome, gathered, after, worldAfter⟩
  rcases ended : after.close store worldAfter with ⟨closed, final, worldFinal⟩
  simp only [drain, visited, ended]
  cases outcome <;> cases closed <;> rfl

theorem Accounted.finished_drain (accounted : Accounted handle before stream world.channel.1) :
    Finished handle before (stream.drain store.recorded world).2.channel.1 := by
  rw [channel_drain]
  exact (accounted.visit gather []).finished_close

/-! Streams in the hands of callers. -/

inductive Action where
  | next
  | close
deriving DecidableEq, Repr

def perform (store : Store State) (stream : QueryStream) (world : World State) :
    Action → QueryStream × World State
  | .next => (stream.next store world).2
  | .close => (stream.close store world).2

def performAll (store : Store State) (stream : QueryStream) (world : World State) :
    List Action → QueryStream × World State
  | [] => (stream, world)
  | action :: rest =>
      (stream.perform store world action).1.performAll store
        (stream.perform store world action).2 rest

theorem Accounted.performAll (store : Store State)
    (accounted : Accounted handle before stream world.channel.1) (actions : List Action) :
    Accounted handle before (stream.performAll store.recorded world actions).1
      (stream.performAll store.recorded world actions).2.channel.1 := by
  induction actions generalizing stream world with
  | nil => exact accounted
  | cons action rest inductionHypothesis =>
      cases action with
      | next => exact inductionHypothesis accounted.next
      | close => exact inductionHypothesis (accounted.close store).1

@[simp]
theorem closed_perform (store : Store State) (world : World State) (action : Action)
    (closed : stream.closed = true) : (stream.perform store world action).1 = stream := by
  cases action <;> simp [perform, QueryStream.next, QueryStream.close, closed]

@[simp]
theorem closed_close (store : Store State) (stream : QueryStream) (world : World State) :
    (stream.close store world).2.1.closed = true := by
  cases closed : stream.closed with
  | true => simp [QueryStream.close, closed]
  | false =>
      simp only [QueryStream.close, closed, Bool.false_eq_true, if_false]
      split
      · rfl
      · split <;> rfl

theorem closed_performAll (store : Store State) (world : World State) (actions : List Action)
    (closed : stream.closed = true) : (stream.performAll store world actions).1.closed = true := by
  induction actions generalizing world with
  | nil => exact closed
  | cons action rest inductionHypothesis =>
      rw [performAll, closed_perform store world action closed]
      exact inductionHypothesis _

theorem closed_of_close_mem (store : Store State) (stream : QueryStream) (world : World State)
    {actions : List Action} (member : .close ∈ actions) :
    (stream.performAll store world actions).1.closed = true := by
  induction actions generalizing stream world with
  | nil => simp at member
  | cons action rest inductionHypothesis =>
      cases action with
      | close => exact closed_performAll store _ rest (closed_close store stream world)
      | next =>
          have later : Action.close ∈ rest := by simpa using member
          exact inductionHypothesis _ _ later

end QueryStream

end EntityCursor
