import EntityCursor.Proofs.Cursor.Terminals

/-!
What the journal tells of an iteration. An iteration may end before there is a plan, when its query
is refused, after pulling without a query, or after pulling from a query and closing it. Which of
these happens, and how each of its phases went, decides what the terminal operation comes to and
which events are logged, in which order and at which severity.

How pulling went cannot be read off the outcome, since a query that cannot be closed also fails the
operation. It is what the same operation comes to on a channel that closes its queries quietly.
-/

namespace EntityCursor

/-- What an entry tells without its fields. -/
def JournalEntry.told (entry : JournalEntry) : Severity × String := (entry.severity, entry.event)

namespace Journal

variable {before after : Journal} {events : List (Severity × String)}

/-- A journal goes on with events. -/
def GoesOn (before after : Journal) (events : List (Severity × String)) : Prop :=
  after.threshold = before.threshold ∧
    ∃ added, after.entries = before.entries ++ added ∧ added.map JournalEntry.told = events

theorem GoesOn.start (journal : Journal) : journal.GoesOn journal [] :=
  ⟨rfl, [], by simp⟩

/-- Below a threshold that lets everything through, every logged event is kept. -/
theorem GoesOn.log (goesOn : before.GoesOn after events) (traced : before.threshold = .trace)
    (severity : Severity) (event : String) (fields : List (String × String)) :
    before.GoesOn (after.log severity event fields) (events ++ [(severity, event)]) := by
  obtain ⟨sameThreshold, added, entries, told⟩ := goesOn
  have kept : ¬ severity.level < after.threshold.level := by
    rw [sameThreshold, traced]
    exact Nat.not_lt_zero severity.level
  rw [Journal.log, if_neg kept]
  refine ⟨sameThreshold, added ++ [⟨severity, event, fields⟩], ?_, ?_⟩
  · rw [entries, List.append_assoc]
  · rw [List.map_append, told]
    rfl

end Journal

theorem QueryStream.PulledTo.goesOn {State : Type} {store : Store State}
    {stream after : QueryStream} {world worldAfter : World State} {journal : Journal}
    {events : List (Severity × String)}
    (pulled : stream.PulledTo store world after worldAfter)
    (goesOn : journal.GoesOn world.journal events) :
    journal.GoesOn worldAfter.journal events := by
  rw [pulled.journal_eq]
  exact goesOn

/-- How an iteration went. -/
inductive Lifecycle where
  /-- There was no plan over a registered entity. -/
  | unplanned (failure : QueryError)
  /-- The query was refused. -/
  | refused (failure : ChannelError)
  /-- No query was needed. -/
  | shortCircuited (pulling : Outcome Unit)
  /-- A query was opened and closed. -/
  | overQuery (pulling : Outcome Unit) (closing : Except ChannelError Unit)

namespace Lifecycle

def outcome : Lifecycle → Outcome Unit
  | .unplanned failure => .error failure
  | .refused failure => .error (.remote failure)
  | .shortCircuited pulling => pulling
  | .overQuery (.error failure) _ => .error failure
  | .overQuery (.ok ()) closing => closing.mapError .remote

/-- What the channel's answer to closing is worth an event. -/
def closingEvents : Outcome Unit → Except ChannelError Unit → List (Severity × String)
  | _, .ok () => [(.info, "REMOTE_CLOSE")]
  | .error _, .error _ => [(.warn, "REMOTE_CLOSE_FAILED")]
  | .ok (), .error _ => []

def middleEvents : Lifecycle → List (Severity × String)
  | .unplanned _ => []
  | .refused _ => [(.trace, "QUERY_SPLIT")]
  | .shortCircuited _ => [(.trace, "QUERY_SPLIT")]
  | .overQuery pulling closing =>
      (.trace, "QUERY_SPLIT") :: (.info, "REMOTE_OPEN") :: closingEvents pulling closing

def ending : Outcome Unit → Severity × String
  | .ok () => (.info, "CURSOR_ITERATION_COMPLETE")
  | .error failure =>
      (if failure.isDefect then .fatal else .error, "CURSOR_ITERATION_FAILED")

def events (lifecycle : Lifecycle) : List (Severity × String) :=
  (.info, "CURSOR_ITERATION_BEGIN") :: lifecycle.middleEvents ++ [ending lifecycle.outcome]

def earlierNames : List String :=
  ["CURSOR_ITERATION_BEGIN", "QUERY_SPLIT", "REMOTE_OPEN", "REMOTE_CLOSE", "REMOTE_CLOSE_FAILED"]

theorem name_mem_earlierNames {lifecycle : Lifecycle} {event : Severity × String}
    (member : event ∈ lifecycle.middleEvents) : event.2 ∈ earlierNames := by
  cases lifecycle with
  | unplanned failure => cases member
  | refused failure =>
      rw [List.mem_singleton.mp member]
      simp [earlierNames]
  | shortCircuited pulling =>
      rw [List.mem_singleton.mp member]
      simp [earlierNames]
  | overQuery pulling closing =>
      rcases pulling with failure | _ <;> rcases closing with closeFailure | _ <;>
        simp only [middleEvents, closingEvents, List.mem_cons, List.not_mem_nil, or_false]
          at member <;>
        rcases member with rfl | rfl | rfl <;>
        simp [earlierNames]

@[simp]
theorem mem_events_iff (lifecycle : Lifecycle) (severity : Severity) {name : String}
    (other : name ∉ earlierNames) :
    (severity, name) ∈ lifecycle.events ↔ (severity, name) = ending lifecycle.outcome := by
  rw [events, List.mem_append, List.mem_singleton, or_iff_right_iff_imp, List.mem_cons]
  rintro (first | middle)
  · cases first
    exact absurd (by simp [earlierNames]) other
  · exact absurd (name_mem_earlierNames middle) other

theorem completes_iff (lifecycle : Lifecycle) :
    (∃ severity, (severity, "CURSOR_ITERATION_COMPLETE") ∈ lifecycle.events) ↔
      lifecycle.outcome = .ok () := by
  have ends (severity : Severity) := lifecycle.mem_events_iff severity
    (show "CURSOR_ITERATION_COMPLETE" ∉ earlierNames by simp [earlierNames])
  simp only [ends]
  cases lifecycle.outcome <;> simp [ending]

theorem fails_iff (lifecycle : Lifecycle) (severity : Severity) :
    (severity, "CURSOR_ITERATION_FAILED") ∈ lifecycle.events ↔
      ∃ failure, lifecycle.outcome = .error failure ∧
        severity = if failure.isDefect then .fatal else .error := by
  rw [mem_events_iff lifecycle severity (by simp [earlierNames])]
  cases lifecycle.outcome <;> simp [ending]

@[simp]
theorem never_incomplete (lifecycle : Lifecycle) (severity : Severity) :
    (severity, "CURSOR_ITERATION_INCOMPLETE") ∉ lifecycle.events := by
  rw [mem_events_iff lifecycle severity (by simp [earlierNames])]
  cases lifecycle.outcome <;> simp [ending]

end Lifecycle

namespace Cursor

variable {State : Type} {store : Store State} {stream : QueryStream} {world : World State}
  {journal : Journal} {events : List (Severity × String)}

theorem goesOn_reportFailure (goesOn : journal.GoesOn world.journal events)
    (traced : journal.threshold = .trace) (fields : List (String × String)) (failure : QueryError) :
    journal.GoesOn (reportFailure ⟨"CURSOR_ITERATION", fields, false⟩ failure world).journal
      (events ++ [Lifecycle.ending (.error failure)]) := by
  cases defect : failure.isDefect with
  | true =>
      simp only [reportFailure, Lifecycle.ending, defect, if_true]
      exact goesOn.log traced .fatal _ _
  | false =>
      simp only [reportFailure, Lifecycle.ending, defect, Bool.false_eq_true, if_false]
      exact goesOn.log traced .error _ _

theorem goesOn_reportCompletion (goesOn : journal.GoesOn world.journal events)
    (traced : journal.threshold = .trace) (fields : List (String × String)) (request : Request)
    (rows : Nat) :
    journal.GoesOn
      (reportCompletion request ⟨"CURSOR_ITERATION", fields, false⟩ rows world).journal
      (events ++ [Lifecycle.ending (.ok ())]) :=
  goesOn.log traced .info _ _

theorem finish_without_query {Result : Type} (store : Store State)
    (goesOn : journal.GoesOn world.journal events) (traced : journal.threshold = .trace)
    (waiting : stream.closed = false) (silent : stream.handle? = none)
    (fields : List (String × String)) (request : Request) (outcome : Outcome Result) :
    (finish store request ⟨"CURSOR_ITERATION", fields, false⟩ outcome stream world).1 = outcome ∧
    journal.GoesOn
      (finish store request ⟨"CURSOR_ITERATION", fields, false⟩ outcome stream world).2.journal
      (events ++ [Lifecycle.ending (outcome.map fun _ => ())]) := by
  have closes : stream.close store world = (.ok (), stream.withoutHandle, world) := by
    simp only [QueryStream.close, waiting, silent, Bool.false_eq_true, if_false]
  cases outcome with
  | error failure =>
      simp only [finish, closes, true_and]
      exact goesOn_reportFailure goesOn traced fields failure
  | ok result =>
      simp only [finish, closes, true_and]
      exact goesOn_reportCompletion goesOn traced fields request stream.rows

theorem finish_over_query {Result : Type} {handle : Handle}
    (goesOn : journal.GoesOn world.journal events) (traced : journal.threshold = .trace)
    (waiting : stream.closed = false) (held : stream.handle? = some handle)
    (fields : List (String × String)) (request : Request) (outcome : Outcome Result) :
    let closing := (store.channel.close handle world.channel).1
    let lifecycle := Lifecycle.overQuery (outcome.map fun _ => ()) closing
    ((finish store request ⟨"CURSOR_ITERATION", fields, false⟩ outcome stream world).1.map
      fun _ => ()) = lifecycle.outcome ∧
    journal.GoesOn
      (finish store request ⟨"CURSOR_ITERATION", fields, false⟩ outcome stream world).2.journal
      (events ++ Lifecycle.closingEvents (outcome.map fun _ => ()) closing ++
        [Lifecycle.ending lifecycle.outcome]) := by
  intro closing lifecycle
  rcases closed : store.channel.close handle world.channel with ⟨failure | _, state⟩
  · have closes : stream.close store world =
        (.error (.remote failure), stream.withoutHandle, { world with channel := state }) := by
      simp only [QueryStream.close, waiting, held, closed, Bool.false_eq_true, if_false]
    cases outcome with
    | error first =>
        simp only [finish, closes, lifecycle, closing, closed]
        have warned := goesOn.log traced .warn "REMOTE_CLOSE_FAILED"
          [("error", (QueryError.remote failure).message)]
        exact ⟨rfl, goesOn_reportFailure warned traced fields first⟩
    | ok result =>
        simp only [finish, closes, lifecycle, closing, closed]
        have noEvent : Lifecycle.closingEvents ((Except.ok result : Outcome Result).map fun _ => ())
            (.error failure) = [] := rfl
        rw [noEvent, List.append_nil]
        exact ⟨rfl, goesOn_reportFailure goesOn traced fields (.remote failure)⟩
  · have closes : stream.close store world = (.ok (), stream.withoutHandle,
        { world with channel := state }.log .info "REMOTE_CLOSE" (stream.closeFields handle)) := by
      simp only [QueryStream.close, waiting, held, closed, Bool.false_eq_true, if_false]
    have told := goesOn.log traced .info "REMOTE_CLOSE" (stream.closeFields handle)
    cases outcome with
    | error first =>
        simp only [finish, closes, lifecycle, closing, closed]
        exact ⟨rfl, goesOn_reportFailure told traced fields first⟩
    | ok result =>
        simp only [finish, closes, lifecycle, closing, closed]
        exact ⟨rfl, goesOn_reportCompletion told traced fields request stream.rows⟩

end Cursor

namespace TerminalOperation

variable {State : Type}

/-- How an operation goes, phase by phase. The query is opened before anything else is asked of the
channel, and it is closed when the channel is where pulling has left it. -/
def lifecycle (operation : TerminalOperation) (cursor : Cursor) (store : Store State)
    (request : Request) (world : World State) : Lifecycle :=
  match (operation.source cursor).explain with
  | .error failure => .unplanned failure
  | .ok plan =>
      if store.registry.contains plan.entity then
        let (pulling, left) := operation.run cursor store.closingQuietly request world
        match plan.remote with
        | none => .shortCircuited pulling
        | some query =>
            match (store.channel.openQuery query world.channel).1 with
            | .error failure => .refused failure
            | .ok handle => .overQuery pulling (store.channel.close handle left.channel).1
      else .unplanned (.unknownEntity plan.entity)

theorem close_closingQuietly (store : Store State) (stream : QueryStream) (world : World State) :
    (stream.close store.closingQuietly world).1 = .ok () ∧
      (stream.close store.closingQuietly world).2.2.channel = world.channel := by
  cases closed : stream.closed with
  | true => simp [QueryStream.close, closed]
  | false =>
      cases held : stream.handle? <;>
        simp [QueryStream.close, closed, held, Store.closingQuietly, Channel.closingQuietly]

/-- On a channel that closes quietly, an operation comes to what pulling comes to, and it leaves the
channel where pulling has left it. -/
theorem Form.run_quietly {operation : TerminalOperation} (form : operation.Form State)
    {cursor : Cursor} {store : Store State} {request : Request} {stream after : QueryStream}
    {world opened worldAfter : World State} {outcome : Outcome form.Result} {kept : form.Kept}
    (streamed : (operation.source cursor).stream store request (form.begun cursor request world) =
      (.ok stream, opened))
    (consumed : form.consume store form.kept stream opened = (outcome, kept, after, worldAfter)) :
    (operation.run cursor store.closingQuietly request world).1 = (outcome.map fun _ => ()) ∧
      (operation.run cursor store.closingQuietly request world).2.channel = worldAfter.channel := by
  have quietly : (operation.source cursor).stream store.closingQuietly request
      (form.begun cursor request world) = (.ok stream, opened) := streamed
  obtain ⟨_, _, _, _, same, _, ran⟩ := form.run_of_ok quietly
  rw [form.quiet, consumed] at same
  cases same
  obtain ⟨closes, sameChannel⟩ := close_closingQuietly store after worldAfter
  rw [ran]
  exact ⟨by rw [Cursor.outcome_finish closes], (Cursor.channel_finish ..).trans sameChannel⟩

/-- An operation comes to what its lifecycle tells, and it logs the events of its lifecycle. -/
theorem run_lifecycle (operation : TerminalOperation) (cursor : Cursor) (store : Store State)
    (request : Request) {world : World State} (traced : world.journal.threshold = .trace) :
    (operation.run cursor store request world).1 =
        (operation.lifecycle cursor store request world).outcome ∧
      world.journal.GoesOn (operation.run cursor store request world).2.journal
        (operation.lifecycle cursor store request world).events := by
  let form : operation.Form State := operation.form
  have begins : world.journal.GoesOn (form.begun cursor request world).journal
      [(.info, "CURSOR_ITERATION_BEGIN")] :=
    (Journal.GoesOn.start world.journal).log traced .info _ _
  have obtains := (operation.source cursor).obtains_stream store request
    (form.begun cursor request world)
  rcases streamed : (operation.source cursor).stream store request (form.begun cursor request world)
    with ⟨obtained, opened⟩
  rw [streamed] at obtains
  -- One case for each place where an iteration can end, in the order in which they are reached.
  cases obtains with
  | unplanned explained =>
      simp only [lifecycle, explained, form.run_of_error streamed]
      exact ⟨rfl, Cursor.goesOn_reportFailure begins traced _ _⟩
  | unregistered explained missing =>
      simp only [lifecycle, explained, missing, Bool.false_eq_true, if_false,
        form.run_of_error streamed]
      exact ⟨rfl, Cursor.goesOn_reportFailure begins traced _ _⟩
  | @refused plan query failure state explained contained remote asked =>
      have asked : store.channel.openQuery query world.channel = (.error failure, state) := asked
      simp only [lifecycle, explained, contained, if_true, remote, asked,
        form.run_of_error streamed]
      have split := begins.log traced .trace "QUERY_SPLIT" (Cursor.splitFields request plan)
      exact ⟨rfl, Cursor.goesOn_reportFailure split traced _ _⟩
  | @shortCircuited plan explained contained remote =>
      obtain ⟨outcome, kept, after, worldAfter, consumed, pulled, ran⟩ := form.run_of_ok streamed
      obtain ⟨pulling, _⟩ := form.run_quietly streamed consumed
      have split := begins.log traced .trace "QUERY_SPLIT" (Cursor.splitFields request plan)
      have told := pulled.goesOn split
      -- Pulling cannot have opened a query, so that closing asks for nothing.
      have silent : after.handle? = none := pulled.handle?_eq.trans (by simp)
      obtain ⟨same, ended⟩ := Cursor.finish_without_query store told traced
        pulled.closed_eq silent (form.scope cursor request).fields request outcome
      simp only [lifecycle, explained, contained, if_true, remote, pulling, ran]
      exact ⟨congrArg _ same, ended⟩
  | @opened plan query handle state fields explained contained remote asked =>
      obtain ⟨outcome, kept, after, worldAfter, consumed, pulled, ran⟩ := form.run_of_ok streamed
      obtain ⟨pulling, left⟩ := form.run_quietly streamed consumed
      have asked : store.channel.openQuery query world.channel = (.ok handle, state) := asked
      have opening := (begins.log traced .trace "QUERY_SPLIT"
        (Cursor.splitFields request plan)).log traced .info "REMOTE_OPEN" fields
      have told := pulled.goesOn opening
      have held : after.handle? = some handle := pulled.handle?_eq.trans (by simp)
      simp only [lifecycle, explained, contained, if_true, remote, asked, pulling, left, ran]
      exact Cursor.finish_over_query told traced pulled.closed_eq held
        (form.scope cursor request).fields request outcome

theorem lifecycle_eq_shortCircuited_iff (operation : TerminalOperation) (cursor : Cursor)
    (store : Store State) (request : Request) (world : World State) :
    (∃ pulling, operation.lifecycle cursor store request world = .shortCircuited pulling) ↔
      ∃ plan, (operation.source cursor).explain = .ok plan ∧
        store.registry.contains plan.entity = true ∧ plan.shortCircuit = true := by
  cases explained : (operation.source cursor).explain with
  | error failure => simp [lifecycle, explained]
  | ok plan =>
      cases contained : store.registry.contains plan.entity with
      | false => simp [lifecycle, explained, contained]
      | true =>
          have silent := Cursor.remote_eq_none_iff explained
          cases remote : plan.remote with
          | none => simp [lifecycle, explained, contained, remote, silent.mp remote]
          | some query =>
              have needed : plan.shortCircuit = false := by
                simpa [remote] using silent
              rcases asked : (store.channel.openQuery query world.channel).1 with failure | handle
              all_goals simp [lifecycle, explained, contained, remote, asked, needed]

end TerminalOperation

end EntityCursor
