import EntityCursor.Proofs.Channel.Isolation
import EntityCursor.Proofs.Cursor.Discipline
import EntityCursor.Proofs.Pipeline.Refinement

/-!
Iterations by a plan, which need not be the plan of the chain. On a table engine such an iteration
is either refused a stream, or it obtains one that takes the course which the operators in the
process make of the rows, whatever was logged before. What consuming the stream comes to is what the
iteration comes to, since closing does not fail for a query that is open.
-/

namespace EntityCursor

def TableEngine.store (registry : Registry) : Store TableEngine := ⟨TableEngine.channel, registry⟩

@[simp]
theorem TableEngine.channel_store (registry : Registry) :
    (TableEngine.store registry).channel = TableEngine.channel := rfl

@[simp]
theorem TableEngine.registry_store (registry : Registry) :
    (TableEngine.store registry).registry = registry := rfl

theorem Course.visit_gather {Mark : Type} (gathered : List Value) (course : Course Value Mark) :
    (course.visit QueryStream.gather gathered).1.map (fun _ =>
        (course.visit QueryStream.gather gathered).2.1.reverse) =
      course.answer.map (gathered.reverse ++ ·) := by
  obtain ⟨start, elements, failure, finish⟩ := course
  simp only [visit, answer]
  induction elements generalizing gathered with
  | nil => cases failure <;> simp [visitFrom, Except.map]
  | cons pair rest inductionHypothesis =>
      obtain ⟨element, mark⟩ := pair
      have later := inductionHypothesis (element :: gathered)
      cases failure <;> simpa [visitFrom, QueryStream.gather, Except.map] using later

theorem Course.answer_eq_visit_gather {Mark : Type} (course : Course Value Mark) :
    ((course.visit QueryStream.gather []).1.map fun _ => ()).map (fun _ =>
      (course.visit QueryStream.gather []).2.1.reverse) = course.answer := by
  have gathered := course.visit_gather []
  rcases visited : course.visit QueryStream.gather [] with ⟨failure | final, elements, finish⟩
  all_goals
    rw [visited] at gathered
    cases answered : course.answer <;> simp_all [Except.map]

namespace Cursor

/-! Closing. -/

variable {registry : Registry}

theorem close_of_held {stream : QueryStream} {world : World TableEngine}
    (held : ∀ handle, stream.handle? = some handle →
      (TableEngine.find? handle world.channel.openQueries).isSome) :
    (stream.close (TableEngine.store registry) world).1 = .ok () := by
  cases closed : stream.closed with
  | true => simp [QueryStream.close, closed]
  | false =>
      cases holding : stream.handle? with
      | none => simp [QueryStream.close, closed, holding]
      | some handle =>
          have closes := TableEngine.close_of_held (held handle holding)
          rcases ended : TableEngine.close handle world.channel with ⟨failure | _, engine⟩
          · rw [ended] at closes
            cases closes
          · simp [QueryStream.close, closed, holding, ended]

end Cursor

/-! Streams that are about to take a course. -/

namespace QueryStream

variable {registry : Registry} {course : Course Value Unit} {stream : QueryStream}
  {world : World TableEngine}

theorem held_of_leads {entity : String} {columns : Option (List String)}
    {base baseAfter : Option Handle} {engine engineAfter : TableEngine}
    (leads : ((TableEngine.store registry).rows entity columns).Leads base engine baseAfter
      engineAfter)
    (held : ∀ handle, base = some handle →
      (TableEngine.find? handle engine.openQueries).isSome) :
    ∀ handle, baseAfter = some handle →
      (TableEngine.find? handle engineAfter.openQueries).isSome := by
  induction leads with
  | rest => exact held
  | @pull base after engine engineAfter _ inductionHypothesis =>
      apply inductionHypothesis
      intro handle kept
      cases base with
      | none => simp [Store.rows] at kept
      | some first =>
          have isHeld := TableEngine.isSome_find?_next (held first rfl)
          rcases fetched : TableEngine.next first engine with ⟨failure | (_ | row), engineBetween⟩
          all_goals
            simp [Store.rows, fetched] at kept ⊢
            rw [fetched] at isHeld
            exact kept ▸ isHeld

/-- An open stream on a table engine that is about to take a course. -/
structure Ready (registry : Registry) (course : Course Value Unit) (stream : QueryStream)
    (world : World TableEngine) : Prop where
  waiting : stream.closed = false
  held : ∀ handle, stream.handle? = some handle →
    (TableEngine.find? handle world.channel.openQueries).isSome
  runs : (stream.elements (TableEngine.store registry)).Runs (fun _ _ => ()) stream.progress
    world.channel course

theorem Ready.ofPlan (plan : Plan) {handle : Option Handle}
    (held : ∀ given, handle = some given →
      (TableEngine.find? given world.channel.openQueries).isSome)
    (runs : ((TableEngine.store registry).rows plan.entity
      (plan.remote.bind Query.selectedColumns?)).Runs (fun _ _ => ()) handle world.channel course) :
    (ofPlan plan handle).Ready registry (course.through plan.localOperators.reverse) world where
  waiting := rfl
  held := by
    rw [handle?_ofPlan]
    exact held
  runs := (runs.stack plan.localOperators.reverse).counting 0

/-- The query of a stream is still open after the stream has made progress. -/
theorem Ready.held_of_leads (ready : stream.Ready registry course world)
    {progress : Nat × Running (Option Handle) stream.operators} {engine : TableEngine}
    (leads : (stream.elements (TableEngine.store registry)).Leads stream.progress world.channel
      progress engine) :
    ∀ handle, ({ stream with progress := progress } : QueryStream).handle? = some handle →
      (TableEngine.find? handle engine.openQueries).isSome :=
  QueryStream.held_of_leads leads.of_counting.of_stack ready.held

theorem Ready.visit {Result : Type} (ready : stream.Ready registry course world)
    (step : Result → Value → Outcome (Option Unit) × Result) (result : Result) :
    ∃ after worldAfter,
      stream.visit (TableEngine.store registry) step result world =
        ((course.visit step result).1.map fun _ => (), (course.visit step result).2.1, after,
          worldAfter) ∧
      (after.close (TableEngine.store registry) worldAfter).1 = .ok () := by
  obtain ⟨progress, engine, looped, _⟩ := ready.runs.forEach step result
  have leads := (stream.elements (TableEngine.store registry)).leads_forEach step result
    stream.progress world.channel
  rw [looped] at leads
  refine ⟨{ stream with progress := progress }, { world with channel := engine }, ?_, ?_⟩
  · simp only [QueryStream.visit, ready.waiting, Bool.false_eq_true, if_false, looped]
  · exact Cursor.close_of_held (ready.held_of_leads leads)

end QueryStream

/-- The rows of a plan take a course as elements, once the remote part of the plan is open. -/
def Plan.Gives (plan : Plan) (registry : Registry) (engine : TableEngine)
    (course : Course Value Unit) : Prop :=
  match plan.remote with
  | none =>
      ((TableEngine.store registry).rows plan.entity none).Runs (fun _ _ => ()) none engine course
  | some query =>
      ∃ rows, TableEngine.execute engine.tables query = .ok rows ∧
        ((TableEngine.store registry).rows plan.entity query.selectedColumns?).Runs (fun _ _ => ())
          (some ⟨engine.lastHandle + 1⟩) (TableEngine.openQuery query engine).2 course

namespace Cursor

variable {registry : Registry} {request : Request} {planned : Outcome Plan}
  {world : World TableEngine} {course : Course Value Unit}

/-- Whatever was logged before, a stream is refused for the same reason. -/
def Refused (planned : Outcome Plan) (registry : Registry) (request : Request)
    (world : World TableEngine) (failure : QueryError) : Prop :=
  ∀ journal, ∃ after,
    streamBy planned (TableEngine.store registry) request { world with journal := journal } =
      (.error failure, after)

/-- Whatever was logged before, a stream is obtained that takes the same course. -/
def Takes (planned : Outcome Plan) (registry : Registry) (request : Request)
    (world : World TableEngine) (course : Course Value Unit) : Prop :=
  ∀ journal, ∃ stream opened,
    streamBy planned (TableEngine.store registry) request { world with journal := journal } =
      (.ok stream, opened) ∧
    stream.Ready registry course opened

theorem Refused.of_unregistered {plan : Plan} (unregistered : registry.contains plan.entity = false)
    (request : Request) (world : World TableEngine) :
    Refused (.ok plan) registry request world (.unknownEntity plan.entity) := by
  intro journal
  simp only [streamBy, TableEngine.registry_store, unregistered, Bool.false_eq_true, if_false]
  exact ⟨_, rfl⟩

theorem Refused.of_execute {plan : Plan} {query : Query} {failure : ChannelError}
    (contained : registry.contains plan.entity = true) (remote : plan.remote = some query)
    (refused : TableEngine.execute world.channel.tables query = .error failure)
    (request : Request) : Refused (.ok plan) registry request world (.remote failure) := by
  intro journal
  simp only [streamBy, TableEngine.registry_store, contained, if_true, QueryStream.openPlan, remote,
    TableEngine.channel_store, TableEngine.openQuery_channel, TableEngine.openQuery,
    World.channel_log, refused]
  exact ⟨_, rfl⟩

theorem Takes.of_gives {plan : Plan} (contained : registry.contains plan.entity = true)
    (gives : plan.Gives registry world.channel course) (request : Request) :
    Takes (.ok plan) registry request world (course.through plan.localOperators.reverse) := by
  intro journal
  simp only [Plan.Gives] at gives
  cases remote : plan.remote with
  | none =>
      simp only [remote] at gives
      simp only [streamBy, TableEngine.registry_store, contained, if_true, QueryStream.openPlan, remote]
      refine ⟨_, _, rfl, ?_⟩
      apply QueryStream.Ready.ofPlan plan
      · rintro given ⟨⟩
      · rw [remote]
        exact gives
  | some query =>
      simp only [remote] at gives
      obtain ⟨rows, executed, runs⟩ := gives
      simp only [streamBy, TableEngine.registry_store, contained, if_true, QueryStream.openPlan,
        remote, TableEngine.channel_store, TableEngine.openQuery_channel, World.channel_log]
      rw [TableEngine.openQuery, executed] at runs ⊢
      refine ⟨_, _, rfl, ?_⟩
      apply QueryStream.Ready.ofPlan plan
      · rintro _ ⟨⟩
        exact TableEngine.find?_isSome_iff.mpr (by simp)
      · rw [remote]
        exact runs

theorem execute_error_or_gives (registry : Registry) (plan : Plan) (engine : TableEngine) :
    (∃ query failure, plan.remote = some query ∧
      TableEngine.execute engine.tables query = .error failure) ∨
    ∃ course, plan.Gives registry engine course := by
  simp only [Plan.Gives]
  cases remote : plan.remote with
  | none => exact .inr (Puller.exists_runs _ _ _ _)
  | some query =>
      cases executed : TableEngine.execute engine.tables query with
      | error failure => exact .inl ⟨query, failure, rfl, executed⟩
      | ok rows =>
          obtain ⟨course, runs⟩ := Puller.exists_runs
            ((TableEngine.store registry).rows plan.entity query.selectedColumns?) (fun _ _ => ())
            (some ⟨engine.lastHandle + 1⟩) (TableEngine.openQuery query engine).2
          exact .inr ⟨course, rows, executed, runs⟩

theorem refused_or_takes (planned : Outcome Plan) (registry : Registry) (request : Request)
    (world : World TableEngine) :
    (∃ failure, Refused planned registry request world failure) ∨
      ∃ plan course, planned = .ok plan ∧ registry.contains plan.entity = true ∧
        plan.Gives registry world.channel course ∧
        Takes planned registry request world (course.through plan.localOperators.reverse) := by
  cases planned with
  | error failure => exact .inl ⟨failure, fun journal => ⟨_, rfl⟩⟩
  | ok plan =>
      cases contained : registry.contains plan.entity with
      | false => exact .inl ⟨_, .of_unregistered contained request world⟩
      | true =>
          rcases execute_error_or_gives registry plan world.channel with
            ⟨query, failure, remote, refused⟩ | ⟨course, gives⟩
          · exact .inl ⟨_, .of_execute contained remote refused request⟩
          · exact .inr ⟨plan, course, rfl, contained, gives, .of_gives contained gives request⟩

theorem iterateBy_of_refused {Result Kept : Type} {failure : QueryError} (cursor : Cursor)
    (refused : Refused planned registry request world failure) (terminal : String)
    (consume : Kept → QueryStream → World TableEngine →
      Outcome Result × Kept × QueryStream × World TableEngine) (kept : Kept) :
    ∃ after, cursor.iterateBy planned (TableEngine.store registry) request terminal consume kept
      world = (.error failure, kept, after) := by
  simp only [iterateBy]
  generalize Scope.enter _ _ _ = scope
  obtain ⟨after, streamed⟩ := refused scope.2
  rw [streamed]
  exact ⟨_, rfl⟩

/-- What consuming a stream comes to is what the iteration comes to if closing does not fail,
whatever was logged before. -/
theorem iterateBy_of_consumed {State Result Kept : Type} {store : Store State}
    {world : World State} {outcome : Outcome Result} {kept final : Kept}
    {consume : Kept → QueryStream → World State →
      Outcome Result × Kept × QueryStream × World State} (cursor : Cursor) (terminal : String)
    (consumes : ∀ journal, ∃ stream opened after worldAfter,
      streamBy planned store request { world with journal := journal } = (.ok stream, opened) ∧
      consume kept stream opened = (outcome, final, after, worldAfter) ∧
      (after.close store worldAfter).1 = .ok ()) :
    ∃ after, cursor.iterateBy planned store request terminal consume kept world =
      (outcome, final, after) := by
  simp only [iterateBy]
  generalize Scope.enter _ _ _ = scope
  obtain ⟨stream, opened, after, worldAfter, streamed, consumed, closes⟩ := consumes scope.2
  rw [streamed]
  simp only [consumed, outcome_finish closes]
  exact ⟨_, rfl⟩

theorem iterateBy_of_takes {Result Kept : Type} {outcome : Outcome Result} {kept final : Kept}
    {consume : Kept → QueryStream → World TableEngine →
      Outcome Result × Kept × QueryStream × World TableEngine} (cursor : Cursor)
    (takes : Takes planned registry request world course) (terminal : String)
    (consumes : ∀ stream opened, stream.Ready registry course opened →
      ∃ after worldAfter, consume kept stream opened = (outcome, final, after, worldAfter) ∧
        (after.close (TableEngine.store registry) worldAfter).1 = .ok ()) :
    ∃ after, cursor.iterateBy planned (TableEngine.store registry) request terminal consume kept
      world = (outcome, final, after) := by
  apply cursor.iterateBy_of_consumed
  intro journal
  obtain ⟨stream, opened, streamed, ready⟩ := takes journal
  obtain ⟨after, worldAfter, consumed, closes⟩ := consumes stream opened ready
  exact ⟨stream, opened, after, worldAfter, streamed, consumed, closes⟩

theorem Refused.toArrayBy {failure : QueryError}
    (refused : Refused planned registry request world failure) (cursor : Cursor) :
    (cursor.toArrayBy planned (TableEngine.store registry) request world).1 =
      .error failure := by
  obtain ⟨after, iterated⟩ := iterateBy_of_refused cursor refused "to_array"
    (QueryStream.visit (TableEngine.store registry) QueryStream.gather) []
  simp only [Cursor.toArrayBy, iterated]
  rfl

theorem Takes.toArrayBy (takes : Takes planned registry request world course) (cursor : Cursor) :
    (cursor.toArrayBy planned (TableEngine.store registry) request world).1 = course.answer := by
  obtain ⟨after, iterated⟩ := iterateBy_of_takes cursor takes "to_array"
    fun _ _ ready => ready.visit QueryStream.gather []
  simp only [Cursor.toArrayBy, iterated]
  exact course.answer_eq_visit_gather

end Cursor

end EntityCursor
