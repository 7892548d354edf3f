import EntityCursor.Proofs.Cursor.Fidelity

/-!
The terminal operations taken together. Every terminal operation is an iteration whose consumer does
nothing but pull: it leaves the journal and the metrics alone, it neither closes the stream nor
gives its handle away, and what it keeps tells how many elements it has pulled. What holds of all
iterations of this form holds of every terminal operation.
-/

namespace EntityCursor

theorem Puller.count_pull {State World : Type} (puller : Puller State World)
    {running : Nat × State} {world : World} {found : Option Value}
    (given : (puller.counting.pull running world).1 = .ok found) :
    (puller.counting.pull running world).2.1.1 = running.1 + found.toList.length := by
  rcases pulled : puller.pull running.2 world with ⟨failure | (_ | value), after, worldAfter⟩
  · simp [counting, pulled] at given
  · simp only [counting, pulled] at given ⊢
    cases given
    rfl
  · simp only [counting, pulled] at given ⊢
    cases given
    rfl

/-- Loops that count their elements agree with results that grow by one with every element. -/
theorem Puller.count_loop {State World Result Final : Type} (puller : Puller State World)
    {step : Result → Value → Outcome (Option Final) × Result} {size : Result → Nat}
    (grows : ∀ result value, size (step result value).2 = size result + 1)
    (fuel : Nat) (result : Result) (running : Nat × State) (world : World) :
    (puller.counting.loop step fuel result running world).2.2.1.1 + size result =
      running.1 + size (puller.counting.loop step fuel result running world).2.1 := by
  induction fuel generalizing result running world with
  | zero => rfl
  | succ fuel inductionHypothesis =>
      obtain ⟨count, state⟩ := running
      -- Only a pull that gives an element calls the step, whether the loop goes on or not.
      rcases pulled : puller.pull state world with ⟨failure | (_ | value), after, worldAfter⟩
      · simp only [loop, counting, pulled]
      · simp only [loop, counting, pulled]
      · have grown := grows result value
        rcases stepped : step result value with ⟨failure | (_ | final), next⟩
        · rw [stepped] at grown
          simp only [loop, counting, pulled, stepped]
          dsimp only at grown
          omega
        · rw [stepped] at grown
          have later := inductionHypothesis next (count + 1, after) worldAfter
          simp only [loop, counting, pulled, stepped] at later ⊢
          dsimp only at grown
          omega
        · rw [stepped] at grown
          simp only [loop, counting, pulled, stepped]
          dsimp only at grown
          omega

namespace QueryStream

variable {State : Type} {store : Store State} {stream after : QueryStream}
  {world worldAfter : World State}

/-- A stream and a world after some pulls, and after nothing else. -/
def PulledTo (store : Store State) (stream : QueryStream) (world : World State)
    (after : QueryStream) (worldAfter : World State) : Prop :=
  ∃ progress state,
    after = { stream with progress := progress } ∧ worldAfter = { world with channel := state } ∧
    (stream.elements store).Leads stream.progress world.channel progress state

theorem pulledTo_next (store : Store State) (stream : QueryStream) (world : World State) :
    stream.PulledTo store world (stream.next store world).2.1 (stream.next store world).2.2 := by
  cases closed : stream.closed with
  | true =>
      simp only [next, closed, if_true]
      exact ⟨stream.progress, world.channel, rfl, rfl, .rest⟩
  | false =>
      simp only [next, closed, Bool.false_eq_true, if_false]
      have leads := (stream.elements store).leads_pull stream.progress world.channel
      exact ⟨_, _, by simp [closed], rfl, leads⟩

theorem pulledTo_visit {Result : Type} (store : Store State)
    (step : Result → Value → Outcome (Option Unit) × Result) (result : Result)
    (stream : QueryStream) (world : World State) :
    stream.PulledTo store world (stream.visit store step result world).2.2.1
      (stream.visit store step result world).2.2.2 := by
  cases closed : stream.closed with
  | true =>
      simp only [visit, closed, if_true]
      exact ⟨stream.progress, world.channel, rfl, rfl, .rest⟩
  | false =>
      simp only [visit, closed, Bool.false_eq_true, if_false]
      have leads := (stream.elements store).leads_forEach step result stream.progress world.channel
      exact ⟨_, _, by simp [closed], rfl, leads⟩

theorem base_of_leads {entity : String} {columns : Option (List String)}
    {handle handleAfter : Option Handle} {state stateAfter : State}
    (leads : (store.rows entity columns).Leads handle state handleAfter stateAfter) :
    handleAfter = handle := by
  induction leads with
  | rest => rfl
  | @pull handle _ state _ _ inductionHypothesis =>
      rw [inductionHypothesis]
      cases handle with
      | none => rfl
      | some handle =>
          rcases fetched : store.channel.next handle state with ⟨failure | (_ | row), after⟩
          all_goals simp [Store.rows, fetched]

namespace PulledTo

variable (pulled : stream.PulledTo store world after worldAfter)

include pulled

theorem closed_eq : after.closed = stream.closed := by
  obtain ⟨progress, state, rfl, rfl, _⟩ := pulled
  rfl

theorem handle?_eq : after.handle? = stream.handle? := by
  obtain ⟨progress, state, rfl, rfl, leads⟩ := pulled
  exact base_of_leads leads.of_counting.of_stack

theorem journal_eq : worldAfter.journal = world.journal := by
  obtain ⟨progress, state, rfl, rfl, _⟩ := pulled
  rfl

end PulledTo

theorem rows_next {found : Option Value} (given : (stream.next store world).1 = .ok found) :
    (stream.next store world).2.1.rows = stream.rows + found.toList.length := by
  cases closed : stream.closed with
  | true =>
      simp only [next, closed, if_true] at given ⊢
      cases given
      rfl
  | false =>
      have waiting : stream.next store world =
          (((stream.elements store).pull stream.progress world.channel).1,
            { stream with
              progress := ((stream.elements store).pull stream.progress world.channel).2.1 },
            { world with
              channel := ((stream.elements store).pull stream.progress world.channel).2.2 }) := by
        simp only [next, closed, Bool.false_eq_true, if_false]
      rw [waiting] at given ⊢
      exact Puller.count_pull _ given

theorem rows_visit {Result : Type} (store : Store State) (stream : QueryStream)
    (world : World State) {step : Result → Value → Outcome (Option Unit) × Result}
    {size : Result → Nat} (grows : ∀ result value, size (step result value).2 = size result + 1)
    (result : Result) :
    (stream.visit store step result world).2.2.1.rows + size result =
      stream.rows + size (stream.visit store step result world).2.1 := by
  cases closed : stream.closed with
  | true => simp only [visit, closed, if_true]
  | false =>
      simp only [visit, closed, Bool.false_eq_true, if_false]
      exact Puller.count_loop _ grows _ result stream.progress world.channel

end QueryStream

/-- The operations that run a cursor to an end. -/
inductive TerminalOperation : Type 1 where
  | toArray
  | forEach {Kept : Type} (step : Kept → Value → Outcome (Option Unit) × Kept) (kept : Kept)
  | first
  | count
  | min (field : String)
  | max (field : String)
  | aggregate (field : String) (initial : Option Value) (step : Fold)

/-- A channel that closes queries without doing anything, and without failing. -/
def Channel.closingQuietly {State : Type} (channel : Channel State) : Channel State :=
  { channel with close := fun _ state => (.ok (), state) }

def Store.closingQuietly {State : Type} (store : Store State) : Store State :=
  { store with channel := store.channel.closingQuietly }

namespace TerminalOperation

variable {State : Type}

def source (operation : TerminalOperation) (cursor : Cursor) : Cursor :=
  match operation with
  | .min field => cursor.minBy field
  | .max field => cursor.maxBy field
  | .aggregate field initial step => cursor.aggregateBy field initial step
  | _ => cursor

def run (operation : TerminalOperation) (cursor : Cursor) (store : Store State) (request : Request)
    (world : World State) : Outcome Unit × World State :=
  match operation with
  | .toArray =>
      let (outcome, world) := cursor.toArray store request world
      (outcome.map fun _ => (), world)
  | .forEach step kept =>
      let (outcome, _, world) := cursor.forEach store request step kept world
      (outcome, world)
  | .first =>
      let (outcome, world) := cursor.first store request world
      (outcome.map fun _ => (), world)
  | .count =>
      let (outcome, world) := cursor.count store request world
      (outcome.map fun _ => (), world)
  | .min field =>
      let (outcome, world) := cursor.min store request field world
      (outcome.map fun _ => (), world)
  | .max field =>
      let (outcome, world) := cursor.max store request field world
      (outcome.map fun _ => (), world)
  | .aggregate field initial step =>
      let (outcome, world) := cursor.aggregate store request field initial step world
      (outcome.map fun _ => (), world)

/-- The number of elements that an operation has pulled if it succeeds, as its caller can tell. An
operation that asks for one element has pulled it if its source has any. -/
def pulled (operation : TerminalOperation) (cursor : Cursor) (store : Store State)
    (request : Request) (world : World State) : Nat :=
  match operation with
  | .toArray => ((cursor.toArray store request world).1.toOption.getD []).length
  | .forEach step kept =>
      (cursor.forEach store request (QueryStream.noting step) ([], kept) world).2.1.1.length
  | .count => (cursor.count store request world).1.toOption.getD 0
  | _ => (((operation.source cursor).first store request world).1.toOption.getD none).toList.length

/-- An operation as an iteration whose consumer only pulls. -/
structure Form (operation : TerminalOperation) (State : Type) where
  Result : Type
  Kept : Type
  terminal : String
  consume : Store State → Kept → QueryStream → World State →
    Outcome Result × Kept × QueryStream × World State
  kept : Kept
  /-- The number of pulled elements. -/
  size : Result → Kept → Nat
  pulls : ∀ (store : Store State) (stream : QueryStream) (world : World State),
    stream.PulledTo store world (consume store kept stream world).2.2.1
      (consume store kept stream world).2.2.2
  /-- Consuming closes nothing. -/
  quiet : ∀ store : Store State, consume store.closingQuietly = consume store
  rows_eq : ∀ (store : Store State) (stream : QueryStream) (world : World State) (result : Result),
    stream.rows = 0 → (consume store kept stream world).1 = .ok result →
    (consume store kept stream world).2.2.1.rows = size result (consume store kept stream world).2.1
  run_eq : ∀ cursor store request world,
    operation.run cursor store request world =
      (((operation.source cursor).iterate store request terminal (consume store) kept world).1.map
          fun _ => (),
        ((operation.source cursor).iterate store request terminal (consume store) kept world).2.2)
  pulled_eq : ∀ cursor store request world result,
    ((operation.source cursor).iterate store request terminal (consume store) kept world).1 =
      .ok result →
    operation.pulled cursor store request world = size result
      ((operation.source cursor).iterate store request terminal (consume store) kept world).2.1

@[simp]
theorem map_unit (outcome : Outcome Unit) : (outcome.map fun _ => ()) = outcome := by
  cases outcome <;> rfl

@[simp]
theorem map_map_unit {Result Other : Type} (outcome : Outcome Result) (change : Result → Other) :
    (outcome.map change).map (fun _ => ()) = outcome.map fun _ => () := by
  cases outcome <;> rfl

def firstForm {operation : TerminalOperation}
    (run_eq : ∀ cursor (store : Store State) request world,
      operation.run cursor store request world =
        (((operation.source cursor).first store request world).1.map fun _ => (),
          ((operation.source cursor).first store request world).2))
    (pulled_eq : ∀ cursor (store : Store State) request world,
      operation.pulled cursor store request world =
        (((operation.source cursor).first store request world).1.toOption.getD
          none).toList.length) :
    operation.Form State where
  Result := Option Value
  Kept := Unit
  terminal := "first"
  consume := fun store _ stream world =>
    let (outcome, stream, world) := stream.next store world
    (outcome, (), stream, world)
  kept := ()
  size := fun found _ => found.toList.length
  pulls := fun store stream world => stream.pulledTo_next store world
  quiet := fun store => rfl
  rows_eq := by
    intro store stream world found fresh given
    have counted := QueryStream.rows_next given
    rw [fresh, Nat.zero_add] at counted
    exact counted
  run_eq := run_eq
  pulled_eq := by
    intro cursor store request world found given
    rw [pulled_eq]
    have first : ((operation.source cursor).first store request world).1 = .ok found := given
    rw [first]
    rfl

/-- An operation that visits all elements with a step that tells how many it was handed. -/
def visitForm {operation : TerminalOperation} {Kept : Type} (terminal : String)
    (step : Kept → Value → Outcome (Option Unit) × Kept) (kept : Kept) (size : Kept → Nat)
    (start : size kept = 0) (grows : ∀ kept value, size (step kept value).2 = size kept + 1)
    (run_eq : ∀ cursor (store : Store State) request world,
      operation.run cursor store request world =
        (((operation.source cursor).iterate store request terminal (QueryStream.visit store step)
            kept world).1.map fun _ => (),
          ((operation.source cursor).iterate store request terminal (QueryStream.visit store step)
            kept world).2.2))
    (pulled_eq : ∀ cursor (store : Store State) request world result,
      ((operation.source cursor).iterate store request terminal (QueryStream.visit store step) kept
          world).1 = .ok result →
        operation.pulled cursor store request world =
          size ((operation.source cursor).iterate store request terminal
            (QueryStream.visit store step) kept world).2.1) :
    operation.Form State where
  Result := Unit
  Kept := Kept
  terminal := terminal
  consume := fun store => QueryStream.visit store step
  kept := kept
  size := fun _ kept => size kept
  pulls := fun store stream world => QueryStream.pulledTo_visit store step kept stream world
  quiet := fun store => rfl
  rows_eq := by
    intro store stream world result fresh _
    have counted := QueryStream.rows_visit store stream world grows kept
    rw [start, fresh, Nat.zero_add] at counted
    exact counted
  run_eq := run_eq
  pulled_eq := pulled_eq

/-- Every terminal operation is an iteration whose consumer only pulls. -/
def form (operation : TerminalOperation) : operation.Form State :=
  match operation with
  | .toArray =>
      visitForm "to_array" QueryStream.gather [] List.length rfl (fun _ _ => rfl)
        (by
          intro cursor store request world
          simp only [run, Cursor.toArray, Cursor.toArrayBy, Cursor.iterateBy_explain, source, map_map_unit])
        (by
          intro cursor store request world result given
          simp only [source] at given
          simp only [pulled, Cursor.toArray, Cursor.toArrayBy, Cursor.iterateBy_explain, source, given]
          exact List.length_reverse)
  | .forEach step kept =>
      visitForm "for_each" (QueryStream.noting step) ([], kept) (fun noted => noted.1.length) rfl
        (by
          intro noted value
          exact List.length_append)
        (by
          intro cursor store request world
          obtain ⟨handed, visited⟩ := cursor.forEach_noting store request step kept world
          simp only [Cursor.forEach] at visited
          simp only [run, source, visited, Cursor.forEach, map_unit])
        (by
          intro cursor store request world result _
          rfl)
  | .first => firstForm (fun _ _ _ _ => rfl) (fun _ _ _ _ => rfl)
  | .count =>
      visitForm "for_each" (fun total _ => (.ok none, total + 1)) 0 id rfl (fun _ _ => rfl)
        (by
          intro cursor store request world
          simp only [run, Cursor.count, Cursor.forEach, source, map_map_unit])
        (by
          intro cursor store request world result given
          simp only [source] at given
          simp only [pulled, Cursor.count, Cursor.forEach, source, given]
          rfl)
  | .min field =>
      firstForm
        (by
          intro cursor store request world
          simp only [run, Cursor.min, source, map_map_unit])
        (fun _ _ _ _ => rfl)
  | .max field =>
      firstForm
        (by
          intro cursor store request world
          simp only [run, Cursor.max, source, map_map_unit])
        (fun _ _ _ _ => rfl)
  | .aggregate field initial step =>
      firstForm
        (by
          intro cursor store request world
          simp only [run, Cursor.aggregate, source, map_map_unit])
        (fun _ _ _ _ => rfl)

namespace Form

variable {operation : TerminalOperation} {cursor : Cursor} {store : Store State}
  {request : Request} {world : World State}

def scope (form : operation.Form State) (cursor : Cursor) (request : Request) : Scope where
  name := "CURSOR_ITERATION"
  fields := [("entity", ((operation.source cursor).chain.scannedEntity.toOption).getD "?"),
    ("request_id", request.id), ("terminal", form.terminal)]
  completed := false

def begun (form : operation.Form State) (cursor : Cursor) (request : Request)
    (world : World State) : World State :=
  { world with
    journal := (Scope.enter "CURSOR_ITERATION" (form.scope cursor request).fields world.journal).2 }

theorem run_of_error (form : operation.Form State) {failure : QueryError} {after : World State}
    (streamed : (operation.source cursor).stream store request (form.begun cursor request world) =
      (.error failure, after)) :
    operation.run cursor store request world =
      (.error failure, Cursor.reportFailure (form.scope cursor request) failure after) := by
  simp only [begun, scope] at streamed
  simp only [form.run_eq, Cursor.iterate, Cursor.iterateBy, Cursor.streamBy_explain, streamed]
  rfl

theorem run_of_ok (form : operation.Form State) {stream : QueryStream} {opened : World State}
    (streamed : (operation.source cursor).stream store request (form.begun cursor request world) =
      (.ok stream, opened)) :
    ∃ outcome kept after worldAfter,
      form.consume store form.kept stream opened = (outcome, kept, after, worldAfter) ∧
      stream.PulledTo store opened after worldAfter ∧
      operation.run cursor store request world =
        ((Cursor.finish store request (form.scope cursor request) outcome after
            worldAfter).1.map fun _ => (),
          (Cursor.finish store request (form.scope cursor request) outcome after
            worldAfter).2) := by
  have pulled := form.pulls store stream opened
  rcases consumed : form.consume store form.kept stream opened with
    ⟨outcome, kept, after, worldAfter⟩
  rw [consumed] at pulled
  refine ⟨outcome, kept, after, worldAfter, rfl, pulled, ?_⟩
  simp only [begun, scope] at streamed
  simp only [form.run_eq, Cursor.iterate, Cursor.iterateBy, Cursor.streamBy_explain, streamed, consumed]
  rfl

/-- The number of elements that an operation has pulled with success is the one that its stream
counted. -/
theorem pulled_of_ok (form : operation.Form State) {stream after : QueryStream}
    {opened worldAfter : World State} {outcome : Outcome form.Result} {kept : form.Kept}
    {result : form.Result}
    (streamed : (operation.source cursor).stream store request (form.begun cursor request world) =
      (.ok stream, opened)) (fresh : stream.rows = 0)
    (consumed : form.consume store form.kept stream opened = (outcome, kept, after, worldAfter))
    (finished : (Cursor.finish store request (form.scope cursor request) outcome after
      worldAfter).1 = .ok result) :
    operation.pulled cursor store request world = after.rows := by
  have succeeded : (form.consume store form.kept stream opened).1 = .ok result := by
    rw [consumed]
    exact Cursor.ok_of_finish finished
  have counted := form.rows_eq store stream opened result fresh succeeded
  simp only [begun, scope] at streamed
  have iterated : (operation.source cursor).iterate store request form.terminal (form.consume store)
      form.kept world = (.ok result, kept, (Cursor.finish store request (form.scope cursor request)
        outcome after worldAfter).2) := by
    simp only [Cursor.iterate, Cursor.iterateBy, Cursor.streamBy_explain, streamed, consumed]
    rw [← finished]
    rfl
  rw [consumed] at counted
  rw [form.pulled_eq cursor store request world result (by rw [iterated]), iterated]
  exact counted.symm

end Form

end TerminalOperation

end EntityCursor
