import EntityCursor.Proofs.Chain.Longest
import EntityCursor.Proofs.Cursor.Fidelity
import EntityCursor.Proofs.Cursor.Planned

/-!
Plans on a channel of any kind. Once its remote part is open a plan unfolds into a course, whose
marks tell at every point which handle is held and in which state the channel is. Two operations
that go through one course to its end therefore leave the channel alike, and what closing comes to
for the one it comes to for the other. A further operator that works in the process goes on top of
the plan and changes nothing below it.
-/

namespace EntityCursor

variable {State : Type} {store : Store State}

/-! Operators that stay in the process. -/

theorem Operator.takesNothing_of_not_sendable {operator : Operator} (kept : ¬ operator.Sendable) :
    operator.takesNothing = false := by
  cases operator with
  | take count => exact absurd trivial kept
  | _ => rfl

theorem Policy.pushedFrom?_concat {policy : Policy} {sorts : UInt8} {operators : List Operator}
    {pushed : Nat} (split : policy.pushedFrom? sorts operators = some pushed) {operator : Operator}
    (kept : ¬ operator.Sendable) :
    policy.pushedFrom? sorts (operators ++ [operator]) = some pushed := by
  induction operators generalizing sorts pushed with
  | nil =>
      cases split
      have counts : count? sorts operator = some sorts := by
        cases operator with
        | sortBy keys => exact absurd trivial kept
        | _ => rfl
      have refused : policy.allows sorts operator = false :=
        Bool.eq_false_iff.mpr fun allowed => kept (sendable_of_allows allowed)
      exact pushedFrom?_of_refused counts refused
  | cons first rest inductionHypothesis =>
      rw [List.cons_append]
      obtain ⟨counted, counts, ⟨refused, rfl⟩ | ⟨allowed, ⟨stops, rfl⟩ |
        ⟨goesOn, later, splitRest, rfl⟩⟩⟩ := cases_of_pushedFrom?_cons split
      · exact pushedFrom?_of_refused counts refused
      · exact pushedFrom?_of_stops counts allowed stops
      · rw [pushedFrom?_of_goesOn counts allowed goesOn, inductionHypothesis splitRest,
          Option.map_some, Nat.add_comm]

theorem Plan.afterLastEmptyTake?_concat (operators : List Operator) {operator : Operator}
    (kept : ¬ operator.Sendable) :
    afterLastEmptyTake? (operators ++ [operator]) =
      (afterLastEmptyTake? operators).map (· ++ [operator]) := by
  induction operators with
  | nil => simp [afterLastEmptyTake?, Operator.takesNothing_of_not_sendable kept]
  | cons first rest inductionHypothesis =>
      rw [List.cons_append, afterLastEmptyTake?, afterLastEmptyTake?, inductionHypothesis]
      cases afterLastEmptyTake? rest with
      | some later => rfl
      | none => cases first.takesNothing <;> rfl

/-- An operator that stays in the process is applied after all others. -/
theorem Cursor.explain_extend {cursor : Cursor} {plan : Plan}
    (explained : cursor.explain = .ok plan) {operator : Operator} (kept : ¬ operator.Sendable)
    (noScan : operator.isScan = false) :
    (cursor.extend operator).explain =
      .ok { plan with localOperators := plan.localOperators ++ [operator] } := by
  have wellFormed : (cursor.extend operator).chain.WellFormed := by
    intro other member
    rcases List.mem_append.mp member with before | same
    · exact wellFormed_of_explain explained other before
    · rw [List.mem_singleton.mp same]
      exact noScan
  have planned : (cursor.extend operator).explain = Plan.ofOperators cursor.policy
      (.scan cursor.chain.entity :: (cursor.chain.operators ++ [operator])) :=
    explain_of_wellFormed wellFormed
  have search := Plan.afterLastEmptyTake?_concat cursor.chain.operators kept
  rw [planned]
  cases divides_of_explain explained with
  | emptyTake found =>
      rw [found] at search
      exact Plan.ofOperators_of_emptyTake search
  | split found divided written =>
      rw [found] at search
      rw [Plan.ofOperators_eq_divide _ _ search]
      obtain ⟨query, writtenLonger, split⟩ :=
        Plan.exists_divide cursor.chain.entity (Policy.pushedFrom?_concat divided kept)
      have within := Policy.pushedFrom?_le_length divided
      rw [List.take_append_of_le_length within, written] at writtenLonger
      rw [List.drop_append_of_le_length within] at split
      cases writtenLonger
      exact split

/-! Opening and closing, seen from the channel. -/

def Plan.opening (plan : Plan) (store : Store State) (state : State) :
    Outcome (Option Handle) × State :=
  match plan.remote with
  | none => (.ok none, state)
  | some query =>
      match store.channel.openQuery query state with
      | (.ok handle, after) => (.ok (some handle), after)
      | (.error failure, after) => (.error (.remote failure), after)

/-- What closing a handle comes to in a state of the channel. -/
def Store.closing (store : Store State) : Option Handle × State → Outcome Unit
  | (none, _) => .ok ()
  | (some handle, state) =>
      match store.channel.close handle state with
      | (.ok (), _) => .ok ()
      | (.error failure, _) => .error (.remote failure)

theorem QueryStream.close_eq_closing {stream : QueryStream} {world : World State}
    (waiting : stream.closed = false) :
    (stream.close store world).1 = store.closing (stream.handle?, world.channel) := by
  cases holding : stream.handle? with
  | none => simp [QueryStream.close, waiting, holding, Store.closing]
  | some handle =>
      rcases ended : store.channel.close handle world.channel with ⟨failure | _, state⟩ <;>
        simp [QueryStream.close, waiting, holding, Store.closing, ended]

/-! Unfolding. -/

/-- The plan takes a course over a handle, where every mark tells the handle that is held and the
state of the channel. -/
def Plan.Unfolds (plan : Plan) (store : Store State) (handle : Option Handle) (state : State)
    (course : Course Value (Option Handle × State)) : Prop :=
  ((store.rows plan.entity (plan.remote.bind Query.selectedColumns?)).stack
      plan.localOperators.reverse).Runs
    (fun running state => (running.base, state))
    (Running.start handle plan.localOperators.reverse) state course

theorem Plan.exists_unfolds (plan : Plan) (store : Store State) (handle : Option Handle)
    (state : State) : ∃ course, plan.Unfolds store handle state course :=
  Puller.exists_runs ..

theorem Plan.Unfolds.extend {plan : Plan} {handle : Option Handle} {state : State}
    {course : Course Value (Option Handle × State)}
    (unfolds : plan.Unfolds store handle state course) (operator : Operator) :
    ({ plan with localOperators := plan.localOperators ++ [operator] } : Plan).Unfolds store handle
      state (course.after operator) := by
  have staged := unfolds.stage operator
  rw [Unfolds, List.reverse_concat]
  exact staged

namespace QueryStream

variable {stream : QueryStream} {world : World State}
  {course later : Course Value (Option Handle × State)}

/-- An open stream that is about to take a course. -/
structure Follows (store : Store State) (course : Course Value (Option Handle × State))
    (stream : QueryStream) (world : World State) : Prop where
  waiting : stream.closed = false
  runs : (stream.elements store).Runs (fun progress state => (progress.2.base, state))
    stream.progress world.channel course

theorem Follows.ofPlan {plan : Plan} {handle : Option Handle}
    (unfolds : plan.Unfolds store handle world.channel course) :
    (ofPlan plan handle).Follows store course world :=
  ⟨rfl, unfolds.counting 0⟩

/-- Visiting the elements comes to what a visit to the course does, and so does closing after it. -/
theorem Follows.visit {Result : Type} (follows : stream.Follows store course world)
    (step : Result → Value → Outcome (Option Unit) × Result) (result : Result) :
    ∃ after worldAfter,
      stream.visit store step result world =
        ((course.visit step result).1.map fun _ => (), (course.visit step result).2.1, after,
          worldAfter) ∧
      (after.close store worldAfter).1 = store.closing (course.visit step result).2.2 := by
  obtain ⟨progress, state, looped, marked⟩ := follows.runs.forEach step result
  refine ⟨{ stream with progress := progress }, { world with channel := state }, ?_, ?_⟩
  · simp only [QueryStream.visit, follows.waiting, Bool.false_eq_true, if_false, looped]
  · rw [← marked]
    exact close_eq_closing follows.waiting

theorem Follows.next {value : Value} {mark : Option Handle × State}
    (follows : stream.Follows store (.cons mark value later) world) :
    ∃ after worldAfter,
      stream.next store world = (.ok (some value), after, worldAfter) ∧
      (after.close store worldAfter).1 = store.closing later.start := by
  obtain ⟨progress, state, pulled, marked⟩ := follows.runs.pull_cons
  refine ⟨{ stream with progress := progress }, { world with channel := state }, ?_, ?_⟩
  · simp only [QueryStream.next, follows.waiting, Bool.false_eq_true, if_false, pulled]
  · rw [marked]
    exact close_eq_closing follows.waiting

end QueryStream

namespace Cursor

variable {cursor : Cursor} {request : Request} {world : World State}
  {course later : Course Value (Option Handle × State)}

/-- A cursor is given a stream in a state of the channel, and the stream takes a course. -/
inductive Unfolds (cursor : Cursor) (store : Store State) (before : State)
    (course : Course Value (Option Handle × State)) : Prop where
  | intro {plan : Plan} {handle : Option Handle} {state : State} : cursor.explain = .ok plan →
      store.registry.contains plan.entity = true →
      plan.opening store before = (.ok handle, state) → plan.Unfolds store handle state course →
      Unfolds cursor store before course

theorem exists_unfolds {stream : QueryStream} {opened : World State}
    (obtained : cursor.stream store request world = (.ok stream, opened)) :
    ∃ course, cursor.Unfolds store world.channel course ∧ stream.Follows store course opened := by
  have obtains := cursor.obtains_stream store request world
  rw [obtained] at obtains
  cases obtains with
  | @shortCircuited plan explained contained remote =>
      have opens : plan.opening store world.channel = (.ok none, world.channel) := by
        simp only [Plan.opening, remote]
      obtain ⟨course, unfolds⟩ := plan.exists_unfolds store none world.channel
      exact ⟨course, .intro explained contained opens unfolds, .ofPlan unfolds⟩
  | @opened plan query handle state fields explained contained remote asked =>
      have opens : plan.opening store world.channel = (.ok (some handle), state) := by
        simp only [Plan.opening, remote, asked]
      obtain ⟨course, unfolds⟩ := plan.exists_unfolds store (some handle) state
      exact ⟨course, .intro explained contained opens unfolds, .ofPlan unfolds⟩

namespace Unfolds

theorem stream (unfolds : cursor.Unfolds store world.channel course) (request : Request) :
    ∃ stream opened, cursor.stream store request world = (.ok stream, opened) ∧
      stream.Follows store course opened := by
  obtain @⟨plan, handle, state, explained, contained, opens, planUnfolds⟩ := unfolds
  simp only [Cursor.stream, streamBy, explained, contained, if_true, QueryStream.openPlan]
  cases remote : plan.remote with
  | none =>
      simp only [Plan.opening, remote] at opens
      cases opens
      exact ⟨_, _, rfl, .ofPlan planUnfolds⟩
  | some query =>
      simp only [Plan.opening, remote] at opens
      rcases asked : store.channel.openQuery query world.channel with ⟨failure | given, after⟩
      · rw [asked] at opens
        cases opens
      · rw [asked] at opens
        cases opens
        simp only [World.channel_log, asked]
        exact ⟨_, _, rfl, .ofPlan planUnfolds⟩

/-- The longer cursor opens the same query. -/
theorem extend {before : State} (unfolds : cursor.Unfolds store before course) {operator : Operator}
    (kept : ¬ operator.Sendable) (noScan : operator.isScan = false) :
    (cursor.extend operator).Unfolds store before (course.after operator) := by
  obtain ⟨explained, contained, opens, planUnfolds⟩ := unfolds
  exact .intro (explain_extend explained kept noScan) contained opens (planUnfolds.extend operator)

end Unfolds

/-! Terminals. -/

theorem consumed_of_iterate {Result Kept : Type} {terminal : String} {result : Result} {kept : Kept}
    {consume : Kept → QueryStream → World State →
      Outcome Result × Kept × QueryStream × World State}
    (given : (cursor.iterate store request terminal consume kept world).1 = .ok result) :
    ∃ journal stream opened after worldAfter,
      cursor.stream store request { world with journal := journal } = (.ok stream, opened) ∧
      consume kept stream opened =
        (.ok result, (cursor.iterate store request terminal consume kept world).2.1, after,
          worldAfter) ∧
      (after.close store worldAfter).1 = .ok () := by
  simp only [iterate, iterateBy, streamBy_explain] at given ⊢
  generalize Scope.enter _ _ _ = scope at given ⊢
  rcases obtained : cursor.stream store request { world with journal := scope.2 } with
    ⟨failure | stream, opened⟩
  · rw [obtained] at given
    cases given
  · rw [obtained] at given
    rcases consumed : consume kept stream opened with ⟨outcome, final, after, worldAfter⟩
    simp only [consumed] at given
    obtain rfl := ok_of_finish given
    refine ⟨scope.2, stream, opened, after, worldAfter, obtained, ?_, closes_of_finish given⟩
    simp only [consumed]

/-- The elements that were gathered are the answer of a course, after which closing succeeds. -/
theorem unfolds_of_toArray {elements : List Value}
    (answered : (cursor.toArray store request world).1 = .ok elements) :
    ∃ course, cursor.Unfolds store world.channel course ∧ course.answer = .ok elements ∧
      store.closing course.finish = .ok () := by
  rcases iterated : cursor.iterate store request "to_array" (QueryStream.visit store
    QueryStream.gather) [] world with ⟨outcome, gathered, ended⟩
  simp only [toArray, toArrayBy, iterateBy_explain, iterated] at answered
  obtain ⟨_, rfl, rfl⟩ := Outcome.map_eq_ok.mp answered
  obtain ⟨journal, stream, opened, after, worldAfter, obtained, consumed, closes⟩ :=
    consumed_of_iterate (congrArg (·.1) iterated)
  obtain ⟨course, unfolds, follows⟩ := exists_unfolds obtained
  obtain ⟨afterVisit, worldVisit, visited, closing⟩ := follows.visit QueryStream.gather []
  rw [visited, iterated] at consumed
  simp only [Prod.mk.injEq] at consumed
  obtain ⟨succeeded, final, rfl, rfl⟩ := consumed
  refine ⟨course, unfolds, ?_, ?_⟩
  · rw [← course.answer_eq_visit_gather, succeeded, final]
    rfl
  · -- Gathering always goes on, so that the stream is left where the course ends.
    rw [← (course.visit_of_goingOn QueryStream.gather (fun _ _ => rfl) []).2.2, ← closing]
    exact closes

theorem Unfolds.first {value : Value} {mark : Option Handle × State}
    (unfolds : cursor.Unfolds store world.channel (.cons mark value later))
    (closes : store.closing later.start = .ok ()) (request : Request) :
    (cursor.first store request world).1 = .ok (some value) := by
  let consume : Unit → QueryStream → World State →
      Outcome (Option Value) × Unit × QueryStream × World State := fun _ stream opened =>
    ((stream.next store opened).1, (), (stream.next store opened).2)
  have consumes : ∀ journal, ∃ stream opened after worldAfter,
      cursor.stream store request { world with journal := journal } = (.ok stream, opened) ∧
      consume () stream opened = (.ok (some value), (), after, worldAfter) ∧
      (after.close store worldAfter).1 = .ok () := by
    intro journal
    have logged : cursor.Unfolds store ({ world with journal := journal } : World State).channel
        (.cons mark value later) := unfolds
    obtain ⟨stream, opened, obtained, follows⟩ := logged.stream request
    obtain ⟨after, worldAfter, delivered, closing⟩ := follows.next
    exact ⟨stream, opened, after, worldAfter, obtained, by simp only [consume, delivered],
      closing.trans closes⟩
  obtain ⟨after, iterated⟩ := cursor.iterateBy_of_consumed "first" consumes
  exact congrArg (·.1) iterated

end Cursor

end EntityCursor
