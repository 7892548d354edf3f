import EntityCursor.Proofs.Channel.TableEngine

/-!
Clients of the table engine that share it. They call the engine in any order, and every call with
its answer is an event. What a client gets for its own query is told by the rows of the query when
it was opened and by the number of rows the client has got since; what happens to other queries and
to the tables meanwhile makes no difference. Two invariants carry the proof: one says which handles
are open after a history, the other what is still to come for one of them.
-/

namespace EntityCursor

namespace TableEngine

inductive Operation where
  | openQuery (query : Query)
  | next (handle : Handle)
  | close (handle : Handle)
  | insert (entity : String) (documents : List Json)

/-- What a client asked for and was answered. -/
inductive Event where
  | opened (query : Query) (answer : Except ChannelError Handle)
  | fetched (handle : Handle) (answer : Except ChannelError (Option Row))
  | closed (handle : Handle) (answer : Except ChannelError Unit)
  | inserted (entity : String) (documents : List Json)

namespace Event

def given? : Event → Option Handle
  | .opened _ (.ok handle) => some handle
  | _ => none

def released? : Event → Option Handle
  | .closed handle (.ok ()) => some handle
  | _ => none

def delivered? (handle : Handle) : Event → Option Row
  | .fetched other (.ok (some row)) => if other = handle then some row else none
  | _ => none

def isDelivery : Event → Bool
  | .fetched _ (.ok (some _)) => true
  | _ => false

end Event

def given (history : List Event) : List Handle := history.filterMap Event.given?

def released (history : List Event) : List Handle := history.filterMap Event.released?

def deliveries (handle : Handle) (history : List Event) : List Row :=
  history.filterMap (Event.delivered? handle)

def perform (engine : TableEngine) : Operation → Event × TableEngine
  | .openQuery query =>
      let (answer, engine) := openQuery query engine
      (.opened query answer, engine)
  | .next handle =>
      let (answer, engine) := next handle engine
      (.fetched handle answer, engine)
  | .close handle =>
      let (answer, engine) := close handle engine
      (.closed handle answer, engine)
  | .insert entity documents => (.inserted entity documents, engine.insert entity documents)

def run (engine : TableEngine) : List Operation → List Event × TableEngine
  | [] => ([], engine)
  | operation :: rest =>
      let (event, engine) := engine.perform operation
      let (later, engine) := engine.run rest
      (event :: later, engine)

theorem perform_of_run {engine : TableEngine} {operations : List Operation}
    {before later : List Event} {event : Event}
    (history : (engine.run operations).1 = before ++ event :: later) :
    ∃ front operation, (engine.run front).1 = before ∧
      ((engine.run front).2.perform operation).1 = event := by
  induction operations generalizing engine before with
  | nil => simp [run] at history
  | cons operation rest inductionHypothesis =>
      cases before with
      | nil =>
          refine ⟨[], operation, rfl, ?_⟩
          exact (List.cons.inj history).1
      | cons first others =>
          obtain ⟨same, continues⟩ := List.cons.inj history
          obtain ⟨front, last, led, answered⟩ := inductionHypothesis continues
          refine ⟨operation :: front, last, ?_, answered⟩
          rw [← same, ← led]
          rfl

/-! The handles of open queries. -/

def handles (engine : TableEngine) : List Handle := engine.openQueries.map Prod.fst

theorem find?_isSome_iff {handle : Handle} {queries : List (Handle × OpenQuery)} :
    (find? handle queries).isSome ↔ handle ∈ queries.map Prod.fst := by
  induction queries with
  | nil => simp [find?]
  | cons pair rest inductionHypothesis =>
      obtain ⟨key, query⟩ := pair
      by_cases same : key = handle
      · simp [find?, same]
      · simp [find?, same, inductionHypothesis, Ne.symm same]

theorem find?_eq_none_iff {handle : Handle} {queries : List (Handle × OpenQuery)} :
    find? handle queries = none ↔ handle ∉ queries.map Prod.fst := by
  rw [← find?_isSome_iff]
  cases find? handle queries <;> simp

@[simp]
theorem map_fst_replace (handle : Handle) (query : OpenQuery)
    (queries : List (Handle × OpenQuery)) :
    (replace handle query queries).map Prod.fst = queries.map Prod.fst := by
  induction queries with
  | nil => rfl
  | cons pair rest inductionHypothesis =>
      rw [replace]
      split
      · rfl
      · rw [List.map_cons, inductionHypothesis, List.map_cons]

@[simp]
theorem map_fst_remove (handle : Handle) (queries : List (Handle × OpenQuery)) :
    (remove handle queries).map Prod.fst = (queries.map Prod.fst).erase handle := by
  induction queries with
  | nil => rfl
  | cons pair rest inductionHypothesis =>
      obtain ⟨key, query⟩ := pair
      by_cases same : key = handle
      · simp [remove, same]
      · simp [remove, same, inductionHypothesis]

theorem find?_replace_of_ne {handle other : Handle} (different : other ≠ handle)
    (query : OpenQuery) (queries : List (Handle × OpenQuery)) :
    find? other (replace handle query queries) = find? other queries := by
  induction queries with
  | nil => rfl
  | cons pair rest inductionHypothesis =>
      obtain ⟨key, old⟩ := pair
      by_cases same : key = handle
      · subst same
        simp [replace, find?, Ne.symm different]
      · simp [replace, find?, same, inductionHypothesis]

theorem find?_remove_of_ne {handle other : Handle} (different : other ≠ handle)
    (queries : List (Handle × OpenQuery)) :
    find? other (remove handle queries) = find? other queries := by
  induction queries with
  | nil => rfl
  | cons pair rest inductionHypothesis =>
      obtain ⟨key, old⟩ := pair
      by_cases same : key = handle
      · subst same
        simp [remove, find?, Ne.symm different]
      · simp [remove, find?, same, inductionHypothesis]

theorem find?_append_of_ne {handle other : Handle} (different : other ≠ handle)
    (query : OpenQuery) (queries : List (Handle × OpenQuery)) :
    find? other (queries ++ [(handle, query)]) = find? other queries := by
  induction queries with
  | nil => simp [find?, Ne.symm different]
  | cons pair rest inductionHypothesis =>
      rw [List.cons_append, find?, find?, inductionHypothesis]

/-! What a single call does. -/

theorem openQuery_cases (query : Query) (engine : TableEngine) :
    (∃ failure, execute engine.tables query = .error failure ∧
      openQuery query engine = (.error failure, engine)) ∨
    ∃ rows, execute engine.tables query = .ok rows ∧
      openQuery query engine = (.ok ⟨engine.lastHandle + 1⟩, { engine with
        openQueries := engine.openQueries ++ [(⟨engine.lastHandle + 1⟩, ⟨rows, 0⟩)]
        lastHandle := engine.lastHandle + 1
        opens := engine.opens + 1
        received := engine.received ++ [query] }) := by
  cases executed : execute engine.tables query with
  | error failure => exact .inl ⟨failure, rfl, by rw [openQuery, executed]⟩
  | ok rows => exact .inr ⟨rows, rfl, by rw [openQuery, executed]⟩

theorem next_cases (handle : Handle) (engine : TableEngine) :
    (handle ∉ engine.handles ∧
      next handle engine = (.error (.unknownHandle handle.number), engine)) ∨
    ∃ rows served, find? handle engine.openQueries = some ⟨rows, served⟩ ∧
      ((engine.failAfter = some served ∧
          next handle engine = (.error (injectedFailure served), engine)) ∨
        engine.failAfter ≠ some served ∧
          ((rows = [] ∧ next handle engine = (.ok none, engine)) ∨
            ∃ row rest, rows = row :: rest ∧
              next handle engine = (.ok (some row), { engine with
                openQueries := replace handle ⟨rest, served + 1⟩ engine.openQueries
                rowsServed := engine.rowsServed + 1 }))) := by
  cases found : find? handle engine.openQueries with
  | none => exact .inl ⟨find?_eq_none_iff.mp found, by rw [next, found]⟩
  | some query =>
      obtain ⟨rows, served⟩ := query
      refine .inr ⟨rows, served, rfl, ?_⟩
      by_cases limited : engine.failAfter = some served
      · exact .inl ⟨limited, by simp only [next, found, limited, if_true]⟩
      · refine .inr ⟨limited, ?_⟩
        cases rows with
        | nil => exact .inl ⟨rfl, by simp only [next, found, limited, if_false]⟩
        | cons row rest =>
            exact .inr ⟨row, rest, rfl, by simp only [next, found, limited, if_false]⟩

theorem close_cases (handle : Handle) (engine : TableEngine) :
    (handle ∉ engine.handles ∧
      close handle engine = (.error (.unknownHandle handle.number), engine)) ∨
    (handle ∈ engine.handles ∧
      close handle engine = (.ok (), { engine with
        openQueries := remove handle engine.openQueries
        closes := engine.closes + 1 })) := by
  cases found : find? handle engine.openQueries with
  | none => exact .inl ⟨find?_eq_none_iff.mp found, by rw [close, found]⟩
  | some query =>
      have held : handle ∈ engine.handles := by
        apply find?_isSome_iff.mp
        rw [found]
        rfl
      exact .inr ⟨held, by rw [close, found]⟩

@[simp]
theorem failAfter_perform (engine : TableEngine) (operation : Operation) :
    (engine.perform operation).2.failAfter = engine.failAfter := by
  cases operation with
  | openQuery query =>
      rcases openQuery_cases query engine with ⟨_, _, opened⟩ | ⟨_, _, opened⟩
      all_goals
        simp only [perform, opened]
  | next handle =>
      rcases next_cases handle engine with
        ⟨_, fetched⟩ | ⟨_, _, _, ⟨_, fetched⟩ | ⟨_, ⟨_, fetched⟩ | ⟨_, _, _, fetched⟩⟩⟩
      all_goals
        simp only [perform, fetched]
  | close handle =>
      rcases close_cases handle engine with ⟨_, closed⟩ | ⟨_, closed⟩
      all_goals
        simp only [perform, closed]
  | insert entity documents => rfl

@[simp]
theorem failAfter_run (engine : TableEngine) (operations : List Operation) :
    (engine.run operations).2.failAfter = engine.failAfter := by
  induction operations generalizing engine with
  | nil => rfl
  | cons operation rest inductionHypothesis =>
      exact (inductionHypothesis (engine.perform operation).2).trans
        (failAfter_perform engine operation)

/-! The whole engine. -/

structure Balanced (history : List Event) (engine : TableEngine) : Prop where
  given_le : ∀ handle ∈ given history, handle.number ≤ engine.lastHandle
  distinct : engine.handles.Nodup
  mem_handles : ∀ handle,
    handle ∈ engine.handles ↔ handle ∈ given history ∧ handle ∉ released history
  released_given : ∀ handle ∈ released history, handle ∈ given history
  opens_eq : engine.opens = engine.closes + engine.handles.length
  rowsServed_eq : engine.rowsServed = history.countP Event.isDelivery

namespace Balanced

variable {history : List Event} {engine : TableEngine}

/-- An event that gives out and takes back no handle leaves the handles as they are. -/
theorem steady (balanced : Balanced history engine) {event : Event} {after : TableEngine}
    (noGiven : event.given? = none) (noReleased : event.released? = none)
    (sameNumber : after.lastHandle = engine.lastHandle)
    (sameHandles : after.handles = engine.handles) (sameOpens : after.opens = engine.opens)
    (sameCloses : after.closes = engine.closes)
    (counted : after.rowsServed = engine.rowsServed + [event].countP Event.isDelivery) :
    Balanced (history ++ [event]) after := by
  have sameGiven : given (history ++ [event]) = given history := by simp [given, noGiven]
  have sameReleased : released (history ++ [event]) = released history := by
    simp [released, noReleased]
  constructor
  · rw [sameGiven, sameNumber]
    exact balanced.given_le
  · rw [sameHandles]
    exact balanced.distinct
  · rw [sameHandles, sameGiven, sameReleased]
    exact balanced.mem_handles
  · rw [sameGiven, sameReleased]
    exact balanced.released_given
  · rw [sameOpens, sameCloses, sameHandles]
    exact balanced.opens_eq
  · rw [List.countP_append, counted, balanced.rowsServed_eq]

theorem fresh (balanced : Balanced history engine) :
    (⟨engine.lastHandle + 1⟩ : Handle) ∉ given history := by
  intro member
  have known := balanced.given_le _ member
  exact Nat.not_succ_le_self _ known

theorem openQuery (balanced : Balanced history engine) (query : Query) :
    Balanced (history ++ [(engine.perform (.openQuery query)).1])
      (engine.perform (.openQuery query)).2 := by
  rcases openQuery_cases query engine with ⟨failure, _, opened⟩ | ⟨rows, _, opened⟩
  · simp only [perform, opened]
    exact balanced.steady rfl rfl rfl rfl rfl rfl rfl
  · have moreHandles : (TableEngine.openQuery query engine).2.handles =
        engine.handles ++ [⟨engine.lastHandle + 1⟩] := by simp [opened, handles]
    simp only [perform, opened] at moreHandles ⊢
    have newGiven : given (history ++ [.opened query (.ok ⟨engine.lastHandle + 1⟩)]) =
        given history ++ [⟨engine.lastHandle + 1⟩] := by simp [given, Event.given?]
    have sameReleased : released (history ++ [.opened query (.ok ⟨engine.lastHandle + 1⟩)]) =
        released history := by simp [released, Event.released?]
    have notHeld : (⟨engine.lastHandle + 1⟩ : Handle) ∉ engine.handles :=
      fun held => balanced.fresh ((balanced.mem_handles _).mp held).1
    have notReleased : (⟨engine.lastHandle + 1⟩ : Handle) ∉ released history :=
      fun known => balanced.fresh (balanced.released_given _ known)
    constructor
    · intro handle member
      rw [newGiven] at member
      rcases List.mem_append.mp member with old | new
      · exact Nat.le_succ_of_le (balanced.given_le handle old)
      · obtain rfl := List.mem_singleton.mp new
        exact Nat.le_refl _
    · rw [moreHandles]
      apply List.nodup_append.mpr
      refine ⟨balanced.distinct, by simp, ?_⟩
      rintro handle held other new rfl
      rw [List.mem_singleton.mp new] at held
      exact notHeld held
    · intro handle
      rw [moreHandles, newGiven, sameReleased, List.mem_append, List.mem_append,
        List.mem_singleton, balanced.mem_handles handle]
      constructor
      · rintro (⟨member, kept⟩ | rfl)
        · exact ⟨.inl member, kept⟩
        · exact ⟨.inr rfl, notReleased⟩
      · rintro ⟨member | rfl, kept⟩
        · exact .inl ⟨member, kept⟩
        · exact .inr rfl
    · intro handle member
      rw [sameReleased] at member
      rw [newGiven]
      exact List.mem_append_left _ (balanced.released_given handle member)
    · have opens := balanced.opens_eq
      rw [moreHandles, List.length_append, List.length_singleton]
      dsimp only
      omega
    · rw [List.countP_append]
      exact balanced.rowsServed_eq

theorem next (balanced : Balanced history engine) (handle : Handle) :
    Balanced (history ++ [(engine.perform (.next handle)).1])
      (engine.perform (.next handle)).2 := by
  rcases next_cases handle engine with
    ⟨_, fetched⟩ | ⟨rows, served, _, ⟨_, fetched⟩ | ⟨_, ⟨_, fetched⟩ | ⟨row, rest, _, fetched⟩⟩⟩
  · simp only [perform, fetched]
    exact balanced.steady rfl rfl rfl rfl rfl rfl rfl
  · simp only [perform, fetched]
    exact balanced.steady rfl rfl rfl rfl rfl rfl rfl
  · simp only [perform, fetched]
    exact balanced.steady rfl rfl rfl rfl rfl rfl rfl
  · simp only [perform, fetched]
    exact balanced.steady rfl rfl rfl (map_fst_replace _ _ _) rfl rfl rfl

theorem close (balanced : Balanced history engine) (handle : Handle) :
    Balanced (history ++ [(engine.perform (.close handle)).1])
      (engine.perform (.close handle)).2 := by
  rcases close_cases handle engine with ⟨_, closed⟩ | ⟨held, closed⟩
  · simp only [perform, closed]
    exact balanced.steady rfl rfl rfl rfl rfl rfl rfl
  · have fewerHandles : (TableEngine.close handle engine).2.handles =
        engine.handles.erase handle := by
      rw [closed]
      exact map_fst_remove handle engine.openQueries
    simp only [perform, closed] at fewerHandles ⊢
    have sameGiven : given (history ++ [.closed handle (.ok ())]) = given history := by
      simp [given, Event.given?]
    have newReleased :
        released (history ++ [.closed handle (.ok ())]) = released history ++ [handle] := by
      simp [released, Event.released?]
    constructor
    · rw [sameGiven]
      exact balanced.given_le
    · rw [fewerHandles]
      exact balanced.distinct.erase handle
    · intro other
      rw [fewerHandles, sameGiven, newReleased, balanced.distinct.mem_erase_iff,
        balanced.mem_handles other, List.mem_append, List.mem_singleton]
      grind
    · intro other member
      rw [newReleased] at member
      rw [sameGiven]
      rcases List.mem_append.mp member with old | new
      · exact balanced.released_given other old
      · rw [List.mem_singleton.mp new]
        exact ((balanced.mem_handles handle).mp held).1
    · have opens := balanced.opens_eq
      have some := List.length_pos_of_mem held
      rw [fewerHandles, List.length_erase_of_mem held]
      dsimp only
      omega
    · rw [List.countP_append]
      exact balanced.rowsServed_eq

theorem perform (balanced : Balanced history engine) (operation : Operation) :
    Balanced (history ++ [(engine.perform operation).1]) (engine.perform operation).2 := by
  cases operation with
  | openQuery query => exact balanced.openQuery query
  | next handle => exact balanced.next handle
  | close handle => exact balanced.close handle
  | insert entity documents => exact balanced.steady rfl rfl rfl rfl rfl rfl rfl

theorem run (balanced : Balanced history engine) (operations : List Operation) :
    Balanced (history ++ (engine.run operations).1) (engine.run operations).2 := by
  induction operations generalizing history engine with
  | nil =>
      rw [TableEngine.run, List.append_nil]
      exact balanced
  | cons operation rest inductionHypothesis =>
      have later := inductionHypothesis (balanced.perform operation)
      rw [List.append_assoc] at later
      exact later

theorem of_run (limit : Option Nat) (operations : List Operation) :
    Balanced (TableEngine.run { failAfter := limit } operations).1
      (TableEngine.run { failAfter := limit } operations).2 := by
  have start : Balanced [] { failAfter := limit } := by
    constructor <;> simp [given, released, handles]
  exact start.run operations

theorem refuses (balanced : Balanced history engine) {handle : Handle}
    (notOpen : handle ∉ given history ∨ handle ∈ released history) :
    TableEngine.next handle engine = (.error (.unknownHandle handle.number), engine) ∧
      TableEngine.close handle engine = (.error (.unknownHandle handle.number), engine) := by
  have unknown : handle ∉ engine.handles := by
    rw [balanced.mem_handles]
    rintro ⟨isGiven, kept⟩
    rcases notOpen with never | closed
    · exact never isGiven
    · exact kept closed
  have missing := find?_eq_none_iff.mpr unknown
  exact ⟨by rw [TableEngine.next, missing], by rw [TableEngine.close, missing]⟩

end Balanced

/-! One query. -/

/-- How the calls after its opening treat a query with the given result, where the engine fails once
a query has delivered a given number of rows. -/
structure HandsOut (limit : Option Nat) (handle : Handle) (result : List Row)
    (history : List Event) : Prop where
  /-- The rows come in order, none of them twice. -/
  inOrder : deliveries handle history <+: result
  /-- The end is told only after all of them. -/
  complete : ∀ before later, history = before ++ .fetched handle (.ok none) :: later →
    deliveries handle before = result
  /-- Where the result reaches the limit, its rows come up to the limit, and from then on fetching
  fails until the query is closed. -/
  limited : ∀ count, limit = some count → count ≤ result.length →
    ∀ before answer later, history = before ++ .fetched handle answer :: later →
      handle ∉ released before →
        (deliveries handle before).length < count ∧
            answer = .ok result[(deliveries handle before).length]? ∨
          deliveries handle before = result.take count ∧ answer = .error (injectedFailure count)
  /-- A result that does not reach the limit is delivered as if there were none. -/
  unlimited : (∀ count, limit = some count → result.length < count) →
    ∀ before answer later, history = before ++ .fetched handle answer :: later →
      handle ∉ released before → answer = .ok result[(deliveries handle before).length]?

/-- What is still to come for a query, after the calls since its opening. -/
structure Standing (limit : Option Nat) (handle : Handle) (result : List Row)
    (history : List Event) (engine : TableEngine) : Prop where
  failAfter_eq : engine.failAfter = limit
  known : handle.number ≤ engine.lastHandle
  inOrder : deliveries handle history = result.take (deliveries handle history).length
  within : ∀ count, limit = some count → count ≤ result.length →
    (deliveries handle history).length ≤ count
  held : handle ∉ released history → find? handle engine.openQueries =
    some ⟨result.drop (deliveries handle history).length, (deliveries handle history).length⟩
  gone : handle ∈ released history → find? handle engine.openQueries = none

namespace Standing

variable {limit : Option Nat} {handle : Handle} {result : List Row} {history : List Event}
  {engine : TableEngine}

theorem next_eq (standing : Standing limit handle result history engine)
    (waiting : handle ∉ released history) :
    (next handle engine).1 =
      if limit = some (deliveries handle history).length then
        .error (injectedFailure (deliveries handle history).length)
      else .ok result[(deliveries handle history).length]? := by
  have found := standing.held waiting
  rcases next_cases handle engine with ⟨unknown, _⟩ | ⟨rows, served, other, answer⟩
  · rw [find?_eq_none_iff.mpr unknown] at found
    cases found
  · cases Option.some.inj (found.symm.trans other)
    rw [← List.head?_drop]
    rcases answer with ⟨reached, answer⟩ | ⟨below, ⟨none, answer⟩ | ⟨row, rest, some, answer⟩⟩
    · rw [answer, if_pos (standing.failAfter_eq.symm.trans reached)]
    · rw [answer, if_neg (standing.failAfter_eq ▸ below), none]
      rfl
    · rw [answer, if_neg (standing.failAfter_eq ▸ below), some]
      rfl

/-- What happens to other queries and to the tables makes no difference. -/
theorem elsewhere (standing : Standing limit handle result history engine) {event : Event}
    {after : TableEngine} (noDelivery : event.delivered? handle = none)
    (kept : event.released? ≠ some handle) (sameLimit : after.failAfter = engine.failAfter)
    (later : engine.lastHandle ≤ after.lastHandle)
    (sameQuery : find? handle after.openQueries = find? handle engine.openQueries) :
    Standing limit handle result (history ++ [event]) after := by
  have sameDeliveries : deliveries handle (history ++ [event]) = deliveries handle history := by
    simp [deliveries, noDelivery]
  have sameReleased : handle ∈ released (history ++ [event]) ↔ handle ∈ released history := by
    simp [released, kept]
  constructor
  · rw [sameLimit]
    exact standing.failAfter_eq
  · exact Nat.le_trans standing.known later
  · rw [sameDeliveries]
    exact standing.inOrder
  · rw [sameDeliveries]
    exact standing.within
  · rw [sameDeliveries, sameReleased, sameQuery]
    exact standing.held
  · rw [sameReleased, sameQuery]
    exact standing.gone

theorem openQuery (standing : Standing limit handle result history engine) (query : Query) :
    Standing limit handle result (history ++ [(engine.perform (.openQuery query)).1])
      (engine.perform (.openQuery query)).2 := by
  rcases openQuery_cases query engine with ⟨failure, _, opened⟩ | ⟨rows, _, opened⟩
  · simp only [perform, opened]
    exact standing.elsewhere rfl (by simp [Event.released?]) rfl (Nat.le_refl _) rfl
  · simp only [perform, opened]
    apply standing.elsewhere
    · rfl
    · simp [Event.released?]
    · rfl
    · exact Nat.le_succ _
    · apply find?_append_of_ne
      rintro rfl
      exact Nat.not_succ_le_self _ standing.known

theorem delivered (standing : Standing limit handle result history engine) {row : Row}
    {rest : List Row} {served : Nat}
    (found : find? handle engine.openQueries = some ⟨row :: rest, served⟩)
    (below : engine.failAfter ≠ some served) {after : TableEngine}
    (sameLimit : after.failAfter = engine.failAfter)
    (sameNumber : after.lastHandle = engine.lastHandle)
    (moved : find? handle after.openQueries = some ⟨rest, served + 1⟩) :
    Standing limit handle result (history ++ [.fetched handle (.ok (some row))]) after := by
  have waiting : handle ∉ released history := by
    intro closed
    rw [standing.gone closed] at found
    cases found
  have queryEq := Option.some.inj ((standing.held waiting).symm.trans found)
  obtain ⟨dropped, count⟩ := OpenQuery.mk.inj queryEq
  have more : deliveries handle (history ++ [.fetched handle (.ok (some row))]) =
      deliveries handle history ++ [row] := by
    simp [deliveries, Event.delivered?]
  have sameReleased : released (history ++ [.fetched handle (.ok (some row))]) =
      released history := by
    simp [released, Event.released?]
  have next : result[(deliveries handle history).length]? = some row := by
    rw [← List.head?_drop, dropped]
    rfl
  constructor
  · rw [sameLimit]
    exact standing.failAfter_eq
  · rw [sameNumber]
    exact standing.known
  · rw [more, List.length_append, List.length_singleton, List.take_add_one, next,
      ← standing.inOrder]
    rfl
  · intro limitCount isLimit reaches
    have upTo := standing.within limitCount isLimit reaches
    have notYet : (deliveries handle history).length ≠ limitCount := by
      rintro rfl
      apply below
      rw [standing.failAfter_eq, isLimit, count]
    rw [more, List.length_append, List.length_singleton]
    omega
  · intro _
    rw [moved, more, List.length_append, List.length_singleton, ← List.tail_drop, dropped, count]
    rfl
  · intro closed
    rw [sameReleased] at closed
    exact absurd closed waiting

theorem next (standing : Standing limit handle result history engine) (other : Handle) :
    Standing limit handle result (history ++ [(engine.perform (.next other)).1])
      (engine.perform (.next other)).2 := by
  rcases next_cases other engine with
    ⟨_, fetched⟩ | ⟨rows, served, found,
      ⟨_, fetched⟩ | ⟨below, ⟨_, fetched⟩ | ⟨row, rest, rfl, fetched⟩⟩⟩
  · simp only [perform, fetched]
    exact standing.elsewhere rfl (by simp [Event.released?]) rfl (Nat.le_refl _) rfl
  · simp only [perform, fetched]
    exact standing.elsewhere rfl (by simp [Event.released?]) rfl (Nat.le_refl _) rfl
  · simp only [perform, fetched]
    exact standing.elsewhere rfl (by simp [Event.released?]) rfl (Nat.le_refl _) rfl
  · simp only [perform, fetched]
    by_cases same : other = handle
    · subst same
      exact standing.delivered found below rfl rfl (find?_replace_self found)
    · apply standing.elsewhere
      · simp [Event.delivered?, same]
      · simp [Event.released?]
      · rfl
      · exact Nat.le_refl _
      · exact find?_replace_of_ne (Ne.symm same) _ _

theorem close (standing : Standing limit handle result history engine)
    (distinct : engine.handles.Nodup) (other : Handle) :
    Standing limit handle result (history ++ [(engine.perform (.close other)).1])
      (engine.perform (.close other)).2 := by
  rcases close_cases other engine with ⟨_, closed⟩ | ⟨held, closed⟩
  · simp only [perform, closed]
    exact standing.elsewhere rfl (by simp [Event.released?]) rfl (Nat.le_refl _) rfl
  · simp only [perform, closed]
    by_cases same : other = handle
    · subst same
      have sameDeliveries : deliveries other (history ++ [.closed other (.ok ())]) =
          deliveries other history := by
        simp [deliveries, Event.delivered?]
      have nowReleased : other ∈ released (history ++ [.closed other (.ok ())]) := by
        simp [released, Event.released?]
      constructor
      · exact standing.failAfter_eq
      · exact standing.known
      · rw [sameDeliveries]
        exact standing.inOrder
      · rw [sameDeliveries]
        exact standing.within
      · intro waiting
        exact absurd nowReleased waiting
      · intro _
        rw [find?_eq_none_iff, map_fst_remove]
        exact distinct.not_mem_erase
    · apply standing.elsewhere
      · rfl
      · simp [Event.released?, same]
      · rfl
      · exact Nat.le_refl _
      · exact find?_remove_of_ne (Ne.symm same) _

theorem perform (standing : Standing limit handle result history engine)
    (distinct : engine.handles.Nodup) (operation : Operation) :
    Standing limit handle result (history ++ [(engine.perform operation).1])
      (engine.perform operation).2 := by
  cases operation with
  | openQuery query => exact standing.openQuery query
  | next other => exact standing.next other
  | close other => exact standing.close distinct other
  | insert entity documents =>
      exact standing.elsewhere rfl (by simp [TableEngine.perform, Event.released?]) rfl
        (Nat.le_refl _) rfl

theorem run (standing : Standing limit handle result history engine) {whole : List Event}
    (balanced : Balanced whole engine) (operations : List Operation) :
    Standing limit handle result (history ++ (engine.run operations).1)
      (engine.run operations).2 := by
  induction operations generalizing history whole engine with
  | nil =>
      rw [TableEngine.run, List.append_nil]
      exact standing
  | cons operation rest inductionHypothesis =>
      have later := inductionHypothesis (standing.perform balanced.distinct operation)
        (balanced.perform operation)
      rw [List.append_assoc] at later
      exact later

/-- A fetch in a run is answered by what the query stands at. -/
theorem answer_of_run (standing : Standing limit handle result [] engine) {whole : List Event}
    (balanced : Balanced whole engine) {operations : List Operation} {before later : List Event}
    {answer : Except ChannelError (Option Row)}
    (history : (engine.run operations).1 = before ++ .fetched handle answer :: later) :
    ∃ reached, Standing limit handle result before reached ∧
      answer = (TableEngine.next handle reached).1 := by
  obtain ⟨front, operation, led, answered⟩ := perform_of_run history
  have reached := standing.run balanced front
  rw [led] at reached
  refine ⟨_, reached, ?_⟩
  cases operation with
  | openQuery query => cases answered
  | close other => cases answered
  | insert entity documents => cases answered
  | next other =>
      cases answered
      rfl

theorem handsOut (standing : Standing limit handle result [] engine) {whole : List Event}
    (balanced : Balanced whole engine) (operations : List Operation) :
    HandsOut limit handle result (engine.run operations).1 := by
  constructor
  · have final := standing.run balanced operations
    rw [List.nil_append] at final
    rw [final.inOrder]
    exact List.take_prefix _ _
  · intro before later history
    obtain ⟨reached, stands, answered⟩ := standing.answer_of_run balanced history
    have waiting : handle ∉ released before := by
      intro closed
      rw [TableEngine.next, stands.gone closed] at answered
      cases answered
    rw [stands.next_eq waiting] at answered
    split at answered
    · cases answered
    · rw [stands.inOrder]
      apply List.take_of_length_le
      exact List.getElem?_eq_none_iff.mp (Except.ok.inj answered).symm
  · intro count isLimit reaches before answer later history waiting
    obtain ⟨reached, stands, answered⟩ := standing.answer_of_run balanced history
    have upTo := stands.within count isLimit reaches
    rw [stands.next_eq waiting, isLimit] at answered
    by_cases full : (deliveries handle before).length = count
    · right
      rw [full, if_pos rfl] at answered
      refine ⟨?_, answered⟩
      rw [stands.inOrder, full]
    · left
      rw [if_neg (by simpa using Ne.symm full)] at answered
      exact ⟨Nat.lt_of_le_of_ne upTo full, answered⟩
  · intro above before answer later history waiting
    obtain ⟨reached, stands, answered⟩ := standing.answer_of_run balanced history
    rw [stands.next_eq waiting, if_neg] at answered
    · exact answered
    · intro isLimit
      have below := above _ isLimit
      have length := congrArg List.length stands.inOrder
      rw [List.length_take] at length
      omega

end Standing

theorem standing_opened {history : List Event} {engine : TableEngine}
    (balanced : Balanced history engine) {query : Query} {result : List Row}
    (executed : execute engine.tables query = .ok result) :
    Standing engine.failAfter ⟨engine.lastHandle + 1⟩ result [] (openQuery query engine).2 := by
  have found : find? ⟨engine.lastHandle + 1⟩ (openQuery query engine).2.openQueries =
      some ⟨result, 0⟩ := by
    rw [openQuery, executed]
    apply find?_append_fresh
    rintro entry member same
    apply balanced.fresh
    rw [← same]
    exact ((balanced.mem_handles entry.1).mp (List.mem_map_of_mem member)).1
  constructor
  · rw [openQuery, executed]
  · exact Nat.le_of_eq (by rw [openQuery, executed])
  · rfl
  · intro count _ _
    exact Nat.zero_le count
  · intro _
    exact found
  · intro closed
    cases closed

/-- Queries do not get into each other's way, however the calls of their clients follow one another:
no handle is given out twice, every query delivers the rows that it had when it was opened, what
fails changes nothing, and the counters fit what happened. -/
theorem isolates_queries (limit : Option Nat) (operations : List Operation) :
    let history := (run { failAfter := limit } operations).1
    let engine := (run { failAfter := limit } operations).2
    (engine.opens = engine.closes + engine.openQueries.length ∧
      engine.rowsServed = history.countP Event.isDelivery) ∧
    (∀ handle, handle ∉ given history ∨ handle ∈ released history →
      next handle engine = (.error (.unknownHandle handle.number), engine) ∧
      close handle engine = (.error (.unknownHandle handle.number), engine)) ∧
    (∀ handle ∈ given history, handle ∉ released history → (close handle engine).1 = .ok ()) ∧
    ∀ query,
      (∀ failure, execute engine.tables query = .error failure →
        openQuery query engine = (.error failure, engine)) ∧
      ∀ result, execute engine.tables query = .ok result →
        ∃ handle opened, openQuery query engine = (.ok handle, opened) ∧
          handle ∉ given history ∧
          ∀ later, HandsOut limit handle result (opened.run later).1 := by
  intro history engine
  have balanced : Balanced history engine := Balanced.of_run limit operations
  refine ⟨⟨?_, balanced.rowsServed_eq⟩, fun handle => balanced.refuses, ?_, ?_⟩
  · rw [← List.length_map (f := Prod.fst)]
    exact balanced.opens_eq
  · intro handle isGiven kept
    have held := (balanced.mem_handles handle).mpr ⟨isGiven, kept⟩
    exact close_of_held (find?_isSome_iff.mpr held)
  · intro query
    refine ⟨fun failure failed => by rw [openQuery, failed], ?_⟩
    intro result executed
    refine ⟨⟨engine.lastHandle + 1⟩, (openQuery query engine).2, by rw [openQuery, executed],
      balanced.fresh, ?_⟩
    intro later
    have standing := standing_opened balanced executed
    rw [failAfter_run] at standing
    exact standing.handsOut (balanced.openQuery query) later

/-- Two clients read one table in turns while it grows: the one that came later has the new row. -/
example : (run {} [.insert "Person" [.object [("id", .string "1")]],
      .openQuery (.scan "Person"), .insert "Person" [.object [("id", .string "2")]],
      .openQuery (.scan "Person"), .next ⟨2⟩, .next ⟨1⟩, .next ⟨1⟩, .next ⟨2⟩]).1.drop 4 =
    [.fetched ⟨2⟩ (.ok (some [("id", .string "1")])),
      .fetched ⟨1⟩ (.ok (some [("id", .string "1")])), .fetched ⟨1⟩ (.ok none),
      .fetched ⟨2⟩ (.ok (some [("id", .string "2")]))] := rfl

end TableEngine

end EntityCursor
