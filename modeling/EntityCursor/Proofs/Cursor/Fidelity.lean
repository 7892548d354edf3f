import EntityCursor.Proofs.Channel.Execution
import EntityCursor.Proofs.Cursor.Discipline
import EntityCursor.Proofs.Descriptor.Conformity
import EntityCursor.Proofs.Pipeline.Columns
import EntityCursor.Proofs.Pipeline.Delivery

/-!
The types of elements. What a cursor delivers has the columns that its chain is known to have, or is
an entity that conforms to its descriptor, wherever the chain is split and however its elements are
asked for. The rows of a query have the shape that the query document tells, and every operator in
the process takes the shape of one level to that of the next one.
-/

namespace EntityCursor

namespace Operator

/-- An operator that does not put values of its own in the place of elements. -/
def KeepsShape : Operator → Prop
  | .aggregate .. => False
  | .map _ => False
  | _ => True

theorem carries_isElement {registry : Registry} {entity : String} {operator : Operator}
    (keeps : operator.KeepsShape) (selected : Option (List String)) :
    operator.Carries (registry.IsElement entity selected)
      (registry.IsElement entity (operator.columnsAfter selected)) := by
  cases operator with
  | scan entity => trivial
  | aggregate field aggregation => exact keeps.elim
  | map transform => exact keeps.elim
  | project columns => exact fun element result _ projected => Value.hasNames_project projected
  | _ => exact fun element isElement => isElement

end Operator

/-- What elements are after operators, the one applied last in front. -/
def Registry.IsElementAfter (registry : Registry) (entity : String)
    (selected : Option (List String)) (operators : List Operator) : Value → Prop :=
  registry.IsElement entity (operators.foldr Operator.columnsAfter selected)

@[simp]
theorem Registry.isElementAfter_reverse (registry : Registry) (entity : String)
    (selected : Option (List String)) (operators : List Operator) :
    registry.IsElementAfter entity selected operators.reverse =
      registry.IsElement entity
        (operators.foldl (fun selected operator => operator.columnsAfter selected) selected) := by
  rw [IsElementAfter, List.foldr_reverse]

theorem Plan.suffix_of_afterLastEmptyTake? {operators later : List Operator}
    (search : afterLastEmptyTake? operators = some later) :
    ∃ front, operators = front ++ later := by
  induction operators with
  | nil => cases search
  | cons operator rest inductionHypothesis =>
      rw [afterLastEmptyTake?] at search
      split at search
      · next found =>
          cases search
          obtain ⟨front, rfl⟩ := inductionHypothesis found
          exact ⟨operator :: front, rfl⟩
      · split at search
        · cases search
          exact ⟨[operator], rfl⟩
        · cases search

variable {State : Type} {store : Store State}

theorem Store.yields_rows (store : Store State) (entity : String)
    (columns : Option (List String)) :
    (store.rows entity columns).Yields (fun _ => True)
      (store.registry.IsElement entity columns) := by
  intro handle state _
  refine ⟨trivial, ?_⟩
  intro value delivered
  cases handle with
  | none => cases delivered
  | some handle =>
      rcases fetched : store.channel.next handle state with ⟨failure | (_ | row), after⟩
      · simp [Store.rows, fetched] at delivered
      · simp [Store.rows, fetched] at delivered
      · simp only [Store.rows, fetched] at delivered
        cases read : store.registry.element entity row columns with
        | error failure =>
            rw [read] at delivered
            cases delivered
        | ok element =>
            rw [read] at delivered
            cases delivered
            exact Registry.isElement_of_element read

theorem Store.yields_no_rows (store : Store State) (entity : String)
    (columns : Option (List String)) (good : Value → Prop) :
    (store.rows entity columns).Yields (· = none) good := by
  rintro _ state rfl
  exact ⟨rfl, by simp [Store.rows]⟩

namespace QueryStream

variable {stream : QueryStream} {good : Value → Prop}

/-- From now on a stream delivers elements with a property only. -/
def Delivers (store : Store State) (good : Value → Prop) (stream : QueryStream) : Prop :=
  stream.closed = true ∨
    ∃ kept, (stream.elements store).Yields kept good ∧ kept stream.progress

theorem Delivers.next (delivers : stream.Delivers store good) (world : World State) :
    (stream.next store world).2.1.Delivers store good ∧
      ∀ element, (stream.next store world).1 = .ok (some element) → good element := by
  cases closed : stream.closed with
  | true =>
      simp only [QueryStream.next, closed, if_true]
      exact ⟨delivers, by simp⟩
  | false =>
      rcases delivers with isClosed | ⟨kept, yields, holds⟩
      · simp [closed] at isClosed
      · obtain ⟨keptAfter, delivered⟩ := yields stream.progress world.channel holds
        simp only [QueryStream.next, closed, Bool.false_eq_true, if_false]
        exact ⟨.inr ⟨kept, yields, keptAfter⟩, delivered⟩

theorem Delivers.visit {Result : Type} (delivers : stream.Delivers store good)
    {step : Result → Value → Outcome (Option Unit) × Result} (keeps : Result → Prop)
    (steps : ∀ result element, keeps result → good element → keeps (step result element).2)
    {result : Result} (start : keeps result) (world : World State) :
    keeps (stream.visit store step result world).2.1 := by
  cases closed : stream.closed with
  | true =>
      simp only [QueryStream.visit, closed, if_true]
      exact start
  | false =>
      rcases delivers with isClosed | ⟨kept, yields, holds⟩
      · simp [closed] at isClosed
      · have visited := yields.forEach keeps (fun _ => True)
          (fun result element kept isGood => ⟨steps result element kept isGood, fun _ _ => trivial⟩)
          start world.channel holds
        simp only [QueryStream.visit, closed, Bool.false_eq_true, if_false]
        exact visited.2.1

theorem Delivers.gathered (delivers : stream.Delivers store good) (world : World State) :
    ∀ element ∈ (stream.visit store gather [] world).2.1, good element := by
  apply delivers.visit (fun gathered => ∀ element ∈ gathered, good element)
  · intro gathered element allGood isGood
    exact List.forall_mem_cons.mpr ⟨isGood, allGood⟩
  · simp

theorem Delivers.drain (delivers : stream.Delivers store good) (world : World State) :
    ∀ element, .ok element ∈ (stream.drain store world).1 → good element := by
  have gathered := delivers.gathered world
  rcases visited : stream.visit store gather [] world with ⟨outcome, elements, after, worldAfter⟩
  rcases ended : after.close store worldAfter with ⟨closed, final, worldFinal⟩
  rw [visited] at gathered
  intro element item
  simp only [QueryStream.drain, visited, ended] at item
  -- Whatever fails, the items are the gathered elements and perhaps the failure.
  have present : element ∈ elements := by
    cases outcome <;> cases closed <;> simpa using item
  exact gathered element present

/-- The states of a stream in the hands of a caller, whatever happens in the world meanwhile. -/
inductive Reached (store : Store State) (stream : QueryStream) : QueryStream → Prop where
  | obtained : Reached store stream stream
  | next {later : QueryStream} (world : World State) :
      Reached store stream later → Reached store stream (later.next store world).2.1
  | close {later : QueryStream} (world : World State) :
      Reached store stream later → Reached store stream (later.close store world).2.1

theorem Delivers.reached {later : QueryStream} (delivers : stream.Delivers store good)
    (reached : stream.Reached store later) : later.Delivers store good := by
  induction reached with
  | obtained => exact delivers
  | next world _ inductionHypothesis => exact (inductionHypothesis.next world).1
  | close world _ _ => exact .inl (closed_close store _ world)

def noting {Kept : Type} (step : Kept → Value → Outcome (Option Unit) × Kept)
    (noted : List Value × Kept) (element : Value) : Outcome (Option Unit) × (List Value × Kept) :=
  let (outcome, kept) := step noted.2 element
  (outcome, (noted.1 ++ [element], kept))

theorem Delivers.noted {Kept : Type} (delivers : stream.Delivers store good)
    (step : Kept → Value → Outcome (Option Unit) × Kept) (kept : Kept) (world : World State) :
    ∀ element ∈ (stream.visit store (noting step) ([], kept) world).2.1.1, good element := by
  apply delivers.visit (fun noted : List Value × Kept => ∀ element ∈ noted.1, good element)
  · intro noted element allGood isGood
    exact List.forall_mem_append.mpr ⟨allGood, List.forall_mem_singleton.mpr isGood⟩
  · simp

end QueryStream

/-- Noting the elements changes nothing else. -/
theorem Puller.loop_noting {Base Kept Channel : Type} (puller : Puller Base Channel)
    (step : Kept → Value → Outcome (Option Unit) × Kept) (fuel : Nat) (handed : List Value)
    (kept : Kept) (state : Base) (channel : Channel) :
    ∃ all, puller.loop (QueryStream.noting step) fuel (handed, kept) state channel =
      ((puller.loop step fuel kept state channel).1,
        (all, (puller.loop step fuel kept state channel).2.1),
        (puller.loop step fuel kept state channel).2.2) := by
  induction fuel generalizing handed kept state channel with
  | zero => exact ⟨handed, rfl⟩
  | succ fuel inductionHypothesis =>
      rcases pulled : puller.pull state channel with ⟨failure | (_ | value), after, channelAfter⟩
      · simp only [loop, pulled]
        exact ⟨handed, rfl⟩
      · simp only [loop, pulled]
        exact ⟨handed, rfl⟩
      · rcases next : step kept value with ⟨failure | (_ | final), keptAfter⟩
        · simp only [loop, pulled, QueryStream.noting, next]
          exact ⟨_, rfl⟩
        · simp only [loop, pulled, QueryStream.noting, next]
          exact inductionHypothesis _ keptAfter after channelAfter
        · simp only [loop, pulled, QueryStream.noting, next]
          exact ⟨_, rfl⟩

theorem QueryStream.visit_noting {Kept : Type} (store : Store State) (stream : QueryStream)
    (step : Kept → Value → Outcome (Option Unit) × Kept) (handed : List Value) (kept : Kept)
    (world : World State) :
    ∃ all, stream.visit store (noting step) (handed, kept) world =
      ((stream.visit store step kept world).1, (all, (stream.visit store step kept world).2.1),
        (stream.visit store step kept world).2.2) := by
  cases closed : stream.closed with
  | true =>
      simp only [visit, closed, if_true]
      exact ⟨handed, rfl⟩
  | false =>
      obtain ⟨all, looped⟩ := (stream.elements store).loop_noting step
        ((stream.elements store).remaining stream.progress world.channel + 1) handed kept
        stream.progress world.channel
      simp only [visit, closed, Bool.false_eq_true, if_false, Puller.forEach, looped]
      exact ⟨all, rfl⟩

namespace Cursor

variable {cursor : Cursor}

theorem forEach_noting {Kept : Type} (cursor : Cursor) (store : Store State) (request : Request)
    (step : Kept → Value → Outcome (Option Unit) × Kept) (kept : Kept) (world : World State) :
    ∃ handed, cursor.forEach store request (QueryStream.noting step) ([], kept) world =
      ((cursor.forEach store request step kept world).1,
        (handed, (cursor.forEach store request step kept world).2.1),
        (cursor.forEach store request step kept world).2.2) := by
  simp only [forEach, iterate, iterateBy, streamBy_explain]
  generalize Scope.enter _ _ _ = scope
  rcases cursor.stream store request { world with journal := scope.2 } with
    ⟨failure | stream, opened⟩
  · exact ⟨[], rfl⟩
  · obtain ⟨handed, visited⟩ := stream.visit_noting store step [] kept opened
    simp only [visited]
    exact ⟨handed, rfl⟩

/-- A fresh stream delivers elements of its chain if its rows have the shape that they have after
the operators before those in the process. -/
theorem delivers_ofPlan {plan : Plan} {front : List Operator} {selected : Option (List String)}
    {handle : Option Handle} (kept : Option Handle → Prop)
    (split : cursor.chain.operators = front ++ plan.localOperators)
    (columns :
      front.foldl (fun selected operator => operator.columnsAfter selected) none = selected)
    (keeps : ∀ operator ∈ cursor.chain.operators, operator.KeepsShape)
    (yields : (store.rows plan.entity (plan.remote.bind Query.selectedColumns?)).Yields kept
      (store.registry.IsElement cursor.chain.entity selected))
    (holds : kept handle) :
    (QueryStream.ofPlan plan handle).Delivers store
      (store.registry.IsElement cursor.chain.entity cursor.chain.selectedColumns?) := by
  have carries : ∀ operator ∈ plan.localOperators.reverse, ∀ below,
      operator.Carries (store.registry.IsElementAfter cursor.chain.entity selected below)
        (store.registry.IsElementAfter cursor.chain.entity selected (operator :: below)) := by
    intro operator member below
    apply Operator.carries_isElement
    apply keeps
    rw [split]
    exact List.mem_append_right _ (List.mem_reverse.mp member)
  have stacked := (Puller.Yields.stack _ yields carries).counting
  rw [Registry.isElementAfter_reverse, ← columns, ← List.foldl_append, ← split,
    ← cursor.chain.selectedColumns?_eq_foldl] at stacked
  exact .inr ⟨_, stacked, Running.within_start holds _⟩

theorem delivers_of_explain {plan : Plan} {handle : Option Handle} (store : Store State)
    (keeps : ∀ operator ∈ cursor.chain.operators, operator.KeepsShape)
    (explained : cursor.explain = .ok plan) (silent : plan.remote = none → handle = none) :
    (QueryStream.ofPlan plan handle).Delivers store
      (store.registry.IsElement cursor.chain.entity cursor.chain.selectedColumns?) := by
  cases divides_of_explain explained with
  | emptyTake search =>
      obtain ⟨front, split⟩ := Plan.suffix_of_afterLastEmptyTake? search
      exact delivers_ofPlan _ split rfl keeps (store.yields_no_rows _ _ _) (silent rfl)
  | split search divided written =>
      have columns := TableEngine.selectedColumns?_pushOperators written
      exact delivers_ofPlan _ (List.take_append_drop _ _).symm columns.symm keeps
        (store.yields_rows cursor.chain.entity _) trivial

theorem delivers_of_stream {request : Request} {world opened : World State} {stream : QueryStream}
    (keeps : ∀ operator ∈ cursor.chain.operators, operator.KeepsShape)
    (obtained : cursor.stream store request world = (.ok stream, opened)) :
    stream.Delivers store
      (store.registry.IsElement cursor.chain.entity cursor.chain.selectedColumns?) := by
  have obtains := cursor.obtains_stream store request world
  rw [obtained] at obtains
  cases obtains with
  | shortCircuited explained contained remote =>
      exact delivers_of_explain store keeps explained fun _ => rfl
  | opened fields explained contained remote asked =>
      apply delivers_of_explain store keeps explained
      rw [remote]
      simp

theorem ok_of_finish {Result : Type} {request : Request} {scope : Scope}
    {outcome : Outcome Result} {stream : QueryStream} {world : World State} {result : Result}
    (finished : (finish store request scope outcome stream world).1 = .ok result) :
    outcome = .ok result := by
  rcases ended : stream.close store world with ⟨failure | _, after, worldAfter⟩
  · cases outcome <;> simp [finish, ended] at finished
  · cases outcome with
    | error failure => simp [finish, ended] at finished
    | ok given => simpa only [finish, ended] using finished

theorem closes_of_finish {Result : Type} {request : Request} {scope : Scope}
    {outcome : Outcome Result} {stream : QueryStream} {world : World State} {result : Result}
    (finished : (finish store request scope outcome stream world).1 = .ok result) :
    (stream.close store world).1 = .ok () := by
  rcases ended : stream.close store world with ⟨failure | _, after, worldAfter⟩
  · cases outcome <;> simp [finish, ended] at finished
  · rfl

theorem iterate_delivers {Result Kept : Type} {good : Value → Prop} {request : Request}
    {terminal : String}
    {consume : Kept → QueryStream → World State → Outcome Result × Kept × QueryStream × World State}
    (delivers : ∀ {world opened stream},
      cursor.stream store request world = (.ok stream, opened) → stream.Delivers store good)
    (keeps : Kept → Prop) (gives : Result → Prop) {kept : Kept} (start : keeps kept)
    (consumes : ∀ stream world, stream.Delivers store good →
      keeps (consume kept stream world).2.1 ∧
        ∀ result, (consume kept stream world).1 = .ok result → gives result)
    (world : World State) :
    keeps (cursor.iterate store request terminal consume kept world).2.1 ∧
      ∀ result, (cursor.iterate store request terminal consume kept world).1 = .ok result →
        gives result := by
  simp only [iterate, iterateBy, streamBy_explain]
  generalize Scope.enter _ _ _ = scope
  rcases obtained : cursor.stream store request { world with journal := scope.2 } with
    ⟨failure | stream, opened⟩
  · exact ⟨start, by simp⟩
  · have consumed := consumes stream opened (delivers obtained)
    exact ⟨consumed.1, fun result finished => consumed.2 result (ok_of_finish finished)⟩

/-- What a cursor tells of its elements: the columns that its chain is known to have, or that they
are entities that conform to their descriptor. -/
def Promises (cursor : Cursor) (registry : Registry) (element : Value) : Prop :=
  registry.IsElement cursor.chain.entity cursor.chain.selectedColumns? element

section Terminals

variable {request : Request} {world : World State}
  (delivers : ∀ {world opened stream}, cursor.stream store request world = (.ok stream, opened) →
    stream.Delivers store (cursor.Promises store.registry))

include delivers

theorem promised_of_toArray {elements : List Value}
    (success : (cursor.toArray store request world).1 = .ok elements) :
    ∀ element ∈ elements, cursor.Promises store.registry element := by
  have visited : ∀ element ∈ (cursor.iterate store request "to_array"
      (QueryStream.visit store QueryStream.gather) [] world).2.1,
      cursor.Promises store.registry element :=
    (iterate_delivers delivers
      (fun gathered => ∀ element ∈ gathered, cursor.Promises store.registry element)
      (fun _ => True) (by simp)
      (fun stream world streamDelivers => ⟨streamDelivers.gathered world, fun _ _ => trivial⟩)
      world).1
  rcases iterated : cursor.iterate store request "to_array"
    (QueryStream.visit store QueryStream.gather) [] world with ⟨failure | _, gathered, after⟩
  · simp only [toArray, toArrayBy, iterateBy_explain, iterated] at success
    cases success
  · simp only [toArray, toArrayBy, iterateBy_explain, iterated] at success
    cases success
    rw [iterated] at visited
    simpa using visited

theorem promised_of_forEach {Kept : Type} (step : Kept → Value → Outcome (Option Unit) × Kept)
    (kept : Kept) :
    ∀ element ∈ (cursor.forEach store request (QueryStream.noting step) ([], kept) world).2.1.1,
      cursor.Promises store.registry element :=
  (iterate_delivers delivers
    (fun noted : List Value × Kept => ∀ element ∈ noted.1, cursor.Promises store.registry element)
    (fun _ => True) (by simp)
    (fun stream world streamDelivers =>
      ⟨streamDelivers.noted step kept world, fun _ _ => trivial⟩) world).1

theorem promised_of_first {element : Value}
    (success : (cursor.first store request world).1 = .ok (some element)) :
    cursor.Promises store.registry element := by
  have iterated : (cursor.first store request world).1 =
      (cursor.iterate store request "first" (fun (_ : Unit) stream world =>
        ((stream.next store world).1, (), (stream.next store world).2)) () world).1 := rfl
  rw [iterated] at success
  refine (iterate_delivers delivers (fun _ : Unit => True)
    (fun found => ∀ element, found = some element → cursor.Promises store.registry element)
    trivial ?_ world).2 _ success element rfl
  intro stream world streamDelivers
  refine ⟨trivial, ?_⟩
  rintro found pulled element rfl
  exact (streamDelivers.next world).2 element pulled

end Terminals

/-- Every element that a cursor delivers is what the cursor tells, however it is asked for and
whatever fails later. -/
theorem delivers_promised {cursor : Cursor}
    (keeps : ∀ operator ∈ cursor.chain.operators, operator.KeepsShape) (store : Store State)
    (request : Request) (world : World State) :
    (∀ elements, (cursor.toArray store request world).1 = .ok elements →
      ∀ element ∈ elements, cursor.Promises store.registry element) ∧
    (∀ {Kept : Type} (step : Kept → Value → Outcome (Option Unit) × Kept) (kept : Kept),
      ∃ handed, cursor.forEach store request (QueryStream.noting step) ([], kept) world =
          ((cursor.forEach store request step kept world).1,
            (handed, (cursor.forEach store request step kept world).2.1),
            (cursor.forEach store request step kept world).2.2) ∧
        ∀ element ∈ handed, cursor.Promises store.registry element) ∧
    (∀ element, (cursor.first store request world).1 = .ok (some element) →
      cursor.Promises store.registry element) ∧
    ∀ stream opened, cursor.stream store request world = (.ok stream, opened) →
      ∀ later, stream.Reached store later → ∀ world element,
        (later.next store world).1 = .ok (some element) ∨
            .ok element ∈ (later.drain store world).1 →
          cursor.Promises store.registry element := by
  have delivers {world opened : World State} {stream : QueryStream}
      (obtained : cursor.stream store request world = (.ok stream, opened)) :
      stream.Delivers store (cursor.Promises store.registry) :=
    delivers_of_stream keeps obtained
  refine ⟨fun elements gathered => promised_of_toArray delivers gathered, ?_, ?_, ?_⟩
  · intro Kept step kept
    obtain ⟨handed, visited⟩ := cursor.forEach_noting store request step kept world
    refine ⟨handed, visited, ?_⟩
    intro element member
    apply promised_of_forEach delivers step kept
    rw [visited]
    exact member
  · intro element success
    exact promised_of_first delivers success
  · intro stream opened obtained later reached world element delivered
    have laterDelivers := (delivers obtained).reached reached
    rcases delivered with pulled | drained
    · exact (laterDelivers.next world).2 element pulled
    · exact laterDelivers.drain world element drained

def guest : EntityDescriptor :=
  ⟨"Guest", [{ name := "arrival", kind := .date }, { name := "tags", kind := .array .string }]⟩

def guests : Registry := ⟨[("Guest", guest)]⟩

def oneGuest : TableEngine :=
  TableEngine.insert {} "Guest" [.object [("arrival", .string "2022-03-01"), ("id", .string "7"),
    ("tags", .array [.string "late"])]]

def lateGuest : Value :=
  .entity "Guest" [("arrival", .date ⟨1646092800, 0⟩), ("id", .string "7"),
    ("tags", .array [.string "late"])]

/-- The guest that is taken in the process conforms to its descriptor. -/
theorem guest_conforms :
    (((ofEntity .scanOnly "Guest").take 1).toArray ⟨TableEngine.channel, guests⟩
      (.internal "guests") { channel := oneGuest }).1 = .ok [lateGuest] ∧
    guests.HasKind (.entity "Guest") lateGuest := by
  have gathered : (((ofEntity .scanOnly "Guest").take 1).toArray ⟨TableEngine.channel, guests⟩
      (.internal "guests") { channel := oneGuest }).1 = .ok [lateGuest] := rfl
  have keeps : ∀ operator ∈ ((ofEntity .scanOnly "Guest").take 1).chain.operators,
      operator.KeepsShape := by
    intro operator member
    rw [List.mem_singleton.mp member]
    trivial
  obtain ⟨promised, _⟩ := delivers_promised keeps ⟨TableEngine.channel, guests⟩ (.internal "guests")
    { channel := oneGuest }
  exact ⟨gathered, promised _ gathered lateGuest List.mem_cons_self⟩

end Cursor

end EntityCursor
