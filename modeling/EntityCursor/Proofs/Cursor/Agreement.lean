import EntityCursor.Proofs.Cursor.Fidelity
import EntityCursor.Proofs.Cursor.Planned

/-!
The terminal operations against one another. A cursor on a table engine is refused a stream, and
then every terminal fails alike, or it obtains a stream that takes one course, and then every
terminal comes to what its way of consuming makes of this course.
-/

namespace EntityCursor

/-- What handing the elements of a list to a step comes to, until it ends the visit or fails, with
the elements that were handed over. -/
def handOver {Kept : Type} (step : Kept → Value → Outcome (Option Unit) × Kept) (kept : Kept) :
    List Value → Outcome Unit × List Value × Kept
  | [] => (.ok (), [], kept)
  | element :: rest =>
      match step kept element with
      | (.ok none, next) =>
          let (outcome, handed, final) := handOver step next rest
          (outcome, element :: handed, final)
      | (.ok (some ()), next) => (.ok (), [element], next)
      | (.error failure, next) => (.error failure, [element], next)

namespace Course

variable {Mark Kept : Type}

def first (course : Course Value Mark) : Outcome (Option Value) :=
  match course.elements, course.failure with
  | (element, _) :: _, _ => .ok (some element)
  | [], some failure => .error failure
  | [], none => .ok none

theorem first_of_ends {course : Course Value Mark} (ends : course.failure = none) :
    course.first = .ok (course.elements.map Prod.fst).head? := by
  rcases course with ⟨start, _ | ⟨⟨element, mark⟩, rest⟩, failure, finish⟩
  · rw [first, ends]
    rfl
  · rfl

theorem visit_noting (step : Kept → Value → Outcome (Option Unit) × Kept) (front : List Value)
    (kept : Kept) {course : Course Value Mark} (ends : course.failure = none) :
    (course.visit (QueryStream.noting step) (front, kept)).1.map (fun _ => ()) =
        (handOver step kept (course.elements.map Prod.fst)).1 ∧
      (course.visit (QueryStream.noting step) (front, kept)).2.1 =
        (front ++ (handOver step kept (course.elements.map Prod.fst)).2.1,
          (handOver step kept (course.elements.map Prod.fst)).2.2) := by
  obtain ⟨start, elements, failure, finish⟩ := course
  obtain rfl : failure = none := ends
  unfold visit
  induction elements generalizing front kept with
  | nil => simp [visitFrom, handOver, Except.map]
  | cons pair rest inductionHypothesis =>
      obtain ⟨element, mark⟩ := pair
      rcases stepped : step kept element with ⟨failure | (_ | _), next⟩
      · simp [visitFrom, QueryStream.noting, handOver, stepped, Except.map]
      · have later := inductionHypothesis (front ++ [element]) next
        simpa [visitFrom, QueryStream.noting, handOver, stepped] using later
      · simp [visitFrom, QueryStream.noting, handOver, stepped, Except.map]

end Course

namespace QueryStream

variable {registry : Registry} {course : Course Value Unit} {stream : QueryStream}
  {world : World TableEngine}

/-- The next pull delivers what the course begins with, and the stream goes on with what is left of
the course. -/
theorem Ready.next (ready : stream.Ready registry course world) :
    ∃ after worldAfter,
      stream.next (TableEngine.store registry) world = (course.first, after, worldAfter) ∧
      (after.close (TableEngine.store registry) worldAfter).1 = .ok () ∧
      (course.elements = [] ∨
        ∃ element later, course = .cons () element later ∧
          after.Ready registry later worldAfter) := by
  have leads := (stream.elements (TableEngine.store registry)).leads_pull stream.progress
    world.channel
  rcases pulled : (stream.elements (TableEngine.store registry)).pull stream.progress world.channel
    with ⟨outcome, progress, engine⟩
  rw [pulled] at leads
  have held := ready.held_of_leads leads
  have delivered : stream.next (TableEngine.store registry) world =
      (outcome, { stream with progress := progress }, { world with channel := engine }) := by
    simp only [QueryStream.next, ready.waiting, Bool.false_eq_true, if_false, pulled]
  refine ⟨{ stream with progress := progress }, { world with channel := engine },
    delivered.trans ?_, Cursor.close_of_held held, ?_⟩
  · obtain ⟨_, _, runs⟩ := ready
    cases runs with
    | ends ended =>
        rw [pulled] at ended
        cases ended
        rfl
    | fails failed =>
        rw [pulled] at failed
        cases failed
        rfl
    | delivers given later =>
        rw [pulled] at given
        cases given
        rfl
  · obtain ⟨waiting, _, runs⟩ := ready
    cases runs with
    | ends => exact .inl rfl
    | fails => exact .inl rfl
    | delivers given later =>
        rw [pulled] at given
        cases given
        exact .inr ⟨_, _, rfl, waiting, held, later⟩

/-- Pulled again and again a stream delivers the elements of a list and then ends. -/
def Pulls {State : Type} (store : Store State) :
    List Value → QueryStream → World State → Prop
  | [], stream, world => (stream.next store world).1 = .ok none
  | element :: rest, stream, world =>
      (stream.next store world).1 = .ok (some element) ∧
        Pulls store rest (stream.next store world).2.1 (stream.next store world).2.2

theorem Ready.pulls (ready : stream.Ready registry course world) (ends : course.failure = none) :
    Pulls (TableEngine.store registry) (course.elements.map Prod.fst) stream world := by
  generalize content : course.elements = elements
  induction elements generalizing course stream world with
  | nil =>
      obtain ⟨after, worldAfter, delivered, _⟩ := ready.next
      rw [List.map_nil, Pulls, delivered, Course.first, content, ends]
  | cons pair rest inductionHypothesis =>
      obtain ⟨after, worldAfter, delivered, _, empty | ⟨element, later, rfl, readyLater⟩⟩ :=
        ready.next
      · rw [content] at empty
        cases empty
      · cases content
        rw [List.map_cons, Pulls, delivered]
        exact ⟨rfl, inductionHypothesis readyLater ends rfl⟩

theorem Ready.drain (ready : stream.Ready registry course world) {elements : List Value}
    (answered : course.answer = .ok elements) :
    (stream.drain (TableEngine.store registry) world).1 = elements.map .ok := by
  obtain ⟨after, worldAfter, visited, closes⟩ := ready.visit gather []
  have gathered := course.answer_eq_visit_gather
  rw [answered] at gathered
  rcases ended : after.close (TableEngine.store registry) worldAfter with
    ⟨closed, final, worldFinal⟩
  rw [ended] at closes
  obtain rfl : closed = .ok () := closes
  obtain ⟨_, visitedOk, rfl⟩ := Outcome.map_eq_ok.mp gathered
  simp only [QueryStream.drain, visited, ended, visitedOk]

end QueryStream

namespace Cursor

variable {registry : Registry} {request : Request} {cursor : Cursor} {world : World TableEngine}
  {course : Course Value Unit}

theorem Refused.forEach {Kept : Type} {failure : QueryError}
    (refused : Refused cursor.explain registry request world failure)
    (step : Kept → Value → Outcome (Option Unit) × Kept) (kept : Kept) :
    (cursor.forEach (TableEngine.store registry) request step kept world).1 = .error failure := by
  obtain ⟨after, iterated⟩ := iterateBy_of_refused cursor refused "for_each"
    (QueryStream.visit (TableEngine.store registry) step) kept
  rw [Cursor.forEach, iterate, iterated]

theorem Refused.count {failure : QueryError}
    (refused : Refused cursor.explain registry request world failure) :
    (cursor.count (TableEngine.store registry) request world).1 = .error failure := by
  have failed := refused.forEach (fun total _ => (.ok none, total + 1)) 0
  simp [Cursor.count, failed, Except.map]

namespace Takes

theorem forEach {Kept : Type} (takes : Takes cursor.explain registry request world course)
    (step : Kept → Value → Outcome (Option Unit) × Kept) (kept : Kept) :
    ∃ after, cursor.forEach (TableEngine.store registry) request step kept world =
      ((course.visit step kept).1.map fun _ => (), (course.visit step kept).2.1, after) :=
  iterateBy_of_takes cursor takes "for_each" fun _ _ ready => ready.visit step kept

theorem forEach_noting {Kept : Type} (takes : Takes cursor.explain registry request world course)
    (ends : course.failure = none) (step : Kept → Value → Outcome (Option Unit) × Kept)
    (kept : Kept) :
    ∃ after, cursor.forEach (TableEngine.store registry) request (QueryStream.noting step)
        ([], kept) world =
      ((handOver step kept (course.elements.map Prod.fst)).1,
        (handOver step kept (course.elements.map Prod.fst)).2, after) := by
  obtain ⟨after, visited⟩ := takes.forEach (QueryStream.noting step) ([], kept)
  obtain ⟨outcome, handed⟩ := course.visit_noting step [] kept ends
  rw [outcome, handed] at visited
  exact ⟨after, visited⟩

/-- A visit that always goes on fails where gathering the elements does. -/
theorem forEach_eq_error_iff {Kept : Type}
    (takes : Takes cursor.explain registry request world course)
    {step : Kept → Value → Outcome (Option Unit) × Kept}
    (goesOn : ∀ kept element, (step kept element).1 = .ok none) (kept : Kept)
    (failure : QueryError) :
    (cursor.forEach (TableEngine.store registry) request step kept world).1 = .error failure ↔
      course.answer = .error failure := by
  obtain ⟨after, visited⟩ := takes.forEach step kept
  rw [visited, (course.visit_of_goingOn step goesOn kept).1]
  cases course.answer <;> simp [Except.map]

theorem first (takes : Takes cursor.explain registry request world course) :
    (cursor.first (TableEngine.store registry) request world).1 = course.first := by
  let consume : Unit → QueryStream → World TableEngine →
      Outcome (Option Value) × Unit × QueryStream × World TableEngine := fun _ stream opened =>
    ((stream.next (TableEngine.store registry) opened).1, (),
      (stream.next (TableEngine.store registry) opened).2)
  have consumes : ∀ stream opened, stream.Ready registry course opened →
      ∃ after worldAfter, consume () stream opened = (course.first, (), after, worldAfter) ∧
        (after.close (TableEngine.store registry) worldAfter).1 = .ok () := by
    intro stream opened ready
    obtain ⟨after, worldAfter, delivered, closes, _⟩ := ready.next
    exact ⟨after, worldAfter, by simp only [consume, delivered], closes⟩
  obtain ⟨after, iterated⟩ := iterateBy_of_takes cursor takes "first" consumes
  exact congrArg (·.1) iterated

theorem count (takes : Takes cursor.explain registry request world course) :
    (cursor.count (TableEngine.store registry) request world).1 =
      course.answer.map List.length := by
  let counting : Nat → Value → Outcome (Option Unit) × Nat := fun total _ => (.ok none, total + 1)
  obtain ⟨after, iterated⟩ := takes.forEach counting 0
  obtain ⟨visited, counted, _⟩ := course.visit_of_goingOn counting (fun _ _ => rfl) 0
  rw [visited, counted] at iterated
  simp only [Cursor.count]
  rw [iterated]
  obtain ⟨start, elements, failure, finish⟩ := course
  cases failure <;> simp [Course.answer, Except.map, counting]

end Takes

/-- All terminals agree with gathering the elements: each of them comes to what its way of consuming
makes of them, and where gathering fails, visiting all elements fails alike. -/
theorem terminals_agree (cursor : Cursor) (registry : Registry) (request : Request)
    (world : World TableEngine) :
    let store := TableEngine.store registry
    let gathered := (cursor.toArray store request world).1
    (∀ elements, gathered = .ok elements →
      (cursor.first store request world).1 = .ok elements.head? ∧
      (cursor.count store request world).1 = .ok elements.length ∧
      (∀ {Kept : Type} (step : Kept → Value → Outcome (Option Unit) × Kept) (kept : Kept),
        ∃ after, cursor.forEach store request (QueryStream.noting step) ([], kept) world =
          ((handOver step kept elements).1, (handOver step kept elements).2, after)) ∧
      ∃ stream opened, cursor.stream store request world = (.ok stream, opened) ∧
        stream.Pulls store elements opened ∧
        (stream.drain store opened).1 = elements.map .ok) ∧
    (∀ failure, (cursor.count store request world).1 = .error failure ↔
      gathered = .error failure) ∧
    ∀ {Kept : Type} (step : Kept → Value → Outcome (Option Unit) × Kept) (kept : Kept),
      (∀ kept element, (step kept element).1 = .ok none) →
      ∀ failure, (cursor.forEach store request step kept world).1 = .error failure ↔
        gathered = .error failure := by
  simp only [toArray, stream]
  rcases refused_or_takes cursor.explain registry request world with
    ⟨failure, refused⟩ | ⟨plan, source, _, _, _, takes⟩
  · simp only [refused.toArrayBy, refused.count]
    refine ⟨by rintro elements ⟨⟩, fun other => by simp, fun step kept _ other => ?_⟩
    rw [refused.forEach step kept]
    simp
  · simp only [takes.toArrayBy, takes.count]
    generalize source.through plan.localOperators.reverse = course at takes
    refine ⟨fun elements answered => ?_, fun failure => ?_, fun step kept goesOn failure => ?_⟩
    · obtain ⟨ends, rfl⟩ := Course.answer_eq_ok.mp answered
      obtain ⟨stream, opened, obtained, ready⟩ := takes world.journal
      refine ⟨?_, ?_, fun step kept => takes.forEach_noting ends step kept, stream, opened,
        obtained, ready.pulls ends, ready.drain answered⟩
      · exact takes.first.trans (Course.first_of_ends ends)
      · rw [answered]
        rfl
    · cases course.answer <;> simp [Except.map]
    · exact takes.forEach_eq_error_iff goesOn kept failure

end Cursor

end EntityCursor
