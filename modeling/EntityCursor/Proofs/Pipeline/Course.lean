import EntityCursor.Pipeline.Stage

/-!
Courses: what is seen of a machine by pulling it up to the first pull that delivers nothing. A
course is a list of elements with an ending, and every operator has a reading as a function from
courses to courses. A mark says where the machine stands: before the first pull, after the pull of
each element and after the last pull. Marks tell how far a source has been used up, so that a
reading fixes also which elements were never asked for.
-/

namespace EntityCursor

structure Course (Element Mark : Type) where
  /-- Where the machine stands before the first pull. -/
  start : Mark
  /-- The elements in order, each with where the machine stands after its pull. -/
  elements : List (Element × Mark)
  /-- The failure of the last pull; none if the elements came to an end. -/
  failure : Option QueryError
  /-- Where the machine stands after the last pull. -/
  finish : Mark

namespace Course

variable {Element Other Result Final Mark : Type}

def cons (start : Mark) (element : Element) (later : Course Element Mark) : Course Element Mark :=
  ⟨start, (element, later.start) :: later.elements, later.failure, later.finish⟩

def failed (start : Mark) (failure : QueryError) (finish : Mark) : Course Element Mark :=
  ⟨start, [], some failure, finish⟩

/-- The course of a list that is used up element by element, with what is left of it. -/
def listed (failure : Option QueryError) : List Element → Course Element (List Element)
  | [] => ⟨[], [], failure, []⟩
  | element :: rest => cons (element :: rest) element (listed failure rest)

/-- The course of elements that come one after the other, without marks. -/
def whole (elements : List Element) : Course Element Unit :=
  ⟨(), elements.map fun element => (element, ()), none, ()⟩

def answer (course : Course Element Mark) : Outcome (List Element) :=
  match course.failure with
  | some failure => .error failure
  | none => .ok (course.elements.map Prod.fst)

theorem answer_eq_ok {course : Course Element Mark} {elements : List Element} :
    course.answer = .ok elements ↔
      course.failure = none ∧ course.elements.map Prod.fst = elements := by
  rcases course with ⟨start, given, _ | failure, finish⟩ <;> simp [answer]

/-! The readings of operators. -/

/-- The first `count` elements. The machine rests after the last of them, so that what comes later
in the course, an element or a failure, is not met. -/
def take (count : Nat) (course : Course Element Mark) : Course Element Mark :=
  if count ≤ course.elements.length then
    let kept := course.elements.take count
    ⟨course.start, kept, none, (kept.getLast?.map Prod.snd).getD course.start⟩
  else course

def skip (count : Nat) (course : Course Element Mark) : Course Element Mark :=
  { course with elements := course.elements.drop count }

def attemptFrom (step : Element → Outcome Other) (failure : Option QueryError) (finish : Mark)
    (start : Mark) : List (Element × Mark) → Course Other Mark
  | [] => ⟨start, [], failure, finish⟩
  | (element, mark) :: rest =>
      match step element with
      | .ok other => cons start other (attemptFrom step failure finish mark rest)
      | .error own => failed start own mark

def attempt (step : Element → Outcome Other) (course : Course Element Mark) : Course Other Mark :=
  attemptFrom step course.failure course.finish course.start course.elements

def judge (predicate : Predicate) (element : Value) : Outcome (Bool × Value) :=
  (predicate element).map fun kept => (kept, element)

def keep (predicate : Predicate) (course : Course Value Mark) : Course Value Mark :=
  let judged := course.attempt (judge predicate)
  ⟨judged.start,
    judged.elements.filterMap fun ((kept, element), mark) =>
      if kept then some (element, mark) else none,
    judged.failure, judged.finish⟩

def foldFrom (step : Result → Element → Outcome Result) (failure : Option QueryError)
    (finish : Mark) (result : Result) : List (Element × Mark) → Outcome Result × Mark
  | [] =>
      match failure with
      | some failure => (.error failure, finish)
      | none => (.ok result, finish)
  | (element, mark) :: rest =>
      match step result element with
      | .ok result => foldFrom step failure finish result rest
      | .error own => (.error own, mark)

/-- The left fold of all elements; the first failure counts, of a step or at the end. -/
def fold (step : Result → Element → Outcome Result) (result : Result)
    (course : Course Element Mark) : Outcome Result × Mark :=
  foldFrom step course.failure course.finish result course.elements

def key (keys : List SortKey) (element : Value) : Outcome (List Value × Value) :=
  (element.keyValues keys).map fun values => (values, element)

/-- The elements in the order of sort keys, all of them found at the end of the course; nothing but
the failure if the course or the reading of a key fails. -/
def sorted (keys : List SortKey) (course : Course Value Mark) : Course Value Mark :=
  let keyed := course.attempt (key keys)
  match keyed.failure with
  | some failure => failed course.start failure keyed.finish
  | none =>
      ⟨course.start,
        (sortByKeys keys (keyed.elements.map Prod.fst)).map fun element => (element, keyed.finish),
        none, keyed.finish⟩

/-- One element: the left fold of a field of the elements, or null if nothing has accumulated;
nothing but the failure if the course, the reading of the field or a step of the fold fails. -/
def aggregated (field : String) (aggregation : Aggregation) (course : Course Value Mark) :
    Course Value Mark :=
  match (course.attempt fun element => element.fieldOrNull field).fold aggregation.step
    aggregation.initial with
  | (.ok accumulated, finish) =>
      ⟨course.start, [(accumulated.getD .null, finish)], none, finish⟩
  | (.error failure, finish) => failed course.start failure finish

/-- The course of an operator on top of a machine with the given course. A scan is no stage. -/
def after (course : Course Value Mark) : Operator → Course Value Mark
  | .scan _ => failed course.start (.defect .scanAsLocalStage) course.start
  | .take count => course.take count
  | .skip count => course.skip count
  | .project columns => course.attempt (Value.project columns)
  | .predicateFilter predicate => course.keep predicate
  | .expressionFilter predicate _ => course.keep predicate
  | .sortBy keys => course.sorted keys
  | .aggregate field aggregation => course.aggregated field aggregation
  | .map transform => course.attempt transform

def through (course : Course Value Mark) : List Operator → Course Value Mark
  | [] => course
  | operator :: below => (course.through below).after operator

/-! Loops over courses. -/

def visitFrom (step : Result → Element → Outcome (Option Final) × Result)
    (failure : Option QueryError) (finish : Mark) (result : Result) :
    List (Element × Mark) → Outcome (Option Final) × Result × Mark
  | [] =>
      match failure with
      | some failure => (.error failure, result, finish)
      | none => (.ok none, result, finish)
  | (element, mark) :: rest =>
      match step result element with
      | (.ok none, result) => visitFrom step failure finish result rest
      | (outcome, result) => (outcome, result, mark)

/-- What a loop over the elements of a course comes to, and where the machine stands then. -/
def visit (step : Result → Element → Outcome (Option Final) × Result) (result : Result)
    (course : Course Element Mark) : Outcome (Option Final) × Result × Mark :=
  visitFrom step course.failure course.finish result course.elements

/-! How the readings meet a course that has an element in front. -/

variable {start : Mark} {element : Element} {later : Course Element Mark}

@[simp]
theorem take_zero (course : Course Element Mark) :
    course.take 0 = ⟨course.start, [], none, course.start⟩ := by
  simp [take]

@[simp]
theorem take_succ_cons (count : Nat) :
    (cons start element later).take (count + 1) = cons start element (later.take count) := by
  by_cases enough : count ≤ later.elements.length
  · cases kept : later.elements.take count with
    | nil => simp [take, cons, enough, kept]
    | cons first rest => simp [take, cons, enough, kept, List.getLast?_cons]
  · simp [take, cons, enough]

theorem attempt_cons_of_ok {step : Element → Outcome Other} {other : Other}
    (stepped : step element = .ok other) :
    (cons start element later).attempt step = cons start other (later.attempt step) := by
  simp [attempt, attemptFrom, cons, stepped]

theorem attempt_cons_of_error {step : Element → Outcome Other} {own : QueryError}
    (stepped : step element = .error own) :
    (cons start element later).attempt step = failed start own later.start := by
  simp [attempt, attemptFrom, cons, stepped]

theorem attempt_of_ok {step : Element → Outcome Other} {change : Element → Other}
    {course : Course Element Mark}
    (steps : ∀ element ∈ course.elements.map Prod.fst, step element = .ok (change element)) :
    course.attempt step =
      ⟨course.start, course.elements.map fun pair => (change pair.1, pair.2), course.failure,
        course.finish⟩ := by
  obtain ⟨start, elements, failure, finish⟩ := course
  induction elements generalizing start with
  | nil => rfl
  | cons pair rest inductionHypothesis =>
      obtain ⟨element, mark⟩ := pair
      obtain ⟨here, later⟩ := List.forall_mem_cons.mp steps
      have restAttempted := inductionHypothesis mark later
      change (cons start element ⟨mark, rest, failure, finish⟩).attempt step = _
      rw [attempt_cons_of_ok here, restAttempted]
      rfl

@[simp]
theorem start_attemptFrom (step : Element → Outcome Other) (failure : Option QueryError)
    (finish start : Mark) (elements : List (Element × Mark)) :
    (attemptFrom step failure finish start elements).start = start := by
  rcases elements with _ | ⟨⟨element, mark⟩, rest⟩
  · rfl
  · cases stepped : step element <;> simp [attemptFrom, stepped, cons, failed]

theorem keep_cons_of_accepted {predicate : Predicate} {value : Value} {later : Course Value Mark}
    (judged : predicate value = .ok true) :
    (cons start value later).keep predicate = cons start value (later.keep predicate) := by
  have stepped : judge predicate value = .ok (true, value) := by simp [judge, judged, Except.map]
  rw [keep, attempt_cons_of_ok stepped]
  simp [keep, cons]

theorem keep_cons_of_refused {predicate : Predicate} {value : Value} {later : Course Value Mark}
    (judged : predicate value = .ok false) :
    (cons start value later).keep predicate = { later.keep predicate with start := start } := by
  have stepped : judge predicate value = .ok (false, value) := by simp [judge, judged, Except.map]
  rw [keep, attempt_cons_of_ok stepped]
  simp [keep, cons]

theorem keep_cons_of_error {predicate : Predicate} {value : Value} {later : Course Value Mark}
    {own : QueryError} (judged : predicate value = .error own) :
    (cons start value later).keep predicate = failed start own later.start := by
  have stepped : judge predicate value = .error own := by simp [judge, judged, Except.map]
  rw [keep, attempt_cons_of_error stepped]
  simp [failed]

theorem attempt_restart (step : Element → Outcome Other) (course : Course Element Mark)
    (start : Mark) :
    ({ course with start := start } : Course Element Mark).attempt step =
      { course.attempt step with start := start } := by
  obtain ⟨_, elements, failure, finish⟩ := course
  rcases elements with _ | ⟨⟨element, mark⟩, rest⟩
  · rfl
  · cases stepped : step element <;> simp [attempt, attemptFrom, stepped, cons, failed]

/-- A step that every element passes, and that no verdict depends on, may be taken before or after
the refused elements are left out. -/
theorem attempt_keep {predicate : Predicate} {step : Value → Outcome Value}
    {course : Course Value Mark}
    (passes : ∀ pair ∈ course.elements, ∃ changed,
      step pair.1 = .ok changed ∧ predicate changed = predicate pair.1) :
    (course.keep predicate).attempt step = (course.attempt step).keep predicate := by
  obtain ⟨start, elements, failure, finish⟩ := course
  induction elements generalizing start with
  | nil => rfl
  | cons pair rest inductionHypothesis =>
      obtain ⟨element, mark⟩ := pair
      obtain ⟨changed, stepped, sameVerdict⟩ := passes _ List.mem_cons_self
      have later := inductionHypothesis mark fun pair member =>
        passes pair (List.mem_cons_of_mem _ member)
      change ((cons start element ⟨mark, rest, failure, finish⟩).keep predicate).attempt step =
        ((cons start element ⟨mark, rest, failure, finish⟩).attempt step).keep predicate
      rw [attempt_cons_of_ok stepped]
      cases judged : predicate element with
      | error own =>
          have sameStart := start_attemptFrom step failure finish mark rest
          rw [keep_cons_of_error judged, keep_cons_of_error (sameVerdict.trans judged)]
          rw [attempt, attempt, sameStart]
          rfl
      | ok kept =>
          cases kept with
          | true =>
              rw [keep_cons_of_accepted judged, keep_cons_of_accepted (sameVerdict.trans judged)]
              rw [attempt_cons_of_ok stepped, later]
          | false =>
              rw [keep_cons_of_refused judged, keep_cons_of_refused (sameVerdict.trans judged)]
              -- The rest starts where the refused element was asked for.
              rw [attempt_restart, later]

/-! What the loops of the stages come to. -/

theorem visit_cons (step : Result → Element → Outcome (Option Final) × Result) (result : Result) :
    (cons start element later).visit step result =
      match step result element with
      | (.ok none, next) => later.visit step next
      | (outcome, next) => (outcome, next, later.start) := by
  rfl

/-- A step that always goes on meets all elements, and the failure if there is one, and the visit
ends where the course does. -/
theorem visit_of_goingOn {Kept : Type} (step : Kept → Element → Outcome (Option Final) × Kept)
    (goesOn : ∀ kept element, (step kept element).1 = .ok none) (kept : Kept)
    (course : Course Element Mark) :
    (course.visit step kept).1.map (fun _ => ()) = course.answer.map (fun _ => ()) ∧
      (course.visit step kept).2.1 =
        (course.elements.map Prod.fst).foldl (fun kept element => (step kept element).2) kept ∧
      (course.visit step kept).2.2 = course.finish := by
  obtain ⟨start, elements, failure, finish⟩ := course
  simp only [visit, answer]
  induction elements generalizing kept with
  | nil => cases failure <;> exact ⟨rfl, rfl, rfl⟩
  | cons pair rest inductionHypothesis =>
      obtain ⟨element, mark⟩ := pair
      have stepped : step kept element = (.ok none, (step kept element).2) :=
        Prod.ext (goesOn kept element) rfl
      have later := inductionHypothesis (step kept element).2
      rw [visitFrom, stepped]
      cases failure <;> simpa [Except.map] using later

theorem visit_gatherKeyed (keys : List SortKey) (gathered : List (List Value × Value))
    (course : Course Value Mark) :
    course.visit (Puller.gatherKeyed keys) gathered =
      let keyed := course.attempt (key keys)
      (match keyed.failure with
        | some failure => .error failure
        | none => .ok none,
        (keyed.elements.map Prod.fst).reverse ++ gathered, keyed.finish) := by
  obtain ⟨start, elements, failure, finish⟩ := course
  simp only [visit, attempt]
  induction elements generalizing start gathered with
  | nil => cases failure <;> simp [visitFrom, attemptFrom]
  | cons pair rest inductionHypothesis =>
      obtain ⟨element, mark⟩ := pair
      cases read : element.keyValues keys with
      | ok values =>
          have stepped : key keys element = .ok (values, element) := by
            simp [key, read, Except.map]
          have later := inductionHypothesis ((values, element) :: gathered) mark
          simpa [visitFrom, attemptFrom, Puller.gatherKeyed, read, stepped, cons] using later
      | error own =>
          have stepped : key keys element = .error own := by simp [key, read, Except.map]
          simp [visitFrom, attemptFrom, Puller.gatherKeyed, read, stepped, failed]

theorem fold_eq_visit_accumulate (field : String) (aggregation : Aggregation)
    (accumulated : Option Value) (course : Course Value Mark) :
    (course.attempt fun element => element.fieldOrNull field).fold aggregation.step accumulated =
      match course.visit (Puller.accumulate field aggregation) accumulated with
      | (.ok _, accumulated, finish) => (.ok accumulated, finish)
      | (.error failure, _, finish) => (.error failure, finish) := by
  obtain ⟨start, elements, failure, finish⟩ := course
  simp only [visit, attempt, fold]
  induction elements generalizing start accumulated with
  | nil => cases failure <;> simp [visitFrom, attemptFrom, foldFrom]
  | cons pair rest inductionHypothesis =>
      obtain ⟨element, mark⟩ := pair
      cases read : element.fieldOrNull field with
      | error own =>
          simp [visitFrom, attemptFrom, foldFrom, Puller.accumulate, read, failed]
      | ok candidate =>
          cases stepped : aggregation.step accumulated candidate with
          | ok next =>
              simp [visitFrom, attemptFrom, foldFrom, Puller.accumulate, read, stepped, cons,
                inductionHypothesis]
          | error own =>
              simp [visitFrom, attemptFrom, foldFrom, Puller.accumulate, read, stepped, cons]

end Course

end EntityCursor
