import EntityCursor.Proofs.Pipeline.Course

/-!
Courses without marks: what operators make of a list of elements, of a course that fails before it
delivers anything, and of a course that fails at some point.
-/

namespace EntityCursor

namespace Course

variable {Element Other : Type}

theorem whole_cons (element : Element) (rest : List Element) :
    whole (element :: rest) = cons () element (whole rest) := rfl

@[simp]
theorem take_whole (count : Nat) (elements : List Element) :
    (whole elements).take count = whole (elements.take count) := by
  by_cases enough : count ≤ elements.length
  · simp [take, whole, enough, List.map_take]
  · rw [List.take_of_length_le (Nat.le_of_not_le enough)]
    simp [take, whole, enough]

@[simp]
theorem skip_whole (count : Nat) (elements : List Element) :
    (whole elements).skip count = whole (elements.drop count) := by
  simp [skip, whole, List.map_drop]

/-! Failures. -/

/-- The course fails before it delivers an element. -/
def Stuck (course : Course Element Unit) : Prop := ∃ failure, course = failed () failure ()

/-- The course fails at some point. -/
def Fails (course : Course Element Unit) : Prop := ∃ failure, course.failure = some failure

theorem Stuck.fails {course : Course Element Unit} (stuck : course.Stuck) : course.Fails := by
  obtain ⟨failure, rfl⟩ := stuck
  exact ⟨failure, rfl⟩

theorem Fails.answer {course : Course Element Unit} (fails : course.Fails) :
    ∃ failure, course.answer = .error failure := by
  obtain ⟨failure, found⟩ := fails
  exact ⟨failure, by rw [Course.answer, found]⟩

theorem Fails.attempt {course : Course Element Unit} (fails : course.Fails)
    (step : Element → Outcome Other) : (course.attempt step).Fails := by
  obtain ⟨⟨start⟩, elements, failure, finish⟩ := course
  obtain ⟨first, rfl⟩ := fails
  rw [Course.attempt]
  induction elements with
  | nil => exact ⟨first, rfl⟩
  | cons pair rest inductionHypothesis =>
      obtain ⟨element, mark⟩ := pair
      simp only [attemptFrom]
      -- If the step fails first, its failure takes the place of the one to come.
      split
      · exact inductionHypothesis
      · next own _ => exact ⟨own, rfl⟩

theorem Fails.keep {course : Course Value Unit} (fails : course.Fails) (predicate : Predicate) :
    (course.keep predicate).Fails :=
  fails.attempt (judge predicate)

theorem Fails.fold {Result : Type} {course : Course Element Unit} (fails : course.Fails)
    (step : Result → Element → Outcome Result) (result : Result) :
    ∃ failure, (course.fold step result).1 = .error failure := by
  obtain ⟨⟨start⟩, elements, failure, finish⟩ := course
  obtain ⟨first, rfl⟩ := fails
  rw [Course.fold]
  induction elements generalizing result with
  | nil => exact ⟨first, rfl⟩
  | cons pair rest inductionHypothesis =>
      obtain ⟨element, mark⟩ := pair
      simp only [foldFrom]
      split
      · next next _ => exact inductionHypothesis next
      · next own _ => exact ⟨own, rfl⟩

/-- A step that gives the wanted result or fails either changes all elements or fails at some. -/
theorem attempt_whole {Source : Type} {step : Element → Outcome Other}
    {elementOf : Source → Element} {change : Source → Other} {sources : List Source}
    (steps : ∀ source ∈ sources, step (elementOf source) = .ok (change source) ∨
      ∃ failure, step (elementOf source) = .error failure) :
    (whole (sources.map elementOf)).attempt step = whole (sources.map change) ∨
      ((whole (sources.map elementOf)).attempt step).Fails := by
  induction sources with
  | nil => exact .inl rfl
  | cons source rest inductionHypothesis =>
      rw [List.map_cons, whole_cons]
      rcases steps source List.mem_cons_self with stepped | ⟨failure, stepped⟩
      · rw [attempt_cons_of_ok stepped]
        rcases inductionHypothesis fun other member => steps other (List.mem_cons_of_mem _ member)
          with changed | fails
        · rw [changed, List.map_cons, whole_cons]
          exact .inl rfl
        · exact .inr fails
      · rw [attempt_cons_of_error stepped]
        exact .inr ⟨failure, rfl⟩

theorem attempt_whole_of_ok {Source : Type} {step : Element → Outcome Other}
    {elementOf : Source → Element} {change : Source → Other} {sources : List Source}
    (steps : ∀ source ∈ sources, step (elementOf source) = .ok (change source)) :
    (whole (sources.map elementOf)).attempt step = whole (sources.map change) := by
  induction sources with
  | nil => rfl
  | cons source rest inductionHypothesis =>
      rw [List.map_cons, whole_cons, attempt_cons_of_ok (steps source List.mem_cons_self),
        inductionHypothesis fun other member => steps other (List.mem_cons_of_mem _ member),
        List.map_cons, whole_cons]

theorem Fails.sorted {course : Course Value Unit} (fails : course.Fails) (keys : List SortKey) :
    (course.sorted keys).Stuck := by
  obtain ⟨failure, found⟩ := fails.attempt (key keys)
  exact ⟨failure, by simp only [Course.sorted, found]⟩

theorem Fails.aggregated {course : Course Value Unit} (fails : course.Fails) (field : String)
    (aggregation : Aggregation) : (course.aggregated field aggregation).Stuck := by
  obtain ⟨failure, folded⟩ := (fails.attempt fun element => element.fieldOrNull field).fold
    aggregation.step aggregation.initial
  refine ⟨failure, ?_⟩
  rw [Course.aggregated]
  split
  · next visited =>
      rw [visited] at folded
      cases folded
  · next visited =>
      rw [visited] at folded
      cases folded
      rfl

/-- Only taking can hide a failure. -/
theorem Fails.after {course : Course Value Unit} (fails : course.Fails) {operator : Operator}
    (takes : ∀ count, operator ≠ .take count) : (course.after operator).Fails := by
  cases operator with
  | scan entity => exact ⟨_, rfl⟩
  | take count => exact absurd rfl (takes count)
  | skip count => exact fails
  | project columns => exact fails.attempt _
  | predicateFilter predicate => exact fails.keep predicate
  | expressionFilter predicate expression => exact fails.keep predicate
  | sortBy keys => exact (fails.sorted keys).fails
  | aggregate field aggregation => exact (fails.aggregated field aggregation).fails
  | map transform => exact fails.attempt transform

/-- A failure before the first element is hidden only by taking nothing. -/
theorem Stuck.after {course : Course Value Unit} (stuck : course.Stuck) {operator : Operator}
    (takes : operator.takesNothing = false) : (course.after operator).Stuck := by
  obtain ⟨failure, rfl⟩ := stuck
  cases operator with
  | scan entity => exact ⟨_, rfl⟩
  | take count =>
      cases count with
      | zero => cases takes
      | succ count => exact ⟨failure, rfl⟩
  | skip count => exact ⟨failure, by simp [Course.after, skip, failed]⟩
  | project columns => exact ⟨failure, rfl⟩
  | predicateFilter predicate => exact ⟨failure, rfl⟩
  | expressionFilter predicate expression => exact ⟨failure, rfl⟩
  | sortBy keys => exact ⟨failure, rfl⟩
  | aggregate field aggregation => exact ⟨failure, rfl⟩
  | map transform => exact ⟨failure, rfl⟩

theorem Fails.foldl_after {course : Course Value Unit} (fails : course.Fails)
    {operators : List Operator} (takes : ∀ count, .take count ∉ operators) :
    (operators.foldl Course.after course).Fails := by
  apply List.foldlRecOn operators Course.after fails
  intro before failsBefore operator member
  apply failsBefore.after
  rintro count rfl
  exact takes count member

theorem Stuck.foldl_after {course : Course Value Unit} (stuck : course.Stuck)
    {operators : List Operator} (takes : ∀ operator ∈ operators, operator.takesNothing = false) :
    (operators.foldl Course.after course).Stuck := by
  apply List.foldlRecOn operators Course.after stuck
  intro before stuckBefore operator member
  exact stuckBefore.after (takes operator member)

@[simp]
theorem through_reverse {Mark : Type} (course : Course Value Mark) (operators : List Operator) :
    course.through operators.reverse = operators.foldl Course.after course := by
  rw [← List.foldr_reverse]
  induction operators.reverse with
  | nil => rfl
  | cons operator below inductionHypothesis =>
      rw [through, inductionHypothesis, List.foldr_cons]

end Course

end EntityCursor
