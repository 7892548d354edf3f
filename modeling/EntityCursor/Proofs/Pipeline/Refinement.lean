import EntityCursor.Proofs.Pipeline.Course

/-!
Pulling a stack of operators takes the course that the readings of its operators give. Each stage is
a small machine of its own; the invariant of a stage relates what it remembers to the part of its
course that is still to come, and the induction is on the course of its source.
-/

namespace EntityCursor

namespace Puller

variable {State World Mark Result Final : Type}

/-- Pulling again and again from `state` and `world` takes a course, where `mark` tells the mark of
every state and world on the way. -/
inductive Runs (puller : Puller State World) (mark : State → World → Mark) :
    State → World → Course Value Mark → Prop where
  | ends {state after : State} {world worldAfter : World} :
      puller.pull state world = (.ok none, after, worldAfter) →
      Runs puller mark state world ⟨mark state world, [], none, mark after worldAfter⟩
  | fails {state after : State} {world worldAfter : World} {failure : QueryError} :
      puller.pull state world = (.error failure, after, worldAfter) →
      Runs puller mark state world (.failed (mark state world) failure (mark after worldAfter))
  | delivers {state after : State} {world worldAfter : World} {value : Value}
      {later : Course Value Mark} :
      puller.pull state world = (.ok (some value), after, worldAfter) →
      Runs puller mark after worldAfter later →
      Runs puller mark state world (.cons (mark state world) value later)

namespace Runs

variable {puller : Puller State World} {mark : State → World → Mark} {state other : State}
  {world otherWorld : World} {course : Course Value Mark}

theorem start_eq (runs : puller.Runs mark state world course) :
    course.start = mark state world := by
  cases runs <;> rfl

theorem pull_cons {start : Mark} {value : Value} {later : Course Value Mark}
    (runs : puller.Runs mark state world (.cons start value later)) :
    ∃ after worldAfter, puller.pull state world = (.ok (some value), after, worldAfter) ∧
      later.start = mark after worldAfter := by
  generalize whole : Course.cons start value later = course at runs
  cases runs with
  | ends => cases whole
  | fails => cases whole
  | @delivers _ after _ worldAfter _ rest pulled restRuns =>
      simp only [Course.cons, Course.mk.injEq, List.cons.injEq, Prod.mk.injEq] at whole
      obtain ⟨_, ⟨⟨rfl, sameStart⟩, _⟩, _⟩ := whole
      exact ⟨after, worldAfter, pulled, sameStart.trans restRuns.start_eq⟩

theorem unique (runs : puller.Runs mark state world course) {second : Course Value Mark}
    (runsSecond : puller.Runs mark state world second) : second = course := by
  induction runs generalizing second with
  | ends pulled => cases runsSecond <;> simp_all
  | fails pulled => cases runsSecond <;> simp_all
  | delivers pulled later inductionHypothesis =>
      cases runsSecond with
      | ends pulledSecond => simp_all
      | fails pulledSecond => simp_all
      | delivers pulledSecond laterSecond =>
          rw [pulled] at pulledSecond
          cases pulledSecond
          rw [inductionHypothesis laterSecond]

/-- A state with the same next pull takes the same course. -/
theorem restart (runs : puller.Runs mark other otherWorld course)
    (same : puller.pull state world = puller.pull other otherWorld) :
    puller.Runs mark state world { course with start := mark state world } := by
  cases runs with
  | ends pulled => exact .ends (same.trans pulled)
  | fails pulled => exact .fails (same.trans pulled)
  | delivers pulled later => exact .delivers (same.trans pulled) later

end Runs

section Loops

variable {puller : Puller State World} {state after : State} {world worldAfter : World}
  {step : Result → Value → Outcome (Option Final) × Result} {result : Result}

theorem forEach_of_end (pulled : puller.pull state world = (.ok none, after, worldAfter)) :
    puller.forEach step result state world = (.ok none, result, after, worldAfter) := by
  rw [forEach_eq, pulled]

theorem forEach_of_failure {failure : QueryError}
    (pulled : puller.pull state world = (.error failure, after, worldAfter)) :
    puller.forEach step result state world = (.error failure, result, after, worldAfter) := by
  rw [forEach_eq, pulled]

theorem forEach_of_value {value : Value}
    (pulled : puller.pull state world = (.ok (some value), after, worldAfter)) :
    puller.forEach step result state world =
      match step result value with
      | (.ok none, next) => puller.forEach step next after worldAfter
      | (outcome, next) => (outcome, next, after, worldAfter) := by
  have unfolded := forEach_eq puller step result state world
  simp only [pulled] at unfolded
  exact unfolded

end Loops

/-- Every machine takes some course, since the elements that are still to come get fewer. -/
theorem exists_runs (puller : Puller State World) (mark : State → World → Mark) (state : State)
    (world : World) : ∃ course, puller.Runs mark state world course := by
  generalize bound : puller.remaining state world = count
  induction count using Nat.strongRecOn generalizing state world with
  | ind count inductionHypothesis =>
      rcases pulled : puller.pull state world with ⟨failure | (_ | value), after, worldAfter⟩
      · exact ⟨_, .fails pulled⟩
      · exact ⟨_, .ends pulled⟩
      · have fewer := puller.remaining_pull pulled
        obtain ⟨later, runs⟩ :=
          inductionHypothesis _ (bound ▸ fewer) after worldAfter rfl
        exact ⟨_, .delivers pulled runs⟩

section Stages

variable {source : Puller State World} {mark : State → World → Mark} {state : State}
  {world : World} {course : Course Value Mark}

theorem Runs.taking (runs : source.Runs mark state world course) (count : Nat) :
    source.taking.Runs (fun state world => mark state.2 world) (count, state) world
      (course.take count) := by
  induction runs generalizing count with
  | @ends state after world worldAfter pulled =>
      cases count with
      | zero =>
          have resting : source.taking.pull (0, state) world = (.ok none, (0, state), world) := rfl
          exact .ends resting
      | succ count =>
          have ended : source.taking.pull (count + 1, state) world =
              (.ok none, (count + 1, after), worldAfter) := by
            simp [Puller.taking, pulled]
          exact .ends ended
  | @fails state after world worldAfter failure pulled =>
      cases count with
      | zero =>
          have resting : source.taking.pull (0, state) world = (.ok none, (0, state), world) := rfl
          exact .ends resting
      | succ count =>
          have failed : source.taking.pull (count + 1, state) world =
              (.error failure, (count + 1, after), worldAfter) := by
            simp [Puller.taking, pulled]
          exact .fails failed
  | @delivers state after world worldAfter value later pulled _ inductionHypothesis =>
      cases count with
      | zero =>
          have resting : source.taking.pull (0, state) world = (.ok none, (0, state), world) := rfl
          rw [Course.take_zero]
          exact .ends resting
      | succ count =>
          have delivered : source.taking.pull (count + 1, state) world =
              (.ok (some value), (count, after), worldAfter) := by
            simp [Puller.taking, pulled]
          rw [Course.take_succ_cons]
          exact .delivers delivered (inductionHypothesis count)

theorem Runs.skipping (runs : source.Runs mark state world course) (count : Nat) :
    source.skipping.Runs (fun state world => mark state.2 world) (count, state) world
      (course.skip count) := by
  induction runs generalizing count with
  | @ends state after world worldAfter pulled =>
      have ended : source.skipping.pull (count, state) world =
          (.ok none, (0, after), worldAfter) := by
        cases count <;> simp [Puller.skipping, skipPull, pulled]
      simpa [Course.skip] using Runs.ends ended
  | @fails state after world worldAfter failure pulled =>
      have failed : source.skipping.pull (count, state) world =
          (.error failure, (count, after), worldAfter) := by
        cases count <;> simp [Puller.skipping, skipPull, pulled]
      simpa [Course.skip, Course.failed] using Runs.fails failed
  | @delivers state after world worldAfter value later pulled _ inductionHypothesis =>
      cases count with
      | zero =>
          have delivered : source.skipping.pull (0, state) world =
              (.ok (some value), (0, after), worldAfter) := by
            simp [Puller.skipping, skipPull, pulled]
          exact .delivers delivered (inductionHypothesis 0)
      | succ count =>
          -- The pull passes over the element and goes on as the pull after it does.
          have passed : source.skipping.pull (count + 1, state) world =
              source.skipping.pull (count, after) worldAfter := by
            simp [Puller.skipping, skipPull, pulled]
          exact (inductionHypothesis count).restart passed

theorem Runs.mapping (runs : source.Runs mark state world course) (transform : Transform) :
    (source.mapping transform).Runs (fun state world => mark state.2 world) ((), state) world
      (course.attempt transform) := by
  induction runs with
  | @ends state after world worldAfter pulled =>
      have ended : (source.mapping transform).pull ((), state) world =
          (.ok none, ((), after), worldAfter) := by
        simp [Puller.mapping, pulled]
      exact .ends ended
  | @fails state after world worldAfter failure pulled =>
      have failed : (source.mapping transform).pull ((), state) world =
          (.error failure, ((), after), worldAfter) := by
        simp [Puller.mapping, pulled]
      exact .fails failed
  | @delivers state after world worldAfter value later pulled runs inductionHypothesis =>
      cases transformed : transform value with
      | ok changed =>
          have delivered : (source.mapping transform).pull ((), state) world =
              (.ok (some changed), ((), after), worldAfter) := by
            simp [Puller.mapping, pulled, transformed, Except.map]
          rw [Course.attempt_cons_of_ok transformed]
          exact .delivers delivered inductionHypothesis
      | error own =>
          have failed : (source.mapping transform).pull ((), state) world =
              (.error own, ((), after), worldAfter) := by
            simp [Puller.mapping, pulled, transformed, Except.map]
          rw [Course.attempt_cons_of_error transformed, runs.start_eq]
          exact .fails failed

theorem Runs.filtering (runs : source.Runs mark state world course) (predicate : Predicate) :
    (source.filtering predicate).Runs (fun state world => mark state.2 world) ((), state) world
      (course.keep predicate) := by
  induction runs with
  | @ends state after world worldAfter pulled =>
      have ended : (source.filtering predicate).pull ((), state) world =
          (.ok none, ((), after), worldAfter) := by
        simp [Puller.filtering, forEach_of_end pulled]
      exact .ends ended
  | @fails state after world worldAfter failure pulled =>
      have failed : (source.filtering predicate).pull ((), state) world =
          (.error failure, ((), after), worldAfter) := by
        simp [Puller.filtering, forEach_of_failure pulled]
      exact .fails failed
  | @delivers state after world worldAfter value later pulled runs inductionHypothesis =>
      cases judged : predicate value with
      | error own =>
          have failed : (source.filtering predicate).pull ((), state) world =
              (.error own, ((), after), worldAfter) := by
            simp [Puller.filtering, forEach_of_value pulled, accepted, judged]
          rw [Course.keep_cons_of_error judged, runs.start_eq]
          exact .fails failed
      | ok kept =>
          cases kept with
          | true =>
              have delivered : (source.filtering predicate).pull ((), state) world =
                  (.ok (some value), ((), after), worldAfter) := by
                simp [Puller.filtering, forEach_of_value pulled, accepted, judged]
              rw [Course.keep_cons_of_accepted judged]
              exact .delivers delivered inductionHypothesis
          | false =>
              have passed : (source.filtering predicate).pull ((), state) world =
                  (source.filtering predicate).pull ((), after) worldAfter := by
                simp [Puller.filtering, forEach_of_value pulled, accepted, judged]
              rw [Course.keep_cons_of_refused judged]
              exact inductionHypothesis.restart passed

theorem Runs.forEach (runs : source.Runs mark state world course)
    (step : Result → Value → Outcome (Option Final) × Result) (result : Result) :
    ∃ after worldAfter,
      source.forEach step result state world =
        ((course.visit step result).1, (course.visit step result).2.1, after, worldAfter) ∧
      mark after worldAfter = (course.visit step result).2.2 := by
  induction runs generalizing result with
  | @ends state after world worldAfter pulled =>
      exact ⟨after, worldAfter, forEach_of_end pulled, rfl⟩
  | @fails state after world worldAfter failure pulled =>
      exact ⟨after, worldAfter, forEach_of_failure pulled, rfl⟩
  | @delivers state after world worldAfter value later pulled runs inductionHypothesis =>
      rw [forEach_of_value pulled, Course.visit_cons]
      rcases stepped : step result value with ⟨failure | (_ | final), next⟩
      · exact ⟨after, worldAfter, rfl, runs.start_eq.symm⟩
      · exact inductionHypothesis next
      · exact ⟨after, worldAfter, rfl, runs.start_eq.symm⟩

/-- What is left of a sort once its source is used up. -/
theorem runs_sorted (source : Puller State World) (mark : State → World → Mark) (state : State)
    (world : World) (keys : List SortKey) (elements : List Value) :
    (source.sorting keys).Runs (fun state world => mark state.2 world) (some elements, state) world
      ⟨mark state world, elements.map fun element => (element, mark state world), none,
        mark state world⟩ := by
  induction elements with
  | nil =>
      have ended : (source.sorting keys).pull (some [], state) world =
          (.ok none, (some [], state), world) := rfl
      exact .ends ended
  | cons element rest inductionHypothesis =>
      have delivered : (source.sorting keys).pull (some (element :: rest), state) world =
          (.ok (some element), (some rest, state), world) := rfl
      exact .delivers delivered inductionHypothesis

theorem Runs.sorting (runs : source.Runs mark state world course) (keys : List SortKey) :
    (source.sorting keys).Runs (fun state world => mark state.2 world) (none, state) world
      (course.sorted keys) := by
  obtain ⟨after, worldAfter, looped, marked⟩ := runs.forEach (gatherKeyed keys) []
  rw [Course.visit_gatherKeyed] at looped marked
  cases ending : (course.attempt (Course.key keys)).failure with
  | some failure =>
      have failed : (source.sorting keys).pull (none, state) world =
          (.error failure, (none, after), worldAfter) := by
        simp [Puller.sorting, looped, ending]
      have course_eq : course.sorted keys =
          .failed (mark state world) failure (mark after worldAfter) := by
        simp [Course.sorted, ending, marked, runs.start_eq]
      rw [course_eq]
      exact .fails failed
  | none =>
      -- The first pull comes to what the sorted elements come to by themselves.
      have started : (source.sorting keys).pull (none, state) world =
          (source.sorting keys).pull (some (sortByKeys keys
            ((course.attempt (Course.key keys)).elements.map Prod.fst)), after) worldAfter := by
        simp only [Puller.sorting, looped, ending]
        simp only [List.append_nil, List.reverse_reverse]
        cases sortByKeys keys ((course.attempt (Course.key keys)).elements.map Prod.fst) <;> rfl
      have later := (runs_sorted source mark after worldAfter keys _).restart started
      simpa [Course.sorted, ending, marked, runs.start_eq] using later

theorem Runs.aggregating (runs : source.Runs mark state world course) (field : String)
    (aggregation : Aggregation) :
    (source.aggregating field aggregation).Runs (fun state world => mark state.2 world)
      (false, state) world (course.aggregated field aggregation) := by
  obtain ⟨after, worldAfter, looped, marked⟩ :=
    runs.forEach (accumulate field aggregation) aggregation.initial
  have folded := Course.fold_eq_visit_accumulate field aggregation aggregation.initial course
  rcases visited : course.visit (accumulate field aggregation) aggregation.initial with
    ⟨failure | final, accumulated, finish⟩
  · rw [visited] at looped marked folded
    have failed : (source.aggregating field aggregation).pull (false, state) world =
        (.error failure, (true, after), worldAfter) := by
      simp [Puller.aggregating, looped]
    have course_eq : course.aggregated field aggregation =
        .failed (mark state world) failure (mark after worldAfter) := by
      simp [Course.aggregated, folded, marked, runs.start_eq]
    rw [course_eq]
    exact .fails failed
  · rw [visited] at looped marked folded
    have delivered : (source.aggregating field aggregation).pull (false, state) world =
        (.ok (some (accumulated.getD .null)), (true, after), worldAfter) := by
      simp [Puller.aggregating, looped]
    have ended : (source.aggregating field aggregation).pull (true, after) worldAfter =
        (.ok none, (true, after), worldAfter) := rfl
    have course_eq : course.aggregated field aggregation =
        .cons (mark state world) (accumulated.getD .null)
          ⟨mark after worldAfter, [], none, mark after worldAfter⟩ := by
      simp [Course.aggregated, Course.cons, folded, marked, runs.start_eq]
    rw [course_eq]
    exact .delivers delivered (.ends ended)

/-- An operator on a machine takes the course that it makes of the machine's course. -/
theorem Runs.stage (runs : source.Runs mark state world course) (operator : Operator) :
    (source.stage operator).Runs (fun state world => mark state.2 world) (operator.start, state)
      world (course.after operator) := by
  cases operator with
  | scan entity =>
      have failed : source.refusingScan.pull ((), state) world =
          (.error (.defect .scanAsLocalStage), ((), state), world) := rfl
      rw [Course.after, runs.start_eq]
      exact .fails failed
  | take count => exact runs.taking count
  | skip count => exact runs.skipping count
  | project columns => exact runs.mapping (Value.project columns)
  | predicateFilter predicate => exact runs.filtering predicate
  | expressionFilter predicate expression => exact runs.filtering predicate
  | sortBy keys => exact runs.sorting keys
  | aggregate field aggregation => exact runs.aggregating field aggregation
  | map transform => exact runs.mapping transform

theorem Runs.stack (runs : source.Runs mark state world course) (operators : List Operator) :
    (source.stack operators).Runs (fun running world => mark running.base world)
      (Running.start state operators) world (course.through operators) := by
  induction operators with
  | nil => exact runs
  | cons operator below inductionHypothesis => exact inductionHypothesis.stage operator

theorem Runs.counting (runs : source.Runs mark state world course) (count : Nat) :
    source.counting.Runs (fun running world => mark running.2 world) (count, state) world
      course := by
  induction runs generalizing count with
  | @ends state after world worldAfter pulled =>
      have ended : source.counting.pull (count, state) world =
          (.ok none, (count, after), worldAfter) := by
        simp [Puller.counting, pulled]
      exact .ends ended
  | @fails state after world worldAfter failure pulled =>
      have failed : source.counting.pull (count, state) world =
          (.error failure, (count, after), worldAfter) := by
        simp [Puller.counting, pulled]
      exact .fails failed
  | @delivers state after world worldAfter value later pulled _ inductionHypothesis =>
      have delivered : source.counting.pull (count, state) world =
          (.ok (some value), (count + 1, after), worldAfter) := by
        simp [Puller.counting, pulled]
      exact .delivers delivered (inductionHypothesis (count + 1))

/-- What a stack of operators delivers is what the readings of its operators make of what its source
delivers, and no pull of the stack asks more of the source than they say. -/
theorem stack_refines_readings (runs : source.Runs mark state world course)
    (operators : List Operator) (taken : Course Value Mark) :
    (source.stack operators).Runs (fun running world => mark running.base world)
        (Running.start state operators) world taken ↔
      taken = course.through operators := by
  constructor
  · intro runsTaken
    exact (runs.stack operators).unique runsTaken
  · rintro rfl
    exact runs.stack operators

end Stages

def listing (failure : Option QueryError) : Puller (List Value) World where
  pull := fun elements world =>
    match elements, failure with
    | element :: rest, _ => (.ok (some element), rest, world)
    | [], none => (.ok none, [], world)
    | [], some failure => (.error failure, [], world)
  remaining := fun elements _ => elements.length
  remaining_pull := by
    intro elements after world worldAfter value delivered
    cases elements with
    | nil => cases failure <;> simp at delivered
    | cons element rest =>
        simp only [Prod.mk.injEq] at delivered
        rw [← delivered.2.1]
        simp

theorem runs_listing (failure : Option QueryError) (elements : List Value) (world : World) :
    (listing failure).Runs (fun rest _ => rest) elements world (.listed failure elements) := by
  induction elements with
  | nil =>
      cases failure with
      | none =>
          have ended : (listing none).pull [] world = (.ok none, [], world) := rfl
          exact .ends ended
      | some failure =>
          have failed : (listing (some failure)).pull [] world = (.error failure, [], world) := rfl
          exact .fails failed
  | cons element rest inductionHypothesis =>
      have delivered : (listing failure).pull (element :: rest) world =
          (.ok (some element), rest, world) := rfl
      exact .delivers delivered inductionHypothesis

/-- A failure of the source after the last element that is taken is not met. -/
theorem take_one_before_failure :
    (listing (some (.unknownEntity "Person"))).Runs (fun rest _ => rest) [.null] ()
        (.listed (some (.unknownEntity "Person")) [.null]) ∧
      ((listing (some (.unknownEntity "Person"))).stack [.take 1]).Runs
        (fun running _ => running.base) (Running.start [.null] [.take 1]) ()
        ⟨[.null], [(.null, [])], none, []⟩ := by
  have runs := runs_listing (some (.unknownEntity "Person")) [.null] ()
  exact ⟨runs, (stack_refines_readings runs [.take 1] _).mpr rfl⟩

end Puller

end EntityCursor
