import EntityCursor.Pipeline.Stage
import EntityCursor.Proofs.Outcome

/-!
Where the failures of a stack come from. A pull passes on the failures of its source, and what an
operator adds to them comes from reading fields and columns or from the function that the operator
was given.
-/

namespace EntityCursor

open Outcome (FailsOnly)

/-- A failure that is no defect. -/
def QueryError.IsOrdinary (failure : QueryError) : Prop := failure.isDefect = false

open QueryError (IsOrdinary)

/-- The function that an operator was given returns a failure. -/
def Operator.Raises (failure : QueryError) : Operator → Prop
  | .predicateFilter predicate => ∃ element, predicate element = .error failure
  | .expressionFilter predicate _ => ∃ element, predicate element = .error failure
  | .map transform => ∃ element, transform element = .error failure
  | .aggregate _ (.fold _ step) =>
      ∃ accumulated candidate, step accumulated candidate = .error failure
  | _ => False

namespace Value

@[simp]
theorem failsOnly_field? (value : Value) (name : String) :
    FailsOnly IsOrdinary (value.field? name) := by
  rw [field?.eq_def]
  split
  · exact .ok _
  · split
    · exact .ok _
    · exact .error rfl
  · exact .error rfl

@[simp]
theorem failsOnly_fieldOrNull (value : Value) (name : String) :
    FailsOnly IsOrdinary (value.fieldOrNull name) := by
  have read := value.failsOnly_field? name
  rw [fieldOrNull]
  split
  · exact .ok _
  · next failure failed => exact .error (read failure failed)

theorem failsOnly_projectRecord (columns : List String) (record narrowed : Record) :
    FailsOnly IsOrdinary (projectRecord columns record narrowed) := by
  induction columns generalizing record narrowed with
  | nil => exact .ok narrowed
  | cons column rest inductionHypothesis =>
      rw [projectRecord]
      split
      · exact .error rfl
      · exact inductionHypothesis _ _

@[simp]
theorem failsOnly_project (columns : List String) (value : Value) :
    FailsOnly IsOrdinary (value.project columns) := by
  rw [project.eq_def]
  split
  · exact .ok _
  · exact (failsOnly_projectRecord _ _ _).map _
  · exact .error rfl

@[simp]
theorem failsOnly_keyValues (value : Value) (keys : List SortKey) :
    FailsOnly IsOrdinary (value.keyValues keys) := by
  induction keys with
  | nil => exact .ok []
  | cons key rest inductionHypothesis =>
      rw [keyValues]
      exact (value.failsOnly_fieldOrNull key.field).bind fun _ _ =>
        inductionHypothesis.bind fun _ _ => .ok _

end Value

namespace Puller

variable {State World Result Final : Type} {allowed : QueryError → Prop}

/-- The failures of all pulls are of an allowed sort. -/
def FailsOnly (allowed : QueryError → Prop) (puller : Puller State World) : Prop :=
  ∀ state world, Outcome.FailsOnly allowed (puller.pull state world).1

namespace FailsOnly

variable {source : Puller State World}

theorem loop (fails : source.FailsOnly allowed)
    {step : Result → Value → Outcome (Option Final) × Result}
    (steps : ∀ result value, Outcome.FailsOnly allowed (step result value).1) (fuel : Nat)
    (result : Result) (state : State) (world : World) :
    Outcome.FailsOnly allowed (source.loop step fuel result state world).1 := by
  induction fuel generalizing result state world with
  | zero => exact .ok none
  | succ fuel inductionHypothesis =>
      have pulls := fails state world
      rcases pulled : source.pull state world with ⟨failure | (_ | value), after, worldAfter⟩
      · simp only [Puller.loop, pulled] at pulls ⊢
        exact .error (pulls failure rfl)
      · simp only [Puller.loop, pulled]
        exact .ok none
      · have stepped := steps result value
        rcases next : step result value with ⟨failure | (_ | final), resultAfter⟩
        · simp only [Puller.loop, pulled, next] at stepped ⊢
          exact .error (stepped failure rfl)
        · simp only [Puller.loop, pulled, next]
          exact inductionHypothesis resultAfter after worldAfter
        · simp only [Puller.loop, pulled, next]
          exact .ok _

theorem forEach (fails : source.FailsOnly allowed)
    {step : Result → Value → Outcome (Option Final) × Result}
    (steps : ∀ result value, Outcome.FailsOnly allowed (step result value).1) (result : Result)
    (state : State) (world : World) :
    Outcome.FailsOnly allowed (source.forEach step result state world).1 :=
  fails.loop steps _ result state world

/-! Operators. -/

theorem taking (fails : source.FailsOnly allowed) : source.taking.FailsOnly allowed := by
  rintro ⟨left, state⟩ world
  have pulls := fails state world
  simp only [Puller.taking]
  split
  · exact .ok none
  · generalize source.pull state world = pulled at pulls ⊢
    rcases pulled with ⟨failure | (_ | value), after, worldAfter⟩
    · exact pulls
    · exact .ok none
    · exact .ok _

theorem skipping (fails : source.FailsOnly allowed) : source.skipping.FailsOnly allowed := by
  rintro ⟨left, state⟩ world
  simp only [Puller.skipping]
  induction left generalizing state world with
  | zero => exact fails state world
  | succ left inductionHypothesis =>
      have pulls := fails state world
      rw [skipPull]
      generalize source.pull state world = pulled at pulls ⊢
      rcases pulled with ⟨failure | (_ | value), after, worldAfter⟩
      · exact .error (pulls failure rfl)
      · exact .ok none
      · exact inductionHypothesis after worldAfter

theorem filtering (fails : source.FailsOnly allowed) {predicate : Predicate}
    (decides : ∀ element, Outcome.FailsOnly allowed (predicate element)) :
    (source.filtering predicate).FailsOnly allowed := by
  rintro ⟨_, state⟩ world
  refine fails.forEach ?_ () state world
  intro nothing element
  have decided := decides element
  rw [accepted]
  split
  · exact .ok _
  · exact .ok _
  · next failure failed => exact .error (decided failure failed)

theorem mapping (fails : source.FailsOnly allowed) {transform : Transform}
    (transforms : ∀ element, Outcome.FailsOnly allowed (transform element)) :
    (source.mapping transform).FailsOnly allowed := by
  rintro ⟨_, state⟩ world
  have pulls := fails state world
  simp only [Puller.mapping]
  generalize source.pull state world = pulled at pulls ⊢
  rcases pulled with ⟨failure | (_ | value), after, worldAfter⟩
  · exact pulls
  · exact .ok none
  · exact (transforms value).map some

theorem sorting (fails : source.FailsOnly allowed) (keys : List SortKey)
    (reads : ∀ failure, failure.IsOrdinary → allowed failure) :
    (source.sorting keys).FailsOnly allowed := by
  rintro ⟨_ | (_ | ⟨first, rest⟩), state⟩ world
  · have gathers (gathered : List (List Value × Value)) (element : Value) :
        Outcome.FailsOnly allowed (gatherKeyed keys gathered element).1 := by
      have keyed := (element.failsOnly_keyValues keys).mono reads
      rw [gatherKeyed]
      split
      · exact .ok none
      · next failure failed => exact .error (keyed failure failed)
    have gathered := fails.forEach gathers [] state world
    simp only [Puller.sorting]
    generalize source.forEach (gatherKeyed keys) [] state world = visited at gathered ⊢
    rcases visited with ⟨failure | final, elements, after, worldAfter⟩
    · exact .error (gathered failure rfl)
    · dsimp only
      split
      · exact .ok none
      · exact .ok _
  · exact .ok none
  · exact .ok _

theorem aggregating (fails : source.FailsOnly allowed) (field : String) {aggregation : Aggregation}
    (reads : ∀ failure, failure.IsOrdinary → allowed failure)
    (accumulates : ∀ accumulated candidate,
      Outcome.FailsOnly allowed (aggregation.step accumulated candidate)) :
    (source.aggregating field aggregation).FailsOnly allowed := by
  rintro ⟨done, state⟩ world
  have steps (accumulated : Option Value) (element : Value) :
      Outcome.FailsOnly allowed (accumulate field aggregation accumulated element).1 := by
    have read := (element.failsOnly_fieldOrNull field).mono reads
    rw [accumulate]
    split
    · next failure failed => exact .error (read failure failed)
    · next candidate _ =>
        have accumulated := accumulates accumulated candidate
        split
        · exact .ok none
        · next failure failed => exact .error (accumulated failure failed)
  have looped := fails.forEach steps aggregation.initial state world
  simp only [Puller.aggregating]
  split
  · exact .ok none
  · generalize source.forEach (accumulate field aggregation) aggregation.initial state world =
      visited at looped ⊢
    rcases visited with ⟨failure | final, accumulated, after, worldAfter⟩
    · exact .error (looped failure rfl)
    · exact .ok _

/-- An operator other than a scan fails as its source does, for what cannot be read and as the
function does that it was given. -/
theorem stage (fails : source.FailsOnly allowed)
    (reads : ∀ failure, failure.IsOrdinary → allowed failure) {operator : Operator}
    (noScan : operator.isScan = false)
    (raises : ∀ failure, operator.Raises failure → allowed failure) :
    (source.stage operator).FailsOnly allowed := by
  cases operator with
  | scan entity => cases noScan
  | take count => exact fails.taking
  | skip count => exact fails.skipping
  | project columns =>
      exact fails.mapping fun element => (element.failsOnly_project columns).mono reads
  | predicateFilter predicate =>
      exact fails.filtering fun element failure failed => raises failure ⟨element, failed⟩
  | expressionFilter predicate expression =>
      exact fails.filtering fun element failure failed => raises failure ⟨element, failed⟩
  | sortBy keys => exact fails.sorting keys reads
  | aggregate field aggregation =>
      apply fails.aggregating field reads
      intro accumulated candidate
      cases aggregation with
      | least => exact .ok _
      | greatest => exact .ok _
      | fold initial step =>
          have folds : Outcome.FailsOnly allowed (step accumulated candidate) :=
            fun failure failed => raises failure ⟨accumulated, candidate, failed⟩
          exact folds.map some
  | map transform =>
      exact fails.mapping fun element failure failed => raises failure ⟨element, failed⟩

theorem stack (fails : source.FailsOnly allowed)
    (reads : ∀ failure, failure.IsOrdinary → allowed failure) {operators : List Operator}
    (noScan : ∀ operator ∈ operators, operator.isScan = false)
    (raises : ∀ operator ∈ operators, ∀ failure, operator.Raises failure → allowed failure) :
    (source.stack operators).FailsOnly allowed := by
  induction operators with
  | nil => exact fails
  | cons operator below inductionHypothesis =>
      have belowFails := inductionHypothesis
        (fun other member => noScan other (List.mem_cons_of_mem _ member))
        (fun other member => raises other (List.mem_cons_of_mem _ member))
      exact belowFails.stage reads (noScan operator List.mem_cons_self)
        (raises operator List.mem_cons_self)

theorem counting (fails : source.FailsOnly allowed) : source.counting.FailsOnly allowed := by
  rintro ⟨count, state⟩ world
  have pulls := fails state world
  simp only [Puller.counting]
  generalize source.pull state world = pulled at pulls ⊢
  rcases pulled with ⟨failure | (_ | value), after, worldAfter⟩
  · exact pulls
  · exact .ok none
  · exact .ok _

end FailsOnly

end Puller

end EntityCursor
