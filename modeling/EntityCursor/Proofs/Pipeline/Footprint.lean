import EntityCursor.Pipeline.Stage

/-!
The footprint of a stack of operators on its source. Whatever a stack does, it only ever pulls the
source at its bottom, so that what every pull of the source preserves is preserved by the stack.
-/

namespace EntityCursor

namespace Puller

variable {State World Result Final : Type}

/-- Pulling some number of times leads from one state and world to others. -/
inductive Leads (puller : Puller State World) : State → World → State → World → Prop where
  | rest {state : State} {world : World} : Leads puller state world state world
  | pull {state after : State} {world worldAfter : World} :
      Leads puller (puller.pull state world).2.1 (puller.pull state world).2.2 after worldAfter →
      Leads puller state world after worldAfter

namespace Leads

variable {puller : Puller State World} {state between after : State}
  {world worldBetween worldAfter : World}

theorem trans (first : puller.Leads state world between worldBetween)
    (second : puller.Leads between worldBetween after worldAfter) :
    puller.Leads state world after worldAfter := by
  induction first with
  | rest => exact second
  | pull _ inductionHypothesis => exact .pull (inductionHypothesis second)

theorem of_pull {outcome : Outcome (Option Value)}
    (pulled : puller.pull state world = (outcome, after, worldAfter)) :
    puller.Leads state world after worldAfter := by
  apply Leads.pull
  rw [pulled]
  exact .rest

end Leads

theorem leads_pull (puller : Puller State World) (state : State) (world : World) :
    puller.Leads state world (puller.pull state world).2.1 (puller.pull state world).2.2 :=
  .of_pull rfl

theorem leads_loop (puller : Puller State World)
    (step : Result → Value → Outcome (Option Final) × Result) (fuel : Nat) (result : Result)
    (state : State) (world : World) :
    puller.Leads state world (puller.loop step fuel result state world).2.2.1
      (puller.loop step fuel result state world).2.2.2 := by
  induction fuel generalizing result state world with
  | zero => exact .rest
  | succ fuel inductionHypothesis =>
      rcases pulled : puller.pull state world with ⟨failure | (_ | value), after, worldAfter⟩
      · simp only [loop, pulled]
        exact .of_pull pulled
      · simp only [loop, pulled]
        exact .of_pull pulled
      · rcases stepped : step result value with ⟨failure | (_ | final), next⟩
        · simp only [loop, pulled, stepped]
          exact .of_pull pulled
        · simp only [loop, pulled, stepped]
          exact (Leads.of_pull pulled).trans (inductionHypothesis next after worldAfter)
        · simp only [loop, pulled, stepped]
          exact .of_pull pulled

theorem leads_forEach (puller : Puller State World)
    (step : Result → Value → Outcome (Option Final) × Result) (result : Result)
    (state : State) (world : World) :
    puller.Leads state world (puller.forEach step result state world).2.2.1
      (puller.forEach step result state world).2.2.2 :=
  puller.leads_loop step _ result state world

theorem leads_skipPull (source : Puller State World) (left : Nat) (state : State) (world : World) :
    source.Leads state world (source.skipPull left state world).2.1.2
      (source.skipPull left state world).2.2 := by
  induction left generalizing state world with
  | zero => exact .of_pull rfl
  | succ left inductionHypothesis =>
      rcases pulled : source.pull state world with ⟨failure | (_ | value), after, worldAfter⟩
      · simp only [skipPull, pulled]
        exact .of_pull pulled
      · simp only [skipPull, pulled]
        exact .of_pull pulled
      · simp only [skipPull, pulled]
        exact (Leads.of_pull pulled).trans (inductionHypothesis after worldAfter)

theorem leads_mapping (source : Puller State World) (transform : Transform)
    (running : Unit × State) (world : World) :
    source.Leads running.2 world ((source.mapping transform).pull running world).2.1.2
      ((source.mapping transform).pull running world).2.2 := by
  rcases pulled : source.pull running.2 world with ⟨failure | (_ | value), after, worldAfter⟩
  all_goals
    simp only [mapping, pulled]
    exact .of_pull pulled

theorem leads_taking (source : Puller State World) (running : Nat × State) (world : World) :
    source.Leads running.2 world (source.taking.pull running world).2.1.2
      (source.taking.pull running world).2.2 := by
  by_cases done : running.1 = 0
  · simp only [taking, done, if_true]
    exact .rest
  · rcases pulled : source.pull running.2 world with ⟨failure | (_ | value), after, worldAfter⟩
    all_goals
      simp only [taking, done, if_false, pulled]
      exact .of_pull pulled

theorem leads_sorting (source : Puller State World) (keys : List SortKey)
    (running : Option (List Value) × State) (world : World) :
    source.Leads running.2 world ((source.sorting keys).pull running world).2.1.2
      ((source.sorting keys).pull running world).2.2 := by
  obtain ⟨_ | (_ | ⟨first, rest⟩), state⟩ := running
  · have looped := source.leads_forEach (gatherKeyed keys) [] state world
    simp only [sorting]
    rcases visited : source.forEach (gatherKeyed keys) [] state world with
      ⟨failure | final, gathered, after, worldAfter⟩
    · rw [visited] at looped
      exact looped
    · rw [visited] at looped
      cases order : sortByKeys keys gathered.reverse <;> simpa [order] using looped
  · exact .rest
  · exact .rest

theorem leads_aggregating (source : Puller State World) (field : String)
    (aggregation : Aggregation) (running : Bool × State) (world : World) :
    source.Leads running.2 world ((source.aggregating field aggregation).pull running world).2.1.2
      ((source.aggregating field aggregation).pull running world).2.2 := by
  obtain ⟨_ | _, state⟩ := running
  · have looped := source.leads_forEach (accumulate field aggregation) aggregation.initial state
      world
    simp only [aggregating]
    rcases visited : source.forEach (accumulate field aggregation) aggregation.initial state world
      with ⟨failure | final, accumulated, after, worldAfter⟩
    all_goals
      rw [visited] at looped
      exact looped
  · exact .rest

/-- A pull of an operator pulls its source some number of times. -/
theorem leads_stage (source : Puller State World) (operator : Operator)
    (running : operator.Memory × State) (world : World) :
    source.Leads running.2 world ((source.stage operator).pull running world).2.1.2
      ((source.stage operator).pull running world).2.2 := by
  cases operator with
  | scan entity => exact .rest
  | take count => exact source.leads_taking running world
  | skip count => exact source.leads_skipPull running.1 running.2 world
  | project columns => exact source.leads_mapping (Value.project columns) running world
  | predicateFilter predicate =>
      exact source.leads_forEach (accepted predicate) () running.2 world
  | expressionFilter predicate expression =>
      exact source.leads_forEach (accepted predicate) () running.2 world
  | sortBy keys => exact source.leads_sorting keys running world
  | aggregate field aggregation => exact source.leads_aggregating field aggregation running world
  | map transform => exact source.leads_mapping transform running world

theorem Leads.of_stage {source : Puller State World} {operator : Operator}
    {running after : operator.Memory × State} {world worldAfter : World}
    (leads : (source.stage operator).Leads running world after worldAfter) :
    source.Leads running.2 world after.2 worldAfter := by
  induction leads with
  | rest => exact .rest
  | pull _ inductionHypothesis =>
      exact (source.leads_stage operator _ _).trans inductionHypothesis

theorem Leads.of_stack {source : Puller State World} {operators : List Operator}
    {running after : Running State operators} {world worldAfter : World}
    (leads : (source.stack operators).Leads running world after worldAfter) :
    source.Leads running.base world after.base worldAfter := by
  induction operators with
  | nil => exact leads
  | cons operator below inductionHypothesis => exact inductionHypothesis leads.of_stage

theorem leads_counting (puller : Puller State World) (running : Nat × State) (world : World) :
    puller.Leads running.2 world (puller.counting.pull running world).2.1.2
      (puller.counting.pull running world).2.2 := by
  rcases pulled : puller.pull running.2 world with ⟨failure | (_ | value), after, worldAfter⟩
  all_goals
    simp only [counting, pulled]
    exact .of_pull pulled

theorem Leads.of_counting {puller : Puller State World} {running after : Nat × State}
    {world worldAfter : World} (leads : puller.counting.Leads running world after worldAfter) :
    puller.Leads running.2 world after.2 worldAfter := by
  induction leads with
  | rest => exact .rest
  | pull _ inductionHypothesis => exact (puller.leads_counting _ _).trans inductionHypothesis

end Puller

end EntityCursor
