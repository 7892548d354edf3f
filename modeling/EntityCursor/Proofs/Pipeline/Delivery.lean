import EntityCursor.Proofs.Pipeline.Footprint

/-!
Properties of delivered elements. A puller keeps an invariant of its state with every pull, and as
long as it holds, the elements have a property. What an operator makes of a property depends on the
operator: most of them deliver what they get, while projections and transformations deliver
something else. The invariant of a stack says that what its operators have put aside has the
property of their own level.
-/

namespace EntityCursor

namespace Operator

/-- An operator makes elements with the wanted property of good ones. -/
def Carries (good wanted : Value → Prop) : Operator → Prop
  | .scan _ => True
  | .project columns => ∀ element result, good element → element.project columns = .ok result →
      wanted result
  | .map transform => ∀ element result, good element → transform element = .ok result →
      wanted result
  | .aggregate .. => ∀ value, wanted value
  | _ => ∀ element, good element → wanted element

/-- What an operator has put aside has a property. -/
def HasAside (good : Value → Prop) : (operator : Operator) → operator.Memory → Prop
  | .sortBy _, (sorted : Option (List Value)) => ∀ elements ∈ sorted, ∀ element ∈ elements,
      good element
  | _, _ => True

end Operator

namespace Puller

variable {State World Result Final : Type}

/-- Every pull keeps `kept` of the state, and what it delivers then is `good`. -/
def Yields (puller : Puller State World) (kept : State → Prop) (good : Value → Prop) : Prop :=
  ∀ state world, kept state →
    kept (puller.pull state world).2.1 ∧
      ∀ value, (puller.pull state world).1 = .ok (some value) → good value

namespace Yields

variable {source : Puller State World} {kept : State → Prop} {good wanted : Value → Prop}

theorem mono (yields : source.Yields kept good) (implies : ∀ value, good value → wanted value) :
    source.Yields kept wanted :=
  fun state world holds => ⟨(yields state world holds).1,
    fun value delivered => implies value ((yields state world holds).2 value delivered)⟩

theorem kept_of_leads (yields : source.Yields kept good) {state after : State}
    {world worldAfter : World} (leads : source.Leads state world after worldAfter)
    (holds : kept state) : kept after := by
  induction leads with
  | rest => exact holds
  | pull _ inductionHypothesis => exact inductionHypothesis (yields _ _ holds).1

/-- What a step keeps of its result when it gets a good element, a loop keeps. -/
theorem loop (yields : source.Yields kept good)
    {step : Result → Value → Outcome (Option Final) × Result} (keeps : Result → Prop)
    (ends : Final → Prop)
    (steps : ∀ result value, keeps result → good value → keeps (step result value).2 ∧
      ∀ final, (step result value).1 = .ok (some final) → ends final)
    (fuel : Nat) {result : Result} (start : keeps result) {state : State} (world : World)
    (holds : kept state) :
    kept (source.loop step fuel result state world).2.2.1 ∧
      keeps (source.loop step fuel result state world).2.1 ∧
      ∀ final, (source.loop step fuel result state world).1 = .ok (some final) → ends final := by
  induction fuel generalizing result state world with
  | zero => exact ⟨holds, start, by simp [Puller.loop]⟩
  | succ fuel inductionHypothesis =>
      obtain ⟨keptAfter, delivered⟩ := yields state world holds
      rcases pulled : source.pull state world with ⟨failure | (_ | value), after, worldAfter⟩
      · simp only [Puller.loop, pulled] at keptAfter ⊢
        exact ⟨keptAfter, start, by simp⟩
      · simp only [Puller.loop, pulled] at keptAfter ⊢
        exact ⟨keptAfter, start, by simp⟩
      · simp only [pulled] at keptAfter delivered
        have stepped := steps result value start (delivered value rfl)
        rcases next : step result value with ⟨failure | (_ | final), resultAfter⟩
        · simp only [Puller.loop, pulled, next] at stepped ⊢
          exact ⟨keptAfter, stepped⟩
        · simp only [Puller.loop, pulled, next] at stepped ⊢
          exact inductionHypothesis stepped.1 worldAfter keptAfter
        · simp only [Puller.loop, pulled, next] at stepped ⊢
          exact ⟨keptAfter, stepped⟩

theorem forEach (yields : source.Yields kept good)
    {step : Result → Value → Outcome (Option Final) × Result} (keeps : Result → Prop)
    (ends : Final → Prop)
    (steps : ∀ result value, keeps result → good value → keeps (step result value).2 ∧
      ∀ final, (step result value).1 = .ok (some final) → ends final)
    {result : Result} (start : keeps result) {state : State} (world : World)
    (holds : kept state) :
    kept (source.forEach step result state world).2.2.1 ∧
      keeps (source.forEach step result state world).2.1 ∧
      ∀ final, (source.forEach step result state world).1 = .ok (some final) → ends final :=
  yields.loop keeps ends steps _ start world holds

/-! Operators. -/

theorem taking (yields : source.Yields kept good) :
    source.taking.Yields (fun running => kept running.2) good := by
  rintro ⟨left, state⟩ world holds
  by_cases done : left = 0
  · simp only [Puller.taking, done, if_true]
    exact ⟨holds, by simp⟩
  · have step := yields state world holds
    rcases pulled : source.pull state world with ⟨failure | (_ | value), after, worldAfter⟩
    all_goals
      simp only [Puller.taking, done, if_false, pulled] at step ⊢
      exact step

theorem skipPull (yields : source.Yields kept good) (left : Nat) {state : State} (world : World)
    (holds : kept state) :
    kept (source.skipPull left state world).2.1.2 ∧
      ∀ value, (source.skipPull left state world).1 = .ok (some value) → good value := by
  induction left generalizing state world with
  | zero => exact yields state world holds
  | succ left inductionHypothesis =>
      have step := yields state world holds
      rcases pulled : source.pull state world with ⟨failure | (_ | value), after, worldAfter⟩
      · simp only [Puller.skipPull, pulled] at step ⊢
        exact ⟨step.1, by simp⟩
      · simp only [Puller.skipPull, pulled] at step ⊢
        exact ⟨step.1, by simp⟩
      · simp only [Puller.skipPull, pulled] at step ⊢
        exact inductionHypothesis worldAfter step.1

theorem skipping (yields : source.Yields kept good) :
    source.skipping.Yields (fun running => kept running.2) good :=
  fun running world holds => yields.skipPull running.1 world holds

theorem filtering (yields : source.Yields kept good) (predicate : Predicate) :
    (source.filtering predicate).Yields (fun running => kept running.2) good := by
  intro running world holds
  have passes : ∀ (nothing : Unit) value, True → good value →
      True ∧ ∀ final, (accepted predicate nothing value).1 = .ok (some final) → good final := by
    intro nothing value _ isGood
    refine ⟨trivial, ?_⟩
    intro final accepts
    rw [accepted] at accepts
    split at accepts
    · cases accepts
      exact isGood
    · cases accepts
    · cases accepts
  obtain ⟨keptAfter, _, delivered⟩ :=
    yields.forEach (fun _ => True) good passes trivial world holds
  exact ⟨keptAfter, delivered⟩

theorem mapping (yields : source.Yields kept good) {transform : Transform}
    (carries : ∀ element result, good element → transform element = .ok result → wanted result) :
    (source.mapping transform).Yields (fun running => kept running.2) wanted := by
  rintro ⟨_, state⟩ world holds
  have step := yields state world holds
  rcases pulled : source.pull state world with ⟨failure | (_ | value), after, worldAfter⟩
  · simp only [Puller.mapping, pulled] at step ⊢
    exact ⟨step.1, by simp⟩
  · simp only [Puller.mapping, pulled] at step ⊢
    exact ⟨step.1, by simp⟩
  · simp only [Puller.mapping, pulled] at step ⊢
    refine ⟨step.1, ?_⟩
    intro result transformed
    cases outcome : transform value with
    | error failure =>
        rw [outcome] at transformed
        cases transformed
    | ok _ =>
        rw [outcome] at transformed
        cases transformed
        exact carries value result (step.2 value rfl) outcome

theorem mem_sortByKeys {keys : List SortKey} {elements : List (List Value × Value)} {value : Value}
    (member : value ∈ sortByKeys keys elements) : ∃ values, (values, value) ∈ elements := by
  obtain ⟨⟨values, _⟩, present, rfl⟩ := List.mem_map.mp member
  exact ⟨values, List.mem_mergeSort.mp present⟩

theorem sorting (yields : source.Yields kept good) (keys : List SortKey) :
    (source.sorting keys).Yields
      (fun running => (∀ sorted ∈ running.1, ∀ element ∈ sorted, good element) ∧ kept running.2)
      good := by
  rintro ⟨_ | (_ | ⟨first, rest⟩), state⟩ world ⟨putAside, holds⟩
  · have gathers : ∀ (gathered : List (List Value × Value)) element,
        (∀ pair ∈ gathered, good pair.2) → good element →
        (∀ pair ∈ (gatherKeyed keys gathered element).2, good pair.2) ∧
          ∀ final, (gatherKeyed keys gathered element).1 = .ok (some final) → False := by
      intro gathered element allGood isGood
      rw [gatherKeyed]
      split
      · refine ⟨?_, by simp⟩
        intro pair member
        rcases List.mem_cons.mp member with rfl | member
        · exact isGood
        · exact allGood pair member
      · exact ⟨allGood, by simp⟩
    have nothing : ∀ pair ∈ ([] : List (List Value × Value)), good pair.2 := by simp
    have looped := yields.forEach _ _ gathers nothing world holds
    rcases visited : source.forEach (gatherKeyed keys) [] state world with
      ⟨failure | final, gathered, after, worldAfter⟩
    · simp only [Puller.sorting, visited] at looped ⊢
      exact ⟨⟨by simp, looped.1⟩, by simp⟩
    · simp only [visited] at looped
      have ordered : ∀ element ∈ sortByKeys keys gathered.reverse, good element := by
        intro element member
        obtain ⟨values, present⟩ := mem_sortByKeys member
        exact looped.2.1 _ (List.mem_reverse.mp present)
      simp only [Puller.sorting, visited]
      cases order : sortByKeys keys gathered.reverse with
      | nil => exact ⟨⟨by simp, looped.1⟩, by simp⟩
      | cons first rest =>
          rw [order] at ordered
          obtain ⟨isGood, othersGood⟩ := List.forall_mem_cons.mp ordered
          refine ⟨⟨?_, looped.1⟩, ?_⟩
          · rintro sorted ⟨⟩
            exact othersGood
          · rintro value ⟨⟩
            exact isGood
  · exact ⟨⟨putAside, holds⟩, by simp [Puller.sorting]⟩
  · obtain ⟨isGood, othersGood⟩ := List.forall_mem_cons.mp (putAside (first :: rest) rfl)
    refine ⟨⟨?_, holds⟩, ?_⟩
    · rintro sorted ⟨⟩
      exact othersGood
    · rintro value ⟨⟩
      exact isGood

theorem aggregating (yields : source.Yields kept good) (field : String)
    (aggregation : Aggregation) (carries : ∀ value, wanted value) :
    (source.aggregating field aggregation).Yields (fun running => kept running.2) wanted := by
  intro running world holds
  refine ⟨?_, fun value _ => carries value⟩
  exact yields.kept_of_leads (source.leads_aggregating field aggregation running world) holds

theorem refusingScan (source : Puller State World) (kept : State → Prop) (wanted : Value → Prop) :
    source.refusingScan.Yields (fun running => kept running.2) wanted := by
  intro running world holds
  exact ⟨holds, by simp [Puller.refusingScan]⟩

theorem stage (yields : source.Yields kept good) {operator : Operator}
    (carries : operator.Carries good wanted) :
    (source.stage operator).Yields
      (fun running => operator.HasAside wanted running.1 ∧ kept running.2) wanted := by
  have remember {Memory : Type} {puller : Puller (Memory × State) World}
      (keeps : puller.Yields (fun running => kept running.2) wanted) :
      puller.Yields (fun running => True ∧ kept running.2) wanted :=
    fun running world holds => ⟨⟨trivial, (keeps running world holds.2).1⟩,
      (keeps running world holds.2).2⟩
  cases operator with
  | scan entity => exact remember (refusingScan source kept wanted)
  | take count => exact remember (yields.taking.mono carries)
  | skip count => exact remember (yields.skipping.mono carries)
  | project columns => exact remember (yields.mapping carries)
  | predicateFilter predicate => exact remember ((yields.filtering predicate).mono carries)
  | expressionFilter predicate _ => exact remember ((yields.filtering predicate).mono carries)
  | sortBy keys => exact (yields.mono carries).sorting keys
  | aggregate field aggregation => exact remember (yields.aggregating field aggregation carries)
  | map transform => exact remember (yields.mapping carries)

theorem counting (yields : source.Yields kept good) :
    source.counting.Yields (fun running => kept running.2) good := by
  rintro ⟨count, state⟩ world holds
  have step := yields state world holds
  rcases pulled : source.pull state world with ⟨failure | (_ | value), after, worldAfter⟩
  all_goals
    simp only [Puller.counting, pulled] at step ⊢
    exact step

end Yields

end Puller

/-! Stacks of operators. -/

section Stacks

variable {Base World : Type} {kept : Base → Prop}

/-- The state of the source is kept, and what each operator of a stack has put aside has the
property that belongs to the operators up to it. -/
def Running.Within (kept : Base → Prop) (good : List Operator → Value → Prop) :
    {operators : List Operator} → Running Base operators → Prop
  | [], base => kept base
  | operator :: below, (memory, running) =>
      operator.HasAside (good (operator :: below)) memory ∧ Within kept good running

theorem Running.within_start {good : List Operator → Value → Prop} {base : Base}
    (holds : kept base) (operators : List Operator) :
    (Running.start base operators).Within kept good := by
  induction operators with
  | nil => exact holds
  | cons operator below inductionHypothesis =>
      refine ⟨?_, inductionHypothesis⟩
      cases operator with
      | sortBy keys =>
          rintro sorted ⟨⟩
      | _ => trivial

theorem Puller.Yields.stack {source : Puller Base World} (good : List Operator → Value → Prop)
    (yields : source.Yields kept (good [])) {operators : List Operator}
    (carries : ∀ operator ∈ operators, ∀ below,
      operator.Carries (good below) (good (operator :: below))) :
    (source.stack operators).Yields (fun running => running.Within kept good) (good operators) := by
  induction operators with
  | nil => exact yields
  | cons operator below inductionHypothesis =>
      have belowYields := inductionHypothesis fun other member =>
        carries other (List.mem_cons_of_mem _ member)
      exact belowYields.stage (carries operator List.mem_cons_self below)

end Stacks

end EntityCursor
