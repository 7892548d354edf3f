import EntityCursor.Chain.Operator
import EntityCursor.Pipeline.Puller

/-!
Operators at work. Each operator turns a puller for its source into a puller for its own elements
and remembers what it has to: how many elements it still takes or skips, what it has sorted, or
whether it has given its aggregate.
-/

namespace EntityCursor

/-- Narrows an element to columns. Columns are taken out of a record one after the other, so that a
repeated column is missing the second time. -/
def projectRecord : (columns : List String) → (record narrowed : Record) → Outcome Record
  | [], _, narrowed => .ok narrowed
  | column :: rest, record, narrowed =>
      match Fields.get? column record with
      | none => .error (.fieldNotSelected column)
      | some value =>
          projectRecord rest (Fields.erase column record) (Fields.set column value narrowed)

def Value.project (columns : List String) : Value → Outcome Value
  | .entity name fields => .ok (.record ((Entity.mk name fields).project columns))
  | .record fields => (projectRecord columns fields []).map .record
  | other => .error (.invalidOperation (.noColumns other.kind))

def Value.keyValues (element : Value) : List SortKey → Outcome (List Value)
  | [] => .ok []
  | key :: rest => do
      let value ← element.fieldOrNull key.field
      let others ← element.keyValues rest
      return value :: others

def sortByKeys (keys : List SortKey) (elements : List (List Value × Value)) : List Value :=
  (elements.mergeSort fun left right => SortKey.compareAll keys left.1 right.1 != .gt).map Prod.snd

/-- The candidate if nothing has accumulated or the candidate compares as wanted to what has; null
is no candidate. -/
def keepExtreme (wanted : Ordering) (accumulated : Option Value) (candidate : Value) :
    Option Value :=
  if candidate.isNull then accumulated
  else
    match accumulated with
    | none => some candidate
    | some current => if candidate.compare current = wanted then some candidate else some current

namespace Aggregation

def initial : Aggregation → Option Value
  | .fold initial _ => initial
  | _ => none

def step (aggregation : Aggregation) (accumulated : Option Value) (candidate : Value) :
    Outcome (Option Value) :=
  match aggregation with
  | .least => .ok (keepExtreme .lt accumulated candidate)
  | .greatest => .ok (keepExtreme .gt accumulated candidate)
  | .fold _ step => (step accumulated candidate).map some

end Aggregation

def Operator.Memory : Operator → Type
  | .take _ => Nat
  | .skip _ => Nat
  | .sortBy _ => Option (List Value)
  | .aggregate .. => Bool
  | _ => Unit

def Operator.start : (operator : Operator) → operator.Memory
  | .take count => count
  | .skip count => count
  | .sortBy _ => (none : Option (List Value))
  | .aggregate .. => false
  | .scan _ => ()
  | .project _ => ()
  | .predicateFilter _ => ()
  | .expressionFilter .. => ()
  | .map _ => ()

namespace Puller

variable {State World : Type}

/-- The first elements, as many as are left to take. -/
def taking (source : Puller State World) : Puller (Nat × State) World where
  pull := fun (left, state) world =>
    if left = 0 then (.ok none, (left, state), world)
    else
      match source.pull state world with
      | (.ok (some value), state, world) => (.ok (some value), (left - 1, state), world)
      | (outcome, state, world) => (outcome, (left, state), world)
  remaining := fun (_, state) world => source.remaining state world
  remaining_pull := by
    intro state after world worldAfter value delivered
    by_cases none : state.1 = 0
    · simp [none] at delivered
    · rcases pulled : source.pull state.2 world with
        ⟨failure | (_ | found), middle, worldBetween⟩ <;>
        simp [none, pulled] at delivered
      obtain ⟨_, rfl, rfl⟩ := delivered
      exact source.remaining_pull pulled

def skipPull (source : Puller State World) :
    (left : Nat) → State → World → Outcome (Option Value) × (Nat × State) × World
  | 0, state, world =>
      let (outcome, state, world) := source.pull state world
      (outcome, (0, state), world)
  | left + 1, state, world =>
      match source.pull state world with
      | (.ok (some _), state, world) => source.skipPull left state world
      | (.ok none, state, world) => (.ok none, (0, state), world)
      | (.error failure, state, world) => (.error failure, (left + 1, state), world)

theorem remaining_skipPull (source : Puller State World) {left : Nat} {state : State}
    {world worldAfter : World} {value : Value} {after : Nat × State}
    (delivered : source.skipPull left state world = (.ok (some value), after, worldAfter)) :
    source.remaining after.2 worldAfter < source.remaining state world := by
  induction left generalizing state world with
  | zero =>
      simp only [skipPull, Prod.mk.injEq] at delivered
      obtain ⟨outcome, rfl, rfl⟩ := delivered
      exact source.remaining_pull (Prod.ext outcome rfl)
  | succ left inductionHypothesis =>
      simp only [skipPull] at delivered
      split at delivered
      · next pulled =>
          exact Nat.lt_trans (inductionHypothesis delivered) (source.remaining_pull pulled)
      · simp at delivered
      · simp at delivered

/-- The elements after the first ones, as many as are left to skip. -/
def skipping (source : Puller State World) : Puller (Nat × State) World where
  pull := fun (left, state) world => source.skipPull left state world
  remaining := fun (_, state) world => source.remaining state world
  remaining_pull := by
    intro state after world worldAfter value delivered
    exact source.remaining_skipPull delivered

def accepted (predicate : Predicate) (_ : Unit) (value : Value) : Outcome (Option Value) × Unit :=
  match predicate value with
  | .ok true => (.ok (some value), ())
  | .ok false => (.ok none, ())
  | .error failure => (.error failure, ())

def filtering (predicate : Predicate) (source : Puller State World) :
    Puller (Unit × State) World where
  pull := fun (_, state) world =>
    let (outcome, _, state, world) := source.forEach (accepted predicate) () state world
    (outcome, ((), state), world)
  remaining := fun (_, state) world => source.remaining state world
  remaining_pull := by
    intro state after world worldAfter value delivered
    simp only [Prod.mk.injEq] at delivered
    obtain ⟨outcome, rfl, rfl⟩ := delivered
    exact source.remaining_loop (Prod.ext outcome rfl)

def mapping (transform : Transform) (source : Puller State World) :
    Puller (Unit × State) World where
  pull := fun (_, state) world =>
    match source.pull state world with
    | (.ok (some value), state, world) => ((transform value).map some, ((), state), world)
    | (outcome, state, world) => (outcome, ((), state), world)
  remaining := fun (_, state) world => source.remaining state world
  remaining_pull := by
    intro state after world worldAfter value delivered
    rcases pulled : source.pull state.2 world with ⟨failure | (_ | found), middle, worldBetween⟩ <;>
      simp [pulled] at delivered
    obtain ⟨_, rfl, rfl⟩ := delivered
    exact source.remaining_pull pulled

/-- A step that gathers elements with their values under sort keys, the last one in front. -/
def gatherKeyed (keys : List SortKey) (gathered : List (List Value × Value)) (element : Value) :
    Outcome (Option Empty) × List (List Value × Value) :=
  match element.keyValues keys with
  | .ok values => (.ok none, (values, element) :: gathered)
  | .error failure => (.error failure, gathered)

theorem length_gatherKeyed (keys : List SortKey) (gathered : List (List Value × Value))
    (element : Value) :
    (gatherKeyed keys gathered element).2.length ≤ gathered.length + 1 := by
  unfold gatherKeyed
  split <;> simp

/-- The elements in the order of sort keys. All of them are pulled before the first one is
delivered; if that fails, the next pull begins anew. -/
def sorting (keys : List SortKey) (source : Puller State World) :
    Puller (Option (List Value) × State) World where
  pull := fun (sorted, state) world =>
    match sorted with
    | some [] => (.ok none, (some [], state), world)
    | some (first :: rest) => (.ok (some first), (some rest, state), world)
    | none =>
        match source.forEach (gatherKeyed keys) [] state world with
        | (.error failure, _, state, world) => (.error failure, (none, state), world)
        | (.ok _, gathered, state, world) =>
            match sortByKeys keys gathered.reverse with
            | [] => (.ok none, (some [], state), world)
            | first :: rest => (.ok (some first), (some rest, state), world)
  remaining := fun (sorted, state) world =>
    match sorted with
    | some elements => elements.length
    | none => source.remaining state world
  remaining_pull := by
    intro state after world worldAfter value delivered
    obtain ⟨sorted, state⟩ := state
    rcases sorted with _ | (_ | ⟨first, rest⟩)
    · have bound := source.size_loop (length_gatherKeyed keys)
        (source.remaining state world + 1) [] state world
      rcases ended : source.forEach (gatherKeyed keys) [] state world with
        ⟨failure | final, gathered, middle, worldBetween⟩
      · simp [ended] at delivered
      · rcases order : sortByKeys keys gathered.reverse with _ | ⟨first, rest⟩
        · simp [ended, order] at delivered
        · have size := congrArg List.length order
          simp [sortByKeys] at size
          simp only [forEach] at ended
          simp [ended] at bound
          simp [ended, forEach, order] at delivered
          obtain ⟨_, rfl, rfl⟩ := delivered
          simp
          omega
    · simp at delivered
    · simp at delivered
      obtain ⟨_, rfl, rfl⟩ := delivered
      simp

def accumulate (field : String) (aggregation : Aggregation) (accumulated : Option Value)
    (element : Value) : Outcome (Option Empty) × Option Value :=
  match element.fieldOrNull field with
  | .error failure => (.error failure, accumulated)
  | .ok candidate =>
      match aggregation.step accumulated candidate with
      | .ok accumulated => (.ok none, accumulated)
      | .error failure => (.error failure, accumulated)

/-- One element: what the values of a field accumulate to, or null. The first pull is the only one
that looks for it, whether it fails or not. -/
def aggregating (field : String) (aggregation : Aggregation) (source : Puller State World) :
    Puller (Bool × State) World where
  pull := fun (done, state) world =>
    if done then (.ok none, (true, state), world)
    else
      match source.forEach (accumulate field aggregation) aggregation.initial state world with
      | (.ok _, accumulated, state, world) =>
          (.ok (some (accumulated.getD .null)), (true, state), world)
      | (.error failure, _, state, world) => (.error failure, (true, state), world)
  remaining := fun (done, _) _ => if done then 0 else 1
  remaining_pull := by
    intro state after world worldAfter value delivered
    obtain ⟨done, state⟩ := state
    cases done with
    | true => simp at delivered
    | false =>
        rcases ended : source.forEach (accumulate field aggregation) aggregation.initial state world
          with ⟨failure | final, accumulated, middle, worldBetween⟩ <;>
          simp [ended] at delivered
        obtain ⟨_, rfl, rfl⟩ := delivered
        simp

/-- A scan is no stage: pulling fails. -/
def refusingScan (source : Puller State World) : Puller (Unit × State) World where
  pull := fun state world => (.error (.defect .scanAsLocalStage), state, world)
  remaining := fun (_, state) world => source.remaining state world
  remaining_pull := by
    intro state after world worldAfter value delivered
    simp at delivered

def stage (source : Puller State World) :
    (operator : Operator) → Puller (operator.Memory × State) World
  | .scan _ => source.refusingScan
  | .take _ => source.taking
  | .skip _ => source.skipping
  | .project columns => source.mapping (Value.project columns)
  | .predicateFilter predicate => source.filtering predicate
  | .expressionFilter predicate _ => source.filtering predicate
  | .sortBy keys => source.sorting keys
  | .aggregate field aggregation => source.aggregating field aggregation
  | .map transform => source.mapping transform

end Puller

/-! Stacks of operators. -/

/-- What a stack of operators remembers, the operator applied last in front. -/
def Running (Base : Type) : List Operator → Type
  | [] => Base
  | operator :: below => operator.Memory × Running Base below

namespace Running

variable {Base : Type}

def start (base : Base) : (operators : List Operator) → Running Base operators
  | [] => base
  | operator :: below => (operator.start, start base below)

def base : {operators : List Operator} → Running Base operators → Base
  | [], running => running
  | _ :: _, (_, below) => base below

def setBase (changed : Base) : {operators : List Operator} → Running Base operators →
    Running Base operators
  | [], _ => changed
  | _ :: _, (memory, below) => (memory, setBase changed below)

end Running

def Puller.stack {Base World : Type} (source : Puller Base World) :
    (operators : List Operator) → Puller (Running Base operators) World
  | [] => source
  | operator :: below => (source.stack below).stage operator

end EntityCursor
