import EntityCursor.Failure
import EntityCursor.Value.Basic

/-!
Pullers: machines that deliver elements one at a time on demand. A puller has a state of its own and
shares a world with other machines. It comes with a bound on the elements it can still deliver,
which goes down with every delivered element, so that every loop over its elements ends.
-/

namespace EntityCursor

structure Puller (State World : Type) where
  pull : State → World → Outcome (Option Value) × State × World
  /-- A bound on the elements that are still to come. -/
  remaining : State → World → Nat
  remaining_pull : ∀ {state after : State} {world worldAfter : World} {value : Value},
    pull state world = (.ok (some value), after, worldAfter) →
      remaining after worldAfter < remaining state world

namespace Puller

variable {State World Result Final : Type}

/-- Hands elements to `step`, which goes on with a new intermediate result, ends the loop with a
final result or fails. Without a final result the loop goes on until the elements end or a pull
fails. -/
def loop (puller : Puller State World) (step : Result → Value → Outcome (Option Final) × Result) :
    (fuel : Nat) → Result → State → World → Outcome (Option Final) × Result × State × World
  | 0, result, state, world => (.ok none, result, state, world)
  | fuel + 1, result, state, world =>
      match puller.pull state world with
      | (.ok (some value), state, world) =>
          match step result value with
          | (.ok none, result) => puller.loop step fuel result state world
          | (outcome, result) => (outcome, result, state, world)
      | (.ok none, state, world) => (.ok none, result, state, world)
      | (.error failure, state, world) => (.error failure, result, state, world)

def forEach (puller : Puller State World) (step : Result → Value → Outcome (Option Final) × Result)
    (result : Result) (state : State) (world : World) :
    Outcome (Option Final) × Result × State × World :=
  puller.loop step (puller.remaining state world + 1) result state world

/-- Fuel beyond the number of elements that are still to come makes no difference. -/
theorem loop_eq_of_remaining_lt (puller : Puller State World)
    {step : Result → Value → Outcome (Option Final) × Result} {fuel other : Nat}
    {result : Result} {state : State} {world : World}
    (enough : puller.remaining state world < fuel)
    (otherEnough : puller.remaining state world < other) :
    puller.loop step fuel result state world = puller.loop step other result state world := by
  induction fuel generalizing other result state world with
  | zero => omega
  | succ fuel inductionHypothesis =>
      cases other with
      | zero => omega
      | succ other =>
          simp only [loop]
          split
          · next pulled =>
              have fewer := puller.remaining_pull pulled
              split
              · exact inductionHypothesis (by omega) (by omega)
              · rfl
          · rfl
          · rfl

theorem forEach_eq (puller : Puller State World)
    (step : Result → Value → Outcome (Option Final) × Result) (result : Result) (state : State)
    (world : World) :
    puller.forEach step result state world =
      match puller.pull state world with
      | (.ok (some value), state, world) =>
          match step result value with
          | (.ok none, result) => puller.forEach step result state world
          | (outcome, result) => (outcome, result, state, world)
      | (.ok none, state, world) => (.ok none, result, state, world)
      | (.error failure, state, world) => (.error failure, result, state, world) := by
  rw [forEach, loop]
  split
  · next pulled =>
      have fewer := puller.remaining_pull pulled
      split
      · exact puller.loop_eq_of_remaining_lt (by omega) (by omega)
      · rfl
  · rfl
  · rfl

theorem remaining_loop (puller : Puller State World)
    {step : Result → Value → Outcome (Option Final) × Result} {fuel : Nat}
    {result resultAfter : Result} {state after : State} {world worldAfter : World} {final : Final}
    (ended : puller.loop step fuel result state world =
      (.ok (some final), resultAfter, after, worldAfter)) :
    puller.remaining after worldAfter < puller.remaining state world := by
  induction fuel generalizing result state world with
  | zero => simp [loop] at ended
  | succ fuel inductionHypothesis =>
      simp only [loop] at ended
      split at ended
      · next pulled =>
          split at ended
          · exact Nat.lt_trans (inductionHypothesis ended) (puller.remaining_pull pulled)
          · simp only [Prod.mk.injEq] at ended
            obtain ⟨_, _, rfl, rfl⟩ := ended
            exact puller.remaining_pull pulled
      · simp at ended
      · simp at ended

theorem size_loop (puller : Puller State World)
    {step : Result → Value → Outcome (Option Final) × Result} {size : Result → Nat}
    (grows : ∀ result value, size (step result value).2 ≤ size result + 1)
    (fuel : Nat) (result : Result) (state : State) (world : World) :
    size (puller.loop step fuel result state world).2.1 ≤
      size result + puller.remaining state world := by
  induction fuel generalizing result state world with
  | zero => simp [loop]
  | succ fuel inductionHypothesis =>
      simp only [loop]
      split
      · next value middle worldBetween pulled =>
          have fewer := puller.remaining_pull pulled
          have grown := grows result value
          split
          · next next stepped =>
              have later := inductionHypothesis next middle worldBetween
              rw [stepped] at grown
              dsimp only at grown
              omega
          · next outcome next notGoing stepped =>
              rw [stepped] at grown
              dsimp only at grown ⊢
              omega
      · simp
      · simp

def counting (puller : Puller State World) : Puller (Nat × State) World where
  pull := fun (count, state) world =>
    match puller.pull state world with
    | (.ok (some value), state, world) => (.ok (some value), (count + 1, state), world)
    | (outcome, state, world) => (outcome, (count, state), world)
  remaining := fun (_, state) world => puller.remaining state world
  remaining_pull := by
    intro state after world worldAfter value delivered
    rcases pulled : puller.pull state.2 world with ⟨failure | (_ | found), middle, worldBetween⟩ <;>
      simp [pulled] at delivered
    obtain ⟨_, rfl, rfl⟩ := delivered
    exact puller.remaining_pull pulled

end Puller

end EntityCursor
