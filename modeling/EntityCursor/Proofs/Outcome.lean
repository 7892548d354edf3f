import EntityCursor.Failure

/-!
Outcomes in sequence, with failures of any kind.
-/

namespace EntityCursor

namespace Outcome

variable {Failure Result Next : Type}

@[simp]
theorem ok_bind (result : Result) (next : Result → Except Failure Next) :
    ((.ok result : Except Failure Result) >>= next) = next result := rfl

@[simp]
theorem error_bind (failure : Failure) (next : Result → Except Failure Next) :
    ((.error failure : Except Failure Result) >>= next) = .error failure := rfl

@[simp]
theorem pure_eq (result : Result) : (pure result : Except Failure Result) = .ok result := rfl

@[simp]
theorem bind_eq_ok {outcome : Except Failure Result} {next : Result → Except Failure Next}
    {final : Next} :
    (outcome >>= next) = .ok final ↔ ∃ result, outcome = .ok result ∧ next result = .ok final := by
  cases outcome <;> simp

@[simp]
theorem bind_eq_error {outcome : Except Failure Result} {next : Result → Except Failure Next}
    {failure : Failure} :
    (outcome >>= next) = .error failure ↔
      outcome = .error failure ∨ ∃ result, outcome = .ok result ∧ next result = .error failure := by
  cases outcome <;> simp

@[simp]
theorem map_eq_ok {outcome : Except Failure Result} {change : Result → Next} {final : Next} :
    outcome.map change = .ok final ↔ ∃ result, outcome = .ok result ∧ change result = final := by
  cases outcome <;> simp [Except.map]

/-- The failures of an outcome are of an allowed sort. -/
def FailsOnly (allowed : Failure → Prop) (outcome : Except Failure Result) : Prop :=
  ∀ failure, outcome = .error failure → allowed failure

namespace FailsOnly

variable {allowed wider : Failure → Prop} {outcome : Except Failure Result}

theorem ok (result : Result) : FailsOnly allowed (.ok result) := by
  intro failure failed
  cases failed

theorem error {failure : Failure} (isAllowed : allowed failure) :
    FailsOnly allowed (.error failure : Except Failure Result) := by
  rintro _ ⟨⟩
  exact isAllowed

theorem mono (fails : FailsOnly allowed outcome)
    (widens : ∀ failure, allowed failure → wider failure) : FailsOnly wider outcome :=
  fun failure failed => widens failure (fails failure failed)

theorem bind (fails : FailsOnly allowed outcome) {next : Result → Except Failure Next}
    (later : ∀ result, outcome = .ok result → FailsOnly allowed (next result)) :
    FailsOnly allowed (outcome >>= next) := by
  cases outcome with
  | error failure => exact .error (fails failure rfl)
  | ok result => exact later result rfl

theorem map (fails : FailsOnly allowed outcome) (change : Result → Next) :
    FailsOnly allowed (outcome.map change) := by
  cases outcome with
  | error failure => exact .error (fails failure rfl)
  | ok result => exact .ok _

end FailsOnly

end Outcome

end EntityCursor
