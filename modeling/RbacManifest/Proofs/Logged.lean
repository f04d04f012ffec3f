import RbacManifest.Logged

/-!
# Outcomes of logged results

The outcome of a result depends on no record of the log, so the outcomes of composed results are
composed as outcomes alone.
-/

namespace RbacManifest

namespace Logged

variable {α β : Type}

@[simp]
theorem outcome_of {outcome : Except Failure α} : (of outcome).outcome = outcome := rfl

@[simp]
theorem outcome_record {level : LogLevel} {message : String} :
    (record level message).outcome = .ok () := rfl

@[simp]
theorem outcome_pure {value : α} : (pure value : Logged α).outcome = .ok value := rfl

@[simp]
theorem outcome_bind {first : Logged α} {next : α → Logged β} :
    (first >>= next).outcome = first.outcome >>= fun value => (next value).outcome := by
  change (andThen first next).outcome = _
  rw [andThen]
  cases first.outcome <;> rfl

theorem of_ok_bind {value : α} {next : α → Logged β} :
    (of (.ok value) >>= next) = next value := rfl

end Logged

/-- A composed outcome is a result exactly when both of its parts are. -/
theorem Except.bind_eq_ok_iff {ε α β : Type} {first : Except ε α} {next : α → Except ε β}
    {result : β} :
    (first >>= next) = .ok result ↔ ∃ value, first = .ok value ∧ next value = .ok result := by
  cases first with
  | error failure => simp [bind, Except.bind]
  | ok value => simp [bind, Except.bind]

/-- A check in front of an outcome passes exactly when both do. -/
theorem Except.check_bind_eq_ok_iff {ε α : Type} {first : Except ε Unit} {next : Except ε α}
    {result : α} :
    (first >>= fun _ => next) = .ok result ↔ first = .ok () ∧ next = .ok result := by
  rw [Except.bind_eq_ok_iff]
  exact ⟨fun ⟨(), both⟩ => both, fun both => ⟨(), both⟩⟩

theorem Except.map_eq_error_iff {ε α β : Type} {outcome : Except ε α} {change : α → β}
    {failure : ε} :
    outcome.map change = .error failure ↔ outcome = .error failure := by
  cases outcome <;> simp [Except.map]

theorem Except.map_eq_ok_iff {ε α β : Type} {outcome : Except ε α} {change : α → β} {result : β} :
    outcome.map change = .ok result ↔ ∃ value, outcome = .ok value ∧ change value = result := by
  cases outcome <;> simp [Except.map]

theorem Except.exists_map_iff {ε α β : Type} {outcome : Except ε α} {change : α → β} :
    (∃ result, outcome.map change = .ok result) ↔ ∃ value, outcome = .ok value := by
  cases outcome <;> simp [Except.map]

theorem Except.mapError_eq_ok_iff {ε φ α : Type} {outcome : Except ε α} {wrap : ε → φ}
    {result : α} :
    outcome.mapError wrap = .ok result ↔ outcome = .ok result := by
  constructor
  · intro mapped
    cases outcome with
    | error failure => cases mapped
    | ok value =>
        cases mapped
        rfl
  · rintro rfl
    rfl

end RbacManifest
