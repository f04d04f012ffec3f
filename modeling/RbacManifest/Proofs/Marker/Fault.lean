import RbacManifest.Proofs.First
import RbacManifest.Proofs.Logged
import RbacManifest.Proofs.Marker

/-!
# Malformed markers

What is wrong with a marker is stated here about its text alone. A marker is refused because of its
first malformed pair, and for what is wrong with that one: `Marker.rule_eq_error_iff`.
-/

namespace RbacManifest

namespace Marker

/-- Whether something is wrong with a pair: it has no equals sign, or no key stands in front of the
first one. -/
inductive IsPairFault : List Char → Fault → Prop
  | missingEquals {pair : List Char} (absent : '=' ∉ pair) :
      IsPairFault pair (.missingEquals (String.ofList pair))
  | unknownKey {name value : List Char} (absent : '=' ∉ name)
      (unknown : ∀ key : Key, key.name ≠ String.ofList (Text.trim name)) :
      IsPairFault (name ++ '=' :: value) (.unknownKey (String.ofList (Text.trim name)))

/-- What stands between the commas of a body, without the white space around it, unless that is
all. -/
def writtenPairs (body : List Char) : List (List Char) :=
  ((Text.pieces ',' body).map Text.trim).filter (!·.isEmpty)

/-- Whether something is wrong with a body: it is wrong with the first malformed pair. -/
def IsFault (body : List Char) (fault : Fault) : Prop :=
  ∃ pair, IsFirst (fun pair => ∃ fault, IsPairFault pair fault) (writtenPairs body) pair ∧
    IsPairFault pair fault

variable {text body : List Char} {fault : Fault} {place : SourcePosition}

theorem Key.name_of_ofString? {name : String} {key : Key} (found : Key.ofString? name = some key) :
    key.name = name := by
  rw [Key.ofString?.eq_def] at found
  split at found <;> cases found <;> rfl

theorem Key.ofString?_eq_none_iff {name : String} :
    Key.ofString? name = none ↔ ∀ key : Key, key.name ≠ name := by
  constructor
  · rintro none key rfl
    simp [Key.ofString?_name] at none
  · intro unknown
    cases found : Key.ofString? name with
    | none => rfl
    | some key => exact absurd (Key.name_of_ofString? found) (unknown key)

theorem pair_eq_error_iff : pair text = .error fault ↔ IsPairFault text fault := by
  constructor
  · intro failed
    rw [pair] at failed
    split at failed
    · next none =>
      cases failed
      exact .missingEquals (Text.cut?_eq_none_iff.mp none)
    · next name value cut =>
      rcases Text.eq_append_of_cut? cut with ⟨rfl, absent⟩
      simp only at failed
      split at failed
      · next unknown =>
        cases failed
        exact .unknownKey absent (Key.ofString?_eq_none_iff.mp unknown)
      · cases failed
  · rintro (absent | ⟨absent, unknown⟩)
    · rw [pair, Text.cut?_eq_none_iff.mpr absent]
    · rw [pair, Text.cut?_append absent]
      simp only [Key.ofString?_eq_none_iff.mpr unknown]

theorem rule_eq_error_iff (place : SourcePosition) :
    rule body place = .error fault ↔ IsFault body fault := by
  have pairs_eq_error_iff : pairs body = .error fault ↔ IsFault body fault := by
    rw [pairs, Except.mapM_eq_error_iff]
    simp only [pair_eq_error_iff]
    rfl
  rw [← pairs_eq_error_iff, rule]
  cases pairs body <;> simp [bind, Except.bind, pure, Except.pure]

theorem source_of_rule {stated : Rule} (read : rule body place = .ok stated) :
    stated.source = some place := by
  rcases Except.bind_eq_ok_iff.mp read with ⟨pairs, _, stated_eq⟩
  cases stated_eq
  rfl

end Marker

end RbacManifest
