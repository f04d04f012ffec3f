import RbacManifest.Proofs.Yaml.SingleValue
import RbacManifest.Proofs.Yaml.WrittenCharacter

/-!
# Reading keys in front of their colons

A key in front of a colon becomes a key only at the colon, which must not be too far from where it
begins. A key of at most 102 characters is near enough however it is written: `Scan.reads_key`.
-/

namespace RbacManifest

namespace Yaml

variable {text tail : List Char} {indent column : Nat} {position : Position}

namespace Scan

variable {level : Int} {outer around : List Int} {opens : Bool}

/-! ## Lengths of keys -/

theorem length_quoted_le {before : Option Char} (unbroken : ∀ c ∈ text, isBreak c = false) :
    (Folded.quoted false indent column before text).length ≤ 2 * text.length := by
  induction text generalizing column before with
  | nil => simp [Folded.quoted]
  | cons c rest ih =>
      have rest_le (column : Nat) :
          (Folded.quoted false indent column (some c) rest).length ≤ 2 * rest.length :=
        ih fun other isMember => unbroken other (by simp [isMember])
      have apostrophe_le := rest_le (column + 2)
      have other_le := rest_le (column + 1)
      rw [Folded.quoted, if_neg (by simp [unbroken c]), if_neg (by simp)]
      split <;> simp only [List.length_cons] <;> omega

theorem length_hex (digit : Nat → Char) (places value : Nat) :
    (Text.hex digit places value).length = places := by
  induction places generalizing value with
  | zero => rfl
  | succ places ih => simp [Text.hex, ih]

theorem length_escape_le (c : Char) : (Escaped.escape c).length ≤ 10 := by
  rw [Escaped.escape]
  split
  · simp
  split
  · simp [length_hex]
  split <;> simp [length_hex]

theorem length_write_le {before : Escaped.Before} :
    (Escaped.write false indent column before text).length ≤ 10 * text.length := by
  induction text generalizing column before with
  | nil => simp [Escaped.write]
  | cons c rest ih =>
      have literal_le : (Escaped.write false indent (column + 1) .literal rest).length ≤
          10 * rest.length := ih
      have escaped_le : (Escaped.write false indent (column + (Escaped.escape c).length) .escape
          rest).length ≤ 10 * rest.length := ih
      have escape_le := length_escape_le c
      rw [Escaped.write]
      split
      · simp
        omega
      · simp
        omega

theorem length_writeScalar_le (unbroken : ∀ c ∈ text, isBreak c = false) :
    (Node.writeScalar false 0 column .text text).length ≤ 10 * text.length + 2 := by
  rcases writeScalar_cases false 0 column text with
    ⟨_, _, _, written⟩ | ⟨_, _, written⟩ | ⟨_, written⟩
  · rw [written, PlainText.plain, if_neg (by simp)]
    omega
  · have content_le : (Folded.quoted false 0 (column + 1) none text).length ≤ 2 * text.length :=
      length_quoted_le unbroken
    rw [written]
    simp
    omega
  · have content_le : (Escaped.write false 0 (column + 1) .start text).length ≤
        10 * text.length := length_write_le
    rw [written]
    simp
    omega

theorem next_colon {behind : Position} (opening : Opens position.column level around outer opens)
    (line_eq : behind.line = position.line) (column_le : position.column ≤ behind.column)
    (index_le : behind.index ≤ position.index + longestKey)
    (blank : isBlankOrEnd (tail.head?.getD endMark) = true) :
    (facing [keyAt level position] level around false behind (':' :: tail)).next =
      .more [.colon position.index opens]
        (standing position.column outer false (behind.next ':') tail) := by
  have inside : level ≤ behind.column := Int.le_trans opening.indent_le (by omega)
  have dropStale?_eq :
      (facing [keyAt level position] level around false behind (':' :: tail)).dropStale? =
        some (facing [keyAt level position] level around false behind (':' :: tail)) := by
    have notFar : ¬ longestKey < behind.index - position.index := by omega
    simp [dropStale?, facing, Position.cells_cons, keyAt, line_eq, isStale, notFar]
  have openAt_eq : openAt position.column (standing level around false behind (':' :: tail)) = _ :=
    openAt_standing opening
  rw [next_facing (startsToken_cons.mpr (by decide)) inside dropStale?_eq, dispatch_colon blank,
    colon]
  simp only [facing] at openAt_eq ⊢
  simp only [keyAt, List.find?_cons, decide_true, List.filter_cons, not_true_eq_false, ne_eq,
    decide_false, Bool.false_eq_true, if_false, List.filter_nil, if_true, openAt_eq]
  simp [Position.cells_cons]

/-- A key in front of its colon is read as a key, and it opens a mapping if there is none at its
column. -/
theorem reads_key (opening : Opens position.column level around outer opens)
    (unbroken : ∀ c ∈ text, isBreak c = false) (short : text.length ≤ 102)
    (blank : isBlankOrEnd (tail.head?.getD endMark) = true) :
    Reads
      (standing level around true position
        (Node.writeScalar false 0 column .text text ++ ':' :: tail))
      ((if opens then [.blockMapping] else []) ++ [.key, .scalar text (isPlain text), .value])
      (standing position.column outer false
        ((position.behind (Node.writeScalar false 0 column .text text)).next ':') tail) := by
  have first : (standing level around true position _).next = _ :=
    next_writeScalar opening.indent_le (by simp) (by simp) (readWritten_key column unbroken blank)
  have written_inline : ∀ c ∈ Node.writeScalar false 0 column .text text, isBreak c = false :=
    inline_writeScalar unbroken
  have written_pos : 0 < (Node.writeScalar false 0 column .text text).length :=
    length_writeScalar_pos
  have written_le : (Node.writeScalar false 0 column .text text).length ≤ 10 * text.length + 2 :=
    length_writeScalar_le unbroken
  -- Two steps, since the mark of the key is resolved only by the colon.
  generalize Node.writeScalar false 0 column .text text = written at *
  have inline : (position.behind written).line = position.line ∧
      position.column ≤ (position.behind written).column := Position.behind_of_inline written_inline
  rcases inline with ⟨line_eq, column_le⟩
  have index_eq : (position.behind written).index = position.index + written.length :=
    Position.index_behind
  have second := next_colon opening line_eq column_le (by rw [longestKey]; omega) blank
  refine ⟨by simp; omega, 2,
    [.mark position.index, .token (.scalar text (isPlain text)), .colon position.index opens],
    by simp; omega, ?_, ?_⟩
  · rw [index_facing]
    exact .key (by simp; omega) _ _
  · intro more _
    have second_lexemes : lexemes (more + 1 + 1)
        (facing [keyAt level position] level around false (position.behind written)
          (':' :: tail)) =
          [.colon position.index opens] ++ lexemes (more + 1)
            (standing position.column outer false ((position.behind written).next ':') tail) := by
      rw [lexemes, second]
    rw [show 2 + more + 1 = (more + 1 + 1) + 1 by omega, lexemes, first]
    change _ ++ lexemes (more + 1 + 1)
      (facing [keyAt level position] level around false (position.behind written)
        (':' :: tail)) = _
    rw [second_lexemes]
    rfl

end Scan

end Yaml

end RbacManifest
