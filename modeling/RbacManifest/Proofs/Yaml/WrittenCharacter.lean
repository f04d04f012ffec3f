import RbacManifest.Proofs.Yaml.DoubleQuoted
import RbacManifest.Proofs.Yaml.Scalar

/-!
# Characters of written values

A written value consists of characters that may stand in a document and that a file keeps:
`lasting_writeScalar`. A value on one line has no line ends: `inline_writeScalar`.
-/

namespace RbacManifest

namespace Yaml

variable {c : Char} {text : List Char} {splits : Bool} {indent column : Nat}

/-- Whether a character may stand in a document and is kept when the line ends of a file are
unified. -/
def IsLasting (c : Char) : Prop :=
  isDocumentChar c = true ∧ c ≠ '\r'

/-- Whether a character can be typed: a letter, a digit, a space or a mark of punctuation. -/
def IsTypable (c : Char) : Prop :=
  0x20 ≤ c.toNat ∧ c.toNat ≤ 0x7E

instance (c : Char) : Decidable (IsTypable c) :=
  inferInstanceAs (Decidable (0x20 ≤ c.toNat ∧ c.toNat ≤ 0x7E))

theorem IsTypable.isLasting (typable : IsTypable c) : IsLasting c := by
  refine ⟨?_, ?_⟩
  · simp only [isDocumentChar, Bool.or_eq_true, Bool.and_eq_true, decide_eq_true_eq]
    exact Or.inl (Or.inl (Or.inl (Or.inr typable)))
  · rintro rfl
    revert typable
    decide

theorem isLasting_of_all (typable : text.all (fun c => IsTypable c) = true) :
    ∀ c ∈ text, IsLasting c := by
  intro c isMember
  have c_typable : IsTypable c := by simpa using List.all_eq_true.mp typable c isMember
  exact c_typable.isLasting

theorem isLasting_space : IsLasting ' ' :=
  IsTypable.isLasting (by decide)

theorem isLasting_lineFeed : IsLasting '\n' := by
  rw [IsLasting]
  decide

theorem IsTypable.not_isBreak (typable : IsTypable c) : isBreak c = false := by
  rcases typable with ⟨least, most⟩
  have notFeed : c ≠ '\n' := by
    rintro rfl
    revert least
    decide
  simp only [isBreak, notFeed, false_or, decide_eq_false_iff_not]
  omega

theorem isLasting_of_isSpecial (usual : Style.isSpecial c = false) : IsLasting c := by
  have ne_return : c ≠ '\r' := Style.ne_of_isSpecial usual (by decide)
  refine ⟨?_, ne_return⟩
  simp only [Style.isSpecial, Bool.or_eq_false_iff, Bool.not_eq_false', Bool.or_eq_true,
    Bool.and_eq_true, decide_eq_true_eq] at usual
  simp only [isDocumentChar, Bool.or_eq_true, Bool.and_eq_true, decide_eq_true_eq]
  rcases usual.1 with ((((rfl | typable) | nextLine) | low) | high) | last
  · decide
  all_goals omega

theorem isLasting_of_isLiteral (literal : Escaped.isLiteral c = true) : IsLasting c := by
  have ne_return : c ≠ '\r' := by
    rintro rfl
    revert literal
    decide
  refine ⟨?_, ne_return⟩
  simp only [Escaped.isLiteral, Bool.or_eq_true, Bool.and_eq_true, decide_eq_true_eq] at literal
  simp only [isDocumentChar, Bool.or_eq_true, Bool.and_eq_true, decide_eq_true_eq]
  omega

/-! ## Escapes -/

theorem isTypable_letters : ∀ entry ∈ Escaped.letters, IsTypable entry.2 := by
  decide

theorem isTypable_upperHexDigit (digit : Fin 16) : IsTypable (Text.upperHexDigit digit) := by
  revert digit
  decide

theorem isTypable_hex (places value : Nat) :
    ∀ c ∈ Text.hex Text.upperHexDigit places value, IsTypable c := by
  induction places generalizing value with
  | zero => simp [Text.hex]
  | succ places ih =>
      intro c isMember
      rw [Text.hex, List.mem_append, List.mem_singleton] at isMember
      rcases isMember with isHigher | rfl
      · exact ih _ c isHigher
      · exact isTypable_upperHexDigit ⟨value % 16, Nat.mod_lt _ (by decide)⟩

theorem isTypable_escape (d : Char) : ∀ c ∈ Escaped.escape d, IsTypable c := by
  have backslash : IsTypable '\\' := by decide
  have letter_x : IsTypable 'x' := by decide
  have letter_u : IsTypable 'u' := by decide
  have letter_U : IsTypable 'U' := by decide
  rw [Escaped.escape]
  split
  · next letter found =>
    rcases List.lookup_eq_some_iff.mp found with ⟨before, behind, letters_eq, _⟩
    have letter_typable : IsTypable letter :=
      isTypable_letters (d, letter) (by simp [letters_eq])
    simp [backslash, letter_typable]
  split
  · simpa [backslash, letter_x] using isTypable_hex 2 d.toNat
  split
  · simpa [backslash, letter_u] using isTypable_hex 4 d.toNat
  · simpa [backslash, letter_U] using isTypable_hex 8 d.toNat

/-! ## Characters in each of the three ways -/

section Folded

variable {P : Char → Prop}

theorem forall_newLine (feed : P '\n') (space : P ' ') : ∀ c ∈ Folded.newLine indent, P c := by
  intro c isMember
  rw [Folded.newLine, List.mem_cons] at isMember
  rcases isMember with rfl | isSpace
  · exact feed
  · rwa [List.eq_of_mem_replicate isSpace]

theorem forall_plain {before : Char} (feed : P '\n') (space : P ' ') (chars : ∀ c ∈ text, P c) :
    ∀ c ∈ Folded.plain indent column before text, P c := by
  induction text generalizing column before with
  | nil => simp [Folded.plain]
  | cons first rest ih =>
      rw [List.forall_mem_cons] at chars
      rw [Folded.plain]
      split
      · exact List.forall_mem_append.mpr ⟨forall_newLine feed space, ih chars.2⟩
      · exact List.forall_mem_cons.mpr ⟨chars.1, ih chars.2⟩

/-- Between apostrophes a line ends only where the text has a line end or where it is folded. -/
theorem forall_quoted {before : Option Char} (space : P ' ') (apostrophe : P '\'')
    (feed : splits = true ∨ (∃ b ∈ text, isBreak b = true) → P '\n') (chars : ∀ c ∈ text, P c) :
    ∀ c ∈ Folded.quoted splits indent column before text, P c := by
  induction text generalizing column before with
  | nil => simp [Folded.quoted]
  | cons first rest ih =>
      rw [List.forall_mem_cons] at chars
      have rest_all {column : Nat} {before : Option Char} :
          ∀ c ∈ Folded.quoted splits indent column before rest, P c := by
        refine ih (fun either => feed (either.imp_right ?_)) chars.2
        intro broken
        rcases broken with ⟨b, isMember, breaks⟩
        exact ⟨b, List.mem_cons_of_mem first isMember, breaks⟩
      rw [Folded.quoted]
      split
      · next breaks =>
        have feed_all : P '\n' := feed (Or.inr ⟨first, List.mem_cons_self, breaks⟩)
        refine List.forall_mem_append.mpr ⟨List.forall_mem_append.mpr ⟨?_, ?_⟩, rest_all⟩
        · split
          · simpa using ⟨feed_all, chars.1⟩
          · simpa using chars.1
        · split
          · simp
          · intro c isMember
            rwa [List.eq_of_mem_replicate isMember]
      split
      · next folds =>
        exact List.forall_mem_append.mpr
          ⟨forall_newLine (feed (Or.inl folds.2.2.2.1)) space, rest_all⟩
      split
      · exact List.forall_mem_cons.mpr
          ⟨apostrophe, List.forall_mem_cons.mpr ⟨apostrophe, rest_all⟩⟩
      · exact List.forall_mem_cons.mpr ⟨chars.1, rest_all⟩

/-- Between double quotes a line ends only where it is broken. -/
theorem forall_write {before : Escaped.Before} (typable : ∀ c, IsTypable c → P c)
    (literal : ∀ c, Escaped.isLiteral c = true → P c) (feed : splits = true → P '\n') :
    ∀ c ∈ Escaped.write splits indent column before text, P c := by
  have space : P ' ' := typable ' ' (by decide)
  have backslash : P '\\' := typable '\\' (by decide)
  have continuation_all {rest : List Char} (splits_lines : splits = true) :
      ∀ c ∈ Escaped.continuation indent rest, P c := by
    rw [Escaped.continuation]
    refine List.forall_mem_append.mpr ⟨List.forall_mem_cons.mpr
      ⟨backslash, forall_newLine (feed splits_lines) space⟩, ?_⟩
    split <;> simp [backslash]
  induction text generalizing column before with
  | nil => simp [Escaped.write]
  | cons first rest ih =>
      rw [Escaped.write]
      split
      · next isLiteral =>
        split
        · next breaks =>
          simp only [Bool.and_eq_true] at breaks
          exact List.forall_mem_append.mpr ⟨continuation_all breaks.1.1.1,
            List.forall_mem_cons.mpr ⟨literal first isLiteral, ih⟩⟩
        · exact List.forall_mem_cons.mpr ⟨literal first isLiteral, ih⟩
      · have escape_all : ∀ c ∈ Escaped.escape first, P c :=
          fun c isMember => typable c (isTypable_escape first c isMember)
        extract_lets chars behind
        split
        · next breaks =>
          simp only [Bool.and_eq_true] at breaks
          exact List.forall_mem_append.mpr
            ⟨List.forall_mem_append.mpr ⟨escape_all, continuation_all breaks.1.1.1⟩, ih⟩
        · exact List.forall_mem_append.mpr ⟨escape_all, ih⟩

end Folded

/-! ## Characters of values -/

/-- What is written for a value consists of characters that last. -/
theorem isLasting_writeScalar :
    ∀ c ∈ Node.writeScalar splits indent column .text text, IsLasting c := by
  have apostrophe : IsLasting '\'' := IsTypable.isLasting (by decide)
  have quote : IsLasting '"' := IsTypable.isLasting (by decide)
  rcases writeScalar_cases splits indent column text with
    ⟨_, _, allowed, written⟩ | ⟨_, allowed, written⟩ | ⟨_, written⟩
  · rcases PlainText.exists_cons_of_allowsPlain allowed with ⟨c, rest, rfl, _, _, usual, _⟩
    have chars : ∀ other ∈ c :: rest, IsLasting other :=
      fun other isMember => isLasting_of_isSpecial (usual other isMember).2
    rw [written, PlainText.plain]
    split
    · exact forall_plain isLasting_lineFeed isLasting_space chars
    · exact chars
  · have chars : ∀ c ∈ text, IsLasting c := by
      simp only [Style.allowsQuoted, Bool.not_eq_true', Bool.or_eq_false_iff] at allowed
      intro c isMember
      exact isLasting_of_isSpecial (by simpa using List.any_eq_false.mp allowed.1 c isMember)
    rw [written]
    refine List.forall_mem_append.mpr ⟨List.forall_mem_cons.mpr ⟨apostrophe, ?_⟩, by simpa⟩
    exact forall_quoted isLasting_space apostrophe (fun _ => isLasting_lineFeed) chars
  · rw [written]
    refine List.forall_mem_append.mpr ⟨List.forall_mem_cons.mpr ⟨quote, ?_⟩, by simpa⟩
    exact forall_write (fun _ => IsTypable.isLasting) (fun _ => isLasting_of_isLiteral)
      fun _ => isLasting_lineFeed

/-- What is written for a value on one line has no line ends. -/
theorem inline_writeScalar (unbroken : ∀ c ∈ text, isBreak c = false) :
    ∀ c ∈ Node.writeScalar false indent column .text text, isBreak c = false := by
  rcases writeScalar_cases false indent column text with
    ⟨_, _, _, written⟩ | ⟨_, _, written⟩ | ⟨_, written⟩
  · rw [written, PlainText.plain, if_neg (by simp)]
    exact unbroken
  · rw [written]
    refine List.forall_mem_append.mpr ⟨List.forall_mem_cons.mpr ⟨by decide, ?_⟩, ?_⟩
    rotate_left
    · exact List.forall_mem_singleton.mpr (by decide)
    refine forall_quoted (by decide) (by decide) ?_ unbroken
    rintro (impossible | ⟨b, isMember, breaks⟩)
    · simp at impossible
    · simp [unbroken b isMember] at breaks
  · rw [written]
    refine List.forall_mem_append.mpr ⟨List.forall_mem_cons.mpr ⟨by decide, ?_⟩, ?_⟩
    · exact forall_write (fun _ => IsTypable.not_isBreak)
        (fun c => DoubleQuoted.not_isBreak_of_isLiteral) (by simp)
    · exact List.forall_mem_singleton.mpr (by decide)

end Yaml

end RbacManifest
