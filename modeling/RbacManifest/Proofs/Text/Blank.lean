import RbacManifest.Text.Blank

/-!
# Texts without white space around them

Trimming leaves a text that neither starts nor ends with white space, and takes nothing else away:
`trim_eq_iff`. A text that starts and ends with characters that are not blank is tight; it keeps its
place when something is written around it.
-/

namespace RbacManifest

namespace Text

/-- Whether a text starts with a character that is not blank and ends with such a character. -/
def IsTight (text : List Char) : Prop :=
  text.head?.any (!isBlank ·) ∧ text.getLast?.any (!isBlank ·)

instance : DecidablePred IsTight := fun _ => inferInstanceAs (Decidable (_ ∧ _))

namespace IsTight

variable {text first last : List Char}

theorem ne_nil (tight : IsTight text) : text ≠ [] := by
  rintro rfl
  exact absurd tight.1 (by simp)

theorem around (before : IsTight first) (middle : List Char) (behind : IsTight last) :
    IsTight (first ++ middle ++ last) := by
  refine ⟨?_, ?_⟩
  · cases first with
    | nil => exact absurd rfl before.ne_nil
    | cons c rest => exact before.1
  · rw [List.getLast?_append, List.getLast?_eq_some_getLast behind.ne_nil, Option.some_or,
      ← List.getLast?_eq_some_getLast]
    exact behind.2

theorem append (before : IsTight first) (behind : IsTight last) : IsTight (first ++ last) := by
  simpa using before.around [] behind

theorem intercalate {separator : List Char} {parts : List (List Char)} (given : parts ≠ [])
    (tight : ∀ part ∈ parts, IsTight part) : IsTight (separator.intercalate parts) := by
  induction parts with
  | nil => exact absurd rfl given
  | cons part others ih =>
      rw [List.forall_mem_cons] at tight
      cases others with
      | nil => simpa using tight.1
      | cons next rest =>
          rw [List.intercalate_cons_cons]
          exact tight.1.around _ (ih (by simp) tight.2)

end IsTight

/-- Whether a text neither starts nor ends with a character that is blank. -/
def IsTrimmed (text : List Char) : Prop :=
  text.head?.all (!isBlank ·) ∧ text.getLast?.all (!isBlank ·)

instance : DecidablePred IsTrimmed := fun _ => inferInstanceAs (Decidable (_ ∧ _))

variable {text inner margin behind first rest : List Char}

theorem IsTight.isTrimmed (tight : IsTight text) : IsTrimmed text := by
  rcases tight with ⟨starts, ends⟩
  constructor
  · cases first : text.head? with
    | none => rfl
    | some c => simpa [first] using starts
  · cases last : text.getLast? with
    | none => rfl
    | some c => simpa [last] using ends

theorem trimStart_eq_self (starts : text.head?.all (!isBlank ·)) : trimStart text = text := by
  cases text with
  | nil => rfl
  | cons c rest => exact List.dropWhile_cons_of_neg (by simpa using starts)

theorem trimEnd_eq_self (ends : text.getLast?.all (!isBlank ·)) : trimEnd text = text := by
  rw [← List.head?_reverse] at ends
  rw [trimEnd, ← trimStart, trimStart_eq_self ends, List.reverse_reverse]

theorem all_head?_trimStart (text : List Char) : (trimStart text).head?.all (!isBlank ·) := by
  have starts := List.head?_dropWhile_not isBlank text
  rw [trimStart]
  cases first : (text.dropWhile isBlank).head? with
  | none => rfl
  | some c => simpa [first] using starts

theorem all_getLast?_trimEnd (text : List Char) : (trimEnd text).getLast?.all (!isBlank ·) := by
  rw [trimEnd, List.getLast?_reverse]
  exact all_head?_trimStart text.reverse

theorem exists_trimStart (text : List Char) :
    ∃ margin : List Char, margin.all isBlank = true ∧ text = margin ++ trimStart text := by
  refine ⟨text.takeWhile isBlank, List.all_takeWhile, ?_⟩
  rw [trimStart, List.takeWhile_append_dropWhile]

theorem exists_trimEnd (text : List Char) :
    ∃ behind : List Char, behind.all isBlank = true ∧ text = trimEnd text ++ behind := by
  rcases exists_trimStart text.reverse with ⟨margin, blank, split⟩
  refine ⟨margin.reverse, by simpa using blank, ?_⟩
  rw [trimEnd, ← trimStart, ← List.reverse_append, ← split, List.reverse_reverse]

theorem trimStart_append (blank : margin.all isBlank = true) :
    trimStart (margin ++ text) = trimStart text := by
  rw [trimStart, List.dropWhile_append_of_pos (List.all_eq_true.mp blank), ← trimStart]

theorem trimEnd_append (blank : behind.all isBlank = true) :
    trimEnd (text ++ behind) = trimEnd text := by
  have reversed : behind.reverse.all isBlank = true := by simpa using blank
  rw [trimEnd, List.reverse_append, ← trimStart, trimStart_append reversed, trimStart, ← trimEnd]

theorem trim_append (blank : margin.all isBlank = true) : trim (margin ++ text) = trim text := by
  rw [trim, trimStart_append blank, ← trim]

/-- White space behind a text does not change what trimming makes of it. -/
theorem trim_append_blank (blank : behind.all isBlank = true) :
    trim (text ++ behind) = trim text := by
  induction text with
  | nil =>
      rw [List.nil_append, ← List.append_nil behind]
      exact trim_append blank
  | cons c rest ih =>
      by_cases first : isBlank c = true
      · have margin : [c].all isBlank = true := by simpa using first
        rw [← List.singleton_append, List.append_assoc, trim_append margin, trim_append margin, ih]
      · have starts (more : List Char) : trimStart (c :: more) = c :: more := by
          apply trimStart_eq_self
          simpa using first
        rw [trim, trim, List.cons_append, starts, starts, ← List.cons_append, trimEnd_append blank]

theorem IsTrimmed.trim_eq (trimmed : IsTrimmed text) : trim text = text := by
  rw [trim, trimStart_eq_self trimmed.1, trimEnd_eq_self trimmed.2]

theorem trim_eq_self (tight : IsTight text) : trim text = text :=
  tight.isTrimmed.trim_eq

theorem isTrimmed_trim (text : List Char) : IsTrimmed (trim text) := by
  refine ⟨?_, all_getLast?_trimEnd _⟩
  rcases exists_trimEnd (trimStart text) with ⟨behind, _, split⟩
  have starts := all_head?_trimStart text
  rw [split] at starts
  rw [trim]
  cases inner : trimEnd (trimStart text) with
  | nil => rfl
  | cons c rest => simpa [inner] using starts

/-- What trimming leaves is a text without white space at its ends, with white space around it. -/
theorem trim_eq_iff :
    trim text = inner ↔ IsTrimmed inner ∧ ∃ margin behind : List Char,
      margin.all isBlank = true ∧ behind.all isBlank = true ∧ text = margin ++ inner ++ behind := by
  constructor
  · rintro rfl
    rcases exists_trimStart text with ⟨margin, marginBlank, start_split⟩
    rcases exists_trimEnd (trimStart text) with ⟨behind, behindBlank, end_split⟩
    refine ⟨isTrimmed_trim text, margin, behind, marginBlank, behindBlank, ?_⟩
    rw [List.append_assoc, trim, ← end_split, ← start_split]
  · rintro ⟨trimmed, margin, behind, marginBlank, behindBlank, rfl⟩
    rw [trim_append_blank behindBlank, trim_append marginBlank, trimmed.trim_eq]

theorem trim_eq_nil_iff : trim text = [] ↔ text.all isBlank = true := by
  constructor
  · intro nothing
    rcases trim_eq_iff.mp nothing with ⟨_, margin, behind, marginBlank, behindBlank, rfl⟩
    simp only [List.all_append, marginBlank, behindBlank, List.all_nil, Bool.and_self]
  · intro blank
    rw [← List.append_nil text, trim_append blank]
    rfl

theorem trim_trimStart (text : List Char) : trim (trimStart text) = trim text := by
  rcases exists_trimStart text with ⟨margin, blank, split⟩
  calc trim (trimStart text)
    _ = trim (margin ++ trimStart text) := (trim_append blank).symm
    _ = trim text := by rw [← split]

theorem trim_trimEnd (text : List Char) : trim (trimEnd text) = trim text := by
  rcases exists_trimEnd text with ⟨behind, blank, split⟩
  calc trim (trimEnd text)
    _ = trim (trimEnd text ++ behind) := (trim_append_blank blank).symm
    _ = trim text := by rw [← split]

/-- Trimming takes nothing from a part that ends without white space. -/
theorem trimEnd_append_of_isTight (tight : IsTight first) :
    trimEnd (first ++ rest) = first ++ trimEnd rest := by
  rcases exists_trimEnd rest with ⟨behind, blank, split⟩
  have kept : trimEnd (first ++ trimEnd rest ++ behind) = trimEnd (first ++ trimEnd rest) :=
    trimEnd_append blank
  rw [List.append_assoc, ← split] at kept
  rw [kept]
  apply trimEnd_eq_self
  have ends := all_getLast?_trimEnd rest
  rw [List.getLast?_append]
  cases last : (trimEnd rest).getLast? with
  | none => simpa using tight.isTrimmed.2
  | some c => simpa [last] using ends

theorem trimStart_append_of_isTight (tight : IsTight first) :
    trimStart (first ++ rest) = first ++ rest := by
  apply trimStart_eq_self
  cases first with
  | nil => exact absurd rfl tight.ne_nil
  | cons c more => exact tight.isTrimmed.1

theorem trim_append_of_isTight (tight : IsTight first) :
    trim (first ++ rest) = first ++ trimEnd rest := by
  rw [trim, trimStart_append_of_isTight tight, trimEnd_append_of_isTight tight]

/-- The parts in front of and behind a character that is not blank are trimmed by themselves. -/
theorem trim_append_cons {c : Char} (notBlank : isBlank c = false) :
    trim (first ++ c :: rest) = trimStart first ++ c :: trimEnd rest := by
  have tight : IsTight [c] := by simp [IsTight, notBlank]
  rcases exists_trimStart first with ⟨margin, blank, split⟩
  calc trim (first ++ c :: rest)
    _ = trim (margin ++ (trimStart first ++ c :: rest)) := by rw [← List.append_assoc, ← split]
    _ = trim (trimStart first ++ [c] ++ rest) := by
        rw [trim_append blank, List.append_assoc, List.singleton_append]
    _ = trimStart first ++ [c] ++ trimEnd rest := by
        cases start : trimStart first with
        | nil => exact trim_append_of_isTight tight
        | cons d more =>
            have starts := all_head?_trimStart first
            rw [start] at starts
            have bothTight : IsTight (d :: more ++ [c]) := by
              refine ⟨starts, ?_⟩
              rw [List.getLast?_concat]
              exact tight.2
            exact trim_append_of_isTight bothTight
    _ = trimStart first ++ c :: trimEnd rest := by rw [List.append_assoc, List.singleton_append]

theorem trim_prefix_trimStart (text : List Char) : trim text <+: trimStart text := by
  rcases exists_trimEnd (trimStart text) with ⟨behind, _, split⟩
  exact ⟨behind, split.symm⟩

end Text

end RbacManifest
