import RbacManifest.Text.Split

/-!
# Pieces of texts

How the pieces of a text that is put together from two texts follow from the pieces of these, and
that a text which is put together from parts without the separator is cut into the same parts.
-/

namespace RbacManifest

namespace Text

theorem pieces_ne_nil {separator : Char} {text : List Char} : pieces separator text ≠ [] := by
  cases text with
  | nil => simp [pieces]
  | cons c rest =>
      simp only [pieces]
      split
      · simp
      · split <;> simp

/-- A separator between two texts separates their pieces. -/
theorem pieces_append_separator {separator : Char} {text more : List Char} :
    pieces separator (text ++ separator :: more) =
      pieces separator text ++ pieces separator more := by
  induction text with
  | nil =>
      cases behind : pieces separator more with
      | nil => exact absurd behind pieces_ne_nil
      | cons piece others => simp [pieces, behind]
  | cons c rest ih =>
      simp only [List.cons_append, pieces, ih]
      cases inner : pieces separator rest with
      | nil => exact absurd inner pieces_ne_nil
      | cons piece others =>
          simp only [List.cons_append]
          split <;> rfl

theorem pieces_of_not_mem {separator : Char} {text : List Char} (absent : separator ∉ text) :
    pieces separator text = [text] := by
  induction text with
  | nil => rfl
  | cons c rest ih =>
      rw [List.mem_cons, not_or] at absent
      rw [pieces, ih absent.2]
      exact if_neg (Ne.symm absent.1)

/-- The pieces of joined parts are these parts. -/
theorem pieces_intercalate {separator : Char} {parts : List (List Char)} (given : parts ≠ [])
    (absent : ∀ part ∈ parts, separator ∉ part) :
    pieces separator ([separator].intercalate parts) = parts := by
  induction parts with
  | nil => exact absurd rfl given
  | cons part others ih =>
      rw [List.forall_mem_cons] at absent
      cases others with
      | nil =>
          rw [List.intercalate_singleton]
          exact pieces_of_not_mem absent.1
      | cons next rest =>
          rw [List.intercalate_cons_cons, List.append_assoc, List.singleton_append,
            pieces_append_separator, pieces_of_not_mem absent.1, ih (by simp) absent.2,
            List.singleton_append]

/-- A text without the separator lengthens the last piece. -/
theorem exists_pieces_append {separator : Char} {text more : List Char}
    (absent : separator ∉ more) :
    ∃ before last, pieces separator (text ++ more) = before ++ [last ++ more] := by
  induction text with
  | nil => exact ⟨[], [], pieces_of_not_mem absent⟩
  | cons c rest ih =>
      rcases ih with ⟨before, last, pieces_eq⟩
      rw [List.cons_append, pieces, pieces_eq]
      cases before with
      | nil =>
          by_cases isSeparator : c = separator
          · exact ⟨[[]], last, if_pos isSeparator⟩
          · exact ⟨[], c :: last, if_neg isSeparator⟩
      | cons first others =>
          by_cases isSeparator : c = separator
          · exact ⟨[] :: first :: others, last, if_pos isSeparator⟩
          · exact ⟨(c :: first) :: others, last, if_neg isSeparator⟩

theorem forall_mem_intercalate {separator : List Char} {parts : List (List Char)}
    {property : Char → Prop} (between : ∀ c ∈ separator, property c)
    (inside : ∀ part ∈ parts, ∀ c ∈ part, property c) :
    ∀ c ∈ separator.intercalate parts, property c := by
  induction parts with
  | nil => simp
  | cons part others ih =>
      rw [List.forall_mem_cons] at inside
      cases others with
      | nil =>
          rw [List.intercalate_singleton]
          exact inside.1
      | cons next rest =>
          rw [List.intercalate_cons_cons, List.forall_mem_append, List.forall_mem_append]
          exact ⟨⟨inside.1, between⟩, ih inside.2⟩

theorem cut?_append {separator : Char} {text more : List Char} (absent : separator ∉ text) :
    cut? separator (text ++ separator :: more) = some (text, more) := by
  induction text with
  | nil => exact if_pos rfl
  | cons c rest ih =>
      rw [List.mem_cons, not_or] at absent
      rw [List.cons_append, cut?, if_neg (Ne.symm absent.1), ih absent.2]
      rfl

theorem cut?_eq_none_iff {separator : Char} {text : List Char} :
    cut? separator text = none ↔ separator ∉ text := by
  induction text with
  | nil => simp [cut?]
  | cons c rest ih =>
      rw [cut?, List.mem_cons, not_or]
      split
      · next same => simp [same]
      · next differs => simp [ih, Ne.symm differs]

/-- A text with the separator is cut at its first occurrence. -/
theorem eq_append_of_cut? {separator : Char} {text before behind : List Char}
    (cut : cut? separator text = some (before, behind)) :
    text = before ++ separator :: behind ∧ separator ∉ before := by
  induction text generalizing before with
  | nil => simp [cut?] at cut
  | cons c rest ih =>
      rw [cut?] at cut
      split at cut
      · next same =>
        cases cut
        simp [same]
      · next differs =>
        rw [Option.map_eq_some_iff] at cut
        rcases cut with ⟨⟨start, others⟩, cut, parts_eq⟩
        cases parts_eq
        rcases ih cut with ⟨rest_eq, absent⟩
        rw [rest_eq, List.mem_cons, not_or]
        exact ⟨rfl, Ne.symm differs, absent⟩

theorem cut?_of_mem {separator : Char} {text : List Char} (present : separator ∈ text) :
    cut? separator text =
      some (text.takeWhile (· ≠ separator), (text.dropWhile (· ≠ separator)).drop 1) := by
  induction text with
  | nil => simp at present
  | cons c rest ih =>
      rw [cut?]
      split
      · next same => simp [same]
      · next differs =>
        have rest_present : separator ∈ rest :=
          (List.mem_cons.mp present).resolve_left (Ne.symm differs)
        rw [ih rest_present]
        simp [differs]

/-! ## Beginnings -/

theorem after?_append {beginning rest : List Char} :
    after? beginning (beginning ++ rest) = some rest := by
  induction beginning with
  | nil => rfl
  | cons c others ih => rw [List.cons_append, after?, if_pos rfl, ih]

theorem eq_append_of_after? {beginning text rest : List Char}
    (found : after? beginning text = some rest) : text = beginning ++ rest := by
  induction beginning generalizing text with
  | nil => exact Option.some.inj found
  | cons b others ih =>
      cases text with
      | nil => exact absurd found (by simp [after?])
      | cons c more =>
          rw [after?, Option.ite_none_right_eq_some] at found
          rw [List.cons_append, found.1, ih found.2]

theorem isSome_after?_iff {beginning text : List Char} :
    (after? beginning text).isSome = true ↔ beginning <+: text := by
  rw [Option.isSome_iff_exists]
  constructor
  · rintro ⟨rest, found⟩
    exact ⟨rest, (eq_append_of_after? found).symm⟩
  · rintro ⟨rest, rfl⟩
    exact ⟨rest, after?_append⟩

/-- Whether no text of a list begins with another one of the list. -/
def AreApart (beginnings : List (List Char)) : Prop :=
  ∀ left ∈ beginnings, ∀ right ∈ beginnings, left <+: right → left = right

instance : DecidablePred AreApart := fun _ => inferInstanceAs (Decidable (∀ left ∈ _, _))

/-- A text has one beginning at most. -/
theorem AreApart.eq_of_prefix {beginnings : List (List Char)} {left right rest : List Char}
    (apart : AreApart beginnings) (left_mem : left ∈ beginnings) (right_mem : right ∈ beginnings)
    (isStart : left <+: right ++ rest) : left = right := by
  rcases List.prefix_or_prefix_of_prefix isStart (List.prefix_append right rest) with
    shorter | longer
  · exact apart _ left_mem _ right_mem shorter
  · exact (apart _ right_mem _ left_mem longer).symm

theorem afterAny?_eq_none_iff {beginnings : List (List Char)} {text : List Char} :
    afterAny? beginnings text = none ↔ ∀ beginning ∈ beginnings, ¬beginning <+: text := by
  simp only [afterAny?, List.findSome?_eq_none_iff, ← isSome_after?_iff, Bool.not_eq_true,
    Option.isSome_eq_false_iff, Option.isNone_iff_eq_none]

theorem exists_of_afterAny? {beginnings : List (List Char)} {text rest : List Char}
    (found : afterAny? beginnings text = some rest) :
    ∃ beginning ∈ beginnings, text = beginning ++ rest := by
  rcases List.exists_of_findSome?_eq_some found with ⟨beginning, isMember, after⟩
  exact ⟨beginning, isMember, eq_append_of_after? after⟩

theorem afterAny?_append {beginnings : List (List Char)} {beginning rest : List Char}
    (apart : AreApart beginnings) (isMember : beginning ∈ beginnings) :
    afterAny? beginnings (beginning ++ rest) = some rest := by
  cases found : afterAny? beginnings (beginning ++ rest) with
  | none =>
      have absent := afterAny?_eq_none_iff.mp found beginning isMember
      exact absurd (List.prefix_append beginning rest) absent
  | some behind =>
      rcases exists_of_afterAny? found with ⟨other, isOther, split⟩
      have same : other = beginning :=
        apart.eq_of_prefix isOther isMember (split ▸ List.prefix_append other behind)
      rw [same] at split
      rw [List.append_cancel_left split]

end Text

end RbacManifest
