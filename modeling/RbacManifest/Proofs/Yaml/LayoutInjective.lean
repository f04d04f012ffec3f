import RbacManifest.Proofs.Yaml.ScalarInjective
import RbacManifest.Proofs.Yaml.Textual

/-!
# Documents tell values apart

What is written for a value of texts, lists and mappings determines the value and where it ends:
`Node.write_append_injective`. Values of different kinds begin differently or end differently, and
values of one kind are compared part by part. So different mappings are written as different
documents: `Node.writeDocument_injective`.
-/

namespace RbacManifest

namespace Yaml

theorem newLine_append_injective {leftCount rightCount : Nat} {left right : List Char}
    (left_starts : Scan.StartsToken left) (right_starts : Scan.StartsToken right)
    (same : Folded.newLine leftCount ++ left = Folded.newLine rightCount ++ right) :
    leftCount = rightCount ∧ left = right := by
  have skipped : Scan.skipGap false (Position.cells ⟨0, 0, 0⟩ (Folded.newLine leftCount ++ left)) =
      _ := Scan.skipGap_newLine left_starts leftCount
  rw [same, Scan.skipGap_newLine right_starts, Prod.mk.injEq] at skipped
  rcases Position.cells_injective skipped.1 with ⟨behind_eq, right_eq⟩
  rw [Position.behind_newLine, Position.behind_newLine, Position.mk.injEq] at behind_eq
  exact ⟨behind_eq.2.1.symm, right_eq.symm⟩

namespace Node

variable {bound indent column leftColumn rightColumn : Nat} {sameLine : Bool}
  {node left right : Node} {entry : Node × Node} {more tail leftTail rightTail : List Char}
  {stops : List Char → Prop}

/-! ## What values begin with -/

/-- The mark at the beginning of a text, behind spaces and line feeds: a left bracket, a left brace,
or a dash or a question mark in front of a space. -/
def mark? (text : List Char) : Option Char :=
  match text.dropWhile fun c => c = ' ' || c = '\n' with
  | [] => none
  | c :: rest =>
      if c = '[' ∨ c = '\x7b' ∨ (c = '-' ∨ c = '?') ∧ rest.head? = some ' ' then some c else none

/-- The mark that the entries of a mapping begin with. -/
def entryMark? (entry : Node × Node) : Option Char :=
  if entry.1.isShortKey then none else some '?'

/-- The mark that a value begins with. -/
def ownMark? : Node → Option Char
  | scalar _ _ => none
  | list _ [] => some '['
  | list _ (_ :: _) => some '-'
  | mapping _ [] => some '\x7b'
  | mapping _ (entry :: _) => entryMark? entry
  | enclosing _ => none

theorem mark?_space : mark? (' ' :: more) = mark? more := rfl

theorem mark?_newLine (count : Nat) : mark? (Folded.newLine count ++ more) = mark? more := by
  have spaces : mark? (List.replicate count ' ' ++ more) = mark? more := by
    induction count with
    | zero => rfl
    | succ count ih => rwa [List.replicate_succ, List.cons_append, mark?_space]
  exact spaces

theorem mark?_cons_of_not_mark {c : Char} {rest : List Char} (notSpace : c ≠ ' ')
    (notFeed : c ≠ '\n') (notBracket : c ≠ '[' ∧ c ≠ '\x7b')
    (notMark : c = '-' ∨ c = '?' → rest.head? ≠ some ' ') :
    mark? (c :: rest) = none := by
  have keeps : (c :: rest).dropWhile (fun c => c = ' ' || c = '\n') = c :: rest :=
    List.dropWhile_cons_of_neg (by simp [notSpace, notFeed])
  rw [mark?, keeps]
  simp only [notBracket.1, notBracket.2, false_or]
  exact if_neg fun isMark => notMark isMark.1 isMark.2

theorem mark?_writeScalar {splits : Bool} {text : List Char} :
    mark? (writeScalar splits indent column .text text ++ more) = none := by
  rcases writeScalar_cases splits indent column text with
    ⟨_, _, allowed, written⟩ | ⟨_, _, written⟩ | ⟨_, written⟩
  · rcases Scan.exists_cons_of_plain allowed with
      ⟨c, rest, rfl, starts, _, noIndicator, goesOn, _⟩
    rw [Scan.startsToken_cons] at starts
    have notFeed : c ≠ '\n' := (ne_of_isBreak (by decide) starts.2.1).symm
    have notBracket : c ≠ '[' ∧ c ≠ '\x7b' := by
      constructor <;> rintro rfl <;> simp [Scan.IsNoIndicator] at noIndicator
    rw [written, PlainText.plain_cons_of_ne starts.1, List.cons_append]
    refine mark?_cons_of_not_mark starts.1 notFeed notBracket ?_
    intro isMark blank
    have isOne : c = '?' ∨ c = ':' ∨ c = '-' := by
      rcases isMark with rfl | rfl <;> simp
    have notBlank : isBlankOrEnd
        ((PlainText.plain splits indent (column + 1) c rest ++ more).head?.getD endMark) = false :=
      PlainText.head?_plain_of_not_endsWord (goesOn isOne)
    rw [blank] at notBlank
    exact absurd notBlank (by decide)
  · rw [written]
    rfl
  · rw [written]
    rfl

theorem mark?_writeItems {rest : List Node} (textual : node.IsTextual bound) :
    mark? (writeItems true indent (node :: rest) ++ more) = some '-' := by
  have blank : ∃ written, node.write true indent (indent + 1) = ' ' :: written :=
    exists_write_sameLine textual
  rcases blank with ⟨written, written_eq⟩
  rw [writeItems, written_eq]
  rfl

theorem mark?_writeEntries {rest : List (Node × Node)}
    (textual : AreTextualEntries bound (entry :: rest)) :
    mark? (writeEntries true indent (entry :: rest) ++ more) = entryMark? entry := by
  rcases entry with ⟨key, value⟩
  rcases textual with ⟨⟨text, rfl⟩, key_textual, _⟩
  rw [writeEntries, entryMark?]
  rcases shortKey?_text indent text with ⟨isShort, _, _, written_eq⟩ | ⟨isLong, written_eq⟩
  · rw [isShort, written_eq]
    simp only [if_true, List.nil_append, List.append_assoc]
    exact mark?_writeScalar
  · have blank : ∃ written, (scalar .text text).write true indent (indent + 1) = ' ' :: written :=
      exists_write_sameLine key_textual
    rcases blank with ⟨written, key_eq⟩
    rw [isLong, written_eq, key_eq]
    rfl

/-- What is written for a value shows its mark. -/
theorem mark?_write (textual : node.IsTextual bound) :
    mark? (node.write sameLine indent column ++ more) = node.ownMark? := by
  cases node with
  | scalar tag text =>
      simp only [IsTextual] at textual
      rw [textual.1, write, List.cons_append, mark?_space]
      exact mark?_writeScalar
  | list tag items =>
      simp only [IsTextual] at textual
      cases items with
      | nil =>
          rw [write]
          rfl
      | cons first rest =>
          rw [write_items, ownMark?]
          split
          · rw [List.cons_append, mark?_space, mark?_writeItems textual.2.1]
          · rw [writeItems_newLine, List.append_assoc, mark?_newLine, mark?_writeItems textual.2.1]
  | mapping tag entries =>
      simp only [IsTextual] at textual
      cases entries with
      | nil =>
          rw [write]
          rfl
      | cons first rest =>
          rw [write_entries, ownMark?]
          split
          · rw [List.cons_append, mark?_space, mark?_writeEntries textual.2]
          · rw [writeEntries_newLine, List.append_assoc, mark?_newLine,
              mark?_writeEntries textual.2]
  | enclosing holder => simp [IsTextual] at textual

/-! ## What follows values -/

/-- Whether a part of a collection at a column ends in front of a text: at a line that begins there
and stops the part, or at one that begins to the left. -/
def Ends (stops : List Char → Prop) (indent : Nat) (tail : List Char) : Prop :=
  ∃ count more, tail = Folded.newLine count ++ more ∧ Scan.StartsToken more ∧ count ≤ indent ∧
    (count = indent → stops more)

/-- Whether a text does not go on with the members of a list. -/
def NoItem (text : List Char) : Prop :=
  mark? text ≠ some '-'

namespace Ends

theorem imp {others : List Char → Prop} (ends : Ends stops indent tail)
    (implies : ∀ more, stops more → others more) : Ends others indent tail := by
  rcases ends with ⟨count, more, tail_eq, starts, count_le, stops_there⟩
  exact ⟨count, more, tail_eq, starts, count_le,
    fun count_eq => implies more (stops_there count_eq)⟩

/-- What ends a part of a collection ends everything in it. -/
theorem inside {others : List Char → Prop} (ends : Ends stops indent tail) :
    Ends others (indent + indentation) tail := by
  rcases ends with ⟨count, more, tail_eq, starts, count_le, _⟩
  have count_lt : count < indent + indentation :=
    Nat.lt_of_le_of_lt count_le (by simp [indentation])
  exact ⟨count, more, tail_eq, starts, Nat.le_of_lt count_lt,
    fun count_eq => absurd count_eq (Nat.ne_of_lt count_lt)⟩

theorem endsScalar (ends : Ends stops indent tail) : EndsScalar indent tail := by
  rcases ends with ⟨count, more, rfl, starts, count_le, _⟩
  exact .line count_le starts

theorem newLine (starts : Scan.StartsToken more) (stopped : stops more) :
    Ends stops indent (Folded.newLine indent ++ more) :=
  ⟨indent, more, rfl, starts, Nat.le_refl indent, fun _ => stopped⟩

/-- What ends a part of a collection is no further line of it. -/
theorem ne_newLine (ends : Ends stops indent tail) (starts : Scan.StartsToken more)
    (goesOn : ¬ stops more) : tail ≠ Folded.newLine indent ++ more := by
  rintro rfl
  rcases ends with ⟨count, others, same, others_starts, _, stops_there⟩
  rcases newLine_append_injective starts others_starts same with ⟨rfl, rfl⟩
  exact goesOn (stops_there rfl)

theorem writeItems {rest : List Node} (ends : Ends NoItem indent tail) :
    Ends (fun more => true = false → NoItem more) indent
      (writeItems false indent rest ++ tail) := by
  cases rest with
  | nil => exact ends.imp fun _ noItem _ => noItem
  | cons next rest =>
      rw [writeItems_newLine, List.append_assoc]
      exact newLine (startsToken_writeItems next rest tail) (by simp)

theorem writeEntries {rest : List (Node × Node)} (ends : Ends (· = []) indent tail)
    (textual : AreTextualEntries bound rest) :
    Ends NoItem indent (writeEntries false indent rest ++ tail) := by
  cases rest with
  | nil =>
      refine ends.imp ?_
      rintro more rfl
      simp [NoItem, mark?]
  | cons next rest =>
      rw [writeEntries_newLine, List.append_assoc]
      refine newLine (startsToken_writeEntries textual tail) ?_
      rw [NoItem, mark?_writeEntries textual, entryMark?]
      split <;> simp

end Ends

/-! ## Values of different kinds -/

theorem isPlaced_value {text : List Char} (room : bound + indentation < Folded.width)
    (indent_le : indent ≤ bound) : IsPlaced indent true (indent + indentation) text :=
  Or.inl ⟨rfl, by simp [indentation], by omega⟩

theorem isPlaced_key (level : Nat) {text : List Char} (unbroken : ∀ c ∈ text, isBreak c = false) :
    IsPlaced level false 0 text :=
  Or.inr ⟨rfl, unbroken⟩

theorem writeEntries_short {key value : Node} {rest : List (Node × Node)} {written : List Char}
    (isShort : shortKey? indent key = some written) :
    writeEntries true indent ((key, value) :: rest) = written ++ ':' ::
      (write false indent (indent + written.length + 1) value ++
        writeEntries false indent rest) := by
  rw [writeEntries, isShort]
  simp

theorem writeEntries_long {key value : Node} {rest : List (Node × Node)}
    (isLong : shortKey? indent key = none) :
    writeEntries true indent ((key, value) :: rest) = '?' :: (write true indent (indent + 1) key ++
      (Folded.newLine indent ++ ':' :: (write true indent (indent + 1) value ++
        writeEntries false indent rest))) := by
  rw [writeEntries, isLong]
  simp

/-- A text is not written like a mapping, since a colon does not end it where a line does. -/
theorem write_scalar_ne {text : List Char} {rest : List (Node × Node)} {tag : Tag}
    (text_textual : (scalar .text text).IsTextual bound)
    (mapping_textual : (mapping tag (entry :: rest)).IsTextual bound) (indent_le : indent ≤ bound)
    (ends : Ends stops indent leftTail) :
    write sameLine indent leftColumn (scalar .text text) ++ leftTail ≠
      write sameLine indent rightColumn (mapping tag (entry :: rest)) ++ rightTail := by
  intro same
  have marks := congrArg mark? same
  rw [mark?_write text_textual, mark?_write mapping_textual, ownMark?, ownMark?] at marks
  simp only [IsTextual] at text_textual mapping_textual
  rcases entry with ⟨key, value⟩
  rcases mapping_textual with ⟨_, ⟨name, rfl⟩, _, value_textual, _⟩
  rw [write, write_entries] at same
  cases sameLine with
  | false =>
      rw [if_neg (by decide), writeEntries_newLine] at same
      exact absurd (List.cons.inj same).1 (by decide)
  | true =>
      rw [if_pos rfl] at same
      rcases shortKey?_text (indent + indentation) name with
        ⟨_, unbroken, _, written_eq⟩ | ⟨isLong, _⟩
      · simp only [writeEntries_short written_eq, List.append_assoc, List.cons_append,
          List.cons.injEq, true_and] at same
        have tails := (writeScalar_append_injective (isPlaced_value text_textual.2 indent_le)
          (isPlaced_key indent unbroken) ends.endsScalar
          (.colon (isBlankOrEnd_write value_textual _)) same).2
        rcases ends with ⟨count, more, rfl, _⟩
        exact absurd (List.cons.inj tails).1 (by decide)
      · simp [entryMark?, isLong] at marks

theorem writeEntries_append_ne_nil {rest : List (Node × Node)} :
    writeEntries true indent (entry :: rest) ++ tail ≠ [] := by
  rcases entry with ⟨key, value⟩
  cases key_eq : shortKey? indent key with
  | some written => simp [writeEntries_short key_eq]
  | none => simp [writeEntries_long key_eq]

/-- Whether two values are of one kind. -/
inductive SameKind : Node → Node → Prop
  | texts (left right : List Char) : SameKind (scalar .text left) (scalar .text right)
  | noItems : SameKind (list .list []) (list .list [])
  | items (left right : Node) (leftRest rightRest : List Node) :
      SameKind (list .list (left :: leftRest)) (list .list (right :: rightRest))
  | noEntries : SameKind (mapping .mapping []) (mapping .mapping [])
  | entries (left right : Node × Node) (leftRest rightRest : List (Node × Node)) :
      SameKind (mapping .mapping (left :: leftRest)) (mapping .mapping (right :: rightRest))

theorem exists_form (textual : node.IsTextual bound) :
    (∃ text, node = scalar .text text) ∨ node = list .list [] ∨
      (∃ first rest, node = list .list (first :: rest)) ∨ node = mapping .mapping [] ∨
      ∃ first rest, node = mapping .mapping (first :: rest) := by
  cases node with
  | scalar tag text =>
      simp only [IsTextual] at textual
      exact Or.inl ⟨text, by rw [textual.1]⟩
  | list tag items =>
      simp only [IsTextual] at textual
      cases items <;> simp [textual.1]
  | mapping tag entries =>
      simp only [IsTextual] at textual
      cases entries <;> simp [textual.1]
  | enclosing holder => simp [IsTextual] at textual

/-- Values that are written alike are of one kind. -/
theorem sameKind_of_write (left_textual : left.IsTextual bound)
    (right_textual : right.IsTextual bound) (indent_le : indent ≤ bound)
    (left_ends : Ends stops indent leftTail) (right_ends : Ends stops indent rightTail)
    (same : left.write sameLine indent leftColumn ++ leftTail =
      right.write sameLine indent rightColumn ++ rightTail) : SameKind left right := by
  have marks := congrArg mark? same
  rw [mark?_write left_textual, mark?_write right_textual] at marks
  -- The marks tell all kinds apart but for texts and mappings with a short key.
  rcases exists_form left_textual with
    ⟨text, rfl⟩ | rfl | ⟨first, rest, rfl⟩ | rfl | ⟨first, rest, rfl⟩ <;>
  rcases exists_form right_textual with
    ⟨other, rfl⟩ | rfl | ⟨next, others, rfl⟩ | rfl | ⟨next, others, rfl⟩ <;>
  try (simp [ownMark?, entryMark?] at marks; done)
  · exact .texts text other
  · exact absurd same (write_scalar_ne left_textual right_textual indent_le left_ends)
  · exact .noItems
  · exact .items first next rest others
  · exact .noEntries
  · exact absurd same.symm (write_scalar_ne right_textual left_textual indent_le right_ends)
  · exact .entries first next rest others

/-! ## Values part by part -/

/-- Entries that are written alike have one key, and go on alike behind it. -/
theorem keys_eq_of_writeEntries {leftKey rightKey leftValue rightValue : Node}
    {leftRest rightRest : List (Node × Node)}
    (left_textual : AreTextualEntries bound ((leftKey, leftValue) :: leftRest))
    (right_textual : AreTextualEntries bound ((rightKey, rightValue) :: rightRest))
    (indent_le : indent ≤ bound)
    (same : writeEntries true indent ((leftKey, leftValue) :: leftRest) ++ leftTail =
      writeEntries true indent ((rightKey, rightValue) :: rightRest) ++ rightTail) :
    leftKey = rightKey ∧ ∃ sameLine leftColumn rightColumn,
      leftValue.write sameLine indent leftColumn ++
          (writeEntries false indent leftRest ++ leftTail) =
        rightValue.write sameLine indent rightColumn ++
          (writeEntries false indent rightRest ++ rightTail) := by
  have marks := congrArg mark? same
  rw [mark?_writeEntries left_textual, mark?_writeEntries right_textual, entryMark?,
    entryMark?] at marks
  rcases left_textual with ⟨⟨text, rfl⟩, text_textual, left_textual, _⟩
  rcases right_textual with ⟨⟨name, rfl⟩, name_textual, right_textual, _⟩
  -- A key in front of its colon begins otherwise than one behind a question mark, so the marks
  -- leave two of the four cases.
  rcases shortKey?_text indent text with
    ⟨isShort, unbroken, _, text_eq⟩ | ⟨isLong, text_eq⟩ <;>
  rcases shortKey?_text indent name with
    ⟨name_isShort, name_unbroken, _, name_eq⟩ | ⟨name_isLong, name_eq⟩
  · rw [writeEntries_short text_eq, writeEntries_short name_eq, List.append_assoc,
      List.append_assoc, List.cons_append, List.cons_append, List.append_assoc,
      List.append_assoc] at same
    rcases writeScalar_append_injective (isPlaced_key indent unbroken)
      (isPlaced_key indent name_unbroken)
      (EndsScalar.colon (isBlankOrEnd_write left_textual _))
      (EndsScalar.colon (isBlankOrEnd_write right_textual _)) same with ⟨rfl, colons_eq⟩
    exact ⟨rfl, _, _, _, (List.cons.inj colons_eq).2⟩
  · simp [isShort, name_isLong] at marks
  · simp [isLong, name_isShort] at marks
  · simp only [IsTextual] at text_textual name_textual
    have colon_starts (more : List Char) : Scan.StartsToken (':' :: more) :=
      Scan.startsToken_cons.mpr (by decide)
    simp only [writeEntries_long text_eq, writeEntries_long name_eq, write, List.append_assoc,
      List.cons_append, List.cons.injEq, true_and] at same
    rcases writeScalar_append_injective (isPlaced_value text_textual.2 indent_le)
      (isPlaced_value name_textual.2 indent_le) (.line (Nat.le_refl indent) (colon_starts _))
      (.line (Nat.le_refl indent) (colon_starts _)) same with ⟨rfl, colons_eq⟩
    exact ⟨rfl, _, _, _, (List.cons.inj (List.append_cancel_left colons_eq)).2⟩

mutual

/-- What is written for a value determines the value and where it ends. -/
theorem write_append_injective {sameLine : Bool} {bound indent leftColumn rightColumn : Nat}
    {leftTail rightTail : List Char} (left right : Node) (left_textual : left.IsTextual bound)
    (right_textual : right.IsTextual bound) (indent_le : indent ≤ bound)
    (left_ends : Ends (fun more => sameLine = false → NoItem more) indent leftTail)
    (right_ends : Ends (fun more => sameLine = false → NoItem more) indent rightTail)
    (same : left.write sameLine indent leftColumn ++ leftTail =
      right.write sameLine indent rightColumn ++ rightTail) :
    left = right ∧ leftTail = rightTail := by
  -- How both begin tells that they are of one kind, so only equal constructors are left. The
  -- recursion is on the left value, together with those of members and of entries.
  cases sameKind_of_write left_textual right_textual indent_le left_ends right_ends same with
  | texts text other =>
      simp only [IsTextual] at left_textual right_textual
      rw [write, write] at same
      rcases writeScalar_append_injective (isPlaced_value left_textual.2 indent_le)
        (isPlaced_value right_textual.2 indent_le) left_ends.endsScalar right_ends.endsScalar
        (List.cons.inj same).2 with ⟨rfl, tails_eq⟩
      exact ⟨rfl, tails_eq⟩
  | noItems =>
      rw [write, write] at same
      exact ⟨rfl, List.append_cancel_left same⟩
  | items first next rest others =>
      simp only [IsTextual] at left_textual right_textual
      rw [write_items, write_items] at same
      have parts : first :: rest = next :: others ∧ leftTail = rightTail := by
        cases sameLine with
        | true =>
            -- The first member stands behind an indicator. With a line end in front of it, it is a
            -- line like the others.
            have lines := congrArg (Folded.newLine (indent + indentation) ++ ·)
              (List.cons.inj same).2
            refine writeItems_append_injective (first :: rest) (next :: others) left_textual.2
              right_textual.2 (by simpa using indent_le) left_ends.inside right_ends.inside ?_
            simpa [writeItems_newLine] using lines
        | false =>
            exact writeItems_append_injective (first :: rest) (next :: others) left_textual.2
              right_textual.2 (by omega) (left_ends.imp fun _ noItem => noItem rfl)
              (right_ends.imp fun _ noItem => noItem rfl) same
      exact ⟨by rw [parts.1], parts.2⟩
  | noEntries =>
      rw [write, write] at same
      exact ⟨rfl, List.append_cancel_left same⟩
  | entries first next rest others =>
      simp only [IsTextual] at left_textual right_textual
      rw [write_entries, write_entries] at same
      have lines : writeEntries false (indent + indentation) (first :: rest) ++ leftTail =
          writeEntries false (indent + indentation) (next :: others) ++ rightTail := by
        cases sameLine with
        | true =>
            have lines := congrArg (Folded.newLine (indent + indentation) ++ ·)
              (List.cons.inj same).2
            simpa [writeEntries_newLine] using lines
        | false => exact same
      have parts := writeEntries_append_injective (first :: rest) (next :: others) left_textual.2
        right_textual.2 (by omega) left_ends.inside right_ends.inside lines
      exact ⟨by rw [parts.1], parts.2⟩
termination_by sizeOf left

/-- What is written for the members of a list determines them and where they end. -/
theorem writeItems_append_injective {bound indent : Nat} {leftTail rightTail : List Char}
    (left right : List Node) (left_textual : AreTextual bound left)
    (right_textual : AreTextual bound right) (indent_le : indent ≤ bound)
    (left_ends : Ends NoItem indent leftTail) (right_ends : Ends NoItem indent rightTail)
    (same : writeItems false indent left ++ leftTail =
      writeItems false indent right ++ rightTail) : left = right ∧ leftTail = rightTail := by
  cases left with
  | nil =>
      cases right with
      | nil => exact ⟨rfl, same⟩
      | cons other others =>
          rw [writeItems, List.nil_append, writeItems_newLine, List.append_assoc] at same
          exact absurd same (left_ends.ne_newLine (startsToken_writeItems other others _)
            (by simp [NoItem, mark?_writeItems right_textual.1]))
  | cons node rest =>
      cases right with
      | nil =>
          rw [writeItems, List.nil_append, writeItems_newLine, List.append_assoc] at same
          exact absurd same.symm (right_ends.ne_newLine (startsToken_writeItems node rest _)
            (by simp [NoItem, mark?_writeItems left_textual.1]))
      | cons other others =>
          have behind : node.write true indent (indent + 1) ++
              (writeItems false indent rest ++ leftTail) =
                other.write true indent (indent + 1) ++
                  (writeItems false indent others ++ rightTail) := by
            simpa [writeItems] using same
          rcases write_append_injective node other left_textual.1 right_textual.1 indent_le
            left_ends.writeItems right_ends.writeItems behind with ⟨rfl, rests_eq⟩
          rcases writeItems_append_injective rest others left_textual.2 right_textual.2 indent_le
            left_ends right_ends rests_eq with ⟨rfl, tails_eq⟩
          exact ⟨rfl, tails_eq⟩
termination_by sizeOf left

/-- What is written for the entries of a mapping determines them and where they end. -/
theorem writeEntries_append_injective {bound indent : Nat} {leftTail rightTail : List Char}
    (left right : List (Node × Node)) (left_textual : AreTextualEntries bound left)
    (right_textual : AreTextualEntries bound right) (indent_le : indent ≤ bound)
    (left_ends : Ends (· = []) indent leftTail) (right_ends : Ends (· = []) indent rightTail)
    (same : writeEntries false indent left ++ leftTail =
      writeEntries false indent right ++ rightTail) : left = right ∧ leftTail = rightTail := by
  cases left with
  | nil =>
      cases right with
      | nil => exact ⟨rfl, same⟩
      | cons other others =>
          rw [writeEntries, List.nil_append, writeEntries_newLine, List.append_assoc] at same
          exact absurd same (left_ends.ne_newLine (startsToken_writeEntries right_textual _)
            writeEntries_append_ne_nil)
  | cons entry rest =>
      cases right with
      | nil =>
          rw [writeEntries, List.nil_append, writeEntries_newLine, List.append_assoc] at same
          exact absurd same.symm (right_ends.ne_newLine (startsToken_writeEntries left_textual _)
            writeEntries_append_ne_nil)
      | cons other others =>
          cases entry with
          | mk key value =>
              rcases other with ⟨otherKey, otherValue⟩
              rw [writeEntries_newLine, writeEntries_newLine, List.append_assoc,
                List.append_assoc] at same
              rcases keys_eq_of_writeEntries left_textual right_textual indent_le
                (List.append_cancel_left same) with
                ⟨rfl, sameLine, leftColumn, rightColumn, values⟩
              rcases left_textual with ⟨_, _, value_textual, rest_textual⟩
              rcases right_textual with ⟨_, _, otherValue_textual, others_textual⟩
              have left_rest := left_ends.writeEntries rest_textual
              have right_rest := right_ends.writeEntries others_textual
              rcases write_append_injective value otherValue value_textual otherValue_textual
                indent_le (left_rest.imp fun _ noItem _ => noItem)
                (right_rest.imp fun _ noItem _ => noItem) values with ⟨rfl, rests_eq⟩
              rcases writeEntries_append_injective rest others rest_textual others_textual
                indent_le left_ends right_ends rests_eq with ⟨rfl, tails_eq⟩
              exact ⟨rfl, tails_eq⟩
termination_by sizeOf left

end

/-- Different mappings are written as different documents. -/
theorem writeDocument_injective {other : Node × Node} {rest others : List (Node × Node)}
    (left_textual : AreTextualEntries bound (entry :: rest))
    (right_textual : AreTextualEntries bound (other :: others))
    (same : writeDocument (entry :: rest) = writeDocument (other :: others)) :
    entry :: rest = other :: others := by
  have ends : Ends (· = []) 0 (Folded.newLine 0) :=
    ⟨0, [], rfl, .nil, Nat.le_refl 0, fun _ => rfl⟩
  have lines := congrArg (Folded.newLine 0 ++ ·) same
  simp only [writeDocument, ← List.append_assoc, ← writeEntries_newLine] at lines
  exact (writeEntries_append_injective (entry :: rest) (other :: others) left_textual
    right_textual (Nat.zero_le bound) ends ends lines).1

end Node

end Yaml

end RbacManifest
