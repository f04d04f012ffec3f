import RbacManifest.Proofs.Yaml.Key
import RbacManifest.Proofs.Yaml.Textual

/-!
# Reading the layout of documents

A value of texts, lists and mappings is written by indentation, and the tokens that are read from
there are those of the value alone: `Node.reads_write`. Where the value is put and what follows it
does not matter, as long as its lines are not indented too far.
-/

namespace RbacManifest

namespace Yaml

namespace Node

mutual

/-- The tokens of a value, behind an indicator on the same line or not. -/
def tokens (sameLine : Bool) : Node → List Token
  | scalar _ text => [.scalar text (isPlain text)]
  | list _ [] => [.listStart, .listEnd]
  | mapping _ [] => [.mappingStart, .mappingEnd]
  | list _ items =>
      if sameLine then .blockList :: itemTokens items ++ [.blockEnd] else itemTokens items
  | mapping _ entries => .blockMapping :: entryTokens entries ++ [.blockEnd]
  | enclosing _ => []

/-- The tokens of the members of a list. -/
def itemTokens : List Node → List Token
  | [] => []
  | node :: rest => .entry :: node.tokens true ++ itemTokens rest

/-- The tokens of the entries of a mapping. -/
def entryTokens : List (Node × Node) → List Token
  | [] => []
  | (key, value) :: rest =>
      .key :: key.tokens true ++ .value :: value.tokens (!key.isShortKey) ++ entryTokens rest

end

/-- Whether a text is read back as a key: no line end in it is changed by the reader, and it is not
written in front of its colon unless it is near enough to it. -/
def IsSafeKey (text : List Char) : Prop :=
  '\u0085' ∉ text ∧ (text.length ≤ 102 ∨ longKey ≤ text.length + tagLength .text)

mutual

/-- Whether a value consists of texts, lists and mappings that are read back when it is written in a
collection at a column. -/
def IsSafe (indent : Nat) : Node → Prop
  | scalar tag text =>
      tag = .text ∧ '\u0085' ∉ text ∧ indent + indentation < Folded.width
  | list tag items => tag = .list ∧ AreSafe (indent + indentation) items
  | mapping tag entries => tag = .mapping ∧ AreSafeEntries (indent + indentation) entries
  | enclosing _ => False

/-- Whether the members of a list are read back. -/
def AreSafe (indent : Nat) : List Node → Prop
  | [] => True
  | node :: rest => node.IsSafe indent ∧ AreSafe indent rest

/-- Whether the entries of a mapping are read back. -/
def AreSafeEntries (indent : Nat) : List (Node × Node) → Prop
  | [] => True
  | (key, value) :: rest =>
      (∃ text, key = scalar .text text ∧ IsSafeKey text) ∧ key.IsSafe indent ∧
        value.IsSafe indent ∧ AreSafeEntries indent rest

end

mutual

theorem isTextual_of_isSafe {indent : Nat} :
    (node : Node) → node.IsSafe indent → node.IsTextual indent
  | scalar tag text, safe => by
      simp only [IsSafe] at safe
      rw [IsTextual]
      exact ⟨safe.1, safe.2.2⟩
  | list tag items, safe => by
      simp only [IsSafe] at safe
      rw [IsTextual]
      exact ⟨safe.1, areTextual_of_areSafe items safe.2⟩
  | mapping tag entries, safe => by
      simp only [IsSafe] at safe
      rw [IsTextual]
      exact ⟨safe.1, areTextualEntries_of_areSafeEntries entries safe.2⟩
  | enclosing holder, safe => by simp [IsSafe] at safe

theorem areTextual_of_areSafe {indent : Nat} :
    (items : List Node) → AreSafe indent items → AreTextual indent items
  | [], _ => trivial
  | node :: rest, safe => ⟨isTextual_of_isSafe node safe.1, areTextual_of_areSafe rest safe.2⟩

theorem areTextualEntries_of_areSafeEntries {indent : Nat} :
    (entries : List (Node × Node)) → AreSafeEntries indent entries →
      AreTextualEntries indent entries
  | [], _ => trivial
  | (key, value) :: rest, safe => by
      rcases safe with ⟨⟨text, key_eq, _⟩, key_safe, value_safe, rest_safe⟩
      exact ⟨⟨text, key_eq⟩, isTextual_of_isSafe key key_safe, isTextual_of_isSafe value value_safe,
        areTextualEntries_of_areSafeEntries rest rest_safe⟩

end

variable {indent bound column : Nat} {sameLine : Bool} {node : Node} {items : List Node}
  {entries : List (Node × Node)}

theorem tokens_list (node : Node) (rest : List Node) (tag : Tag) :
    (list tag (node :: rest)).tokens sameLine =
      if sameLine then .blockList :: itemTokens (node :: rest) ++ [.blockEnd]
      else itemTokens (node :: rest) := by
  simp [tokens]

theorem tokens_mapping (entry : Node × Node) (rest : List (Node × Node)) (tag : Tag) :
    (mapping tag (entry :: rest)).tokens sameLine =
      .blockMapping :: entryTokens (entry :: rest) ++ [.blockEnd] := by
  simp [tokens]

theorem entryTokens_cons (entry : Node × Node) (rest : List (Node × Node)) :
    entryTokens (entry :: rest) = entryTokens [entry] ++ entryTokens rest := by
  rcases entry with ⟨key, value⟩
  simp [entryTokens]

theorem areSafeEntries_cons {entry : Node × Node} {rest : List (Node × Node)} :
    AreSafeEntries indent (entry :: rest) ↔
      AreSafeEntries indent [entry] ∧ AreSafeEntries indent rest := by
  rcases entry with ⟨key, value⟩
  simp [AreSafeEntries, and_assoc]

end Node

namespace Scan

variable {start middle : Scan} {tokens others : List Token} {level : Int} {around outer : List Int}
  {keyAllowed : Bool} {position : Position} {indent column count : Nat} {text more : List Char}

/-! ## Readings up to lines -/

/-- Whether reading gives the given tokens and goes on at a line that begins at a column. -/
def ReadsLines (start : Scan) (tokens : List Token) (level : Int) (outer : List Int)
    (count : Nat) (more : List Char) : Prop :=
  ∃ behind : Position, behind.column = count ∧
    Reads start tokens (standing level outer true behind more)

namespace ReadsLines

theorem before (first : Reads start tokens middle)
    (second : ReadsLines middle others level outer count more) :
    ReadsLines start (tokens ++ others) level outer count more := by
  rcases second with ⟨behind, column_eq, reads⟩
  exact ⟨behind, column_eq, first.trans reads⟩

theorem append {nextLevel : Int} {nextCount : Nat} {next : List Char}
    (first : ReadsLines start tokens nextLevel around nextCount next)
    (second : ∀ behind : Position, behind.column = nextCount →
      ReadsLines (standing nextLevel around true behind next) others level outer count more) :
    ReadsLines start (tokens ++ others) level outer count more := by
  rcases first with ⟨behind, column_eq, reads⟩
  exact .before reads (second behind column_eq)

/-- A line to the left of a collection ends it. -/
theorem close {innerLevel : Int}
    (reads : ReadsLines start tokens innerLevel (level :: outer) count more)
    (outside : count < innerLevel) (starts : StartsToken more) :
    ReadsLines start (tokens ++ [.blockEnd]) level outer count more := by
  refine reads.append ?_
  intro behind column_eq
  exact ⟨behind, column_eq, reads_blockEnd starts (by omega)⟩

end ReadsLines

theorem readsLines_space (starts : StartsToken text)
    (reads : ReadsLines (standing level outer keyAllowed (position.next ' ') text) tokens level
      outer count more) :
    ReadsLines (standing level outer keyAllowed position (' ' :: text)) tokens level outer count
      more :=
  .before (reads_space starts) reads

theorem readsLines_newLine (starts : StartsToken text)
    (reads : ∀ behind : Position, behind.column = indent →
      ReadsLines (standing level outer true behind text) tokens level outer count more) :
    ReadsLines (standing level outer keyAllowed position (Folded.newLine indent ++ text)) tokens
      level outer count more := by
  refine .before (reads_newLine starts indent (by simp [AllStale])) (reads _ ?_)
  rw [Position.behind_newLine]

theorem column_newLine : (position.behind (text ++ Folded.newLine count)).column = count := by
  rw [Position.behind_append, Position.behind_newLine]

theorem readsLines_value (noNextLine : '\u0085' ∉ text) (inside : level < position.column)
    (level_lt : level < indent) (indent_lt : indent < Folded.width)
    (count_le : (count : Int) ≤ level) (starts : StartsToken more) :
    ReadsLines
      (standing level outer keyAllowed position (Node.writeScalar true indent column .text text ++
        (Folded.newLine count ++ more)))
      [.scalar text (isPlain text)] level outer count more :=
  ⟨_, column_newLine, reads_value (List.forall_mem_ne'.mpr noNextLine) inside level_lt indent_lt
    count_le starts⟩

theorem readsLines_brackets {left right : Char} {first last : Token}
    (brackets : AreBrackets left right first last) (inside : level < position.column)
    (starts : StartsToken more) :
    ReadsLines
      (standing level outer keyAllowed position (left :: right :: (Folded.newLine count ++ more)))
      [first, last] level outer count more :=
  ⟨_, by rw [Position.behind_newLine], reads_brackets brackets inside starts⟩

/-! ## Readings behind indicators -/

variable {opens : Bool} {written tail : List Char}

/-- Behind an indicator and a space the reading goes on with what is written there. -/
theorem readsLines_indicator {mark : Char} {first : List Token}
    (indicator : ∀ text, Reads (standing level around true position (mark :: ' ' :: text)) first
      (standing position.column outer true (position.next mark) (' ' :: text)))
    (blank : ∃ rest, written = ' ' :: rest)
    (reads : ReadsLines (standing position.column outer true (position.next mark) (written ++ tail))
      tokens position.column outer count more) :
    ReadsLines (standing level around true position (mark :: written ++ tail)) (first ++ tokens)
      position.column outer count more := by
  rcases blank with ⟨rest, rfl⟩
  exact .before (indicator (rest ++ tail)) reads

theorem readsLines_key (opening : Opens position.column level around outer opens)
    (unbroken : ∀ c ∈ text, isBreak c = false) (short : text.length ≤ 102)
    (blank : isBlankOrEnd (tail.head?.getD endMark) = true)
    (reads : ReadsLines
      (standing position.column outer false
        ((position.behind (Node.writeScalar false 0 column .text text)).next ':') tail)
      tokens position.column outer count more) :
    ReadsLines
      (standing level around true position
        (Node.writeScalar false 0 column .text text ++ ':' :: tail))
      ((if opens then [.blockMapping] else []) ++
        .key :: .scalar text (isPlain text) :: .value :: tokens)
      position.column outer count more := by
  have lines := ReadsLines.before (reads_key opening unbroken short blank) reads
  rwa [List.append_assoc] at lines

theorem column_lt_behind_key (unbroken : ∀ c ∈ text, isBreak c = false) :
    position.column <
      ((position.behind (Node.writeScalar false 0 column .text text)).next ':').column := by
  have inline : ∀ c ∈ Node.writeScalar false 0 column .text text, isBreak c = false :=
    inline_writeScalar unbroken
  exact Nat.lt_succ_of_le (Position.behind_of_inline inline).2

end Scan

/-! ## Values in collections -/

namespace Node

open Scan

mutual

/-- A value behind an indicator is read as its tokens, whatever the next line begins with. -/
theorem reads_write {sameLine keyAllowed : Bool} {bound indent column count : Nat}
    {outer : List Int} {position : Position} {more : List Char} (node : Node)
    (safe : node.IsSafe bound) (indent_le : indent ≤ bound) (inside : indent < position.column)
    (onLine : sameLine = true → keyAllowed = true ∧ position.column = indent + 1)
    (count_le : count ≤ indent) (starts : StartsToken more) :
    ReadsLines
      (standing indent outer keyAllowed position
        (node.write sameLine indent column ++ (Folded.newLine count ++ more)))
      (node.tokens sameLine) indent outer count more := by
  have column_eq : (position.next ' ').column = position.column + 1 := rfl
  cases node with
  | scalar tag text =>
      simp only [IsSafe, indentation] at safe
      rcases safe with ⟨rfl, noNextLine, indent_lt⟩
      rw [write, tokens, indentation]
      refine readsLines_space startsToken_writeScalar ?_
      exact readsLines_value noNextLine (by omega) (by omega) (by omega) (by omega) starts
  | list tag items =>
      simp only [IsSafe, indentation] at safe
      cases items with
      | nil =>
          rw [write, tokens]
          exact readsLines_space (startsToken_cons.mpr (by decide))
            (readsLines_brackets (Or.inl ⟨rfl, rfl, rfl, rfl⟩) (by omega) starts)
      | cons first rest =>
          rw [write_items, tokens_list, indentation]
          cases sameLine with
          | true =>
              rcases onLine rfl with ⟨rfl, position_eq⟩
              have opening : Opens (position.next ' ').column indent outer (indent :: outer) true :=
                ⟨by omega, rfl⟩
              refine readsLines_space (startsToken_writeItems first rest _) ?_
              exact (reads_items first rest safe.2 (by omega) (by omega) opening (by omega)
                starts).close (by omega) starts
          -- Behind a colon the dashes stand at the column of the mapping, so no list is opened
          -- there and none is closed.
          | false =>
              rw [if_neg (by decide), if_neg (by decide), writeItems_newLine, List.append_assoc]
              refine readsLines_newLine (startsToken_writeItems first rest _) ?_
              intro behind behind_eq
              have opening : Opens behind.column indent outer outer false := ⟨by omega, rfl⟩
              exact reads_items first rest safe.2 (by omega) behind_eq opening count_le starts
  | mapping tag entries =>
      simp only [IsSafe, indentation] at safe
      cases entries with
      | nil =>
          rw [write, tokens]
          exact readsLines_space (startsToken_cons.mpr (by decide))
            (readsLines_brackets (Or.inr ⟨rfl, rfl, rfl, rfl⟩) (by omega) starts)
      | cons first rest =>
          have textual := areTextualEntries_of_areSafeEntries (first :: rest) safe.2
          rw [write_entries, tokens_mapping, indentation]
          cases sameLine with
          | true =>
              rcases onLine rfl with ⟨rfl, position_eq⟩
              have opening : Opens (position.next ' ').column indent outer (indent :: outer) true :=
                ⟨by omega, rfl⟩
              refine readsLines_space (startsToken_writeEntries textual _) ?_
              exact (reads_entries first rest safe.2 (by omega) (by omega) opening (by omega)
                starts).close (by omega) starts
          | false =>
              rw [if_neg (by decide), writeEntries_newLine, List.append_assoc]
              refine readsLines_newLine (startsToken_writeEntries textual _) ?_
              intro behind behind_eq
              have opening : Opens behind.column indent outer (indent :: outer) true :=
                ⟨by omega, rfl⟩
              exact (reads_entries first rest safe.2 (by omega) behind_eq opening (by omega)
                starts).close (by omega) starts
  | enclosing holder => simp [IsSafe] at safe
termination_by sizeOf node

/-- The members of a list are read one after the other, each behind its dash. -/
theorem reads_items {opens : Bool} {bound indent count : Nat} {level : Int}
    {around outer : List Int} {position : Position} {more : List Char} (node : Node)
    (rest : List Node) (safe : AreSafe bound (node :: rest)) (indent_le : indent ≤ bound)
    (column_eq : position.column = indent)
    (opening : Opens position.column level around outer opens) (count_le : count ≤ indent)
    (starts : StartsToken more) :
    ReadsLines
      (standing level around true position
        (writeItems true indent (node :: rest) ++ (Folded.newLine count ++ more)))
      ((if opens then [.blockList] else []) ++ itemTokens (node :: rest))
      indent outer count more := by
  subst column_eq
  have dash_column : (position.next '-').column = position.column + 1 := rfl
  rcases safe with ⟨node_safe, rest_safe⟩
  have blank : ∃ rest, node.write true position.column (position.column + 1) = ' ' :: rest :=
    exists_write_sameLine (isTextual_of_isSafe node node_safe)
  cases rest with
  | nil =>
      simp only [writeItems, itemTokens, if_true, List.nil_append, List.append_nil]
      rw [List.append_cons]
      apply readsLines_indicator (fun _ => reads_entry opening) blank
      exact reads_write node node_safe indent_le (by omega) (fun _ => ⟨rfl, dash_column⟩) count_le
        starts
  | cons next rest =>
      rw [writeItems, itemTokens, if_pos rfl, writeItems_newLine, List.nil_append,
        List.append_assoc, List.append_assoc, ← List.append_assoc (if opens then _ else _)]
      apply ReadsLines.append
      · rw [List.append_cons]
        apply readsLines_indicator (fun _ => reads_entry opening) blank
        exact reads_write node node_safe indent_le (by omega) (fun _ => ⟨rfl, dash_column⟩)
          (Nat.le_refl _) (startsToken_writeItems next rest _)
      · intro behind behind_eq
        have staying : Opens behind.column position.column outer outer false := ⟨by omega, rfl⟩
        exact reads_items next rest rest_safe indent_le behind_eq staying count_le starts
termination_by sizeOf node + sizeOf rest

theorem reads_pair {opens : Bool} {bound indent count : Nat} {level : Int}
    {around outer : List Int} {position : Position} {more : List Char} (entry : Node × Node)
    (safe : AreSafeEntries bound [entry]) (indent_le : indent ≤ bound)
    (column_eq : position.column = indent)
    (opening : Opens position.column level around outer opens) (count_le : count ≤ indent)
    (starts : StartsToken more) :
    ReadsLines
      (standing level around true position
        (writeEntries true indent [entry] ++ (Folded.newLine count ++ more)))
      ((if opens then [.blockMapping] else []) ++ entryTokens [entry])
      indent outer count more := by
  subst column_eq
  cases entry with
  | mk key value =>
      rcases safe with ⟨⟨text, rfl, _, near⟩, key_safe, value_safe, _⟩
      have value_textual := isTextual_of_isSafe value value_safe
      rw [writeEntries, entryTokens, writeEntries, entryTokens, if_pos rfl, List.nil_append,
        List.append_nil, List.append_nil]
      -- A short key stands in front of its colon, any other one behind a question mark.
      rcases shortKey?_text position.column text with
        ⟨isShort, unbroken, short, written_eq⟩ | ⟨isLong, written_eq⟩
      · rw [written_eq, isShort, tokens]
        simp only [List.append_assoc, List.cons_append, List.nil_append]
        apply readsLines_key opening unbroken (by omega) (isBlankOrEnd_write value_textual _)
        exact reads_write value value_safe indent_le (column_lt_behind_key unbroken) (by simp)
          count_le starts
      · have mark_column : (position.next '?').column = position.column + 1 := rfl
        rw [written_eq, isLong]
        simp only [List.append_assoc, List.cons_append]
        rw [List.append_cons (if opens then _ else _)]
        apply readsLines_indicator (fun _ => reads_questionMark opening)
          (exists_write_sameLine (isTextual_of_isSafe _ key_safe))
        apply ReadsLines.append
        · exact reads_write _ key_safe indent_le (by omega) (fun _ => ⟨rfl, mark_column⟩)
            (Nat.le_refl _) (startsToken_cons.mpr (by decide))
        · intro behind behind_eq
          have colon_column : (behind.next ':').column = behind.column + 1 := rfl
          rw [← behind_eq]
          apply readsLines_indicator (fun _ => reads_colon) (exists_write_sameLine value_textual)
          exact reads_write value value_safe (by omega) (by omega) (fun _ => ⟨rfl, colon_column⟩)
            (by omega) starts
termination_by sizeOf entry

/-- The entries of a mapping are read one after the other. -/
theorem reads_entries {opens : Bool} {bound indent count : Nat} {level : Int}
    {around outer : List Int} {position : Position} {more : List Char} (entry : Node × Node)
    (rest : List (Node × Node)) (safe : AreSafeEntries bound (entry :: rest))
    (indent_le : indent ≤ bound) (column_eq : position.column = indent)
    (opening : Opens position.column level around outer opens) (count_le : count ≤ indent)
    (starts : StartsToken more) :
    ReadsLines
      (standing level around true position
        (writeEntries true indent (entry :: rest) ++ (Folded.newLine count ++ more)))
      ((if opens then [.blockMapping] else []) ++ entryTokens (entry :: rest))
      indent outer count more := by
  rcases areSafeEntries_cons.mp safe with ⟨entry_safe, rest_safe⟩
  cases rest with
  | nil => exact reads_pair entry entry_safe indent_le column_eq opening count_le starts
  | cons next rest =>
      rw [writeEntries_cons, entryTokens_cons, writeEntries_newLine, List.append_assoc,
        List.append_assoc, ← List.append_assoc (if opens then _ else _)]
      apply ReadsLines.append
      · exact reads_pair entry entry_safe indent_le column_eq opening (Nat.le_refl _)
          (startsToken_writeEntries (areTextualEntries_of_areSafeEntries _ rest_safe) _)
      · intro behind behind_eq
        have staying : Opens behind.column indent outer outer false := ⟨by omega, rfl⟩
        exact reads_entries next rest rest_safe indent_le behind_eq staying count_le starts
termination_by sizeOf entry + sizeOf rest

end

end Node

/-! ## Documents -/

namespace Scan

variable {position : Position} {text : List Char} {tokens : List Token}

theorem ofText_eq :
    Token.ofText text = Token.ofLexemes (lexemes ((Position.cells ⟨0, 0, 0⟩ text).length + 1)
      (standing (-1) [] true ⟨0, 0, 0⟩ text)) := rfl

theorem next_end :
    (standing (0 : Nat) [-1] true position []).next = .last [.token .blockEnd] := by
  have dispatch_eq :
      (standing (0 : Nat) [-1] true position []).dispatch = .last [.token .blockEnd] := by
    simp [dispatch, facing, Position.cells_nil, Cell.peek, finish, unwind, closeTo, dropPossible?]
  have inside : ((0 : Nat) : Int) ≤ position.column := by omega
  rw [next_standing .nil inside, dispatch_eq]

/-- A text that is read as a mapping at its left margin is read as a document. -/
theorem ofText_of_readsLines
    (lines : ReadsLines (standing (-1) [] true ⟨0, 0, 0⟩ text) tokens (0 : Nat) [-1] 0 []) :
    Token.ofText text = tokens ++ [.blockEnd] := by
  rcases lines with ⟨behind, _, _, steps, found, steps_le, resolves, lexemes_eq⟩
  have steps_lt : steps + 1 ≤ (Position.cells ⟨0, 0, 0⟩ text).length := by
    simpa using steps_le
  -- The steps that are left over are at least one, which closes the mapping.
  rcases Nat.exists_eq_add_of_le steps_lt with ⟨more, length_eq⟩
  have end_eq : lexemes (more + 1 + 1) (standing (0 : Nat) [-1] true behind []) =
      [.token .blockEnd] := by
    rw [lexemes, next_end]
  have unbroken :
      Token.Unbroken (lexemes (more + 1 + 1) (standing (0 : Nat) [-1] true behind [])) := by
    rw [end_eq]
    simp [Token.Unbroken]
  rw [ofText_eq, length_eq, show steps + 1 + more + 1 = steps + (more + 1) + 1 by omega,
    lexemes_eq _ unbroken, end_eq, Token.ofLexemes, (resolves _ (by simp [Token.resolve])).1]
  rfl

end Scan

namespace Node

open Scan

/-- A document is read as the tokens of its mapping. -/
theorem ofText_writeDocument {bound : Nat} {entry : Node × Node} {rest : List (Node × Node)}
    (safe : AreSafeEntries bound (entry :: rest)) :
    Token.ofText (writeDocument (entry :: rest)) =
      (mapping .mapping (entry :: rest)).tokens true := by
  have opening : Opens (0 : Nat) (-1) [] [-1] true := ⟨by decide, rfl⟩
  have lines : ReadsLines (standing (-1) [] true ⟨0, 0, 0⟩ _) _ (0 : Nat) [-1] 0 [] :=
    reads_entries entry rest safe (Nat.zero_le bound) rfl opening (Nat.le_refl 0) .nil
  rw [tokens_mapping, writeDocument]
  exact ofText_of_readsLines lines

/-! ## Characters of documents -/

theorem isLasting_newLine (indent : Nat) : ∀ c ∈ Folded.newLine indent, IsLasting c :=
  forall_newLine isLasting_lineFeed isLasting_space

theorem isLasting_lineStart (onLine : Bool) (indent : Nat) :
    ∀ c ∈ if onLine then [] else Folded.newLine indent, IsLasting c := by
  cases onLine with
  | true => simp
  | false => exact isLasting_newLine indent

mutual

/-- What is written for a value consists of characters that last. -/
theorem isLasting_write {sameLine : Bool} {bound indent column : Nat} :
    (node : Node) → node.IsSafe bound → ∀ c ∈ node.write sameLine indent column, IsLasting c
  | scalar tag text, safe => by
      simp only [IsSafe] at safe
      rcases safe with ⟨rfl, _⟩
      rw [write]
      exact List.forall_mem_cons.mpr ⟨isLasting_space, isLasting_writeScalar⟩
  | list tag [], _ => by
      rw [write]
      exact isLasting_of_all (by decide)
  | mapping tag [], _ => by
      rw [write]
      exact isLasting_of_all (by decide)
  | list tag (node :: rest), safe => by
      simp only [IsSafe] at safe
      rw [write_items]
      split
      · exact List.forall_mem_cons.mpr ⟨isLasting_space, isLasting_writeItems (node :: rest) safe.2⟩
      · exact isLasting_writeItems (node :: rest) safe.2
  | mapping tag (entry :: rest), safe => by
      simp only [IsSafe] at safe
      rw [write_entries]
      split
      · exact List.forall_mem_cons.mpr
          ⟨isLasting_space, isLasting_writeEntries (entry :: rest) safe.2⟩
      · exact isLasting_writeEntries (entry :: rest) safe.2
  | enclosing holder, safe => by simp [IsSafe] at safe

theorem isLasting_writeItems {onLine : Bool} {bound indent : Nat} :
    (items : List Node) → AreSafe bound items → ∀ c ∈ writeItems onLine indent items, IsLasting c
  | [], _ => by simp [writeItems]
  | node :: rest, safe => by
      have dash : IsLasting '-' := IsTypable.isLasting (by decide)
      rw [writeItems]
      simp only [List.forall_mem_append, List.forall_mem_cons]
      exact ⟨⟨isLasting_lineStart onLine indent, dash, isLasting_write node safe.1⟩,
        isLasting_writeItems rest safe.2⟩

theorem isLasting_writeEntries {onLine : Bool} {bound indent : Nat} :
    (entries : List (Node × Node)) → AreSafeEntries bound entries →
      ∀ c ∈ writeEntries onLine indent entries, IsLasting c
  | [], _ => by simp [writeEntries]
  | (key, value) :: rest, safe => by
      have colon : IsLasting ':' := IsTypable.isLasting (by decide)
      have questionMark : IsLasting '?' := IsTypable.isLasting (by decide)
      rcases safe with ⟨⟨text, key_eq, _⟩, key_safe, value_safe, rest_safe⟩
      have key_all : ∀ c ∈ key.write true indent (indent + 1), IsLasting c :=
        isLasting_write key key_safe
      subst key_eq
      rw [writeEntries]
      refine List.forall_mem_append.mpr ⟨List.forall_mem_append.mpr
        ⟨isLasting_lineStart onLine indent, ?_⟩, isLasting_writeEntries rest rest_safe⟩
      rcases shortKey?_text indent text with ⟨_, _, _, written_eq⟩ | ⟨_, written_eq⟩
      · rw [written_eq]
        simp only [List.forall_mem_append, List.forall_mem_cons]
        exact ⟨isLasting_writeScalar, colon, isLasting_write value value_safe⟩
      · rw [written_eq]
        simp only [List.forall_mem_append, List.forall_mem_cons]
        exact ⟨⟨⟨questionMark, key_all⟩, isLasting_newLine indent⟩, colon,
          isLasting_write value value_safe⟩

end

theorem isLasting_writeDocument {bound : Nat} {entries : List (Node × Node)}
    (safe : AreSafeEntries bound entries) : ∀ c ∈ writeDocument entries, IsLasting c :=
  List.forall_mem_append.mpr
    ⟨isLasting_writeEntries entries safe, by simpa using isLasting_lineFeed⟩

end Node

end Yaml

end RbacManifest
