import RbacManifest.Proofs.Yaml.SingleValue

/-!
# How values begin

A value of texts, lists and mappings begins with a blank or with a line, and then with a character
that shows what it is, as far as that can be seen from one character. `Node.IsTextual` says which
values these are.
-/

namespace RbacManifest

namespace Yaml

namespace Node

/-- Whether a key is written in front of its colon. -/
def isShortKey (key : Node) : Bool :=
  (shortKey? 0 key).isSome

mutual

/-- Whether a value consists of texts, lists and mappings with texts as keys, and there is room for
the texts when it is written in a collection at a column. -/
def IsTextual (indent : Nat) : Node → Prop
  | scalar tag _ => tag = .text ∧ indent + indentation < Folded.width
  | list tag items => tag = .list ∧ AreTextual (indent + indentation) items
  | mapping tag entries => tag = .mapping ∧ AreTextualEntries (indent + indentation) entries
  | enclosing _ => False

/-- Whether the members of a list are such values. -/
def AreTextual (indent : Nat) : List Node → Prop
  | [] => True
  | node :: rest => node.IsTextual indent ∧ AreTextual indent rest

/-- Whether the entries of a mapping are such values, under texts. -/
def AreTextualEntries (indent : Nat) : List (Node × Node) → Prop
  | [] => True
  | (key, value) :: rest =>
      (∃ text, key = scalar .text text) ∧ key.IsTextual indent ∧ value.IsTextual indent ∧
        AreTextualEntries indent rest

end

variable {indent bound column : Nat} {sameLine : Bool} {node : Node}

theorem write_items (node : Node) (rest : List Node) (tag : Tag) :
    write sameLine indent column (list tag (node :: rest)) =
      if sameLine then ' ' :: writeItems true (indent + indentation) (node :: rest)
      else writeItems false indent (node :: rest) := by
  simp [write]

theorem write_entries (entry : Node × Node) (rest : List (Node × Node)) (tag : Tag) :
    write sameLine indent column (mapping tag (entry :: rest)) =
      if sameLine then ' ' :: writeEntries true (indent + indentation) (entry :: rest)
      else writeEntries false (indent + indentation) (entry :: rest) := by
  simp [write]

theorem writeItems_newLine (node : Node) (rest : List Node) :
    writeItems false indent (node :: rest) =
      Folded.newLine indent ++ writeItems true indent (node :: rest) := by
  simp [writeItems]

theorem writeEntries_newLine (entry : Node × Node) (rest : List (Node × Node)) :
    writeEntries false indent (entry :: rest) =
      Folded.newLine indent ++ writeEntries true indent (entry :: rest) := by
  rcases entry with ⟨key, value⟩
  simp [writeEntries]

theorem writeEntries_cons (entry : Node × Node) (rest : List (Node × Node)) :
    writeEntries true indent (entry :: rest) =
      writeEntries true indent [entry] ++ writeEntries false indent rest := by
  rcases entry with ⟨key, value⟩
  simp [writeEntries]

theorem exists_write_sameLine (textual : node.IsTextual bound) :
    ∃ rest, node.write true indent column = ' ' :: rest := by
  cases node with
  | scalar tag text => exact ⟨_, by rw [write]⟩
  | list tag items =>
      cases items with
      | nil => exact ⟨_, by rw [write]; rfl⟩
      | cons node rest => exact ⟨_, write_items node rest tag⟩
  | mapping tag entries =>
      cases entries with
      | nil => exact ⟨_, by rw [write]; rfl⟩
      | cons entry rest => exact ⟨_, write_entries entry rest tag⟩
  | enclosing holder => simp [IsTextual] at textual

theorem isBlankOrEnd_write (textual : node.IsTextual bound) (more : List Char) :
    isBlankOrEnd ((node.write false indent column ++ more).head?.getD endMark) = true := by
  cases node with
  | scalar tag text =>
      rw [write]
      rfl
  | list tag items =>
      cases items with
      | nil =>
          rw [write]
          rfl
      | cons node rest =>
          rw [write_items, writeItems_newLine]
          rfl
  | mapping tag entries =>
      cases entries with
      | nil =>
          rw [write]
          rfl
      | cons entry rest =>
          rw [write_entries, writeEntries_newLine]
          rfl
  | enclosing holder => simp [IsTextual] at textual

theorem startsToken_writeItems (node : Node) (rest : List Node) (more : List Char) :
    Scan.StartsToken (writeItems true indent (node :: rest) ++ more) := by
  rw [writeItems]
  exact Scan.startsToken_cons.mpr (by decide)

theorem shortKey?_text (indent : Nat) (text : List Char) :
    ((scalar .text text).isShortKey = true ∧ (∀ c ∈ text, isBreak c = false) ∧
      text.length + tagLength .text < longKey ∧
      shortKey? indent (scalar .text text) = some (writeScalar false 0 indent .text text)) ∨
    ((scalar .text text).isShortKey = false ∧ shortKey? indent (scalar .text text) = none) := by
  simp only [isShortKey, shortKey?]
  split
  · next isShort =>
    simp only [Bool.and_eq_true, decide_eq_true_eq, Bool.not_eq_true'] at isShort
    left
    refine ⟨rfl, ?_, isShort.1.1, rfl⟩
    intro c isMember
    simpa using List.any_eq_false.mp isShort.2 c isMember
  · exact Or.inr ⟨rfl, rfl⟩

theorem startsToken_writeEntries {entry : Node × Node} {rest : List (Node × Node)}
    (textual : AreTextualEntries bound (entry :: rest)) (more : List Char) :
    Scan.StartsToken (writeEntries true indent (entry :: rest) ++ more) := by
  rcases entry with ⟨key, value⟩
  rcases textual with ⟨⟨text, rfl⟩, _⟩
  rw [writeEntries]
  rcases shortKey?_text indent text with ⟨_, _, _, short⟩ | ⟨_, long⟩
  · rw [short]
    simp only [if_true, List.nil_append, List.append_assoc]
    exact Scan.startsToken_writeScalar
  · rw [long]
    exact Scan.startsToken_cons.mpr (by decide)

end Node

end Yaml

end RbacManifest
