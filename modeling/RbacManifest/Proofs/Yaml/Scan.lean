import RbacManifest.Proofs.Yaml.Position
import RbacManifest.Proofs.Yaml.Token
import RbacManifest.Yaml.Scan

/-!
# Steps of the reading of tokens

`Scan.Reads` says that reading goes from a state to another one and gives the tokens in between;
such readings are put together by `Scan.Reads.trans`. The readings of the single indicators start
and end in states without possible keys, `Scan.standing`.
-/

namespace RbacManifest

namespace Yaml

namespace Scan

/-- The state in front of a text outside of brackets, where keys may have begun before. -/
def facing (possible : List PossibleKey) (indent : Int) (outer : List Int) (keyAllowed : Bool)
    (position : Position) (text : List Char) : Scan :=
  { rest := position.cells text, depth := 0, indent, outer, keyAllowed, possible }

/-- The state in front of a text outside of brackets, where no key may have begun before. -/
abbrev standing (indent : Int) (outer : List Int) (keyAllowed : Bool) (position : Position)
    (text : List Char) : Scan :=
  facing [] indent outer keyAllowed position text

/-- The number of characters before the next one. -/
def index (state : Scan) : Nat :=
  match state.rest with
  | cell :: _ => cell.index
  | [] => 0

/-- Whether reading leads from a state to another one and gives the given tokens, if the text does
not stop being a row of tokens behind them. The number of steps is bounded by the number of cells
that are read. -/
def Reads (start : Scan) (tokens : List Token) (stop : Scan) : Prop :=
  start.index ≤ stop.index ∧
    ∃ steps lexemes, steps + stop.rest.length ≤ start.rest.length ∧
      Token.Resolves start.index stop.index lexemes tokens ∧
      ∀ more, Token.Unbroken (Scan.lexemes (more + 1) stop) →
        Scan.lexemes (steps + more + 1) start = lexemes ++ Scan.lexemes (more + 1) stop

namespace Reads

variable {start middle stop : Scan} {tokens others : List Token}

theorem trans (first : Reads start tokens middle) (second : Reads middle others stop) :
    Reads start (tokens ++ others) stop := by
  rcases first with ⟨index_le, steps, lexemes, steps_le, resolves, lexemes_eq⟩
  rcases second with ⟨others_index_le, others_steps, others_lexemes, others_steps_le,
    others_resolves, others_lexemes_eq⟩
  refine ⟨Nat.le_trans index_le others_index_le, steps + others_steps, lexemes ++ others_lexemes,
    by omega, resolves.append others_resolves, ?_⟩
  intro more unbroken
  have middle_eq := others_lexemes_eq more unbroken
  have middle_unbroken : Token.Unbroken (Scan.lexemes (others_steps + more + 1) middle) := by
    rw [middle_eq]
    exact Token.unbroken_append_iff.mpr ⟨others_resolves.unbroken, unbroken⟩
  rw [Nat.add_assoc steps, lexemes_eq _ middle_unbroken, middle_eq, List.append_assoc]

theorem of_next_eq (next_eq : start.next = stop.next) (index_le : start.index ≤ stop.index)
    (length_le : stop.rest.length ≤ start.rest.length) : Reads start [] stop := by
  refine ⟨index_le, 0, [], by omega, .nil index_le, ?_⟩
  intro more unbroken
  rw [Scan.lexemes] at unbroken
  rw [Nat.zero_add, Scan.lexemes, Scan.lexemes, next_eq]
  split
  · rfl
  · rfl
  · next fault failed =>
    rw [failed] at unbroken
    exact absurd List.mem_cons_self (unbroken _ fault)

theorem step {lexemes : List Lexeme} (next_eq : start.next = .more lexemes stop)
    (resolves : Token.Resolves start.index stop.index lexemes tokens)
    (index_le : start.index ≤ stop.index)
    (length_lt : stop.rest.length < start.rest.length) : Reads start tokens stop := by
  refine ⟨index_le, 1, lexemes, by omega, resolves, ?_⟩
  intro more _
  rw [show 1 + more + 1 = (more + 1) + 1 by omega, Scan.lexemes, next_eq]

theorem row (next_eq : start.next = .more (tokens.map .token) stop)
    (index_le : start.index ≤ stop.index)
    (length_lt : stop.rest.length < start.rest.length) : Reads start tokens stop :=
  step next_eq (.row index_le tokens) index_le length_lt

end Reads

/-! ## In front of a token -/

variable {indent : Int} {outer : List Int} {keyAllowed : Bool} {position : Position} {c : Char}
  {text : List Char}

/-- Whether a text does not start with what is skipped in front of a token. -/
def StartsToken (text : List Char) : Prop :=
  ∀ c, text.head? = some c → c ≠ ' ' ∧ isBreak c = false ∧ c ≠ '#' ∧ c ≠ byteOrderMark

theorem StartsToken.nil : StartsToken [] := by
  simp [StartsToken]

theorem startsToken_cons :
    StartsToken (c :: text) ↔
      c ≠ ' ' ∧ isBreak c = false ∧ c ≠ '#' ∧ c ≠ byteOrderMark := by
  simp [StartsToken]

theorem StartsToken.head?_ne_space (starts : StartsToken text) : text.head? ≠ some ' ' :=
  fun head_eq => (starts _ head_eq).1 rfl

theorem StartsToken.head?_any_isBreak (starts : StartsToken text) :
    text.head?.any isBreak = false := by
  cases text with
  | nil => rfl
  | cons c rest => exact (startsToken_cons.mp starts).2.1

theorem skipGap_of_startsToken (starts : StartsToken text) :
    skipGap false (position.cells text) = (position.cells text, false) := by
  cases text with
  | nil =>
      rw [Position.cells_nil, skipGap]
      simp [endMark, show isBreak '\x00' = false by decide]
  | cons c text =>
      rcases startsToken_cons.mp starts with ⟨notSpace, notBreak, notComment, _⟩
      rw [Position.cells_cons, skipGap]
      simp [notSpace, notBreak, notComment]

theorem skipGap_spaces (count : Nat) :
    skipGap false (position.cells (List.replicate count ' ' ++ text)) =
      skipGap false ((position.behind (List.replicate count ' ')).cells text) := by
  induction count generalizing position with
  | zero => rfl
  | succ count ih =>
      rw [List.replicate_succ, List.cons_append, Position.cells_cons, skipGap]
      simp only [show isBreak ' ' = false by decide, Bool.false_eq_true, if_false, if_true]
      exact ih

theorem skipGap_newLine (starts : StartsToken text) (count : Nat) :
    skipGap false (position.cells (Folded.newLine count ++ text)) =
      ((position.behind (Folded.newLine count)).cells text, true) := by
  rw [Folded.newLine, List.cons_append, Position.cells_cons, skipGap, skipGap_spaces,
    skipGap_of_startsToken starts]
  rfl

theorem toToken_of_skipGap {state : Scan} {rest : List Cell} {endedLine : Bool}
    (rest_eq : state.rest = position.cells text) (notMark : text.head? ≠ some byteOrderMark)
    (flat : state.depth = 0) (skipped : skipGap false (position.cells text) = (rest, endedLine)) :
    state.toToken = { state with rest, keyAllowed := state.keyAllowed || endedLine } := by
  rw [toToken, rest_eq]
  cases text with
  | nil =>
      rw [Position.cells_nil] at skipped ⊢
      simp [skipped, flat, show ¬ endMark = byteOrderMark by decide]
  | cons c text =>
      have c_ne : c ≠ byteOrderMark := by simpa using notMark
      rw [Position.cells_cons] at skipped ⊢
      simp [skipped, flat, c_ne]

/-- Whether no key that begins at one of the places can reach a line, and none has to. -/
def AllStale (line : Nat) (possible : List PossibleKey) : Prop :=
  ∀ key ∈ possible, key.line < line ∧ key.required = false

variable {possible kept : List PossibleKey}

@[simp]
theorem index_facing :
    (facing possible indent outer keyAllowed position text).index = position.index := by
  cases text <;> rfl

@[simp]
theorem length_facing :
    (facing possible indent outer keyAllowed position text).rest.length = text.length + 1 :=
  Position.length_cells

@[simp]
theorem column_facing :
    (facing possible indent outer keyAllowed position text).column = position.column := by
  cases text <;> rfl

theorem toToken_facing (starts : StartsToken text) :
    (facing possible indent outer keyAllowed position text).toToken =
      facing possible indent outer keyAllowed position text := by
  have notMark : text.head? ≠ some byteOrderMark := fun head_eq => (starts _ head_eq).2.2.2 rfl
  rw [toToken_of_skipGap rfl notMark rfl (skipGap_of_startsToken starts)]
  simp [facing]

theorem dropStale?_of_allStale (stale : AllStale position.line possible) :
    (facing possible indent outer keyAllowed position text).dropStale? =
      some (standing indent outer keyAllowed position text) := by
  have line_ne : ∀ key ∈ possible, key.line ≠ position.line :=
    fun key isMember => Nat.ne_of_lt (stale key isMember).1
  have notRequired : ∀ key ∈ possible, key.required = false :=
    fun key isMember => (stale key isMember).2
  have exists_cell :
      ∃ cell rest, position.cells text = cell :: rest ∧ cell.line = position.line := by
    cases text with
    | nil => exact ⟨_, _, Position.cells_nil, rfl⟩
    | cons c text => exact ⟨_, _, Position.cells_cons, rfl⟩
  rcases exists_cell with ⟨cell, rest, cells_eq, cell_line⟩
  have noneRequired :
      (possible.any fun key => isStale cell key && key.required) = false := by
    rw [List.any_eq_false]
    intro key isMember
    simp [notRequired key isMember]
  have noneLeft : (possible.filter fun key => !isStale cell key) = [] := by
    rw [List.filter_eq_nil_iff]
    intro key isMember
    simp [isStale, cell_line, line_ne key isMember]
  rw [dropStale?]
  simp only [facing, cells_eq]
  rw [noneRequired, noneLeft]
  rfl

theorem dropStale?_standing :
    (standing indent outer keyAllowed position text).dropStale? =
      some (standing indent outer keyAllowed position text) :=
  dropStale?_of_allStale (by simp [AllStale])

/-- Behind the gap in front of a token reading goes on as if nothing had been there, and as if no
key could have begun before. -/
theorem reads_gap {before : List Char} {behind : Position} {endedLine : Bool}
    (notMark : before.head? ≠ some byteOrderMark)
    (skipped : skipGap false (position.cells before) = (behind.cells text, endedLine))
    (starts : StartsToken text) (stale : AllStale behind.line possible)
    (index_le : position.index ≤ behind.index) (length_le : text.length ≤ before.length) :
    Reads (facing possible indent outer keyAllowed position before) []
      (standing indent outer (keyAllowed || endedLine) behind text) := by
  have toToken_eq : (facing possible indent outer keyAllowed position before).toToken =
      facing possible indent outer (keyAllowed || endedLine) behind text :=
    toToken_of_skipGap rfl notMark rfl skipped
  refine .of_next_eq ?_ (by simpa using index_le) (by simpa using length_le)
  rw [next, next, toToken_eq, toToken_facing starts, dropStale?_standing,
    dropStale?_of_allStale stale]

theorem reads_space (starts : StartsToken text) :
    Reads (standing indent outer keyAllowed position (' ' :: text)) []
      (standing indent outer keyAllowed (position.next ' ') text) := by
  have skipped : skipGap false (position.cells (' ' :: text)) =
      ((position.next ' ').cells text, false) := by
    rw [Position.cells_cons, skipGap]
    exact skipGap_of_startsToken starts
  have reads : Reads (standing indent outer keyAllowed position (' ' :: text)) []
      (standing indent outer (keyAllowed || false) (position.next ' ') text) :=
    reads_gap (by simp [byteOrderMark]) skipped starts (by simp [AllStale]) (by simp) (by simp)
  rwa [Bool.or_false] at reads

theorem reads_newLine (starts : StartsToken text) (count : Nat)
    (stale : AllStale (position.line + 1) possible) :
    Reads (facing possible indent outer keyAllowed position (Folded.newLine count ++ text)) []
      (standing indent outer true (position.behind (Folded.newLine count)) text) := by
  have behind_eq : position.behind (Folded.newLine count) = _ := Position.behind_newLine count
  have reads : Reads
      (facing possible indent outer keyAllowed position (Folded.newLine count ++ text)) []
      (standing indent outer (keyAllowed || true) (position.behind (Folded.newLine count)) text) :=
    reads_gap (by simp [Folded.newLine, byteOrderMark]) (skipGap_newLine starts count) starts
      (by rwa [behind_eq]) (by rw [behind_eq]; simp; omega) (by simp)
  rwa [Bool.or_true] at reads

/-! ## Ends of collections -/

theorem closeTo_of_le {column : Nat} (inside : indent ≤ column) :
    closeTo column indent outer = (0, indent, outer) := by
  cases outer with
  | nil => rfl
  | cons next outer => rw [closeTo, if_neg (by omega)]

/-- In front of a token that is not to the left of the collection it is in, the next step reads that
token. -/
theorem next_facing (starts : StartsToken text) (inside : indent ≤ position.column)
    (dropStale?_eq : (facing possible indent outer keyAllowed position text).dropStale? =
      some (facing kept indent outer keyAllowed position text)) :
    (facing possible indent outer keyAllowed position text).next =
      (facing kept indent outer keyAllowed position text).dispatch := by
  have unwind_eq : (facing kept indent outer keyAllowed position text).unwind position.column =
      ([], facing kept indent outer keyAllowed position text) := by
    simp [unwind, facing, closeTo_of_le inside]
  rw [next, toToken_facing starts, dropStale?_eq]
  simp only [column_facing, unwind_eq]
  cases (facing kept indent outer keyAllowed position text).dispatch <;> rfl

theorem next_standing (starts : StartsToken text) (inside : indent ≤ position.column) :
    (standing indent outer keyAllowed position text).next =
      (standing indent outer keyAllowed position text).dispatch :=
  next_facing starts inside dropStale?_standing

theorem unwind_standing {around column : Int} (outside : column < indent) :
    (standing indent (around :: outer) keyAllowed position text).unwind column =
      ((.token .blockEnd :: ((standing around outer keyAllowed position text).unwind column).1),
        ((standing around outer keyAllowed position text).unwind column).2) := by
  simp [unwind, facing, closeTo, outside, List.replicate_succ]

/-- A token to the left of the collection it is in ends that collection. -/
theorem reads_blockEnd {around : Int} (starts : StartsToken text)
    (outside : position.column < indent) :
    Reads (standing indent (around :: outer) keyAllowed position text) [.blockEnd]
      (standing around outer keyAllowed position text) := by
  -- The step that closes the collection also reads the token behind it, so no step is counted here.
  refine ⟨by simp, 0, [.token .blockEnd], by simp, .token (by simp) _, ?_⟩
  intro more unbroken
  rw [lexemes] at unbroken
  rw [Nat.zero_add, lexemes, lexemes]
  rw [next, toToken_facing starts, dropStale?_standing] at unbroken ⊢
  rw [next, toToken_facing starts, dropStale?_standing]
  simp only [column_facing, unwind_standing outside] at unbroken ⊢
  cases dispatch_eq :
      ((standing around outer keyAllowed position text).unwind position.column).2.dispatch with
  | more lexemes rest => simp
  | last lexemes => simp
  | failed fault =>
      rw [dispatch_eq] at unbroken
      exact absurd List.mem_cons_self (unbroken _ fault)

end Scan

end Yaml

end RbacManifest
