import RbacManifest.Proofs.Yaml.Indicator
import RbacManifest.Proofs.Yaml.Scalar

/-!
# Reading values in lists and behind keys

A single value in a list or behind the colon of a key is one token, however it is written:
`Scan.reads_value`. A key may begin at it, but none does.
-/

namespace RbacManifest

namespace Yaml

variable {text tail : List Char} {splits : Bool} {indent column : Nat} {position : Position}

/-! ## Steps that read values -/

namespace Scan

variable {level : Int} {outer around : List Int} {keyAllowed opens : Bool} {c : Char}

theorem dispatch_quote (isQuote : c = '\'' ∨ c = '"') :
    (standing level outer keyAllowed position (c :: text)).dispatch =
      (standing level outer keyAllowed position (c :: text)).atPossibleKey readQuoted := by
  have noMark : StartsNoMark position (c :: text) := by
    rcases isQuote with rfl | rfl <;> exact startsNoMark_of_ne (by decide) (by decide)
  rcases isQuote with rfl | rfl
  · simp [dispatch, facing, noMark.1, noMark.2, endMark]
  · simp [dispatch, facing, noMark.1, noMark.2, endMark]

/-- Whether no indicator but a dash, a question mark or a colon has a character. -/
def IsNoIndicator (c : Char) : Prop :=
  "#,[]\x7b\x7d&*!|>'\"%@`".toList.contains c = false

theorem dispatch_plain (noMark : StartsNoMark position (c :: text))
    (notBlank : isBlankOrEnd c = false) (noIndicator : IsNoIndicator c)
    (goesOn : c = '?' ∨ c = ':' ∨ c = '-' → isBlankOrEnd (text.head?.getD endMark) = false) :
    (standing level outer keyAllowed position (c :: text)).dispatch =
      (standing level outer keyAllowed position (c :: text)).atPossibleKey
        (readPlain 0 level) := by
  have notEnd : c ≠ endMark := by
    rintro rfl
    simp [isBlankOrEnd, isSpaceOrEnd, isBreakOrEnd] at notBlank
  simp only [IsNoIndicator, String.reduceToList, List.contains_cons, List.contains_nil,
    Bool.or_false, Bool.or_eq_false_iff, beq_eq_false_iff_ne] at noIndicator
  by_cases blank : isBlankOrEnd (text.head?.getD endMark) = true
  · have differs : ¬ c = '?' ∧ ¬ c = ':' ∧ ¬ c = '-' := by simpa [blank] using goesOn
    simp [dispatch, facing, noMark.1, noMark.2, notEnd, noIndicator, startsPlain, notBlank, differs]
  · have either : (¬ c = '-' ∧ ¬ c = '?' ∧ ¬ c = ':') ∨ c = '-' ∨ c = '?' ∨ c = ':' := by tauto
    simp [dispatch, facing, noMark.1, noMark.2, notEnd, noIndicator, startsPlain, notBlank, blank,
      either]

/-- What is written without quotes starts with a character of the value that is no indicator. -/
theorem exists_cons_of_plain (allowed : Style.allowsPlain text = true) :
    ∃ c rest, text = c :: rest ∧ StartsToken [c] ∧ isBlankOrEnd c = false ∧ IsNoIndicator c ∧
      (c = '?' ∨ c = ':' ∨ c = '-' → Style.endsWord rest = false) ∧
      (Text.after? "---".toList text).isSome = false ∧
      (Text.after? "...".toList text).isSome = false := by
  rcases PlainText.exists_cons_of_allowsPlain allowed with
    ⟨c, rest, rfl, notSpace, _, usual, noIndicator⟩
  have usual_first := usual c (by simp)
  simp only [Style.hasIndicator, Bool.or_eq_false_iff] at noIndicator
  rcases noIndicator with ⟨⟨⟨⟨noStart, noEnd⟩, noIndicator⟩, goesOn⟩, _⟩
  have notComment : c ≠ '#' := by
    rintro rfl
    revert noIndicator
    decide
  refine ⟨c, rest, rfl, startsToken_cons.mpr ⟨notSpace, usual_first.1, notComment, ?_⟩,
    PlainText.isBlankOrEnd_eq_false notSpace usual_first.1 usual_first.2, noIndicator, ?_,
    noStart, noEnd⟩
  · exact Style.ne_of_isSpecial usual_first.2 (by decide)
  · intro isOne
    rcases isOne with rfl | rfl | rfl <;> simpa using goesOn

theorem startsToken_writeScalar :
    StartsToken (Node.writeScalar splits indent column .text text ++ tail) := by
  rcases writeScalar_cases splits indent column text with
    ⟨_, _, allowed, written⟩ | ⟨_, _, written⟩ | ⟨_, written⟩
  · rcases exists_cons_of_plain allowed with ⟨c, rest, rfl, starts, _⟩
    rw [startsToken_cons] at starts
    rw [written, PlainText.plain_cons_of_ne starts.1]
    exact startsToken_cons.mpr starts
  · rw [written]
    exact startsToken_cons.mpr (by decide)
  · rw [written]
    exact startsToken_cons.mpr (by decide)

theorem dispatch_writeScalar (notDash : tail.head? ≠ some '-') (notDot : tail.head? ≠ some '.') :
    (standing level outer keyAllowed position
      (Node.writeScalar splits indent column .text text ++ tail)).dispatch =
        (standing level outer keyAllowed position
          (Node.writeScalar splits indent column .text text ++ tail)).atPossibleKey
            (readWritten level text) := by
  rcases writeScalar_cases splits indent column text with
    ⟨plain, _, allowed, written⟩ | ⟨quoted, _, written⟩ | ⟨escaped, written⟩
  · rcases exists_cons_of_plain allowed with
      ⟨c, rest, rfl, starts, notBlank, noIndicator, goesOn, noStart, noEnd⟩
    have noMark : StartsNoMark position
        (PlainText.plain splits indent column ' ' (c :: rest) ++ tail) :=
      ⟨PlainText.isLineMark_plain (by decide) (by decide) (by decide) notDash noStart,
        PlainText.isLineMark_plain (by decide) (by decide) (by decide) notDot noEnd⟩
    rw [startsToken_cons] at starts
    rw [written, readWritten, if_pos plain]
    rw [PlainText.plain_cons_of_ne starts.1, List.cons_append] at noMark ⊢
    exact dispatch_plain noMark notBlank noIndicator fun isOne =>
      PlainText.head?_plain_of_not_endsWord (goesOn isOne)
  · rw [written, readWritten, quoted]
    exact dispatch_quote (Or.inl rfl)
  · rw [written, readWritten, escaped]
    exact dispatch_quote (Or.inr rfl)

/-- The key that may begin at a place. -/
def keyAt (level : Int) (position : Position) : PossibleKey where
  depth := 0
  index := position.index
  line := position.line
  column := position.column
  required := level = position.column

/-- The keys that may begin in front of a value. -/
def keysAt (keyAllowed : Bool) (level : Int) (position : Position) : List PossibleKey :=
  if keyAllowed then [keyAt level position] else []

/-- The marks of the keys that may begin in front of a value. -/
def marksAt (keyAllowed : Bool) (position : Position) : List Lexeme :=
  if keyAllowed then [.mark position.index] else []

theorem notePossible?_standing :
    (standing level outer keyAllowed position text).notePossible? =
      some (marksAt keyAllowed position,
        facing (keysAt keyAllowed level position) level outer keyAllowed position text) := by
  cases keyAllowed with
  | false => simp [notePossible?, facing, marksAt, keysAt]
  | true =>
      cases text <;>
        simp [notePossible?, dropPossible?, facing, marksAt, keysAt, keyAt, Position.cells_nil,
          Position.cells_cons]

theorem next_writeScalar {token : Token} {rest : List Cell} {allowedBehind : Bool}
    (inside : level ≤ position.column) (notDash : tail.head? ≠ some '-')
    (notDot : tail.head? ≠ some '.')
    (read_eq : readWritten level text
      (position.cells (Node.writeScalar splits indent column .text text ++ tail)) =
        .ok (token, rest, allowedBehind)) :
    (standing level outer keyAllowed position
      (Node.writeScalar splits indent column .text text ++ tail)).next =
        .more (marksAt keyAllowed position ++ [.token token])
          { rest, indent := level, outer, keyAllowed := allowedBehind,
            possible := keysAt keyAllowed level position } := by
  rw [next_standing startsToken_writeScalar inside, dispatch_writeScalar notDash notDot,
    atPossibleKey, notePossible?_standing]
  simp only [facing]
  rw [read_eq]

theorem length_writeScalar_pos : 0 < (Node.writeScalar splits indent column .text text).length := by
  rcases writeScalar_cases splits indent column text with
    ⟨_, _, allowed, written⟩ | ⟨_, _, written⟩ | ⟨_, written⟩
  · rcases exists_cons_of_plain allowed with ⟨c, rest, rfl, starts, _⟩
    rw [written, PlainText.plain_cons_of_ne (startsToken_cons.mp starts).1]
    simp
  · simp [written]
  · simp [written]

theorem resolves_marksAt {high : Nat} (before : position.index < high) :
    Token.Resolves position.index high (marksAt keyAllowed position) [] := by
  cases keyAllowed with
  | false => exact .nil (Nat.le_of_lt before)
  | true => exact .mark (Nat.le_of_lt before) before

theorem allStale_keysAt {line : Nat} (inside : level < position.column)
    (line_lt : position.line < line) : AllStale line (keysAt keyAllowed level position) := by
  intro key isMember
  cases keyAllowed with
  | false => simp [keysAt] at isMember
  | true =>
      have key_eq : key = keyAt level position := by simpa [keysAt] using isMember
      subst key_eq
      exact ⟨line_lt, by simpa [keyAt] using Int.ne_of_lt inside⟩

theorem reads_of_next_eq {token : Token} {stop : Scan}
    (next_eq : (standing level outer keyAllowed position text).next =
      .more (marksAt keyAllowed position ++ [.token token]) stop)
    (index_lt : position.index < stop.index) (length_lt : stop.rest.length ≤ text.length) :
    Reads (standing level outer keyAllowed position text) [token] stop := by
  refine .step next_eq ?_ ?_ ?_
  · rw [index_facing]
    exact (resolves_marksAt index_lt).append (.token (Nat.le_refl _) token)
  · rw [index_facing]
    exact Nat.le_of_lt index_lt
  · rw [length_facing]
    exact Nat.lt_succ_of_le length_lt

/-- A text that is written behind the colon of a key or in a list is one token. -/
theorem reads_value {count : Nat} {more : List Char} (noNextLine : ∀ c ∈ text, c ≠ '\u0085')
    (inside : level < position.column) (level_lt : level < indent)
    (indent_lt : indent < Folded.width) (count_le : (count : Int) ≤ level)
    (starts : StartsToken more) :
    Reads
      (standing level outer keyAllowed position (Node.writeScalar true indent column .text text ++
        (Folded.newLine count ++ more)))
      [.scalar text (isPlain text)]
      (standing level outer true (position.behind
        (Node.writeScalar true indent column .text text ++ Folded.newLine count)) more) := by
  rcases readWritten_value column noNextLine level_lt indent_lt count_le starts with
    ⟨rest, allowedBehind, read_eq, rest_cases⟩
  have next_eq : (standing level outer keyAllowed position _).next = _ :=
    next_writeScalar (Int.le_of_lt inside) (by simp [Folded.newLine]) (by simp [Folded.newLine])
      read_eq
  have written_pos : 0 < (Node.writeScalar true indent column .text text).length :=
    length_writeScalar_pos
  generalize Node.writeScalar true indent column .text text = written at *
  have line_le : position.line ≤ (position.behind written).line := Position.line_le_behind
  have index_eq : (position.behind written).index = position.index + written.length :=
    Position.index_behind
  rcases rest_cases with ⟨rfl, rfl⟩ | ⟨rfl, rfl⟩
  · have stale : AllStale ((position.behind written).line + 1) (keysAt keyAllowed level position) :=
      allStale_keysAt inside (by omega)
    have first : Reads _ [.scalar text (isPlain text)]
        (facing (keysAt keyAllowed level position) level outer false (position.behind written)
          (Folded.newLine count ++ more)) :=
      reads_of_next_eq next_eq (by rw [index_facing]; omega) (by simp; omega)
    rw [Position.behind_append]
    exact first.trans (reads_newLine starts count stale)
  · have behind_eq : (position.behind written).behind (Folded.newLine count) = _ :=
      Position.behind_newLine count
    rw [← Position.behind_append] at behind_eq
    have stale : AllStale (position.behind (written ++ Folded.newLine count)).line
        (keysAt keyAllowed level position) := by
      rw [behind_eq]
      exact allStale_keysAt inside (Nat.lt_succ_of_le line_le)
    have notMark : more.head? ≠ some byteOrderMark := fun head_eq => (starts _ head_eq).2.2.2 rfl
    have first : Reads _ [.scalar text (isPlain text)]
        (facing (keysAt keyAllowed level position) level outer true
          (position.behind (written ++ Folded.newLine count)) more) :=
      reads_of_next_eq next_eq (by rw [index_facing, behind_eq]; simp; omega) (by simp; omega)
    exact first.trans (reads_gap notMark (skipGap_of_startsToken starts) starts stale
      (Nat.le_refl _) (Nat.le_refl _))

/-! ## Collections without members -/

/-- The brackets of a list and the braces of a mapping, with their tokens. -/
def AreBrackets (left right : Char) (start stop : Token) : Prop :=
  left = '[' ∧ right = ']' ∧ start = .listStart ∧ stop = .listEnd ∨
    left = '\x7b' ∧ right = '\x7d' ∧ start = .mappingStart ∧ stop = .mappingEnd

variable {left right : Char} {start stop : Token}

/-- The state behind a left bracket. -/
def inBrackets (keyAllowed : Bool) (level : Int) (outer : List Int) (position : Position)
    (left : Char) (text : List Char) : Scan :=
  { rest := (position.next left).cells text, depth := 1, indent := level, outer, keyAllowed := true,
    possible := keysAt keyAllowed level position }

theorem next_left (brackets : AreBrackets left right start stop)
    (inside : level ≤ position.column) :
    (standing level outer keyAllowed position (left :: text)).next =
      .more (marksAt keyAllowed position ++ [.token start])
        (inBrackets keyAllowed level outer position left text) := by
  have noMark : StartsNoMark position (left :: text) := by
    rcases brackets with ⟨rfl, rfl, rfl, rfl⟩ | ⟨rfl, rfl, rfl, rfl⟩ <;>
      exact startsNoMark_of_ne (by decide) (by decide)
  have dispatch_eq : (standing level outer keyAllowed position (left :: text)).dispatch =
      (standing level outer keyAllowed position (left :: text)).bracket start true := by
    rcases brackets with ⟨rfl, rfl, rfl, rfl⟩ | ⟨rfl, rfl, rfl, rfl⟩ <;>
      simp [dispatch, facing, noMark.1, noMark.2, endMark]
  have starts : StartsToken (left :: text) := by
    rcases brackets with ⟨rfl, rfl, rfl, rfl⟩ | ⟨rfl, rfl, rfl, rfl⟩ <;>
      exact startsToken_cons.mpr (by decide)
  rw [next_standing starts inside, dispatch_eq, bracket, notePossible?_standing]
  simp [facing, inBrackets, Position.cells_cons]

theorem next_right (brackets : AreBrackets left right start stop) :
    (inBrackets keyAllowed level outer position left (right :: text)).next =
      .more [.token stop]
        (facing (keysAt keyAllowed level position) level outer false
          ((position.next left).next right) text) := by
  have starts : StartsToken (right :: text) := by
    rcases brackets with ⟨rfl, rfl, rfl, rfl⟩ | ⟨rfl, rfl, rfl, rfl⟩ <;>
      exact startsToken_cons.mpr (by decide)
  have line_eq : (position.next left).line = position.line := by
    rcases brackets with ⟨rfl, rfl, rfl, rfl⟩ | ⟨rfl, rfl, rfl, rfl⟩ <;> rfl
  have toToken_eq : (inBrackets keyAllowed level outer position left (right :: text)).toToken =
      inBrackets keyAllowed level outer position left (right :: text) := by
    have notMark : right ≠ byteOrderMark := (startsToken_cons.mp starts).2.2.2
    have skipped : skipGap false ((position.next left).cells (right :: text)) = _ :=
      skipGap_of_startsToken starts
    rw [Position.cells_cons, Position.index_next] at skipped
    simp [toToken, inBrackets, Position.cells_cons, notMark, skipped]
  have dropStale?_eq :
      (inBrackets keyAllowed level outer position left (right :: text)).dropStale? =
        some (inBrackets keyAllowed level outer position left (right :: text)) := by
    cases keyAllowed <;>
      simp [dropStale?, inBrackets, Position.cells_cons, keysAt, keyAt, isStale, line_eq,
        longestKey]
  have dispatch_eq :
      (inBrackets keyAllowed level outer position left (right :: text)).dispatch =
        (inBrackets keyAllowed level outer position left (right :: text)).bracket stop false := by
    have noMark : StartsNoMark (position.next left) (right :: text) := by
      rcases brackets with ⟨rfl, rfl, rfl, rfl⟩ | ⟨rfl, rfl, rfl, rfl⟩ <;>
        exact startsNoMark_of_ne (by decide) (by decide)
    rcases brackets with ⟨rfl, rfl, rfl, rfl⟩ | ⟨rfl, rfl, rfl, rfl⟩ <;>
      simp [dispatch, inBrackets, noMark.1, noMark.2, endMark]
  have unwind_eq (column : Int) :
      (inBrackets keyAllowed level outer position left (right :: text)).unwind column =
        ([], inBrackets keyAllowed level outer position left (right :: text)) := by
    simp [unwind, inBrackets]
  rw [Scan.next, toToken_eq, dropStale?_eq]
  simp only [unwind_eq]
  rw [dispatch_eq, bracket]
  cases keyAllowed <;>
    simp [inBrackets, dropPossible?, keysAt, keyAt, facing, Position.cells_cons]

/-- A list or a mapping without members is two tokens. -/
theorem reads_brackets {count : Nat} {more : List Char}
    (brackets : AreBrackets left right start stop) (inside : level < position.column)
    (starts : StartsToken more) :
    Reads
      (standing level outer keyAllowed position
        (left :: right :: (Folded.newLine count ++ more)))
      [start, stop]
      (standing level outer true
        (((position.next left).next right).behind (Folded.newLine count)) more) := by
  have line_eq : ((position.next left).next right).line = position.line := by
    rcases brackets with ⟨rfl, rfl, rfl, rfl⟩ | ⟨rfl, rfl, rfl, rfl⟩ <;> rfl
  have first : Reads (standing level outer keyAllowed position
      (left :: right :: (Folded.newLine count ++ more))) [start]
        (inBrackets keyAllowed level outer position left
          (right :: (Folded.newLine count ++ more))) := by
    refine reads_of_next_eq (next_left brackets (Int.le_of_lt inside)) ?_ ?_
    · simp [index, inBrackets, Position.cells_cons]
    · simp [inBrackets]
  have second : Reads (inBrackets keyAllowed level outer position left
      (right :: (Folded.newLine count ++ more))) [stop]
        (facing (keysAt keyAllowed level position) level outer false
          ((position.next left).next right) (Folded.newLine count ++ more)) := by
    refine .row (next_right brackets) ?_ ?_
    · rw [index_facing]
      simp [index, inBrackets, Position.cells_cons]
    · simp [inBrackets]
  have stale : AllStale (((position.next left).next right).line + 1)
      (keysAt keyAllowed level position) := allStale_keysAt inside (by omega)
  exact first.trans (second.trans (reads_newLine starts count stale))

end Scan

end Yaml

end RbacManifest
