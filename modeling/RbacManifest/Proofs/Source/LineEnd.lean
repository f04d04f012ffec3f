import RbacManifest.Proofs.FailureKind
import RbacManifest.Proofs.Source.Fault

/-!
# Files with any line ends

What is read from a file depends on its lines alone: not on what ends them, and not on whether the
last one is ended, as is shown in `Source.fileRules_write`. Only line feeds and carriage returns end
lines, so the rules get the numbers of their lines whatever other separators the lines contain.
-/

namespace RbacManifest

namespace Source

variable {tokens : List String} {path : String} {line : List Char} {lines : List (List Char)}

/-- What the lines of a file state: the rules of their markers, each with the number of its line,
unless a marker is malformed. Then the first malformed one makes the reading fail. -/
structure IsReading (path : String) (lines : List (List Char))
    (outcome : Except Failure (List Rule)) : Prop where
  eq_ok_iff (rules : List Rule) : outcome = .ok rules ↔
    (∀ line ∈ lines, ∀ fault, ¬IsLineFault (commentTokens path) line fault) ∧
      rules = (lines.zipIdx 1).filterMap fun row =>
        statedRule? (commentTokens path) ⟨path, row.2⟩ row.1
  eq_error_iff (failure : Failure) : outcome = .error failure ↔ ∃ line number fault,
    IsFirst (fun row => ∃ fault, IsLineFault (commentTokens path) row.1 fault) (lines.zipIdx 1)
        (line, number) ∧
      IsLineFault (commentTokens path) line fault ∧ failure = .marker ⟨path, number⟩ fault
  failsAs : FailsAs [.scan] outcome
  source (rules : List Rule) : outcome = .ok rules → ∀ rule ∈ rules,
    ∃ (index : Nat) (line : List Char), lines[index]? = some line ∧
      statedRule? (commentTokens path) ⟨path, index + 1⟩ line = some rule ∧
      rule.source = some ⟨path, index + 1⟩

/-! ## Lines without markers -/

/-- A last line without a marker makes no difference, not even to the log. -/
theorem linesRules_append_of_noMarker {number : Nat} (noMarker : Marker.body? tokens line = none) :
    linesRules tokens path number (lines ++ [line]) = linesRules tokens path number lines := by
  induction lines generalizing number with
  | nil =>
      have statesNone : lineRule? tokens ⟨path, number⟩ line = .ok none := by
        rw [lineRule?, noMarker]
      rw [List.nil_append, linesRules, linesRules, statesNone]
      rfl
  | cons first rest ih =>
      rw [List.cons_append, linesRules, linesRules]
      simp only [ih]

theorem body?_nil : Marker.body? (commentTokens path) [] = none :=
  commentTokens_cases (fun tokens => Marker.body? tokens [] = none)
    (by decide) (by decide) (by decide)

/-! ## Readings -/

theorem linesRules_eq_ok_iff {number : Nat} {rules : List Rule} :
    (linesRules tokens path number lines).outcome = .ok rules ↔
      (∀ line ∈ lines, ∀ fault, ¬IsLineFault tokens line fault) ∧
        rules = (lines.zipIdx number).filterMap fun row =>
          statedRule? tokens ⟨path, row.2⟩ row.1 := by
  constructor
  · intro read
    have sound : ∀ row ∈ lines.zipIdx number, ∀ fault, ¬IsLineFault tokens row.1 fault := by
      by_contra wrong
      push Not at wrong
      rcases IsFirst.exists_of_mem wrong with ⟨row, first⟩
      rcases first.holds with ⟨fault, wrong⟩
      cases (linesRules_eq_error_iff.mpr ⟨row, first, fault, wrong, rfl⟩).symm.trans read
    constructor
    · intro line isLine
      rw [← List.zipIdx_map_fst number lines, List.mem_map] at isLine
      rcases isLine with ⟨row, isRow, rfl⟩
      exact sound row isRow
    · exact Except.ok.inj (read.symm.trans (linesRules_eq_ok sound))
  · rintro ⟨sound, rfl⟩
    exact linesRules_eq_ok fun row isRow => sound row.1 (List.fst_mem_of_mem_zipIdx isRow)

theorem isReading_linesRules :
    IsReading path lines (linesRules (commentTokens path) path 1 lines).outcome := by
  constructor
  · intro rules
    exact linesRules_eq_ok_iff
  · intro failure
    rw [linesRules_eq_error_iff]
    constructor
    · rintro ⟨⟨line, number⟩, first, fault, wrong, failure_eq⟩
      exact ⟨line, number, fault, first, wrong, failure_eq⟩
    · rintro ⟨line, number, fault, first, wrong, failure_eq⟩
      exact ⟨(line, number), first, fault, wrong, failure_eq⟩
  · intro failure failed
    rcases linesRules_eq_error_iff.mp failed with ⟨row, _, fault, _, rfl⟩
    exact List.mem_singleton_self _
  · intro rules read rule isMember
    rw [(linesRules_eq_ok_iff.mp read).2, List.mem_filterMap] at isMember
    rcases isMember with ⟨⟨line, number⟩, isRow, stated⟩
    rw [List.mem_zipIdx_iff_le_and_getElem?_sub] at isRow
    obtain ⟨index, rfl⟩ := Nat.exists_eq_add_of_le' isRow.1
    exact ⟨index, line, isRow.2, stated, source_of_statedRule? stated⟩

theorem fileRules_eq_linesRules {tree : FileTree} {lineEnd : Text.LineEnd} {closed : Bool}
    (unbroken : ∀ line ∈ lines, Text.IsUnbroken line)
    (stored : tree.readFile path = .ok (Text.encode (lineEnd.write closed lines))) :
    fileRules tree path = linesRules (commentTokens path) path 1 lines := by
  rw [fileRules, text_of_stored stored]
  change linesRules _ _ _ (Text.lines (lineEnd.write closed lines)) = _
  rcases Text.lines_write unbroken with all | allButLast
  · rw [all]
  · rw [← linesRules_append_of_noMarker body?_nil, allButLast]

/-- Two files with the same lines are read alike, whatever ends their lines and whether or not the
last line is ended. -/
theorem fileRules_write {left right : FileTree} {lineEnd otherEnd : Text.LineEnd}
    {closed otherClosed : Bool} (unbroken : ∀ line ∈ lines, Text.IsUnbroken line)
    (stored : left.readFile path = .ok (Text.encode (lineEnd.write closed lines)))
    (otherStored : right.readFile path = .ok (Text.encode (otherEnd.write otherClosed lines))) :
    fileRules left path = fileRules right path ∧
      IsReading path lines (fileRules left path).outcome := by
  rw [fileRules_eq_linesRules unbroken stored, fileRules_eq_linesRules unbroken otherStored]
  exact ⟨rfl, isReading_linesRules⟩

/-- Lines with other separators: around the parts of a marker, within a line, and nothing at all in
the last line. -/
def separatedLines : List (List Char) :=
  ["\u000C// +rbac:groups=core,resources=pods,verbs=get\u0085".toList, [],
    "package\u2028// +rbac:verbs".toList, "//+rbac:\u2029verbs=list".toList, []]

/-- A tree with a file that has these lines. -/
def separatedTree (lineEnd : Text.LineEnd) (closed : Bool) : FileTree :=
  ⟨.directory [("a.go", .file (Text.encode (lineEnd.write closed separatedLines)))], []⟩

theorem fileRules_write_separatedLines :
    (∀ line ∈ separatedLines, Text.IsUnbroken line) ∧
      (fileRules (separatedTree .both true) "a.go" =
          fileRules (separatedTree .carriageReturn false) "a.go" ∧
        IsReading "a.go" separatedLines (fileRules (separatedTree .both true) "a.go").outcome) ∧
      (fileRules (separatedTree .both true) "a.go").outcome =
        .ok [
          { target := { apiGroups := [""], resources := ["pods"] }, verbs := ["get"]
            source := some ⟨"a.go", 1⟩ },
          { target := {}, verbs := ["list"], source := some ⟨"a.go", 4⟩ }] := by
  have unbroken : ∀ line ∈ separatedLines, Text.IsUnbroken line := by decide
  have slashes : commentTokens "a.go" = ["//"] := by decide
  refine ⟨unbroken, fileRules_write unbroken rfl rfl, ?_⟩
  rw [fileRules_eq_linesRules unbroken rfl, slashes, outcome_linesRules_eq]
  rfl

end Source

end RbacManifest
