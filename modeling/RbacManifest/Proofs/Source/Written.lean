import RbacManifest.Proofs.Logged
import RbacManifest.Proofs.Marker
import RbacManifest.Proofs.Text.Utf8
import RbacManifest.Source

/-!
# Rules of a written file

A file is written with markers for some rules and with any other lines around them. Reading it gives
these rules in their order, each with the number of its line: `fileRules_of_consistsOf`.
-/

namespace RbacManifest

namespace Source

/-- A line of a source file: a marker, or a line that holds none. -/
inductive Row (tokens : List String)
  | marker (line : Marker.Line tokens)
  | other (text : List Char) (unbroken : Text.IsUnbroken text)
      (noMarker : Marker.body? tokens text = none)

namespace Row

variable {tokens : List String}

/-- The text of a line. -/
def text : Row tokens → List Char
  | marker line => line.text
  | other text _ _ => text

/-- The rule that a line states at a place. -/
def rule? (place : SourcePosition) : Row tokens → Option Rule
  | marker line => some (Marker.reading line.rule place)
  | other .. => none

end Row

/-- The rules that the lines of a file state, from the line with a given number on. -/
def rowsRules (path : String) {tokens : List String} (rows : List (Row tokens)) (number : Nat) :
    List Rule :=
  (rows.zipIdx number).filterMap fun row => row.1.rule? ⟨path, row.2⟩

section Tokens

variable {path : String}

/-- Facts about the comments of one type of file hold for every file. -/
theorem commentTokens_cases (property : List String → Prop) (slashes : property ["//"])
    (hash : property ["#"]) (any : property Marker.commentTokens) :
    property (commentTokens path) := by
  rw [commentTokens]
  split
  · exact slashes
  · exact hash
  · exact any

theorem areApart_commentTokens : Text.AreApart ((commentTokens path).map String.toList) :=
  commentTokens_cases (fun tokens => Text.AreApart (tokens.map String.toList))
    (by decide) (by decide) (by decide)

theorem isTight_of_mem_commentTokens : ∀ token ∈ commentTokens path, Text.IsTight token.toList :=
  commentTokens_cases (fun tokens => ∀ token ∈ tokens, Text.IsTight token.toList)
    (by decide) (by decide) (by decide)

theorem isUnbroken_of_mem_commentTokens :
    ∀ token ∈ commentTokens path, Text.IsUnbroken token.toList :=
  commentTokens_cases (fun tokens => ∀ token ∈ tokens, Text.IsUnbroken token.toList)
    (by decide) (by decide) (by decide)

end Tokens

section Rows

variable {path : String} {row : Row (commentTokens path)} {rows : List (Row (commentTokens path))}

theorem Row.isUnbroken_text : Text.IsUnbroken row.text := by
  cases row with
  | marker line => exact line.isUnbroken_text isUnbroken_of_mem_commentTokens
  | other text unbroken noMarker => exact unbroken

theorem lineRule?_text {place : SourcePosition} :
    lineRule? (commentTokens path) place row.text = .ok (row.rule? place) := by
  cases row with
  | marker line =>
      rw [Row.text, lineRule?, line.body?_text areApart_commentTokens isTight_of_mem_commentTokens]
      simp only [Marker.rule_writeBody line.isOrder line.writable]
      rfl
  | other text unbroken noMarker =>
      rw [Row.text, lineRule?, noMarker]
      rfl

theorem outcome_linesRules_cons {tokens : List String} {number : Nat} {line : List Char}
    {rest : List (List Char)} :
    (linesRules tokens path number (line :: rest)).outcome =
      (lineRule? tokens ⟨path, number⟩ line >>= fun stated =>
        (linesRules tokens path (number + 1) rest).outcome.map (stated.toList ++ ·)) := by
  rw [linesRules, Logged.outcome_bind, Logged.outcome_of]
  congr 1
  funext stated
  cases stated with
  | none =>
      simp only [Option.toList_none, List.nil_append]
      cases (linesRules tokens path (number + 1) rest).outcome <;> rfl
  | some rule =>
      simp only [Logged.outcome_bind, Logged.outcome_record]
      cases (linesRules tokens path (number + 1) rest).outcome <;> rfl

theorem rowsRules_cons {number : Nat} :
    rowsRules path (row :: rows) number =
      (row.rule? ⟨path, number⟩).toList ++ rowsRules path rows (number + 1) := by
  rw [rowsRules, List.zipIdx_cons, List.filterMap_cons, ← rowsRules]
  cases row.rule? ⟨path, number⟩ <;> rfl

theorem outcome_linesRules {number : Nat} :
    (linesRules (commentTokens path) path number (rows.map Row.text)).outcome =
      .ok (rowsRules path rows number) := by
  induction rows generalizing number with
  | nil => rfl
  | cons row others ih =>
      rw [List.map_cons, outcome_linesRules_cons, lineRule?_text, ih, rowsRules_cons]
      rfl

theorem text_of_stored {tree : FileTree} {content : List Char}
    (stored : tree.readFile path = .ok (Text.encode content)) : text tree path = .ok content := by
  rw [text, stored]
  simp only [Text.decode_encode]
  rfl

/-- Rules that are written as markers are read back in their order, each with its line. -/
theorem fileRules_of_consistsOf {tree : FileTree} {content : List Char}
    (parts : Text.ConsistsOf (rows.map Row.text) content)
    (stored : tree.readFile path = .ok (Text.encode content)) :
    (fileRules tree path).outcome = .ok (rowsRules path rows 1) := by
  have unbroken : ∀ line ∈ rows.map Row.text, Text.IsUnbroken line := by
    rw [List.forall_mem_map]
    exact fun row _ => row.isUnbroken_text
  rw [fileRules, Logged.outcome_bind, Logged.outcome_of, text_of_stored stored]
  change (linesRules _ _ _ (Text.lines content)).outcome = _
  rw [Text.lines_of_consistsOf parts unbroken, outcome_linesRules]

/-- A file with two markers: texts that look like parts of a marker, and no text at all. -/
def oddRows : List (Row (commentTokens "a.go")) :=
  [.other "package a".toList (by decide) (by decide),
    .marker {
      rule := {
        target := { apiGroups := ["core", ""], resources := ["a=\"//\" "] }
        verbs := ["#"] }
      margin := ['\t'], token := "//", gap := [' '], opening := "+rbac:", keys := Marker.ruleKeys
      writable := by decide
      isMargin := by decide
      isUnbrokenMargin := by decide
      isToken := by decide
      isGap := by decide
      isUnbrokenGap := by decide
      isOpening := by decide
      isOrder := by decide },
    .marker {
      rule := { target := {} }
      margin := [], token := "//", gap := [], opening := "+kubebuilder:rbac:"
      keys := [.urls, .verbs, .resourceNames, .groups, .resources]
      writable := by decide
      isMargin := by decide
      isUnbrokenMargin := by decide
      isToken := by decide
      isGap := by decide
      isUnbrokenGap := by decide
      isOpening := by decide
      isOrder := by decide }]

/-- The lines of this file. -/
def oddLines : List String :=
  ["package a",
    "\t// +rbac:groups=\"core\";\"\",resources=\"a=\"//\" \",resourceNames=,verbs=\"#\",urls=",
    "//+kubebuilder:rbac:urls=,verbs=,resourceNames=,groups=,resources="]

/-- A tree with this file. -/
def oddTree : FileTree :=
  ⟨.directory [("a.go", .file (Text.encode ("\r\n".intercalate oddLines).toList))], []⟩

theorem fileRules_of_consistsOf_oddRows :
    Text.ConsistsOf (oddRows.map Row.text) ("\r\n".intercalate oddLines).toList ∧
      oddTree.readFile "a.go" = .ok (Text.encode ("\r\n".intercalate oddLines).toList) ∧
      (fileRules oddTree "a.go").outcome =
        .ok [
          { target := { apiGroups := ["", ""], resources := ["a=\"//\" "] }, verbs := ["#"]
            source := some ⟨"a.go", 2⟩ },
          { target := {}, source := some ⟨"a.go", 3⟩ }] := by
  have rows_eq : oddRows.map Row.text = oddLines.map String.toList := by decide +kernel
  have parts : Text.ConsistsOf (oddRows.map Row.text) ("\r\n".intercalate oddLines).toList := by
    rw [rows_eq, String.toList_intercalate]
    exact .both (.both (.last (by decide)))
  exact ⟨parts, rfl, fileRules_of_consistsOf parts rfl⟩

end Rows

end Source

end RbacManifest
