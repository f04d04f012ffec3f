import RbacManifest.Proofs.Source.LineEnd
import RbacManifest.Proofs.Text.Decoded

/-!
# Files that are no texts

A file is decoded as a whole before its lines are looked at. If its bytes are what a text is encoded
as, then the lines of this text are read. Otherwise the file is reported as unreadable, and nothing
else about it is reported or logged: `Source.fileRules_ofBytes`.
-/

namespace RbacManifest

namespace Source

variable {tree : FileTree} {path : String} {bytes : List UInt8} {content : List Char}

theorem fileRules_of_text (read : text tree path = .ok content) :
    fileRules tree path = linesRules (commentTokens path) path 1 (Text.lines content) := by
  rw [fileRules, read]
  rfl

theorem fileRules_of_bytesFault {fault : Text.Utf8.Fault}
    (unread : text tree path = .error (.bytes fault bytes)) :
    fileRules tree path = Logged.fail (.sourceFile path (.bytes fault bytes)) := by
  rw [fileRules, unread]
  rfl

/-- The lines of a file are never the reason why the file itself cannot be read. -/
theorem linesRules_ne_sourceFile {tokens : List String} {number : Nat} {lines : List (List Char)}
    {fault : FileFault} :
    (linesRules tokens path number lines).outcome ≠ .error (.sourceFile path fault) := by
  intro failed
  rcases linesRules_eq_error_iff.mp failed with ⟨row, _, lineFault, _, same⟩
  cases same

variable (stored : tree.readFile path = .ok bytes)
include stored

theorem text_eq_decode :
    text tree path = (Text.decode bytes).mapError fun fault => .bytes fault bytes := by
  rw [text, stored]

theorem text_eq_ok_iff : text tree path = .ok content ↔ bytes = Text.encode content := by
  rw [text_eq_decode stored, ← Text.decode_eq_ok_iff]
  cases decoded : Text.decode bytes <;> simp [Except.mapError]

theorem exists_bytesFault (noText : ∀ content, bytes ≠ Text.encode content) :
    ∃ fault, text tree path = .error (.bytes fault bytes) := by
  rw [text_eq_decode stored]
  cases decoded : Text.decode bytes with
  | ok content => exact absurd (Text.decode_eq_ok_iff.mp decoded) (noText content)
  | error fault => exact ⟨fault, rfl⟩

/-- A file is reported as unreadable exactly if its bytes are not the encoding of a text, and then
that is all. Otherwise its lines are those of the text. -/
theorem fileRules_ofBytes :
    ((∃ fault, (fileRules tree path).outcome = .error (.sourceFile path fault)) ↔
        ∀ content, bytes ≠ Text.encode content) ∧
      (∀ fault, (fileRules tree path).outcome = .error (.sourceFile path fault) →
        fileRules tree path = Logged.fail (.sourceFile path fault)) ∧
      (∀ before illFormed, Text.Utf8.IsIllFormed illFormed →
        bytes = Text.encode before ++ illFormed →
          ∃ fault, fileRules tree path = Logged.fail (.sourceFile path fault)) ∧
      ∀ content, bytes = Text.encode content →
        fileRules tree path = linesRules (commentTokens path) path 1 (Text.lines content) ∧
          IsReading path (Text.lines content) (fileRules tree path).outcome := by
  have fails (noText : ∀ content, bytes ≠ Text.encode content) :
      ∃ fault, fileRules tree path = Logged.fail (.sourceFile path fault) := by
    rcases exists_bytesFault stored noText with ⟨fault, unread⟩
    exact ⟨_, fileRules_of_bytesFault unread⟩
  have reads {content : List Char} (isText : bytes = Text.encode content) :
      fileRules tree path = linesRules (commentTokens path) path 1 (Text.lines content) :=
    fileRules_of_text ((text_eq_ok_iff stored).mpr isText)
  have noText_of_failed {fault : FileFault}
      (failed : (fileRules tree path).outcome = .error (.sourceFile path fault)) :
      ∀ content, bytes ≠ Text.encode content := by
    intro content isText
    rw [reads isText] at failed
    exact linesRules_ne_sourceFile failed
  refine ⟨⟨fun ⟨fault, failed⟩ => noText_of_failed failed, ?_⟩, ?_, ?_, ?_⟩
  · intro noText
    rcases fails noText with ⟨fault, fileRules_eq⟩
    exact ⟨fault, by rw [fileRules_eq]; rfl⟩
  · intro fault failed
    rcases fails (noText_of_failed failed) with ⟨other, fileRules_eq⟩
    rw [fileRules_eq] at failed ⊢
    cases failed
    rfl
  · intro before illFormed isIllFormed bytes_eq
    apply fails
    intro content isText
    rw [bytes_eq, ← Text.decode_eq_ok_iff] at isText
    exact Text.decode_ne_ok_of_isIllFormed isIllFormed isText
  · intro content isText
    rw [reads isText]
    exact ⟨rfl, isReading_linesRules⟩

omit stored

/-- A marker, one that is malformed, and a surrogate behind them. -/
def surrogateBytes : List UInt8 :=
  Text.encode "// +rbac:groups=core,resources=pods,verbs=get\n// +rbac:verbs\n".toList ++
    [0xED, 0xA0, 0x80]

/-- A tree with a file that holds these bytes. -/
def surrogateTree : FileTree :=
  ⟨.directory [("a.go", .file surrogateBytes)], []⟩

theorem fileRules_ofBytes_surrogate :
    surrogateTree.readFile "a.go" = .ok surrogateBytes ∧
      (∀ content, surrogateBytes ≠ Text.encode content) ∧
      ∃ fault, fileRules surrogateTree "a.go" = Logged.fail (.sourceFile "a.go" fault) := by
  have stored : surrogateTree.readFile "a.go" = .ok surrogateBytes := rfl
  rcases fileRules_ofBytes stored with ⟨unreadable_iff, _, illFormed_fails, _⟩
  have isIllFormed : Text.Utf8.IsIllFormed (Text.Utf8.Length.three.spread 0xD800 ++ []) :=
    .surrogate (by decide)
  rcases illFormed_fails _ _ isIllFormed rfl with ⟨fault, fileRules_eq⟩
  exact ⟨stored, unreadable_iff.mp ⟨fault, by rw [fileRules_eq]; rfl⟩, fault, fileRules_eq⟩

end Source

end RbacManifest
