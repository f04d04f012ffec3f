import Mathlib.Data.List.Induction
import RbacManifest.Proofs.CommandLine.Debug
import RbacManifest.Proofs.Text.Split

/-!
# Uses of switches

A switch that takes a text can be used in two forms, with the text attached to it or behind it. Both
are read as the same use, whatever the text looks like, and a run depends only on what is used with
each switch and in which order: `run_ofUses`. Every argument is looked at twice, for the program and
for its command; for the program it only must not be ambiguous.
-/

namespace RbacManifest

namespace CommandLine

/-- One use of a switch behind the command. -/
inductive Use
  | debug
  /-- A switch with a text attached to it by an equals sign. -/
  | attached (switch : Switch) (text : String)
  /-- A switch with a text behind it. -/
  | separate (switch : Switch) (text : String)
  deriving DecidableEq

namespace Use

/-- The arguments that a use is written as. -/
def write : Use → List String
  | debug => ["--debug"]
  | attached switch text => [switch.spelling ++ "=" ++ text]
  | separate switch text => [switch.spelling, text]

/-- Whether a use can be written. An attached text may not be two dashes, and a text behind a switch
may not start with a dash. -/
def IsWritable : Use → Prop
  | debug => True
  | attached switch text => switch.takesText = true ∧ text ≠ "--"
  | separate switch text => switch.takesText = true ∧ text.toList.head? ≠ some '-'

instance : DecidablePred IsWritable
  | debug => inferInstanceAs (Decidable True)
  | attached _ _ => inferInstanceAs (Decidable (_ ∧ _))
  | separate _ _ => inferInstanceAs (Decidable (_ ∧ _))

/-- The text that is used with a switch. -/
def text? (switch : Switch) : Use → Option String
  | debug => none
  | attached other text => if other = switch then some text else none
  | separate other text => if other = switch then some text else none

/-- The texts that are used with a switch, in their order. -/
def texts (switch : Switch) (uses : List Use) : List String :=
  uses.filterMap (text? switch)

/-- What is given with a switch that counts the last time. -/
def last (switch : Switch) (uses : List Use) : Given :=
  match (texts switch uses).getLast? with
  | some text => .text text
  | none => .absent

/-- The arguments that uses of switches give. -/
def arguments (uses : List Use) : Arguments where
  debug := uses.contains debug
  config := last .config uses
  name := last .name uses
  inputDirectory := last .inputDirectory uses
  outputDirectory := last .outputDirectory uses
  labels := (texts .label uses).map .text

/-- What the arguments are that a use is written as. -/
def read : Use → List Argument
  | debug => [.ofSwitch .debug none false]
  | attached switch text => [.ofSwitch switch (some text.toList) false]
  | separate switch text => [.ofSwitch switch none false, .operand text]

/-- Arguments with one more use of a switch. -/
def apply (arguments : Arguments) : Use → Arguments
  | debug => arguments.give .debug .blank
  | attached switch text => arguments.give switch (.text text)
  | separate switch text => arguments.give switch (.text text)

end Use

/-! ## What an argument is -/

namespace Switch

theorem equals_not_mem_spelling (switch : Switch) : '=' ∉ switch.spelling.toList := by
  cases switch <;> decide

theorem cut?_spelling (switch : Switch) (text : List Char) :
    Text.cut? '=' (switch.spelling.toList ++ '=' :: text) = some (switch.spelling.toList, text) :=
  Text.cut?_append switch.equals_not_mem_spelling

theorem exists_spelling (switch : Switch) :
    ∃ rest, switch.spelling.toList = '-' :: '-' :: rest := by
  cases switch <;> exact ⟨_, rfl⟩

end Switch

namespace Argument

variable {switches : List Switch} {switch : Switch} {text : String}

/-- No switch is spelled with an equals sign. -/
theorem spelled?_of_mem_equals {chars : List Char} (separated : '=' ∈ chars) :
    spelled? switches chars = none := by
  have notLetter : chars ≠ ['-', helpLetter] := by
    rintro rfl
    exact absurd separated (by decide)
  have unspelled : ∀ switch ∈ switches, ¬switch.spelling.toList = chars := by
    intro switch _ same
    exact switch.equals_not_mem_spelling (same ▸ separated)
  rw [spelled?, if_neg notLetter, List.find?_eq_none.mpr (by simpa using unspelled)]
  rfl

theorem spelled?_spelling (switch : Switch) :
    spelled? Switch.ofCommand switch.spelling.toList = some (switch, false) := by
  cases switch <;> rfl

theorem ofText_operand (noDash : text.toList.head? ≠ some '-') :
    ofText switches text = .ok (.operand text) :=
  if_pos (Or.inl noDash)

theorem ofText_spelling (switch : Switch) :
    ofText Switch.ofCommand switch.spelling = .ok (.ofSwitch switch none false) := by
  cases switch <;> rfl

/-- A text is cut off before a switch is looked for, whatever the text looks like. -/
theorem ofText_equals (switches : List Switch) (switch : Switch) (text : String) :
    ofText switches (switch.spelling ++ "=" ++ text) =
      match spelled? switches switch.spelling.toList with
      | some (other, byLetter) => .ok (.ofSwitch other (some text.toList) byLetter)
      | none => shortened switches (switch.spelling.toList ++ '=' :: text.toList) := by
  have chars_eq : (switch.spelling ++ "=" ++ text).toList =
      switch.spelling.toList ++ '=' :: text.toList := by
    simp
  have whole_unspelled :
      spelled? switches (switch.spelling.toList ++ '=' :: text.toList) = none := by
    apply spelled?_of_mem_equals
    simp
  rcases switch.exists_spelling with ⟨rest, spelling_eq⟩
  have dashed : ¬((switch.spelling.toList ++ '=' :: text.toList).head? ≠ some '-' ∨
      switch.spelling.toList ++ '=' :: text.toList = ['-']) := by
    simp [spelling_eq]
  have twoDashes : (switch.spelling.toList ++ '=' :: text.toList).take 2 = ['-', '-'] := by
    simp [spelling_eq]
  simp only [ofText, chars_eq, if_neg dashed, whole_unspelled, Switch.cut?_spelling,
    Option.bind_some, if_pos twoDashes]
  cases spelled? switches switch.spelling.toList <;> rfl

theorem ofText_attached (switch : Switch) (text : String) :
    ofText Switch.ofCommand (switch.spelling ++ "=" ++ text) =
      .ok (.ofSwitch switch (some text.toList) false) := by
  rw [ofText_equals, spelled?_spelling]

theorem ofText_program_spelling (takesText : switch.takesText = true) :
    ofText Switch.ofProgram switch.spelling = .ok (.unknown switch.spelling) := by
  cases switch with
  | help | debug => cases takesText
  | config | name | inputDirectory | outputDirectory | label => rfl

/-- In front of the command only help is known, and no other switch starts like it. -/
theorem ofText_program_attached (takesText : switch.takesText = true) (text : String) :
    ofText Switch.ofProgram (switch.spelling ++ "=" ++ text) =
      .ok (dashed (switch.spelling.toList ++ '=' :: text.toList)) := by
  have unspelled : spelled? Switch.ofProgram switch.spelling.toList = none := by
    revert takesText
    cases switch <;> decide
  have noStart : startingWith Switch.ofProgram switch.spelling.toList = [] := by
    revert takesText
    cases switch <;> decide
  rw [ofText_equals, unspelled]
  simp only [shortened, Switch.cut?_spelling, noStart]

/-- An attached text makes no argument two dashes. -/
theorem spelling_append_ne_dashes (switch : Switch) (text : String) :
    switch.spelling ++ "=" ++ text ≠ "--" := by
  intro same
  have separated : '=' ∈ (switch.spelling ++ "=" ++ text).toList := by simp
  rw [same] at separated
  exact absurd separated (by decide)

theorem spelling_ne_dashes (switch : Switch) : switch.spelling ≠ "--" := by
  cases switch <;> decide

theorem ne_dashes_of_noDash (noDash : text.toList.head? ≠ some '-') : text ≠ "--" := by
  rintro rfl
  exact noDash rfl

end Argument

namespace Use

variable {use : Use} {uses : List Use} {rest : List String}

/-- For its command a use is read as what it is written as. -/
theorem ofTexts_write (writable : use.IsWritable) :
    Argument.ofTexts Switch.ofCommand (use.write ++ rest) =
      (Argument.ofTexts Switch.ofCommand rest).map (use.read ++ ·) := by
  cases use with
  | debug => exact Argument.ofTexts_cons (by decide) (Argument.ofText_spelling .debug)
  | attached switch text =>
      exact Argument.ofTexts_cons (Argument.spelling_append_ne_dashes switch text)
        (Argument.ofText_attached switch text)
  | separate switch text =>
      rw [write, List.cons_append, List.singleton_append,
        Argument.ofTexts_cons (Argument.spelling_ne_dashes switch)
          (Argument.ofText_spelling switch),
        Argument.ofTexts_cons (Argument.ne_dashes_of_noDash writable.2)
          (Argument.ofText_operand writable.2)]
      cases Argument.ofTexts Switch.ofCommand rest <;> rfl

theorem ofTexts_flatMap_write (writable : ∀ use ∈ uses, use.IsWritable) :
    Argument.ofTexts Switch.ofCommand (uses.flatMap write) = .ok (uses.flatMap read) := by
  induction uses with
  | nil => rfl
  | cons use others ih =>
      rw [List.forall_mem_cons] at writable
      rw [List.flatMap_cons, ofTexts_write writable.1, ih writable.2]
      rfl

/-- For the program a use is no switch, but it is not ambiguous either. -/
theorem exists_ofTexts_program_write (writable : use.IsWritable) {arguments : List Argument}
    (rest_read : Argument.ofTexts Switch.ofProgram rest = .ok arguments) :
    ∃ more, Argument.ofTexts Switch.ofProgram (use.write ++ rest) = .ok more := by
  cases use with
  | debug =>
      have isUnknown : Argument.ofText Switch.ofProgram "--debug" = .ok (.unknown "--debug") := rfl
      refine ⟨.unknown "--debug" :: arguments, ?_⟩
      rw [write, List.singleton_append, Argument.ofTexts_cons (by decide) isUnknown, rest_read]
      rfl
  | attached switch text =>
      have isDashed := Argument.ofText_program_attached writable.1 text
      refine ⟨.dashed (switch.spelling.toList ++ '=' :: text.toList) :: arguments, ?_⟩
      rw [write, List.singleton_append,
        Argument.ofTexts_cons (Argument.spelling_append_ne_dashes switch text) isDashed, rest_read]
      rfl
  | separate switch text =>
      refine ⟨.unknown switch.spelling :: .operand text :: arguments, ?_⟩
      rw [write, List.cons_append, List.singleton_append,
        Argument.ofTexts_cons (Argument.spelling_ne_dashes switch)
          (Argument.ofText_program_spelling writable.1),
        Argument.ofTexts_cons (Argument.ne_dashes_of_noDash writable.2)
          (Argument.ofText_operand writable.2), rest_read]
      rfl

theorem exists_ofTexts_program_flatMap_write (writable : ∀ use ∈ uses, use.IsWritable) :
    ∃ arguments, Argument.ofTexts Switch.ofProgram (uses.flatMap write) = .ok arguments := by
  induction uses with
  | nil => exact ⟨[], rfl⟩
  | cons use others ih =>
      rw [List.forall_mem_cons] at writable
      rcases ih writable.2 with ⟨arguments, others_read⟩
      exact exists_ofTexts_program_write writable.1 others_read

/-! ## What uses give -/

variable {found : Arguments} {unrecognized : List String} {behind : List Argument}

theorem ofAttached_of_ne_dashes {text : String} (notDashes : text ≠ "--") :
    Given.ofAttached text.toList = .text text := by
  have chars_ne : text.toList ≠ ['-', '-'] := by
    intro same
    exact notDashes (String.toList_inj.mp same)
  rw [Given.ofAttached, if_neg chars_ne, String.ofList_toList]

/-- A use adds to the arguments, whatever stands behind it. -/
theorem ofArguments_read (writable : use.IsWritable) :
    Reading.ofArguments found unrecognized (use.read ++ behind) =
      Reading.ofArguments (apply found use) unrecognized behind := by
  cases use with
  | debug =>
      rw [read, List.singleton_append, Reading.ofArguments_noText (by decide),
        if_neg (by decide)]
      rfl
  | attached switch text =>
      rw [read, List.singleton_append, Reading.ofArguments.eq_def]
      simp only [writable.1, if_true, ofAttached_of_ne_dashes writable.2, apply]
  | separate switch text =>
      rw [read, List.cons_append, List.singleton_append, Reading.ofArguments.eq_def]
      simp only [writable.1, if_true, apply]

theorem ofArguments_flatMap_read (writable : ∀ use ∈ uses, use.IsWritable) :
    Reading.ofArguments found unrecognized (uses.flatMap read) =
      .ok (.given (uses.foldl apply found) unrecognized) := by
  induction uses generalizing found with
  | nil => rfl
  | cons use others ih =>
      rw [List.forall_mem_cons] at writable
      rw [List.flatMap_cons, ofArguments_read writable.1, ih writable.2, List.foldl_cons]

theorem texts_append_singleton (switch : Switch) :
    texts switch (uses ++ [use]) = texts switch uses ++ (text? switch use).toList := by
  rw [texts, List.filterMap_append]
  cases h : text? switch use <;> simp [texts, h]

theorem last_append_singleton (switch : Switch) :
    last switch (uses ++ [use]) =
      match text? switch use with
      | some text => .text text
      | none => last switch uses := by
  rw [last, texts_append_singleton]
  cases text? switch use <;> simp [last]

/-- One more text with a switch. -/
theorem arguments_append_text {switch : Switch} {text : String}
    (takesText : switch.takesText = true) (notDebug : use ≠ debug)
    (use_text : ∀ other, text? other use = if switch = other then some text else none) :
    arguments (uses ++ [use]) = (arguments uses).give switch (.text text) := by
  have isShown : (uses ++ [use]).contains debug = uses.contains debug := by
    simp [Ne.symm notDebug]
  simp only [arguments, last_append_singleton, texts_append_singleton, use_text, isShown]
  cases switch with
  | help | debug => cases takesText
  | config | name | inputDirectory | outputDirectory | label => simp [Arguments.give]

theorem arguments_append_singleton (writable : use.IsWritable) :
    arguments (uses ++ [use]) = apply (arguments uses) use := by
  cases use with
  | debug =>
      simp only [arguments, last_append_singleton, texts_append_singleton, text?]
      simp [apply, Arguments.give]
  | attached switch text => exact arguments_append_text writable.1 (by simp) fun _ => rfl
  | separate switch text => exact arguments_append_text writable.1 (by simp) fun _ => rfl

/-- The last use of a switch counts, and labels are collected: by induction from the end. -/
theorem foldl_apply (writable : ∀ use ∈ uses, use.IsWritable) :
    uses.foldl apply {} = arguments uses := by
  induction uses using List.reverseRecOn with
  | nil => rfl
  | append_singleton others use ih =>
      rw [List.forall_mem_append, List.forall_mem_singleton] at writable
      rw [List.foldl_append, ih writable.1, arguments_append_singleton writable.2]
      rfl

theorem request_ofUses (writable : ∀ use ∈ uses, use.IsWritable) :
    Request.ofArguments ("generate" :: uses.flatMap write) = .ok (.generate (arguments uses)) := by
  rcases exists_ofTexts_program_flatMap_write writable with ⟨others, program_read⟩
  have reading : Reading.ofArguments {} [] (uses.flatMap read) =
      .ok (.given (arguments uses) []) := by
    rw [ofArguments_flatMap_read writable, foldl_apply writable]
  rw [Request.ofArguments_generate, program_read]
  simp only [Request.ofCommand, ofTexts_flatMap_write writable, bind, Except.bind, reading]
  rfl

/-- Which of two rows of uses is written does not matter if both use each switch with the same texts
in the same order. -/
theorem arguments_congr {others : List Use}
    (sameTexts : ∀ switch, texts switch others = texts switch uses)
    (sameDebug : debug ∈ others ↔ debug ∈ uses) : arguments others = arguments uses := by
  have isShown : others.contains debug = uses.contains debug := by
    rw [Bool.eq_iff_iff, List.contains_iff_mem, List.contains_iff_mem, sameDebug]
  simp only [arguments, last, sameTexts, isShown]

end Use

/-- Switches can be written in any form and any order. They are read as what is used with each of
them: the last text, or all texts for labels. So runs with the same uses of each switch are the
same. -/
theorem run_ofUses {uses : List Use} (writable : ∀ use ∈ uses, use.IsWritable) :
    Request.ofArguments ("generate" :: uses.flatMap Use.write) =
        .ok (.generate (Use.arguments uses)) ∧
      ∀ others : List Use, (∀ use ∈ others, use.IsWritable) →
        (∀ switch, Use.texts switch others = Use.texts switch uses) →
        (Use.debug ∈ others ↔ Use.debug ∈ uses) →
        ∀ tree environment,
          run tree environment ("generate" :: others.flatMap Use.write) =
            run tree environment ("generate" :: uses.flatMap Use.write) := by
  constructor
  · exact Use.request_ofUses writable
  · intro others others_writable sameTexts sameDebug tree environment
    have sameArguments := Use.arguments_congr sameTexts sameDebug
    simp only [run, Use.request_ofUses others_writable, Use.request_ofUses writable, sameArguments]

/-- Texts that start with a dash, are blank or hold an equals sign, in both forms and two orders. -/
theorem run_ofUses_interleaved :
    Request.ofArguments
        ["generate", "--name=-x", "--label", "a=b", "--debug", "--name=", "--label=c"] =
        .ok (.generate {
          debug := true, name := .text "", labels := [.text "a=b", .text "c"] }) ∧
      ∀ tree environment,
        run tree environment
            ["generate", "--label=a=b", "--label", "c", "--name=-x", "--debug", "--name", ""] =
          run tree environment
            ["generate", "--name=-x", "--label", "a=b", "--debug", "--name=", "--label=c"] := by
  have writable : ∀ use ∈ [Use.attached .name "-x", .separate .label "a=b", .debug,
      .attached .name "", .attached .label "c"], use.IsWritable := by
    decide
  rcases run_ofUses writable with ⟨request_eq, run_eq⟩
  constructor
  · exact request_eq
  · apply run_eq [.attached .label "a=b", .separate .label "c", .attached .name "-x", .debug,
      .separate .name ""]
    · decide
    · intro switch
      cases switch <;> rfl
    · decide

end CommandLine

end RbacManifest
