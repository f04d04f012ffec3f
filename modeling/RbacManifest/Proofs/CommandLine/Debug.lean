import RbacManifest.CommandLine.Run
import RbacManifest.Proofs.Logged

/-!
# Runs that show the whole log

The switch `--debug` in front of the other arguments of the command changes what is printed beside
the results and nothing else: `run_debug`. Reading the arguments commutes with the switch, and a run
that is told to show the whole log fails where the other run fails, although that one may fail
earlier, when it looks for another source of the decision.
-/

namespace RbacManifest

namespace CommandLine

variable {switches : List Switch} {texts rest : List String} {unrecognized : List String}

/-! ## Reading the switch -/

/-- The arguments of a run that shows the whole log. -/
def Arguments.withDebug (arguments : Arguments) : Arguments :=
  { arguments with debug := true }

/-- The same reading of arguments, where the whole log is shown. -/
def Reading.withDebug : Reading → Reading
  | help => help
  | given arguments unrecognized => given arguments.withDebug unrecognized

/-- The same request, where the whole log is shown. -/
def Request.withDebug : Request → Request
  | help scope => help scope
  | nothing => nothing
  | generate arguments => generate arguments.withDebug

theorem Arguments.give_withDebug {switch : Switch} {given : Given} {arguments : Arguments} :
    arguments.withDebug.give switch given = (arguments.give switch given).withDebug := by
  cases switch <;> rfl

namespace Argument

theorem ofTexts_cons {text : String} {argument : Argument} (notSeparator : text ≠ "--")
    (read : ofText switches text = .ok argument) :
    ofTexts switches (text :: rest) = (ofTexts switches rest).map (argument :: ·) := by
  simp only [ofTexts, if_neg notSeparator, read, bind, Except.bind]
  cases ofTexts switches rest <;> rfl

theorem length_ofTexts {arguments : List Argument} (read : ofTexts switches texts = .ok arguments) :
    arguments.length = texts.length := by
  induction texts generalizing arguments with
  | nil =>
      cases read
      rfl
  | cons text rest ih =>
      rw [ofTexts] at read
      split at read
      · cases read
        simp
      · rcases Except.bind_eq_ok_iff.mp read with ⟨argument, _, rest_read⟩
        rcases Except.bind_eq_ok_iff.mp rest_read with ⟨others, others_read, arguments_eq⟩
        cases arguments_eq
        simp [ih others_read]

end Argument

theorem Reading.ofArguments_noText {switch : Switch} {byLetter : Bool} {found : Arguments}
    {arguments : List Argument} (noText : ¬switch.takesText = true) :
    ofArguments found unrecognized (.ofSwitch switch none byLetter :: arguments) =
      if switch = .help then .ok .help
      else ofArguments (found.give switch .blank) unrecognized arguments := by
  rw [ofArguments.eq_def]
  simp only [if_neg noText]

/-- What the arguments say does not depend on whether the whole log is shown. -/
theorem Reading.ofArguments_withDebug {found : Arguments} {arguments : List Argument} :
    ofArguments found.withDebug unrecognized arguments =
      (ofArguments found unrecognized arguments).map withDebug := by
  fun_induction ofArguments found unrecognized arguments with
  | case1 => rfl
  | case2 found unrecognized rest text ih => simpa only [ofArguments] using ih
  | case3 found unrecognized rest text ih => simpa only [ofArguments] using ih
  | case4 found unrecognized rest ih => simpa only [ofArguments] using ih
  | case5 found unrecognized switch byLetter rest text takesText ih =>
      simpa only [ofArguments, takesText, if_true, Arguments.give_withDebug] using ih
  | case6 found unrecognized switch byLetter rest text noText attached excess =>
      simp [ofArguments, noText, excess, Except.map]
  | case7 found unrecognized switch byLetter rest text noText excess =>
      simp [ofArguments, noText, excess, Except.map, withDebug]
  | case8 found unrecognized switch byLetter takesText text rest ih =>
      simpa only [ofArguments, takesText, if_true, Arguments.give_withDebug] using ih
  | case9 found unrecognized switch byLetter rest takesText noOperand =>
      simp only [ofArguments, takesText, if_true]
      rfl
  | case10 found unrecognized byLetter rest noText =>
      simp [ofArguments_noText noText, Except.map, withDebug]
  | case11 found unrecognized switch byLetter rest noText notHelp ih =>
      simpa only [ofArguments_noText noText, if_neg notHelp, Arguments.give_withDebug] using ih

namespace Request

theorem ofCommand_debug :
    ofCommand unrecognized ("--debug" :: texts) = (ofCommand unrecognized texts).map withDebug := by
  have isDebug : Argument.ofText Switch.ofCommand "--debug" =
      .ok (.ofSwitch .debug none false) := rfl
  simp only [ofCommand, Argument.ofTexts_cons (by decide) isDebug]
  cases Argument.ofTexts Switch.ofCommand texts with
  | error misuse => rfl
  | ok arguments =>
      have reading_eq : Reading.ofArguments {} [] (.ofSwitch .debug none false :: arguments) =
          (Reading.ofArguments {} [] arguments).map Reading.withDebug := by
        rw [Reading.ofArguments_noText (by decide), if_neg (by decide)]
        exact Reading.ofArguments_withDebug
      simp only [bind, Except.bind, Except.map, reading_eq]
      cases Reading.ofArguments {} [] arguments with
      | error misuse => rfl
      | ok reading =>
          cases reading with
          | help => rfl
          | given arguments more =>
              simp only [Reading.withDebug]
              split <;> rfl

theorem ofArguments_generate :
    ofArguments ("generate" :: texts) =
      match Argument.ofTexts Switch.ofProgram texts with
      | .error misuse => .error ⟨.program, misuse⟩
      | .ok _ => ofCommand [] texts := by
  have isOperand : Argument.ofText Switch.ofProgram "generate" = .ok (.operand "generate") := rfl
  rw [ofArguments, Argument.ofTexts_cons (by decide) isOperand]
  cases read : Argument.ofTexts Switch.ofProgram texts with
  | error misuse => rfl
  | ok arguments =>
      have texts_eq : (texts.zip arguments).map (·.1) = texts :=
        List.map_fst_zip (Nat.le_of_eq (Argument.length_ofTexts read).symm)
      simp only [Except.map, List.zip_cons_cons, ofRow, if_true, texts_eq]

theorem ofArguments_debug :
    ofArguments ("generate" :: "--debug" :: texts) =
      (ofArguments ("generate" :: texts)).map withDebug := by
  have isUnknown : Argument.ofText Switch.ofProgram "--debug" = .ok (.unknown "--debug") := rfl
  rw [ofArguments_generate, ofArguments_generate, Argument.ofTexts_cons (by decide) isUnknown]
  cases Argument.ofTexts Switch.ofProgram texts with
  | error misuse => rfl
  | ok arguments => exact ofCommand_debug

end Request

/-! ## Running -/

/-- Whether two runs leave the same files, have the same status and print the same results. -/
structure SameResults (left right : FileTree × Report) : Prop where
  tree : left.1 = right.1
  status : left.2.status = right.2.status
  output : left.2.output = right.2.output

theorem SameResults.refl (run : FileTree × Report) : SameResults run run :=
  ⟨rfl, rfl, rfl⟩

variable {tree : FileTree} {environment : Environment} {arguments : Arguments}
  {configuration : Configuration} {failure : Failure}

theorem sameResults_report (tree : FileTree) (left right : Bool) (generated : Logged String) :
    SameResults (tree, report left generated) (tree, report right generated) := by
  unfold report
  cases generated.outcome with
  | ok output => exact ⟨rfl, rfl, rfl⟩
  | error failure => exact ⟨rfl, rfl, rfl⟩

theorem sameResults_of_error {options : Logged Options} {records : List LogRecord} {debug : Bool}
    (other : Failure) (failed_options : options.outcome = .error other) :
    SameResults (tree, failed records failure)
      ((generateWith tree options).1, report debug (generateWith tree options).2) := by
  simp only [generateWith, failed_options, report]
  exact ⟨rfl, rfl, rfl⟩

theorem defaults_of_debug (undecided : debug arguments configuration environment = .error failure) :
    environment.defaults = .error failure := by
  unfold debug at undecided
  split at undecided
  · cases undecided
  · split at undecided
    · cases undecided
    · cases defaults_eq : environment.defaults with
      | error other =>
          simp only [defaults_eq, Except.map, Except.error.injEq] at undecided
          rw [undecided]
      | ok defaults => simp [defaults_eq, Except.map] at undecided

/-- Options are resolved only in an environment that states the truth values it has. -/
theorem exists_options_error (unstated : environment.defaults = .error failure) :
    ∃ other, (options arguments configuration environment).outcome = .error other := by
  simp only [options, Logged.outcome_bind, Logged.outcome_record, Logged.outcome_of]
  cases labels arguments with
  | error other => exact ⟨other, rfl⟩
  | ok given => exact ⟨failure, by simp only [GivenOptions.resolve, unstated]; rfl⟩

theorem sameResults_withDebug :
    SameResults (runCommand tree environment arguments)
      (runCommand tree environment arguments.withDebug) := by
  have checked_eq (configuration : Configuration) :
      options arguments.withDebug configuration environment =
        options arguments configuration environment := rfl
  have texts_eq (options : Options) :
      checkTexts arguments.withDebug tree options = checkTexts arguments tree options := rfl
  have configuration_eq :
      configuration? tree arguments.withDebug = configuration? tree arguments := rfl
  have shown (configuration : Configuration) :
      debug arguments.withDebug configuration environment = .ok true := rfl
  simp only [runCommand, checked_eq, texts_eq, configuration_eq, shown]
  cases configuration? tree arguments with
  | error failure => exact .refl _
  | ok loaded =>
      simp only [bind, Except.bind]
      cases decided : debug arguments (loaded.getD {}) environment with
      | ok isShown => exact sameResults_report _ _ _ _
      | error failure =>
          -- Only the environment can leave the decision open, and resolving needs it as well.
          rcases exists_options_error (defaults_of_debug decided) with ⟨other, failed_options⟩
          refine sameResults_of_error other ?_
          change (options arguments (loaded.getD {}) environment >>= _).outcome = _
          rw [Logged.outcome_bind, failed_options]
          rfl

/-- The switch that shows the whole log changes neither the files that a run leaves, nor its status,
nor what it prints as its results. -/
theorem run_debug (tree : FileTree) (environment : Environment) (rest : List String) :
    SameResults (run tree environment ("generate" :: rest))
      (run tree environment ("generate" :: "--debug" :: rest)) := by
  simp only [run, Request.ofArguments_debug]
  cases Request.ofArguments ("generate" :: rest) with
  | error misuse => exact .refl _
  | ok request =>
      cases request with
      | help scope => exact .refl _
      | nothing => exact .refl _
      | generate arguments => exact sameResults_withDebug

end CommandLine

end RbacManifest
