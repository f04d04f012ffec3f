import RbacManifest.Proofs.Configuration
import RbacManifest.Proofs.Label

/-!
# Where options come from

Each option of a run is the first of what the command line, the configuration, the environment and
the usual options give, and each label is what the command line states last for its key or what the
configuration has under it: `GivenOptions.resolve_takesFirst`. A variable that is overridden does
not count, provided that the variable for the log is a truth value:
`GivenOptions.resolve_ofAgreeing`.
-/

namespace RbacManifest

/-! ## The environment -/

namespace Environment

/-- Whether a text is a truth value: a word for one in letters of any case, or nothing at all. -/
def IsTruthValue (text : String) : Prop :=
  text = "" ∨ Text.lowered text ∈ wordsForTrue ++ wordsForFalse

instance : DecidablePred IsTruthValue := fun _ => inferInstanceAs (Decidable (_ ∨ _))

/-- Whether the variable for the log is missing or a truth value. -/
def IsUsable (environment : Environment) : Prop :=
  ∀ text, environment.lookup "RBAC_GENERATOR_DEBUG" = some text → IsTruthValue text

variable {environment : Environment} {text : String}

theorem exists_truthValue (isTruthValue : IsTruthValue text) :
    ∃ value, truthValue text = .ok value := by
  rw [truthValue]
  by_cases empty : text = ""
  · exact ⟨false, if_pos empty⟩
  · have isWord := List.mem_append.mp (isTruthValue.resolve_left empty)
    rw [← List.contains_iff_mem, ← List.contains_iff_mem] at isWord
    rw [if_neg empty]
    split
    · exact ⟨true, rfl⟩
    · next notTrue =>
      rw [if_pos (isWord.resolve_left notTrue)]
      exact ⟨false, rfl⟩

theorem truthValue_of_not (notTruthValue : ¬IsTruthValue text) :
    truthValue text = .error (.truthValue (Text.lowered text)) := by
  rw [IsTruthValue, not_or, List.mem_append, not_or, ← List.contains_iff_mem,
    ← List.contains_iff_mem] at notTruthValue
  rcases notTruthValue with ⟨given, notTrue, notFalse⟩
  rw [truthValue, if_neg given, if_neg notTrue, if_neg notFalse]

theorem exists_defaults (usable : environment.IsUsable) :
    ∃ debug, environment.defaults = .ok {
      name := (environment.lookup "RBAC_GENERATOR_NAME").getD "manager"
      inputDirectory := (environment.lookup "RBAC_GENERATOR_INPUT_DIR").getD "./pkg"
      outputDirectory := (environment.lookup "RBAC_GENERATOR_OUTPUT_DIR").getD "./config"
      debug } := by
  unfold defaults
  cases found : environment.lookup "RBAC_GENERATOR_DEBUG" with
  | none => exact ⟨false, rfl⟩
  | some text =>
      rcases exists_truthValue (usable text found) with ⟨debug, debug_eq⟩
      exact ⟨debug, by simp only [debug_eq]; rfl⟩

theorem defaults_of_not_isTruthValue
    (found : environment.lookup "RBAC_GENERATOR_DEBUG" = some text)
    (notTruthValue : ¬IsTruthValue text) :
    environment.defaults = .error (.truthValue (Text.lowered text)) := by
  unfold defaults
  rw [found]
  simp only [truthValue_of_not notTruthValue]
  rfl

end Environment

/-! ## Options that are texts -/

/-- An option of a run that is a text. -/
inductive TextOption
  | name
  | inputDirectory
  | outputDirectory

namespace TextOption

/-- What the command line gives for an option. -/
def given : TextOption → GivenOptions → Option String
  | name, options => options.name
  | inputDirectory, options => options.inputDirectory
  | outputDirectory, options => options.outputDirectory

/-- The field of the section for runs that gives an option. -/
def field : TextOption → String
  | name => "name"
  | inputDirectory => "inputDir"
  | outputDirectory => "outputDir"

/-- Where a configuration gives an option. -/
def keys (option : TextOption) : String :=
  "generate." ++ option.field

/-- The variable of the environment that gives an option. -/
def variableName : TextOption → String
  | name => "RBAC_GENERATOR_NAME"
  | inputDirectory => "RBAC_GENERATOR_INPUT_DIR"
  | outputDirectory => "RBAC_GENERATOR_OUTPUT_DIR"

/-- What an option is if nothing gives it. -/
def usual : TextOption → String
  | name => "manager"
  | inputDirectory => "./pkg"
  | outputDirectory => "./config"

/-- What an option is in a run. -/
def value : TextOption → Options → String
  | name, options => options.name
  | inputDirectory, options => options.inputDirectory
  | outputDirectory, options => options.outputDirectory

/-- What is given first for an option: by the command line, by the configuration, where null counts
as missing, by the environment, or in any case. -/
def firstGiven (option : TextOption) (options : GivenOptions) (configuration : Configuration)
    (environment : Environment) : Value :=
  (((option.given options).map Value.text).or
    ((configuration.value? option.keys).or
      ((environment.lookup option.variableName).map Value.text))).getD (.text option.usual)

variable {configuration : Configuration}

theorem value?_keys (satisfied : Schema.IsSatisfied configuration.data) (option : TextOption) :
    configuration.value? option.keys = (configuration.setting? option.field).map .text := by
  have row_eq : (Text.pieces '.' option.keys.toList).map String.ofList =
      ["generate", option.field] := by
    cases option <;> decide
  rw [configuration.value?_eq_fieldValue? row_eq]
  apply configuration.fieldValue?_eq satisfied
  cases option <;> simp [field]

theorem getD_eq {first second third : Option String} {last : String} :
    Value.text ((first <|> second).getD (third.getD last)) =
      ((first.map Value.text).or ((second.map .text).or (third.map .text))).getD (.text last) := by
  cases first <;> cases second <;> cases third <;> rfl

/-- What the command line gives counts before anything else. -/
theorem firstGiven_of_given {option : TextOption} {given : GivenOptions} {text : String}
    {environment : Environment} (given_eq : option.given given = some text) :
    option.firstGiven given configuration environment = .text text := by
  rw [firstGiven, given_eq]
  rfl

end TextOption

namespace GivenOptions

variable {given : GivenOptions} {configuration : Configuration} {environment : Environment}

/-- In a usable environment options are resolved, each by what is given first for it. -/
theorem exists_resolve (given : GivenOptions) (satisfied : Schema.IsSatisfied configuration.data)
    (usable : environment.IsUsable) :
    ∃ options, given.resolve configuration environment = .ok options ∧
      (∀ option : TextOption,
        .text (option.value options) = option.firstGiven given configuration environment) ∧
      options.labels = Entries.putAll configuration.labels given.labels := by
  rcases environment.exists_defaults usable with ⟨debug, defaults_eq⟩
  refine ⟨_, by rw [resolve, defaults_eq]; rfl, ?_, rfl⟩
  intro option
  rw [TextOption.firstGiven, option.value?_keys satisfied]
  cases option <;> exact TextOption.getD_eq

/-- In any other environment none are. -/
theorem resolve_of_not_isTruthValue {text : String}
    (found : environment.lookup "RBAC_GENERATOR_DEBUG" = some text)
    (notTruthValue : ¬Environment.IsTruthValue text) :
    given.resolve configuration environment = .error (.truthValue (Text.lowered text)) := by
  rw [resolve, Environment.defaults_of_not_isTruthValue found notTruthValue]
  rfl

/-- After any loads, each option is what is given first for it, and each label is what the last
argument for its key states or what the configuration has under the key. Arguments are rejected
exactly if one of them states no label, because of the first such argument. -/
theorem resolve_takesFirst (loads : List (FileTree × String)) (given : GivenOptions)
    (arguments : List String) (environment : Environment) (usable : environment.IsUsable) :
    let configuration := Configuration.afterLoads loads
    (∀ failure, Label.ofArguments arguments = .error failure ↔
      ∃ argument, IsFirst (fun argument => ¬Label.IsStated argument) arguments argument ∧
        failure = .label argument) ∧
    ((∀ argument ∈ arguments, Label.IsStated argument) →
      ∃ labels options, Label.ofArguments arguments = .ok labels ∧
        { given with labels }.resolve configuration environment = .ok options ∧
        (∀ option : TextOption,
          .text (option.value options) = option.firstGiven given configuration environment) ∧
        (∀ label ∈ options.labels,
          (∃ text, label.1 = .text text) ∧ ∃ text, label.2 = .text text) ∧
        ∀ key, options.labels.get? key =
          ((Label.lastStated? key arguments).map Value.text).or
            (Configuration.valueAt? (.mapping configuration.data)
              ["generate", "labels", key])) := by
  intro configuration
  have satisfied : Schema.IsSatisfied configuration.data :=
    (Configuration.isLastOf_afterLoads loads).isSatisfied
  refine ⟨fun failure => Label.ofArguments_eq_error_iff, ?_⟩
  intro stated
  let labels := Label.entries
    (arguments.map fun argument => (Label.statedKey argument, Label.statedValue argument))
  rcases exists_resolve { given with labels } satisfied usable with
    ⟨options, resolved, first_given, labels_eq⟩
  refine ⟨labels, options, Label.ofArguments_eq_ok stated, resolved, ?_, ?_, ?_⟩
  · intro option
    rw [first_given option]
    cases option <;> rfl
  · rw [labels_eq]
    refine Entries.forall_mem_putAll (fun key => ∃ text, key = .text text)
      (fun value => ∃ text, value = .text text) ?_ Label.forall_mem_entries
    intro label isMember
    rcases configuration.exists_of_mem_labels satisfied isMember with ⟨key, value, rfl⟩
    exact ⟨⟨key, rfl⟩, ⟨value, rfl⟩⟩
  · intro key
    have distinct : labels.HaveDistinctKeys := Entries.HaveDistinctKeys.putAll List.Pairwise.nil _
    rw [labels_eq, Entries.get?_putAll, Configuration.valueAt?_label, distinct.get?_reverse,
      Label.get?_entries]

/-- The command line gives an empty path, the environment another one, and a configuration the name
and a label that is stated again, twice. -/
theorem resolve_takesFirst_changingLoads :
    Environment.IsUsable [("RBAC_GENERATOR_OUTPUT_DIR", ""), ("RBAC_GENERATOR_DEBUG", "Yes")] ∧
      (∀ argument ∈ ["tier=a", " app = x=y ", "app=", "tier =\tb"], Label.IsStated argument) ∧
      ∃ labels options,
        Label.ofArguments ["tier=a", " app = x=y ", "app=", "tier =\tb"] = .ok labels ∧
        ({ inputDirectory := some "", labels } : GivenOptions).resolve
          (Configuration.afterLoads changingLoads)
          [("RBAC_GENERATOR_OUTPUT_DIR", ""), ("RBAC_GENERATOR_DEBUG", "Yes")] = .ok options ∧
        options.inputDirectory = "" ∧ options.labels.get? "tier" = some (.text "b") ∧
        options.labels.get? "app" = some (.text "") := by
  have usable : Environment.IsUsable
      [("RBAC_GENERATOR_OUTPUT_DIR", ""), ("RBAC_GENERATOR_DEBUG", "Yes")] := by
    rintro text ⟨⟩
    decide
  have stated : ∀ argument ∈ ["tier=a", " app = x=y ", "app=", "tier =\tb"],
      Label.IsStated argument := by
    decide
  rcases resolve_takesFirst changingLoads { inputDirectory := some "" } _ _ usable with
    ⟨_, resolved_of_stated⟩
  rcases resolved_of_stated stated with
    ⟨labels, options, labels_eq, resolved, first_given, _, label_eq⟩
  refine ⟨usable, stated, labels, options, labels_eq, resolved, ?_, ?_, ?_⟩
  · exact Value.text.inj ((first_given .inputDirectory).trans (TextOption.firstGiven_of_given rfl))
  · exact label_eq "tier"
  · exact label_eq "app"

/-! ## Variables that are overridden -/

/-- Whether two environments agree on each variable whose option neither the command line nor the
configuration gives. -/
def Agree (given : GivenOptions) (configuration : Configuration) (left right : Environment) :
    Prop :=
  ∀ option : TextOption, option.given given = none → configuration.value? option.keys = none →
    left.lookup option.variableName = right.lookup option.variableName

variable {left right : Environment}

theorem Agree.firstGiven_eq (agree : given.Agree configuration left right) (option : TextOption) :
    option.firstGiven given configuration left = option.firstGiven given configuration right := by
  cases given_eq : option.given given with
  | some text =>
      rw [TextOption.firstGiven_of_given given_eq, TextOption.firstGiven_of_given given_eq]
  | none =>
      unfold TextOption.firstGiven
      cases configured : configuration.value? option.keys with
      | some value => rfl
      | none => rw [agree option given_eq configured]

/-- Usable environments that agree where it counts lead to the same options. In an environment where
the variable for the log is no truth value, none are resolved because of that variable. -/
theorem resolve_ofAgreeing (loads : List (FileTree × String)) (given : GivenOptions)
    (left right : Environment)
    (agree : given.Agree (Configuration.afterLoads loads) left right) :
    (left.IsUsable → right.IsUsable →
      ∃ options, given.resolve (Configuration.afterLoads loads) left = .ok options ∧
        given.resolve (Configuration.afterLoads loads) right = .ok options) ∧
    ∀ environment : Environment, ∀ text,
      environment.lookup "RBAC_GENERATOR_DEBUG" = some text → ¬Environment.IsTruthValue text →
        given.resolve (Configuration.afterLoads loads) environment =
          .error (.truthValue (Text.lowered text)) := by
  have satisfied : Schema.IsSatisfied (Configuration.afterLoads loads).data :=
    (Configuration.isLastOf_afterLoads loads).isSatisfied
  constructor
  · intro left_usable right_usable
    rcases exists_resolve given satisfied left_usable with
      ⟨options, resolved, first_given, labels_eq⟩
    rcases exists_resolve given satisfied right_usable with
      ⟨others, others_resolved, others_given, others_labels_eq⟩
    have same (option : TextOption) : option.value options = option.value others := by
      apply Value.text.inj
      rw [first_given option, agree.firstGiven_eq option, others_given option]
    have options_eq : options = others := by
      cases options
      cases others
      rw [Options.mk.injEq]
      exact ⟨same .name, same .inputDirectory, same .outputDirectory,
        labels_eq.trans others_labels_eq.symm⟩
    exact ⟨options, resolved, options_eq ▸ others_resolved⟩
  · intro environment text found notTruthValue
    exact resolve_of_not_isTruthValue found notTruthValue

/-- Options that are all given on the command line. -/
def allGiven : GivenOptions where
  name := some "operator"
  inputDirectory := some "src"
  outputDirectory := some "out"

theorem agree_allGiven (configuration : Configuration) (left right : Environment) :
    allGiven.Agree configuration left right := by
  intro option missing
  cases option <;> cases missing

theorem resolve_ofAgreeing_allGiven :
    allGiven.Agree (Configuration.afterLoads []) [("RBAC_GENERATOR_NAME", "other")]
        [("RBAC_GENERATOR_DEBUG", "off")] ∧
      ∃ options,
        allGiven.resolve (Configuration.afterLoads []) [("RBAC_GENERATOR_NAME", "other")] =
            .ok options ∧
          allGiven.resolve (Configuration.afterLoads []) [("RBAC_GENERATOR_DEBUG", "off")] =
            .ok options := by
  have agree := agree_allGiven (Configuration.afterLoads []) [("RBAC_GENERATOR_NAME", "other")]
    [("RBAC_GENERATOR_DEBUG", "off")]
  refine ⟨agree, (resolve_ofAgreeing [] allGiven _ _ agree).1 ?_ ?_⟩
  · rintro text ⟨⟩
  · rintro text ⟨⟩
    decide

/-- A variable for the log that is no truth value keeps options from being resolved, even if all of
them are given on the command line. -/
theorem resolve_allGiven_ne :
    allGiven.Agree (Configuration.afterLoads []) [] [("RBAC_GENERATOR_DEBUG", "maybe")] ∧
      allGiven.resolve (Configuration.afterLoads []) [] ≠
        allGiven.resolve (Configuration.afterLoads []) [("RBAC_GENERATOR_DEBUG", "maybe")] := by
  refine ⟨agree_allGiven _ _ _, ?_⟩
  have found : List.lookup "RBAC_GENERATOR_DEBUG" [("RBAC_GENERATOR_DEBUG", "maybe")] =
      some "maybe" := rfl
  rw [resolve_of_not_isTruthValue found (by decide)]
  rintro ⟨⟩

end GivenOptions

end RbacManifest
