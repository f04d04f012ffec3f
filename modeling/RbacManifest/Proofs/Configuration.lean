import Mathlib.Data.List.Induction
import RbacManifest.Configuration
import RbacManifest.Proofs.Schema

/-!
# Configurations over several loads

Loads follow each other, from files that may change in between, and each may fail. The configuration
is always the one that the last successful load has read, and it has the right form. Therefore the
options that are resolved from it are texts: `GivenOptions.resolve_afterLoads`.
-/

namespace RbacManifest

namespace Configuration

variable {tree : FileTree} {path field : String} {configuration : Configuration}
  {loads : List (FileTree × String)}

/-- The configuration after several loads, each from the tree of files as it was then. -/
def afterLoads (loads : List (FileTree × String)) : Configuration :=
  loads.foldl (fun configuration (tree, path) => configuration.reload tree path) {}

/-- Whether a load fails. -/
def Fails (load : FileTree × String) : Prop :=
  ∃ failure, (Configuration.load load.1 load.2).outcome = .error failure

/-- Whether a configuration is what the last successful one of several loads has read. It is empty
if all of them have failed. -/
inductive IsLastOf : List (FileTree × String) → Configuration → Prop
  | none {loads : List (FileTree × String)} (fail : ∀ load ∈ loads, Fails load) :
      IsLastOf loads {}
  | last {before behind : List (FileTree × String)} {tree : FileTree} {path : String}
      {text : List Char} {data : Entries}
      (text_eq : Configuration.text tree path = .ok text) (data_eq : parse path text = .ok data)
      (loaded : (load tree path).outcome = .ok { data, path := some path })
      (fail : ∀ load ∈ behind, Fails load) :
      IsLastOf (before ++ (tree, path) :: behind) { data, path := some path }

/-- A load that succeeds has read a configuration of the right form. -/
theorem exists_of_load (loaded : (load tree path).outcome = .ok configuration) :
    ∃ text data, Configuration.text tree path = .ok text ∧ parse path text = .ok data ∧
      Schema.check data = .ok () ∧ configuration = { data, path := some path } := by
  simp only [load, Logged.outcome_bind, Logged.outcome_of, Logged.outcome_record,
    Logged.outcome_pure, Except.bind_eq_ok_iff, Except.ok.injEq] at loaded
  rcases loaded with ⟨text, text_eq, data, data_eq, _, checked, _, _, rfl⟩
  exact ⟨text, data, text_eq, data_eq, checked, rfl⟩

/-- One more load keeps the configuration the one that the last successful load has read. -/
theorem IsLastOf.reload (isLast : IsLastOf loads configuration) (tree : FileTree) (path : String) :
    IsLastOf (loads ++ [(tree, path)]) (configuration.reload tree path) := by
  unfold Configuration.reload
  cases outcome : (load tree path).outcome with
  | ok loaded =>
      rcases exists_of_load outcome with ⟨text, data, text_eq, data_eq, _, rfl⟩
      exact .last text_eq data_eq outcome (by simp)
  | error failure =>
      have fails : ∀ load ∈ [(tree, path)], Fails load := by
        simpa using ⟨failure, outcome⟩
      -- The earlier loads decide, and the failed one joins those behind the last success.
      cases isLast with
      | none fail => exact .none (List.forall_mem_append.mpr ⟨fail, fails⟩)
      | last text_eq data_eq loaded fail =>
          rw [List.append_assoc, List.cons_append]
          exact .last text_eq data_eq loaded (List.forall_mem_append.mpr ⟨fail, fails⟩)

theorem isLastOf_afterLoads (loads : List (FileTree × String)) :
    IsLastOf loads (afterLoads loads) := by
  induction loads using List.reverseRecOn with
  | nil => exact .none (by simp)
  | append_singleton loads attempt ih =>
      simpa only [afterLoads, List.foldl_append, List.foldl_cons, List.foldl_nil] using
        ih.reload attempt.1 attempt.2

theorem IsLastOf.isSatisfied (isLast : IsLastOf loads configuration) :
    Schema.IsSatisfied configuration.data := by
  cases isLast with
  | none _ => exact Schema.isSatisfied_nil
  | last text_eq data_eq loaded _ =>
      rcases exists_of_load loaded with ⟨_, _, _, _, checked, configuration_eq⟩
      cases configuration_eq
      exact Schema.check_eq_ok_iff.mp checked

/-! ## What a row of keys leads to -/

section Rows

variable {entries : Entries} {value : Value} {name : String} {keys : List String}

theorem valueAt?_singleton :
    valueAt? (.mapping entries) [name] = (Entries.opened entries).get? name := by
  cases found : (Entries.opened entries).get? name <;> simp [valueAt?, found]

/-- What is inside a section is looked up in what the section holds. -/
theorem valueAt?_of_section (found : valueAt? (.mapping entries) [name] = some value) :
    valueAt? (.mapping entries) (name :: keys) = valueAt? value keys := by
  rw [valueAt?_singleton] at found
  rw [valueAt?, found]
  rfl

theorem valueAt?_of_no_section (missing : valueAt? (.mapping entries) [name] = none) :
    valueAt? (.mapping entries) (name :: keys) = none := by
  rw [valueAt?_singleton] at missing
  rw [valueAt?, missing]
  rfl

theorem valueAt?_section :
    valueAt? (.mapping configuration.data) (name :: field :: keys) =
      ((configuration.sectionEntries name).get? field).bind fun value => valueAt? value keys := by
  rw [valueAt?, sectionEntries]
  cases configuration.data.opened.get? name with
  | none => rfl
  | some value => cases value <;> rfl

theorem valueAt?_label {key : String} :
    valueAt? (.mapping configuration.data) ["generate", "labels", key] =
      configuration.labels.get? key := by
  rw [valueAt?_section, labels]
  cases (configuration.sectionEntries "generate").get? "labels" with
  | none => rfl
  | some value =>
      cases value with
      | mapping entries => exact valueAt?_singleton
      | _ => rfl

end Rows

/-! ## What the section for runs holds -/

/-- The value that a field of the section for runs holds. Null counts as missing. -/
def fieldValue? (field : String) (configuration : Configuration) : Option Value :=
  match (configuration.sectionEntries "generate").get? field with
  | some .null => none
  | value => value

/-- A field of the section for runs is found under the name of the section and its own. -/
theorem value?_eq_fieldValue? {keys : String}
    (row_eq : (Text.pieces '.' keys.toList).map String.ofList = ["generate", field]) :
    configuration.value? keys = configuration.fieldValue? field := by
  have found_eq : valueAt? (.mapping configuration.data) ["generate", field] =
      (configuration.sectionEntries "generate").get? field := by
    rw [valueAt?_section]
    exact Option.bind_fun_some _
  unfold value?
  rw [row_eq]
  exact congrArg (fun found : Option Value =>
    match found with
    | some .null => none
    | value => value) found_eq

variable (satisfied : Schema.IsSatisfied configuration.data)
include satisfied

/-- The section for runs is a mapping with fields of the right types. -/
theorem allows_of_isSatisfied {type : Schema.FieldType} {value : Value}
    (isField : (field, type) ∈
      [("name", Schema.FieldType.text), ("inputDir", .text), ("outputDir", .text),
        ("labels", .texts)])
    (found : (configuration.sectionEntries "generate").get? field = some value) :
    type.Allows value := by
  have section_mem : ("generate", [("name", Schema.FieldType.text), ("inputDir", .text),
      ("outputDir", .text), ("labels", .texts)]) ∈ Schema.sections := by
    simp [Schema.sections]
  rw [sectionEntries] at found
  split at found
  · next content section_eq =>
    cases satisfied _ section_mem _ section_eq with
    | mapping allowed => exact allowed (field, type) isField value found
  · cases found

theorem exists_sectionValue : ∃ entries,
    configuration.sectionValue "generate" = .mapping entries := by
  rw [sectionValue]
  split
  · next value section_eq =>
    have allowed := satisfied _ (by simp [Schema.sections]; exact Or.inl rfl) _ section_eq
    cases allowed with
    | null => exact ⟨[], rfl⟩
    | @mapping content _ =>
        split
        · exact ⟨content, rfl⟩
        · exact ⟨[], rfl⟩
  · exact ⟨[], rfl⟩

/-- A field of texts holds a text unless it is missing. -/
theorem fieldValue?_eq (isField : field ∈ ["name", "inputDir", "outputDir"]) :
    configuration.fieldValue? field = (configuration.setting? field).map .text := by
  have isText {value : Value}
      (found : (configuration.sectionEntries "generate").get? field = some value) :
      Schema.FieldType.text.Allows value := by
    refine allows_of_isSatisfied satisfied ?_ found
    simp only [List.mem_cons, List.not_mem_nil, or_false] at isField
    rcases isField with rfl | rfl | rfl <;> simp
  rw [fieldValue?, setting?]
  cases found : (configuration.sectionEntries "generate").get? field with
  | none => rfl
  | some value =>
      cases isText found with
      | null => rfl
      | text => rfl

theorem exists_of_fieldValue?_labels {value : Value}
    (found : configuration.fieldValue? "labels" = some value) :
    ∃ entries, value = .mapping entries := by
  rw [fieldValue?] at found
  split at found
  · cases found
  · next notNull =>
    have allowed : Schema.FieldType.texts.Allows value :=
      allows_of_isSatisfied satisfied (by simp) found
    cases allowed with
    | null => exact (notNull found).elim
    | texts _ => exact ⟨_, rfl⟩

theorem exists_of_mem_labels {entry : Value × Value} (isMember : entry ∈ configuration.labels) :
    ∃ key value, entry = (.text key, .text value) := by
  rw [labels] at isMember
  split at isMember
  · next entries found =>
    have allowed : Schema.FieldType.texts.Allows (.mapping entries) :=
      allows_of_isSatisfied satisfied (by simp) found
    cases allowed with
    | texts pairs => exact pairs entry isMember
  · cases isMember

end Configuration

/-! ## Labels that are texts -/

/-- Whether a label is a pair of texts. -/
def IsTextLabel (label : Value × Value) : Prop :=
  label.1.text?.isSome = true ∧ label.2.text?.isSome = true

namespace Entries

/-- Whether no two entries are under the same key. -/
def HaveDistinctKeys (entries : Entries) : Prop :=
  entries.Pairwise fun left right => left.1.sameKey right.1 = false

section Put

variable (isKey isValue : Value → Prop) {key value : Value} {entries more : Entries}

/-- The key that was put first stays, and the value is new. -/
theorem forall_mem_put (key_holds : isKey key) (value_holds : isValue value)
    (hold : ∀ entry ∈ entries, isKey entry.1 ∧ isValue entry.2) :
    ∀ entry ∈ put key value entries, isKey entry.1 ∧ isValue entry.2 := by
  induction entries with
  | nil => simpa [put] using ⟨key_holds, value_holds⟩
  | cons entry rest ih =>
      rw [List.forall_mem_cons] at hold
      rw [put]
      split
      · exact List.forall_mem_cons.mpr ⟨⟨hold.1.1, value_holds⟩, hold.2⟩
      · exact List.forall_mem_cons.mpr ⟨hold.1, ih hold.2⟩

theorem forall_mem_putAll (hold : ∀ entry ∈ entries, isKey entry.1 ∧ isValue entry.2)
    (more_hold : ∀ entry ∈ more, isKey entry.1 ∧ isValue entry.2) :
    ∀ entry ∈ putAll entries more, isKey entry.1 ∧ isValue entry.2 := by
  induction more generalizing entries with
  | nil => exact hold
  | cons entry rest ih =>
      rw [List.forall_mem_cons] at more_hold
      exact ih (forall_mem_put isKey isValue more_hold.1.1 more_hold.1.2 hold) more_hold.2

end Put

variable {key value : Value} {entries : Entries}

theorem HaveDistinctKeys.put (distinct : entries.HaveDistinctKeys) :
    (Entries.put key value entries).HaveDistinctKeys := by
  induction entries with
  | nil => exact List.pairwise_singleton _ _
  | cons entry rest ih =>
      rcases entry with ⟨other, old⟩
      rcases List.pairwise_cons.mp distinct with ⟨differ, rest_distinct⟩
      rw [Entries.put]
      split
      · exact List.pairwise_cons.mpr ⟨differ, rest_distinct⟩
      · next differs =>
        refine List.pairwise_cons.mpr ⟨?_, ih rest_distinct⟩
        have differ_all : ∀ entry ∈ Entries.put key value rest,
            other.sameKey entry.1 = false ∧ True := by
          apply forall_mem_put (fun key => other.sameKey key = false) (fun _ => True)
          · exact Bool.eq_false_iff.mpr differs
          · trivial
          · exact fun entry isMember => ⟨differ entry isMember, trivial⟩
        exact fun entry isMember => (differ_all entry isMember).1

theorem HaveDistinctKeys.putAll (distinct : entries.HaveDistinctKeys) (more : Entries) :
    (Entries.putAll entries more).HaveDistinctKeys := by
  induction more generalizing entries with
  | nil => exact distinct
  | cons entry rest ih => exact ih distinct.put

/-- The entries of a mapping are looked up under keys that differ. -/
theorem haveDistinctKeys_opened (entries : Entries) : (opened entries).HaveDistinctKeys := by
  have settled_distinct : (settled entries).HaveDistinctKeys :=
    HaveDistinctKeys.putAll List.Pairwise.nil _
  rw [opened, outward, HaveDistinctKeys, List.pairwise_map]
  exact settled_distinct

end Entries

theorem Configuration.haveDistinctKeys_labels {configuration : Configuration} :
    configuration.labels.HaveDistinctKeys := by
  rw [labels]
  split
  · exact Entries.haveDistinctKeys_opened _
  · exact List.Pairwise.nil

theorem Options.checkLabels_eq_ok_iff {options : Options} :
    options.checkLabels = .ok () ↔ ∀ label ∈ options.labels, IsTextLabel label := by
  have wrongLabel?_eq_none_iff : wrongLabel? options.labels = none ↔
      ∀ label ∈ options.labels, IsTextLabel label := by
    simp [wrongLabel?, IsTextLabel, Option.isSome_iff_ne_none]
  rw [← wrongLabel?_eq_none_iff, checkLabels]
  cases wrongLabel? options.labels <;> simp

theorem Options.isTextLabel_of_check {options : Options} {tree : FileTree}
    (checked : options.check tree = .ok ()) : ∀ label ∈ options.labels, IsTextLabel label := by
  simp only [check, Except.check_bind_eq_ok_iff, checkLabels_eq_ok_iff] at checked
  exact checked.2.2.2

theorem Options.check_ne_labelType {options : Options} {tree : FileTree} {key value : Value}
    (texts : ∀ label ∈ options.labels, IsTextLabel label) :
    options.check tree ≠ .error (.labelType key value) := by
  intro failed
  unfold check at failed
  rw [checkLabels_eq_ok_iff.mpr texts] at failed
  unfold checkName checkInputDirectory checkOutputDirectory at failed
  simp only [bind, Except.bind] at failed
  cases input : tree.directoryFault? options.inputDirectory <;>
    cases output : tree.directoryFault? options.outputDirectory <;>
      by_cases blank : (Text.trim options.name.toList).isEmpty <;>
        simp [input, output, blank] at failed

/-! ## Options that are resolved -/

/-- The options of a run, before it is known that they are texts. -/
structure OptionValues where
  name : Value
  inputDirectory : Value
  outputDirectory : Value
  labels : Entries

/-- Options as values. -/
def Options.values (options : Options) : OptionValues where
  name := .text options.name
  inputDirectory := .text options.inputDirectory
  outputDirectory := .text options.outputDirectory
  labels := options.labels

namespace GivenOptions

/-- The options of a run, where every value of the configuration is taken as it is. -/
def values (given : GivenOptions) (configuration : Configuration) (environment : Environment) :
    Except Failure OptionValues := do
  let defaults ← environment.defaults
  let pick (given : Option String) (field default : String) : Value :=
    (given.map Value.text <|> configuration.fieldValue? field).getD (.text default)
  return {
    name := pick given.name "name" defaults.name
    inputDirectory := pick given.inputDirectory "inputDir" defaults.inputDirectory
    outputDirectory := pick given.outputDirectory "outputDir" defaults.outputDirectory
    labels := Entries.putAll configuration.labels given.labels }

variable {given : GivenOptions} {configuration : Configuration} {environment : Environment}

/-- A configuration of the right form gives texts, so no value is lost when options are resolved. -/
theorem values_eq_map_resolve (satisfied : Schema.IsSatisfied configuration.data) :
    given.values configuration environment =
      (given.resolve configuration environment).map Options.values := by
  have pick_eq {field : String} (first : Option String) (default : String)
      (isField : field ∈ ["name", "inputDir", "outputDir"]) :
      (first.map Value.text <|> configuration.fieldValue? field).getD (.text default) =
        .text ((first <|> configuration.setting? field).getD default) := by
    rw [configuration.fieldValue?_eq satisfied isField]
    cases first with
    | some text => rfl
    | none => cases configuration.setting? field <;> rfl
  rw [values, resolve]
  cases environment.defaults with
  | error failure => rfl
  | ok defaults =>
      simp only [bind, Except.bind, pick_eq _ _ (show "name" ∈ _ by simp),
        pick_eq _ _ (show "inputDir" ∈ _ by simp), pick_eq _ _ (show "outputDir" ∈ _ by simp)]
      rfl

theorem isTextLabel_of_resolve {options : Options}
    (satisfied : Schema.IsSatisfied configuration.data)
    (given_texts : ∀ label ∈ given.labels, IsTextLabel label)
    (resolved : given.resolve configuration environment = .ok options) :
    ∀ label ∈ options.labels, IsTextLabel label := by
  rw [resolve, Except.bind_eq_ok_iff] at resolved
  rcases resolved with ⟨defaults, _, options_eq⟩
  cases options_eq
  refine Entries.forall_mem_putAll (fun key => key.text?.isSome = true)
    (fun value => value.text?.isSome = true) ?_ given_texts
  intro label isMember
  rcases configuration.exists_of_mem_labels satisfied isMember with ⟨key, value, rfl⟩
  exact ⟨rfl, rfl⟩

/-- After any loads the configuration is what the last successful one has read, its form is right,
and the options that are resolved from it are texts. -/
theorem resolve_afterLoads (loads : List (FileTree × String)) (given : GivenOptions)
    (environment : Environment) (given_texts : ∀ label ∈ given.labels, IsTextLabel label) :
    let configuration := Configuration.afterLoads loads
    configuration.IsLastOf loads ∧ Schema.IsSatisfied configuration.data ∧
      (∃ entries, configuration.sectionValue "generate" = .mapping entries) ∧
      (∀ value, configuration.fieldValue? "labels" = some value →
        ∃ entries, value = .mapping entries) ∧
      given.values configuration environment =
        (given.resolve configuration environment).map Options.values ∧
      ∀ options, given.resolve configuration environment = .ok options →
        (∀ label ∈ options.labels, IsTextLabel label) ∧
          ∀ tree key value, options.check tree ≠ .error (.labelType key value) := by
  intro configuration
  have isLast : Configuration.IsLastOf loads configuration :=
    Configuration.isLastOf_afterLoads loads
  have satisfied : Schema.IsSatisfied configuration.data := isLast.isSatisfied
  refine ⟨isLast, satisfied, configuration.exists_sectionValue satisfied, ?_,
    values_eq_map_resolve satisfied, ?_⟩
  · exact fun value => configuration.exists_of_fieldValue?_labels satisfied
  · intro options resolved
    have texts := isTextLabel_of_resolve satisfied given_texts resolved
    exact ⟨texts, fun tree key value => options.check_ne_labelType texts⟩

/-- A tree of files that holds a configuration. -/
def treeWith (configuration : String) : FileTree where
  root := .directory [("rbac.yaml", .file (Text.encode configuration.toList))]
  working := []

/-- Loads of a file of the right form, of the same file when its name is a number, and of a file
that is missing. -/
def changingLoads : List (FileTree × String) :=
  [(treeWith "generate: \x7bname: operator, labels: \x7bapp: rbac\x7d\x7d", "rbac.yaml"),
    (treeWith "generate: \x7bname: 1\x7d", "./rbac.yaml"), (treeWith "", "missing.yaml")]

theorem resolve_afterLoads_changingLoads :
    (∀ label ∈ [(Value.text "tier", Value.text "backend")], IsTextLabel label) ∧
      ∃ options,
        ({ labels := [(.text "tier", .text "backend")] } : GivenOptions).resolve
            (Configuration.afterLoads changingLoads) [] = .ok options ∧
          options.name = "operator" ∧ options.labels.length = 2 ∧
          (Configuration.afterLoads changingLoads).IsLastOf changingLoads ∧
          Schema.IsSatisfied (Configuration.afterLoads changingLoads).data ∧
          (∀ label ∈ options.labels, IsTextLabel label) ∧
          ∀ tree key value, options.check tree ≠ .error (.labelType key value) := by
  have given_texts : ∀ label ∈ [(Value.text "tier", Value.text "backend")], IsTextLabel label := by
    simp [IsTextLabel, Value.text?]
  have resolved_name :
      (({ labels := [(.text "tier", .text "backend")] } : GivenOptions).resolve
        (Configuration.afterLoads changingLoads) []).toOption.map
          (fun options => (options.name, options.labels.length)) = some ("operator", 2) := by
    decide +kernel
  rcases resolve_afterLoads changingLoads { labels := [(.text "tier", .text "backend")] } []
    given_texts with ⟨isLast, satisfied, _, _, _, texts⟩
  refine ⟨given_texts, ?_⟩
  cases resolved : ({ labels := [(.text "tier", .text "backend")] } : GivenOptions).resolve
      (Configuration.afterLoads changingLoads) [] with
  | error failure => simp [resolved, Except.toOption] at resolved_name
  | ok options =>
      simp only [resolved, Except.toOption, Option.map_some, Option.some.injEq,
        Prod.mk.injEq] at resolved_name
      rcases texts options resolved with ⟨labels_texts, check_ne⟩
      exact ⟨options, rfl, resolved_name.1, resolved_name.2, isLast, satisfied, labels_texts,
        check_ne⟩

end GivenOptions

end RbacManifest
