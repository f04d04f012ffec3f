import Mathlib.Data.Nat.Digits.Lemmas
import RbacManifest.Proofs.Configuration
import RbacManifest.Proofs.FailureKind
import RbacManifest.Proofs.First
import RbacManifest.Proofs.Text.Utf8
import RbacManifest.Proofs.Yaml.Evaluated

/-!
# The first part of a configuration that has the wrong type

The parts of a configuration that must have a type are listed here in a fixed order, each by the row
of keys that leads to it, so that the order of the keys in the document does not count. A
configuration is loaded exactly if none of its parts is violated, and otherwise the first violated
part is named: `Configuration.load_ofDocument`. The exception is an entry whose key is a number with
too many digits to be written.
-/

namespace RbacManifest

namespace Schema

/-- A type that a part of a configuration must have. -/
inductive PartType
  | mapping
  | text
  | truthValue

/-- The name of a type in messages. -/
def PartType.name : PartType → String
  | mapping => "dict"
  | text => "str"
  | truthValue => "bool"

/-- Whether a value is of a type. -/
inductive PartType.Has : PartType → Value → Prop
  | mapping {entries : Entries} : Has mapping (.mapping entries)
  | text {value : String} : Has text (.text value)
  | truthValue {value : Bool} : Has truthValue (.bool value)

/-- A part of a configuration. -/
inductive Part
  /-- What a row of keys leads to. -/
  | field (keys : List String) (type : PartType)
  /-- An entry of the mapping that a row of keys leads to. -/
  | entry (keys : List String) (key value : Value)

/-- How messages name what a row of keys leads to. -/
def place (keys : List String) : String :=
  ".".intercalate keys

/-- The entries of the mapping that a row of keys leads to. -/
def entriesAt (entries : Entries) (keys : List String) : Entries :=
  match Configuration.valueAt? (.mapping entries) keys with
  | some (.mapping content) => Entries.opened content
  | _ => []

/-- The parts of a configuration that must have a type, in the order in which they are checked. The
labels come in the order of the document. -/
def parts (entries : Entries) : List Part :=
  [.field ["generate"] .mapping, .field ["generate", "name"] .text,
    .field ["generate", "inputDir"] .text, .field ["generate", "outputDir"] .text,
    .field ["generate", "labels"] .mapping] ++
  (entriesAt entries ["generate", "labels"]).map
    (fun label => .entry ["generate", "labels"] label.1 label.2) ++
  [.field ["global"] .mapping, .field ["global", "debug"] .truthValue]

namespace Part

/-- Whether a part of a configuration is not as it must be. What is missing or null is not
violated. -/
inductive IsViolated (entries : Entries) : Part → Prop
  | field {keys : List String} {type : PartType} {value : Value}
      (found : Configuration.valueAt? (.mapping entries) keys = some value)
      (isGiven : value ≠ .null) (differs : ¬type.Has value) : IsViolated entries (.field keys type)
  | entry {keys : List String} {key value : Value}
      (differs : ¬∃ text other, key = .text text ∧ value = .text other) :
      IsViolated entries (.entry keys key value)

/-- What is said about a violated part. -/
def message : Part → String
  | field keys type => s!"{place keys} must be a {type.name}"
  | entry keys key _ => s!"{place keys}.{key.display} must be a {PartType.text.name}"

/-- Whether a part is an entry whose key is a number with too many digits. -/
def HasLongKey : Part → Prop
  | entry _ (.int number) _ => Numeral.mostDigits < (Nat.digits 10 number.natAbs).length
  | _ => False

/-- Why a configuration with a violated part cannot be loaded. -/
def failure : Part → Failure
  | field keys type => .configurationType (place keys) type.name
  | entry keys key _ => entryFailure (place keys) key

variable {entries : Entries} {keys : List String} {type : PartType} {key value : Value}

theorem isViolated_field_iff
    (found : Configuration.valueAt? (.mapping entries) keys = some value) :
    IsViolated entries (.field keys type) ↔ value ≠ .null ∧ ¬type.Has value := by
  constructor
  · intro violated
    cases violated with
    | field other_found isGiven differs =>
        cases found.symm.trans other_found
        exact ⟨isGiven, differs⟩
  · rintro ⟨isGiven, differs⟩
    exact .field found isGiven differs

theorem not_isViolated_of_missing
    (missing : Configuration.valueAt? (.mapping entries) keys = none) :
    ¬IsViolated entries (.field keys type) := by
  intro violated
  cases violated with
  | field found _ _ => cases missing.symm.trans found

theorem isTooLong_iff {number : Int} :
    isTooLong (.int number) = true ↔
      Numeral.mostDigits < (Nat.digits 10 number.natAbs).length := by
  simp only [isTooLong, decide_eq_true_eq]
  -- The greatest number of digits stays a variable, or the power would be computed.
  generalize Numeral.mostDigits = digits
  exact (Nat.lt_digits_length_iff (by decide) number.natAbs).symm

theorem failure_of_not_hasLongKey {part : Part} (short : ¬part.HasLongKey) :
    part.failure.kind = .configuration ∧ part.failure.message = part.message := by
  cases part with
  | field keys type => exact ⟨rfl, rfl⟩
  | entry keys key value =>
      have notTooLong : isTooLong key = false := by
        cases key with
        | int number => exact Bool.eq_false_iff.mpr fun isLong => short (isTooLong_iff.mp isLong)
        | _ => rfl
      rw [failure, entryFailure, notTooLong, if_neg Bool.false_ne_true]
      exact ⟨rfl, rfl⟩

theorem failure_of_hasLongKey {part : Part} (isLong : part.HasLongKey) :
    part.failure = .configurationValue (.longInteger none) := by
  cases part with
  | field keys type => exact isLong.elim
  | entry keys key value =>
      cases key with
      | int number =>
          rw [failure, entryFailure, isTooLong_iff.mpr isLong]
          rfl
      | _ => exact isLong.elim

end Part

/-! ## What each check reports -/

/-- The parts that a field of a type stands for: a mapping of texts has parts of its own. -/
def fieldParts (entries : Entries) (keys : List String) : FieldType → List Part
  | .text => [.field keys .text]
  | .truthValue => [.field keys .truthValue]
  | .texts =>
      .field keys .mapping ::
        (entriesAt entries keys).map fun entry => .entry keys entry.1 entry.2

/-- The parts that a section stands for. -/
def sectionParts (entries : Entries) (part : String × List (String × FieldType)) : List Part :=
  .field [part.1] .mapping ::
    part.2.flatMap fun field => fieldParts entries [part.1, field.1] field.2

theorem parts_eq (entries : Entries) : parts entries = sections.flatMap (sectionParts entries) := by
  simp [parts, sections, sectionParts, fieldParts]

/-- Whether a check fails because of the first violated one of some parts of a configuration. -/
abbrev Reports (entries : Entries) : List Part → Except Failure Unit → Prop :=
  ReportsFirst (Part.IsViolated entries) Part.failure

variable {entries content : Entries} {keys : List String} {value : Value} {name : String}

theorem reports_checkTexts {labels : Entries} :
    Reports entries (labels.map fun label => .entry keys label.1 label.2)
      (checkTexts (place keys) labels) := by
  induction labels with
  | nil => exact .of_forall_not (by simp)
  | cons label rest ih =>
      rcases label with ⟨key, value⟩
      rw [List.map_cons, checkTexts.eq_def]
      dsimp only
      split
      · apply ReportsFirst.cons
        · intro violated
          cases violated with
          | entry differs => exact differs ⟨_, _, rfl, rfl⟩
        · exact ih
      · next notTexts =>
        apply ReportsFirst.of_holds
        apply Part.IsViolated.entry
        rintro ⟨text, other, rfl, rfl⟩
        exact notTexts text other rfl rfl

theorem reports_checkField {type : FieldType}
    (found : Configuration.valueAt? (.mapping entries) keys = some value) :
    Reports entries (fieldParts entries keys type) (checkField (place keys) type value) := by
  have passes {type : PartType} (has : type.Has value) :
      ¬Part.IsViolated entries (.field keys type) := by
    rw [Part.isViolated_field_iff found]
    exact fun violated => violated.2 has
  have fails {type : PartType} (isGiven : value ≠ .null) (differs : ¬type.Has value) :
      Part.IsViolated entries (.field keys type) :=
    .field found isGiven differs
  rw [checkField.eq_def]
  split
  · have absent {type : PartType} : ¬Part.IsViolated entries (.field keys type) := by
      rw [Part.isViolated_field_iff found]
      exact fun violated => violated.1 rfl
    apply ReportsFirst.of_forall_not
    cases type <;> simp [fieldParts, entriesAt, found, absent]
  · exact .of_forall_not (by simpa [fieldParts] using passes .text)
  · next notNull notText =>
    exact .of_holds (fails notNull (by rintro ⟨⟩; exact notText _ rfl))
  · exact .of_forall_not (by simpa [fieldParts] using passes .truthValue)
  · next notNull notBool =>
    exact .of_holds (fails notNull (by rintro ⟨⟩; exact notBool _ rfl))
  · next labels =>
    rw [fieldParts, entriesAt, found]
    exact .cons (passes .mapping) reports_checkTexts
  · next notNull notMapping =>
    exact .of_holds (fails notNull (by rintro ⟨⟩; exact notMapping _ rfl))

theorem not_isViolated_fieldParts {type : FieldType}
    (missing : Configuration.valueAt? (.mapping entries) keys = none) :
    ∀ part ∈ fieldParts entries keys type, ¬part.IsViolated entries := by
  have absent {type : PartType} : ¬Part.IsViolated entries (.field keys type) :=
    Part.not_isViolated_of_missing missing
  cases type <;> simp [fieldParts, entriesAt, missing, absent]

theorem reports_checkFields {fields : List (String × FieldType)}
    (found : Configuration.valueAt? (.mapping entries) [name] = some (.mapping content)) :
    Reports entries (fields.flatMap fun field => fieldParts entries [name, field.1] field.2)
      (checkFields name (Entries.opened content) fields) := by
  induction fields with
  | nil => exact .of_forall_not (by simp)
  | cons field rest ih =>
      rcases field with ⟨fieldName, type⟩
      rw [List.flatMap_cons, checkFields]
      have field_eq : Configuration.valueAt? (.mapping entries) [name, fieldName] =
          (Entries.opened content).get? fieldName := by
        rw [Configuration.valueAt?_of_section found, Configuration.valueAt?_singleton]
      cases field_found : (Entries.opened content).get? fieldName with
      | none =>
          rw [field_found] at field_eq
          exact .append (.of_forall_not (not_isViolated_fieldParts field_eq)) ih
      | some value =>
          rw [field_found] at field_eq
          exact .append (reports_checkField field_eq) ih

/-- Nothing inside a section is violated if the section is missing or null. -/
theorem not_isViolated_sectionParts {part : String × List (String × FieldType)}
    (missing : Configuration.valueAt? (.mapping entries) [part.1] = none ∨
      Configuration.valueAt? (.mapping entries) [part.1] = some .null) :
    ∀ member ∈ sectionParts entries part, ¬member.IsViolated entries := by
  have inside_missing (fieldName : String) :
      Configuration.valueAt? (.mapping entries) [part.1, fieldName] = none := by
    rcases missing with absent | isNull
    · exact Configuration.valueAt?_of_no_section absent
    · exact Configuration.valueAt?_of_section isNull
  intro member isMember
  rcases List.mem_cons.mp isMember with rfl | isInside
  · rcases missing with absent | isNull
    · exact Part.not_isViolated_of_missing absent
    · rw [Part.isViolated_field_iff isNull]
      exact fun violated => violated.1 rfl
  · rcases List.mem_flatMap.mp isInside with ⟨field, _, isMember_field⟩
    exact not_isViolated_fieldParts (inside_missing field.1) member isMember_field

theorem reports_checkSections {sections : List (String × List (String × FieldType))} :
    Reports entries (sections.flatMap (sectionParts entries))
      (checkSections (Entries.opened entries) sections) := by
  induction sections with
  | nil => exact .of_forall_not (by simp)
  | cons part rest ih =>
      rcases part with ⟨name, fields⟩
      rw [List.flatMap_cons, checkSections]
      have section_eq : Configuration.valueAt? (.mapping entries) [name] = _ :=
        Configuration.valueAt?_singleton
      split
      · next missing =>
        rw [missing] at section_eq
        exact .append (.of_forall_not (not_isViolated_sectionParts (.inl section_eq))) ih
      · next isNull =>
        rw [isNull] at section_eq
        exact .append (.of_forall_not (not_isViolated_sectionParts (.inr section_eq))) ih
      · next content found =>
        rw [found] at section_eq
        apply ReportsFirst.append
        · apply ReportsFirst.cons
          · rw [Part.isViolated_field_iff section_eq]
            exact fun violated => violated.2 .mapping
          · exact reports_checkFields section_eq
        · exact ih
      · next value notNull notMapping found =>
        rw [found] at section_eq
        apply ReportsFirst.of_holds
        rw [Part.isViolated_field_iff section_eq]
        exact ⟨notNull, by rintro ⟨⟩; exact notMapping _ rfl⟩

theorem reports_check : Reports entries (parts entries) (check entries) := by
  rw [parts_eq]
  exact reports_checkSections

/-- The form is satisfied exactly if no part violates it. -/
theorem isSatisfied_iff_forall_parts :
    IsSatisfied entries ↔ ∀ part ∈ parts entries, ¬part.IsViolated entries := by
  rw [← check_eq_ok_iff]
  exact reports_check.eq_ok_iff

end Schema

/-! ## Loading -/

namespace Configuration

variable {tree : FileTree} {path : String}

/-- What a document holds for a configuration: without anything given it is a mapping without
entries. -/
def content (document : Value) : Value :=
  if document.isGiven then document else .mapping []

/-- The entries of a configuration are those of its document. -/
theorem parse_eq {text : List Char} {document : Value}
    (document_eq : Yaml.load text = .ok document) :
    parse path text =
      match content document with
      | .mapping entries => .ok entries
      | _ => .error .configurationNoMapping := by
  rw [parse.eq_def, document_eq, content]
  by_cases isGiven : document.isGiven = true
  · rw [if_pos isGiven]
    cases document <;> simp [isGiven]
  · rw [if_neg isGiven]
    cases document with
    | mapping entries =>
        cases entries with
        | nil => rfl
        | cons entry rest => exact absurd rfl isGiven
    | _ => simp [isGiven]

section Load

theorem outcome_load {text : List Char} (text_eq : Configuration.text tree path = .ok text) :
    (load tree path).outcome = (do
      let data ← parse path text
      Schema.check data
      return { data, path := some path }) := by
  simp only [load, Logged.outcome_bind, Logged.outcome_of, Logged.outcome_record,
    Logged.outcome_pure, text_eq]
  rfl

variable {text : List Char} {document : Value} {entries : Entries}
  (text_eq : Configuration.text tree path = .ok text) (document_eq : Yaml.load text = .ok document)
include text_eq document_eq

theorem outcome_load_of_mapping (content_eq : content document = .mapping entries) :
    (load tree path).outcome = (do
      Schema.check entries
      return { data := entries, path := some path }) := by
  have parsed : parse path text = .ok entries := by rw [parse_eq document_eq, content_eq]
  rw [outcome_load text_eq, parsed]
  rfl

theorem outcome_load_of_noMapping (noMapping : ∀ entries, content document ≠ .mapping entries) :
    (load tree path).outcome = .error .configurationNoMapping := by
  have rejected : parse path text = .error .configurationNoMapping := by
    rw [parse_eq document_eq]
    split
    · next entries content_eq => exact absurd content_eq (noMapping entries)
    · rfl
  rw [outcome_load text_eq, rejected]
  rfl

/-- A document is loaded as a configuration exactly if it is a mapping, or nothing is given in it,
and none of its parts is violated. Otherwise the first violated part is named, unless it is an entry
whose key is a number with too many digits to be written. -/
theorem load_ofDocument :
    (∀ configuration, (load tree path).outcome = .ok configuration ↔
      ∃ entries, content document = .mapping entries ∧
        (∀ part ∈ Schema.parts entries, ¬part.IsViolated entries) ∧
        configuration = { data := entries, path := some path }) ∧
      ((∀ entries, content document ≠ .mapping entries) →
        (load tree path).outcome = .error .configurationNoMapping) ∧
      ∀ entries part, content document = .mapping entries →
        IsFirst (Schema.Part.IsViolated entries) (Schema.parts entries) part →
          ∃ failure, (load tree path).outcome = .error failure ∧
            (¬part.HasLongKey → failure.kind = .configuration ∧ failure.message = part.message) ∧
            (part.HasLongKey → failure = .configurationValue (.longInteger none)) := by
  refine ⟨?_, outcome_load_of_noMapping text_eq document_eq, ?_⟩
  · intro configuration
    constructor
    · intro loaded
      cases content_eq : content document with
      | mapping entries =>
          rw [outcome_load_of_mapping text_eq document_eq content_eq,
            Except.check_bind_eq_ok_iff] at loaded
          rcases loaded with ⟨checked, configuration_eq⟩
          cases configuration_eq
          exact ⟨entries, rfl, Schema.reports_check.eq_ok_iff.mp checked, rfl⟩
      | _ =>
          rw [outcome_load_of_noMapping text_eq document_eq (by simp [content_eq])] at loaded
          cases loaded
    · rintro ⟨entries, content_eq, absent, rfl⟩
      rw [outcome_load_of_mapping text_eq document_eq content_eq,
        Schema.reports_check.passes absent]
      rfl
  · intro entries part content_eq isFirst
    refine ⟨part.failure, ?_, Schema.Part.failure_of_not_hasLongKey,
      Schema.Part.failure_of_hasLongKey⟩
    rw [outcome_load_of_mapping text_eq document_eq content_eq,
      Schema.reports_check.fails part isFirst]
    rfl

end Load

theorem text_treeWith (content : String) :
    Configuration.text (GivenOptions.treeWith content) "rbac.yaml" =
      .ok (Text.unifyLineEnds content.toList) := by
  have entry_eq : (GivenOptions.treeWith content).entry (Path.normalized "rbac.yaml") =
      .ok (.file (Text.encode content.toList)) := rfl
  unfold Configuration.text
  dsimp only
  rw [entry_eq]
  dsimp only
  rw [Text.decode_encode]

/-- A configuration with two wrong parts, where the section that is checked last comes first. -/
def reversedSections : String :=
  "global: 1\ngenerate:\n  name: 2\n"

theorem load_ofDocument_reversedSections :
    ∃ document,
      Configuration.text (GivenOptions.treeWith reversedSections) "rbac.yaml" =
          .ok (Text.unifyLineEnds reversedSections.toList) ∧
        Yaml.load (Text.unifyLineEnds reversedSections.toList) = .ok document ∧
        ∃ failure, (load (GivenOptions.treeWith reversedSections) "rbac.yaml").outcome =
            .error failure ∧
          failure.kind = .configuration ∧ failure.message = "generate.name must be a str" := by
  let entries : Entries :=
    [(.text "global", .int 1), (.text "generate", .mapping [(.text "name", .int 2)])]
  have document_eq : Yaml.load (Text.unifyLineEnds reversedSections.toList) =
      .ok (.mapping entries) := by
    apply Yaml.load_of_readsAs
    decide +kernel
  have section_eq : valueAt? (.mapping entries) ["generate"] =
      some (.mapping [(.text "name", .int 2)]) := rfl
  have name_eq : valueAt? (.mapping entries) ["generate", "name"] = some (.int 2) := rfl
  have isFirst : IsFirst (Schema.Part.IsViolated entries) (Schema.parts entries)
      (.field ["generate", "name"] .text) := by
    refine ⟨[.field ["generate"] .mapping], _, rfl, ?_, ?_⟩
    · rw [List.forall_mem_singleton, Schema.Part.isViolated_field_iff section_eq]
      exact fun violated => violated.2 .mapping
    · rw [Schema.Part.isViolated_field_iff name_eq]
      exact ⟨by rintro ⟨⟩, by rintro ⟨⟩⟩
  have text_eq := text_treeWith reversedSections
  rcases load_ofDocument text_eq document_eq with ⟨_, _, first_named⟩
  rcases first_named entries _ rfl isFirst with ⟨failure, failed, named, _⟩
  exact ⟨.mapping entries, text_eq, document_eq, failure, failed, named id⟩

end Configuration

namespace Schema

/-- A configuration with a label whose key is a number. -/
def numberLabel (number : Nat) : Entries :=
  [(.text "generate", .mapping [(.text "labels", .mapping [(.int number, .text "a")])])]

theorem isFirst_numberLabel (number : Nat) :
    IsFirst (Part.IsViolated (numberLabel number)) (parts (numberLabel number))
      (.entry ["generate", "labels"] (.int number) (.text "a")) := by
  have section_eq : Configuration.valueAt? (.mapping (numberLabel number)) ["generate"] =
      some (.mapping [(.text "labels", .mapping [(.int number, .text "a")])]) := rfl
  have labels_eq : Configuration.valueAt? (.mapping (numberLabel number)) ["generate", "labels"] =
      some (.mapping [(.int number, .text "a")]) := rfl
  have missing {field : String} (isField : field ∈ ["name", "inputDir", "outputDir"]) :
      Configuration.valueAt? (.mapping (numberLabel number)) ["generate", field] = none := by
    simp only [List.mem_cons, List.not_mem_nil, or_false] at isField
    rcases isField with rfl | rfl | rfl <;> rfl
  refine ⟨[.field ["generate"] .mapping, .field ["generate", "name"] .text,
    .field ["generate", "inputDir"] .text, .field ["generate", "outputDir"] .text,
    .field ["generate", "labels"] .mapping], _, rfl, ?_, .entry (by simp)⟩
  simp only [List.forall_mem_cons, Part.isViolated_field_iff section_eq,
    Part.isViolated_field_iff labels_eq]
  refine ⟨fun violated => violated.2 .mapping, Part.not_isViolated_of_missing (missing (by simp)),
    Part.not_isViolated_of_missing (missing (by simp)),
    Part.not_isViolated_of_missing (missing (by simp)), fun violated => violated.2 .mapping, ?_⟩
  simp

/-- A number with too many digits is not named. -/
theorem exists_check_numberLabel {number : Nat}
    (isLong : Numeral.mostDigits < (Nat.digits 10 number).length) :
    ∃ part, IsFirst (Part.IsViolated (numberLabel number)) (parts (numberLabel number)) part ∧
      ∃ failure, check (numberLabel number) = .error failure ∧ failure.errorName = "ValueError" ∧
        failure.message ≠ part.message := by
  have hasLongKey : Part.HasLongKey (.entry ["generate", "labels"] (.int number) (.text "a")) := by
    rw [Part.HasLongKey, Int.natAbs_natCast]
    exact isLong
  have isFirst := isFirst_numberLabel number
  refine ⟨_, isFirst, _, reports_check.fails _ isFirst, ?_⟩
  rw [Part.failure_of_hasLongKey hasLongKey]
  refine ⟨rfl, ?_⟩
  intro same
  have failure_start : (Failure.configurationValue (.longInteger none)).message.toList.head? =
      some 'E' := by
    decide +kernel
  have part_start :
      (Part.entry ["generate", "labels"] (.int number) (.text "a")).message.toList.head? =
        some 'g' := by
    simp only [Part.message, String.toList_append]
    rfl
  rw [same, part_start] at failure_start
  cases failure_start

end Schema

namespace Configuration

/-- The lines of a file with a label whose key is a hexadecimal number, a one with zeros behind
it. -/
def numberLabelText (zeros : Nat) : List Char :=
  "generate:\n  labels:\n    ? 0x1".toList ++ List.replicate zeros '0' ++ "\n    : a\n".toList

set_option maxRecDepth 20000 in
/-- The label is read as a number with more digits than can be written. -/
theorem load_numberLabelText :
    Yaml.load (Text.unifyLineEnds (numberLabelText 3600)) =
      .ok (.mapping (Schema.numberLabel (16 ^ 3600))) := by
  apply Yaml.load_of_readsAs
  decide +kernel

theorem load_numberLabel :
    ∃ entries part,
      Configuration.text (GivenOptions.treeWith (String.ofList (numberLabelText 3600)))
            "rbac.yaml" =
          .ok (Text.unifyLineEnds (numberLabelText 3600)) ∧
        Yaml.load (Text.unifyLineEnds (numberLabelText 3600)) = .ok (.mapping entries) ∧
        IsFirst (Schema.Part.IsViolated entries) (Schema.parts entries) part ∧
        ∃ failure,
          (load (GivenOptions.treeWith (String.ofList (numberLabelText 3600)))
              "rbac.yaml").outcome = .error failure ∧
            failure.errorName = "ValueError" ∧ failure.message ≠ part.message := by
  have text_eq := text_treeWith (String.ofList (numberLabelText 3600))
  rw [String.toList_ofList] at text_eq
  have isLong : Numeral.mostDigits < (Nat.digits 10 (16 ^ 3600)).length := by
    rw [Nat.lt_digits_length_iff (by decide)]
    decide +kernel
  rcases Schema.exists_check_numberLabel isLong with ⟨part, isFirst, failure, failed, named⟩
  refine ⟨_, part, text_eq, load_numberLabelText, isFirst, failure, ?_, named⟩
  rw [outcome_load_of_mapping text_eq load_numberLabelText rfl, failed]
  rfl

end Configuration

end RbacManifest
