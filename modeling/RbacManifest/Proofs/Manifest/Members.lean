import RbacManifest.Number.Numeral
import RbacManifest.Proofs.First
import RbacManifest.Proofs.Manifest

/-!
# Checks of the members of values

A resource is rendered in two stages: its values are turned into data, and the data is written.
Both stages go through a value member by member. What follows from this alone for the manifest of a
role is shown once, in `Value.ChecksMembers.passes_role_iff`, and the stages are instances of
`Value.ChecksMembers`.
-/

namespace RbacManifest

namespace Value

/-- Whether a value has no members. An integer has no more decimal digits than a numeral may
have. -/
inductive IsSingle : Value → Prop
  | null : IsSingle null
  | bool (value : Bool) : IsSingle (bool value)
  | int {value : Int} (short : value.natAbs < 10 ^ Numeral.mostDigits) : IsSingle (int value)
  | float (value : Binary64) : IsSingle (float value)
  | text (value : String) : IsSingle (text value)
  | kind (value : ResourceKind) : IsSingle (kind value)
  | object : IsSingle object

/-- Whether a value has no written form. -/
inductive IsUnwritable : Value → Prop
  | kind (value : ResourceKind) : IsUnwritable (kind value)
  | object : IsUnwritable object

/-- Whether a single value passes a check unless it is wrong, and a collection passes it if all of
its members do, and with them the keys of a mapping if they count. -/
structure ChecksMembers (wrong : Value → Prop) (keysCount : Bool) (passes : Value → Prop) :
    Prop where
  isUnwritable {value : Value} (isWrong : wrong value) : value.IsUnwritable
  single_iff {value : Value} (isSingle : value.IsSingle) : passes value ↔ ¬wrong value
  list_iff {items : List Value} : passes (list items) ↔ ∀ item ∈ items, passes item
  mapping_iff {entries : Entries} : passes (mapping entries) ↔
    ∀ entry ∈ entries, (keysCount = true → passes entry.1) ∧ passes entry.2

namespace ChecksMembers

open Manifest

variable {wrong passes : Value → Prop} {keysCount : Bool}
  (checks : ChecksMembers wrong keysCount passes)
include checks

theorem passes_text {text : String} : passes (.text text) := by
  rw [checks.single_iff (.text text)]
  intro isWrong
  cases checks.isUnwritable isWrong

theorem passes_null : passes .null := by
  rw [checks.single_iff .null]
  intro isWrong
  cases checks.isUnwritable isWrong

theorem passes_fields_iff {pairs : List (String × Value)} :
    passes (fields pairs) ↔ ∀ pair ∈ pairs, passes pair.2 := by
  rw [fields, checks.mapping_iff, List.forall_mem_map]
  constructor
  · intro passed pair isPair
    cases isNull : pair.2 with
    | null => exact checks.passes_null
    | _ =>
      rw [← isNull]
      exact (passed pair (List.mem_filter.mpr ⟨isPair, by simp [isNull]⟩)).2
  · intro passed pair isPair
    exact ⟨fun _ => checks.passes_text, passed pair (List.mem_of_mem_filter isPair)⟩

theorem passes_texts {values : List String} : passes (texts values) := by
  rw [texts, checks.list_iff, List.forall_mem_map]
  intro value _
  exact checks.passes_text

theorem passes_textsIfAny {values : List String} : passes (textsIfAny values) := by
  rw [textsIfAny]
  split
  · exact checks.passes_null
  · exact checks.passes_texts

theorem passes_ofRule {rule : Rule} : passes (ofRule rule) := by
  rw [ofRule, checks.passes_fields_iff]
  simp only [List.forall_mem_cons]
  exact ⟨checks.passes_textsIfAny, checks.passes_textsIfAny, checks.passes_textsIfAny,
    checks.passes_textsIfAny, checks.passes_texts, by simp⟩

theorem passes_metadata_iff {name : Value} {labels : Entries} :
    passes (metadata name labels) ↔ passes name ∧ passes (.mapping labels) := by
  have labels_iff :
      passes (if labels.isEmpty then .null else .mapping labels) ↔ passes (.mapping labels) := by
    split
    · next none =>
      rw [List.isEmpty_iff.mp none, checks.mapping_iff]
      simp [checks.passes_null]
    · exact Iff.rfl
  rw [metadata, checks.passes_fields_iff]
  simp only [List.forall_mem_cons, labels_iff]
  simp [and_comm]

/-- Everything else in the manifest of a role is made of texts. -/
theorem passes_role_iff {role : Role} {labels : Entries} :
    passes (fields (contentFields .clusterRole (roleContent role labels))) ↔
      passes role.name ∧ passes (.mapping labels) := by
  have rules_pass : passes (.list (role.rules.map ofRule)) := by
    rw [checks.list_iff, List.forall_mem_map]
    intro rule _
    exact checks.passes_ofRule
  rw [checks.passes_fields_iff]
  simp only [contentFields, roleContent, List.cons_append, List.nil_append, List.forall_mem_cons,
    checks.passes_text, checks.passes_metadata_iff, rules_pass]
  simp

end ChecksMembers

end Value

/-! ## The stages of rendering -/

namespace Manifest

variable {items : List Value} {entries : Entries}

/-- Whether a value stands in a manifest as it is. -/
def IsData (value : Value) : Prop :=
  data value = .ok value

theorem dataAll_eq_mapM : dataAll items = items.mapM data := by
  induction items with
  | nil => rfl
  | cons item rest ih =>
      rw [dataAll, ih, List.mapM_cons]

theorem dataEntries_eq_mapM :
    dataEntries entries = entries.mapM fun entry => (data entry.2).map (entry.1, ·) := by
  induction entries with
  | nil => rfl
  | cons entry rest ih =>
      rw [dataEntries, ih, List.mapM_cons]
      cases data entry.2 <;> rfl

theorem dataAll_eq_self_iff : dataAll items = .ok items ↔ ∀ item ∈ items, IsData item := by
  constructor
  · intro kept
    induction items with
    | nil => simp
    | cons item rest ih =>
        rw [dataAll] at kept
        rcases Except.bind_eq_ok_iff.mp kept with ⟨first, first_eq, rest_kept⟩
        rcases Except.bind_eq_ok_iff.mp rest_kept with ⟨others, others_eq, cons_eq⟩
        cases cons_eq
        exact List.forall_mem_cons.mpr ⟨first_eq, ih others_eq⟩
  · exact dataAll_of_forall

theorem dataEntries_eq_self_iff :
    dataEntries entries = .ok entries ↔ ∀ entry ∈ entries, IsData entry.2 := by
  constructor
  · intro kept
    induction entries with
    | nil => simp
    | cons entry rest ih =>
        rcases entry with ⟨key, value⟩
        rw [dataEntries] at kept
        rcases Except.bind_eq_ok_iff.mp kept with ⟨first, first_eq, rest_kept⟩
        rcases Except.bind_eq_ok_iff.mp rest_kept with ⟨others, others_eq, cons_eq⟩
        cases cons_eq
        exact List.forall_mem_cons.mpr ⟨first_eq, ih others_eq⟩
  · exact dataEntries_of_forall

theorem checksMembers_data :
    Value.ChecksMembers (· = .object) false fun value => ∃ result, data value = .ok result where
  isUnwritable := by
    rintro value rfl
    exact .object
  single_iff isSingle := by
    cases isSingle <;> simp [data]
  list_iff := by
    intro items
    rw [data, Except.exists_map_iff, dataAll_eq_mapM, Except.exists_mapM_iff]
  mapping_iff := by
    intro entries
    simp only [Bool.false_eq_true, false_implies, true_and]
    rw [data, Except.exists_map_iff, dataEntries_eq_mapM, Except.exists_mapM_iff]
    simp only [Except.exists_map_iff]

theorem checksMembers_isData : Value.ChecksMembers (· = .object) false IsData where
  isUnwritable := by
    rintro value rfl
    exact .object
  single_iff isSingle := by
    cases isSingle <;> simp [IsData, data]
  list_iff := by
    intro items
    rw [← dataAll_eq_self_iff, IsData, data]
    cases dataAll items <;> simp [Except.map]
  mapping_iff := by
    intro entries
    simp only [Bool.false_eq_true, false_implies, true_and]
    rw [← dataEntries_eq_self_iff, IsData, data]
    cases dataEntries entries <;> simp [Except.map]

theorem exists_document_iff {manifest : Value} : (∃ text, document manifest = .ok text) ↔
    ∃ node, Yaml.Node.ofValue manifest = .ok node := by
  rw [document]
  cases Yaml.Node.ofValue manifest with
  | error value => simp
  | ok node => cases node <;> simp

end Manifest

namespace Yaml

namespace Node

theorem Writing.all_eq_mapM {α : Type} {writings : List (Writing α)} :
    all writings = writings.mapM id := by
  induction writings with
  | nil => rfl
  | cons writing rest ih =>
      rw [all, ih, List.mapM_cons]
      rfl

theorem Writing.exists_all_iff {α : Type} {writings : List (Writing α)} :
    (∃ written, all writings = .ok written) ↔ ∀ writing ∈ writings, ∃ written,
      writing = .ok written := by
  rw [all_eq_mapM, Except.exists_mapM_iff]
  rfl

theorem exists_writeEntry_iff {entry : Value × Value} :
    (∃ nodes, writeEntry entry = .ok nodes) ↔
      (∃ node, ofValue entry.1 = .ok node) ∧ ∃ node, ofValue entry.2 = .ok node := by
  rw [writeEntry]
  cases ofValue entry.1 <;> cases ofValue entry.2 <;> simp [bind, Except.bind, pure, Except.pure]

theorem checksMembers_ofValue :
    Value.ChecksMembers Value.IsUnwritable true fun value => ∃ node, ofValue value = .ok node where
  isUnwritable := id
  single_iff isSingle := by
    cases isSingle with
    | kind value => simp [ofValue, Value.IsUnwritable.kind]
    | object => simp [ofValue, Value.IsUnwritable.object]
    | _ =>
        simp only [ofValue, Except.ok.injEq, exists_eq', true_iff]
        rintro ⟨⟩
  list_iff := by
    intro items
    rw [ofValue, ofValues_eq, Except.exists_map_iff, Writing.exists_all_iff, List.forall_mem_map]
  mapping_iff := by
    intro entries
    have sameMembers (writing : Value × Writing (Node × Node)) :
        writing ∈ Entries.sorted (ofPairs entries) ↔ writing ∈ ofPairs entries :=
      (Entries.perm_sorted _).mem_iff.symm
    rw [ofValue, Except.exists_map_iff, Writing.exists_all_iff, List.forall_mem_map]
    simp only [sameMembers]
    rw [ofPairs_eq, List.forall_mem_map]
    simp only [exists_writeEntry_iff, forall_const]

end Node

end Yaml

end RbacManifest
