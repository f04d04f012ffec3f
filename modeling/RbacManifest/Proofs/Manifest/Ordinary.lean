import RbacManifest.Proofs.Manifest.Members
import RbacManifest.Proofs.Plan
import RbacManifest.Proofs.Rendered

/-!
# Roles of ordinary values

A role may be named by any value and carry any labels. It has a manifest unless an object stands in
them as a value, and this can be written unless a kind or an object stands anywhere in them, be it
as the key of a mapping: `Role.rendersExactly`.
-/

namespace RbacManifest

namespace Value

/-- Whether a value is built from single values by lists and by mappings with single keys. -/
inductive IsOrdinary : Value → Prop
  | single {value : Value} (isSingle : value.IsSingle) : IsOrdinary value
  | list {items : List Value} (items_ordinary : ∀ item ∈ items, IsOrdinary item) :
      IsOrdinary (list items)
  | mapping {entries : Entries} (keys_single : ∀ entry ∈ entries, entry.1.IsSingle)
      (values_ordinary : ∀ entry ∈ entries, IsOrdinary entry.2) : IsOrdinary (mapping entries)

/-- Whether something wrong stands in a value: as this value itself, or inside of a member. The keys
of a mapping are looked into only if they count. -/
inductive Has (wrong : Value → Prop) (keysCount : Bool) : Value → Prop
  | here {value : Value} (isWrong : wrong value) : Has wrong keysCount value
  | item {items : List Value} {item : Value} (isItem : item ∈ items)
      (inside : Has wrong keysCount item) : Has wrong keysCount (list items)
  | key {entries : Entries} {entry : Value × Value} (isEntry : entry ∈ entries)
      (counts : keysCount = true) (inside : Has wrong keysCount entry.1) :
      Has wrong keysCount (mapping entries)
  | value {entries : Entries} {entry : Value × Value} (isEntry : entry ∈ entries)
      (inside : Has wrong keysCount entry.2) : Has wrong keysCount (mapping entries)

variable {wrong passes : Value → Prop} {keysCount : Bool} {value : Value} {items : List Value}
  {entries : Entries}

theorem Has.mono {other : Value → Prop} {otherKeys : Bool} (has : value.Has wrong keysCount)
    (weaker : ∀ value, wrong value → other value) (more : keysCount = true → otherKeys = true) :
    value.Has other otherKeys := by
  induction has with
  | here isWrong => exact .here (weaker _ isWrong)
  | item isItem _ ih => exact .item isItem ih
  | key isEntry counts _ ih => exact .key isEntry (more counts) ih
  | value isEntry _ ih => exact .value isEntry ih

theorem IsSingle.has_iff (isSingle : value.IsSingle) : value.Has wrong keysCount ↔ wrong value := by
  constructor
  · intro has
    cases has with
    | here isWrong => exact isWrong
    | item => cases isSingle
    | key => cases isSingle
    | value => cases isSingle
  · exact .here

theorem has_list_iff (notWrong : ¬wrong (list items)) :
    (list items).Has wrong keysCount ↔ ∃ item ∈ items, item.Has wrong keysCount := by
  constructor
  · intro has
    cases has with
    | here isWrong => exact absurd isWrong notWrong
    | item isItem inside => exact ⟨_, isItem, inside⟩
  · rintro ⟨item, isItem, inside⟩
    exact .item isItem inside

theorem has_mapping_iff (notWrong : ¬wrong (mapping entries)) :
    (mapping entries).Has wrong keysCount ↔ ∃ entry ∈ entries,
      (keysCount = true ∧ entry.1.Has wrong keysCount) ∨ entry.2.Has wrong keysCount := by
  constructor
  · intro has
    cases has with
    | here isWrong => exact absurd isWrong notWrong
    | key isEntry counts inside => exact ⟨_, isEntry, Or.inl ⟨counts, inside⟩⟩
    | value isEntry inside => exact ⟨_, isEntry, Or.inr inside⟩
  · rintro ⟨entry, isEntry, ⟨counts, inside⟩ | inside⟩
    · exact .key isEntry counts inside
    · exact .value isEntry inside

/-- An ordinary value passes unless something wrong stands in it. -/
theorem ChecksMembers.passes_iff (checks : ChecksMembers wrong keysCount passes)
    (ordinary : value.IsOrdinary) : passes value ↔ ¬value.Has wrong keysCount := by
  induction ordinary with
  | single isSingle => rw [checks.single_iff isSingle, isSingle.has_iff]
  | @list items _ ih =>
      have notWrong : ¬wrong (list items) := fun isWrong => nomatch checks.isUnwritable isWrong
      rw [checks.list_iff, has_list_iff notWrong]
      push Not
      exact forall₂_congr ih
  | @mapping entries keys_single _ ih =>
      have notWrong : ¬wrong (mapping entries) := fun isWrong => nomatch checks.isUnwritable isWrong
      rw [checks.mapping_iff, has_mapping_iff notWrong]
      push Not
      refine forall₂_congr fun entry isEntry => and_congr ?_ (ih entry isEntry)
      rw [checks.single_iff (keys_single entry isEntry), (keys_single entry isEntry).has_iff]

end Value

/-! ## Roles -/

namespace Role

open Manifest

/-- Whether something wrong stands in the name or in the labels of a role. -/
def Has (role : Role) (wrong : Value → Prop) (keysCount : Bool) : Prop :=
  role.name.Has wrong keysCount ∨ role.labels.Has wrong keysCount

/-- What decides whether a role has a manifest and whether this can be written, and how either
fails. The keys of mappings count only for what is written. -/
structure RendersExactly (role : Role) : Prop where
  manifest_iff : (∃ manifest, (Resource.ofRole role).manifest = .ok manifest) ↔
    ¬role.Has (· = .object) false
  render_iff : (∃ text, (Resource.ofRole role).render.outcome = .ok (Text.encode text)) ↔
    ¬role.Has Value.IsUnwritable true
  failsAs_manifest : FailsAs [.serialization] (Resource.ofRole role).manifest
  failsAs_render : FailsAs [.serialization] (Resource.ofRole role).render.outcome

variable {role : Role} {labels : Entries}

theorem Has.mono {wrong other : Value → Prop} {keysCount otherKeys : Bool}
    (has : role.Has wrong keysCount) (weaker : ∀ value, wrong value → other value)
    (more : keysCount = true → otherKeys = true) : role.Has other otherKeys :=
  has.imp (·.mono weaker more) (·.mono weaker more)

theorem manifest_eq_ok_iff {manifest : Value} (labels_eq : role.labels = .mapping labels) :
    (Resource.ofRole role).manifest = .ok manifest ↔
      data (fields (contentFields .clusterRole (roleContent role labels))) = .ok manifest := by
  rw [Resource.manifest, Except.mapError_eq_ok_iff, ofRole, labels_eq]
  rfl

/-- A role of ordinary values has a manifest unless an object stands in it as a value, and is
rendered unless a kind or an object stands in it anywhere. -/
theorem rendersExactly (labels_eq : role.labels = .mapping labels)
    (name_ordinary : role.name.IsOrdinary) (labels_ordinary : role.labels.IsOrdinary) :
    role.RendersExactly := by
  have passes_iff {wrong passes : Value → Prop} {keysCount : Bool}
      (checks : Value.ChecksMembers wrong keysCount passes) :
      passes (fields (contentFields .clusterRole (roleContent role labels))) ↔
        ¬role.Has wrong keysCount := by
    rw [checks.passes_role_iff, ← labels_eq, checks.passes_iff name_ordinary,
      checks.passes_iff labels_ordinary, Has, not_or]
  have isData_iff := passes_iff checksMembers_isData
  have manifest_iff : (∃ manifest, (Resource.ofRole role).manifest = .ok manifest) ↔
      ¬role.Has (· = .object) false := by
    simp only [manifest_eq_ok_iff labels_eq]
    exact passes_iff checksMembers_data
  have document_iff : (∃ text, document (fields (contentFields .clusterRole
      (roleContent role labels))) = .ok text) ↔ ¬role.Has Value.IsUnwritable true :=
    exists_document_iff.trans (passes_iff Yaml.Node.checksMembers_ofValue)
  refine ⟨manifest_iff, ⟨?_, ?_⟩, ?_, Resource.failsAs_render⟩
  · rintro ⟨_, rendered⟩
    rcases Resource.exists_document_of_render rendered with
      ⟨manifest, text, manifest_eq, document_eq, _⟩
    have isData := isData_iff.mpr (manifest_iff.mp ⟨manifest, manifest_eq⟩)
    rw [manifest_eq_ok_iff labels_eq, isData] at manifest_eq
    cases manifest_eq
    exact document_iff.mp ⟨text, document_eq⟩
  · intro writable
    have noObject : ¬role.Has (· = .object) false := by
      intro has
      apply writable
      apply has.mono _ (by simp)
      rintro value rfl
      exact .object
    have manifest_eq := (manifest_eq_ok_iff labels_eq).mpr (isData_iff.mpr noObject)
    rcases document_iff.mpr writable with ⟨text, document_eq⟩
    refine ⟨text, Resource.outcome_render ?_⟩
    rw [Resource.document, manifest_eq]
    simp only [bind, Except.bind, document_eq, Except.mapError]
  · rw [Resource.manifest]
    exact FailsAs.mapError fun _ _ => by simp [Failure.kind]

/-- A role with a list as its name, and with an object as a key deep inside its labels. -/
def oddRole : Role where
  name := .list [.text "manager", .null]
  labels := .mapping [(.bool true, .list [.mapping [(.object, .text "")]])]
  rules := [{ target := { resources := ["pods"] }, verbs := ["get"] }]

theorem rendersExactly_oddRole :
    oddRole.name.IsOrdinary ∧ oddRole.labels.IsOrdinary ∧ oddRole.RendersExactly ∧
      (∃ manifest, (Resource.ofRole oddRole).manifest = .ok manifest) ∧
      ¬∃ text, (Resource.ofRole oddRole).render.outcome = .ok (Text.encode text) := by
  have name_ordinary : oddRole.name.IsOrdinary := by
    apply Value.IsOrdinary.list
    simp only [List.forall_mem_cons]
    exact ⟨.single (.text _), .single .null, by simp⟩
  have inner_ordinary : (Value.mapping [(.object, .text "")]).IsOrdinary := by
    apply Value.IsOrdinary.mapping <;> rw [List.forall_mem_singleton]
    · exact .object
    · exact .single (.text _)
  have labels_ordinary : oddRole.labels.IsOrdinary := by
    apply Value.IsOrdinary.mapping <;> rw [List.forall_mem_singleton]
    · exact .bool _
    · apply Value.IsOrdinary.list
      rw [List.forall_mem_singleton]
      exact inner_ordinary
  have exactly := rendersExactly rfl name_ordinary labels_ordinary
  refine ⟨name_ordinary, labels_ordinary, exactly, ⟨_, rfl⟩, ?_⟩
  rw [exactly.render_iff, not_not]
  right
  exact .value (List.mem_singleton_self _) (.item (List.mem_singleton_self _)
    (.key (List.mem_singleton_self _) rfl (.here .object)))

end Role

end RbacManifest
