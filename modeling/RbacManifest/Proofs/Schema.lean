import RbacManifest.Proofs.Logged
import RbacManifest.Schema

/-!
# Configurations of the right form

The form of configurations is stated here without the order in which its parts are checked. The
check passes exactly the configurations that have the form: `Schema.check_eq_ok_iff`.
-/

namespace RbacManifest

namespace Schema

/-- Whether a field of a type may hold a value. -/
inductive FieldType.Allows : FieldType → Value → Prop
  | null {type : FieldType} : Allows type .null
  | text {value : String} : Allows .text (.text value)
  | truthValue {value : Bool} : Allows .truthValue (.bool value)
  | texts {entries : Entries}
      (pairs : ∀ entry ∈ entries.opened, ∃ key value, entry = (.text key, .text value)) :
      Allows .texts (.mapping entries)

/-- Whether a section with the given fields may hold a value. -/
inductive SectionAllows (fields : List (String × FieldType)) : Value → Prop
  | null : SectionAllows fields .null
  | mapping {content : Entries}
      (allowed : ∀ field ∈ fields, ∀ value, content.opened.get? field.1 = some value →
        field.2.Allows value) :
      SectionAllows fields (.mapping content)

/-- Whether a configuration has the right form. -/
def IsSatisfied (entries : Entries) : Prop :=
  ∀ part ∈ sections, ∀ value, entries.opened.get? part.1 = some value →
    SectionAllows part.2 value

variable {place name : String} {type : FieldType} {value : Value} {entries content : Entries}

theorem checkTexts_eq_ok_iff :
    checkTexts place entries = .ok () ↔
      ∀ entry ∈ entries, ∃ key value, entry = (.text key, .text value) := by
  induction entries with
  | nil => simp [checkTexts]
  | cons entry rest ih =>
      rcases entry with ⟨key, value⟩
      rw [List.forall_mem_cons, ← ih, checkTexts.eq_def]
      split
      · next key_eq =>
        cases key_eq
      · next other value others entry_eq =>
        cases entry_eq
        split
        · simp
        · next notTexts =>
          constructor
          · intro passed
            cases passed
          · rintro ⟨⟨key, value, entry_eq⟩, _⟩
            cases entry_eq
            exact (notTexts key value rfl rfl).elim

theorem checkField_eq_ok_iff : checkField place type value = .ok () ↔ type.Allows value := by
  constructor
  · intro passed
    rw [checkField.eq_def] at passed
    split at passed
    · exact .null
    · exact .text
    · cases passed
    · exact .truthValue
    · cases passed
    · exact .texts (checkTexts_eq_ok_iff.mp passed)
    · cases passed
  · intro allowed
    cases allowed with
    | null => simp [checkField]
    | text => simp [checkField]
    | truthValue => simp [checkField]
    | texts pairs => simpa [checkField] using checkTexts_eq_ok_iff.mpr pairs

theorem checkFields_eq_ok_iff {fields : List (String × FieldType)} :
    checkFields place content fields = .ok () ↔
      ∀ field ∈ fields, ∀ value, content.get? field.1 = some value → field.2.Allows value := by
  induction fields with
  | nil => simp [checkFields]
  | cons field rest ih =>
      rcases field with ⟨name, type⟩
      rw [checkFields, List.forall_mem_cons, ← ih]
      cases found : content.get? name with
      | none => simp
      | some value =>
          simp only [Except.check_bind_eq_ok_iff, checkField_eq_ok_iff, Option.some.injEq,
            forall_eq']

theorem checkSections_eq_ok_iff {parts : List (String × List (String × FieldType))} :
    checkSections entries parts = .ok () ↔
      ∀ part ∈ parts, ∀ value, entries.get? part.1 = some value →
        SectionAllows part.2 value := by
  induction parts with
  | nil => simp [checkSections]
  | cons part rest ih =>
      rcases part with ⟨name, fields⟩
      rw [checkSections, List.forall_mem_cons, ← ih]
      split
      · next absent => simp [absent]
      · next isNull => simp [isNull, SectionAllows.null]
      · next content found =>
        simp only [Except.check_bind_eq_ok_iff, checkFields_eq_ok_iff, found, Option.some.injEq,
          forall_eq']
        refine and_congr_left fun _ => ⟨.mapping, ?_⟩
        rintro ⟨⟩
        assumption
      · next value notNull notMapping found =>
        constructor
        · intro passed
          cases passed
        · intro allowed
          cases allowed.1 value found with
          | null => exact (notNull rfl).elim
          | mapping _ => exact (notMapping _ rfl).elim

theorem check_eq_ok_iff : check entries = .ok () ↔ IsSatisfied entries :=
  checkSections_eq_ok_iff

theorem isSatisfied_nil : IsSatisfied [] := by
  intro part _ value found
  cases found

end Schema

end RbacManifest
