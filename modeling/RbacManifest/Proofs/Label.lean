import RbacManifest.Proofs.Configuration
import RbacManifest.Proofs.First
import RbacManifest.Proofs.Logged
import RbacManifest.Proofs.Text.Blank
import RbacManifest.Proofs.Text.Split

/-!
# Labels from arguments

An argument states a label if it has an equals sign with more than white space in front of it. The
labels of several arguments are read exactly if each of them states one, and the last argument for a
key decides: `Label.ofArguments_eq_error_iff` and `Label.ofArguments_eq_ok`.
-/

namespace RbacManifest

/-! ## What is found under a text -/

namespace Value

variable {left right value : Value} {key : String}

theorem sameKey_text_iff : value.sameKey (.text key) = true ↔ value.text? = some key := by
  cases value <;> simp [sameKey, text?]

theorem text?_eq_of_sameKey (same : left.sameKey right = true) : left.text? = right.text? := by
  rw [sameKey.eq_def] at same
  split at same
  · rfl
  · rfl
  · rfl
  · rfl
  · split at same
    · next left_eq right_eq =>
      rw [left_eq, right_eq, of_decide_eq_true same]
    · next left_eq right_eq => rw [left_eq, right_eq]
    · cases same

theorem sameKey_of_text? (left_eq : left.text? = some key) (right_eq : right.text? = some key) :
    left.sameKey right = true := by
  rw [sameKey.eq_def]
  split
  · rfl
  · cases left_eq
  · cases left_eq
  · cases left_eq
  · rw [left_eq, right_eq]
    exact decide_eq_true rfl

end Value

namespace Entries

variable {entries more rest : Entries} {key value : Value} {text : String}

theorem get?_cons :
    get? ((key, value) :: rest) text =
      if key.text? = some text then some value else rest.get? text := by
  rw [get?, List.find?_cons]
  by_cases same : key.text? = some text
  · rw [if_pos same, Value.sameKey_text_iff.mpr same]
    rfl
  · rw [if_neg same, Bool.eq_false_iff.mpr fun isSame => same (Value.sameKey_text_iff.mp isSame)]
    rfl

/-- What is put counts before what was there. -/
theorem get?_put :
    (put key value entries).get? text =
      (get? [(key, value)] text).or (entries.get? text) := by
  induction entries with
  | nil => simp [put, get?]
  | cons entry rest ih =>
      rcases entry with ⟨other, old⟩
      rw [put]
      split
      · next same =>
        have text_eq := Value.text?_eq_of_sameKey same
        rw [get?_cons, get?_cons, get?_cons, text_eq]
        split <;> rfl
      · next differs =>
        rw [get?_cons, ih, get?_cons, get?_cons]
        split
        · next other_eq =>
          have key_ne : key.text? ≠ some text := by
            intro key_eq
            exact differs (Value.sameKey_of_text? other_eq key_eq)
          rw [if_neg key_ne]
          rfl
        · rfl

theorem get?_append : (entries ++ more).get? text = (entries.get? text).or (more.get? text) := by
  simp only [get?, List.find?_append, Option.map_or]

/-- What is put last counts most. -/
theorem get?_putAll :
    (putAll entries more).get? text = (get? more.reverse text).or (entries.get? text) := by
  induction more generalizing entries with
  | nil => rfl
  | cons entry rest ih =>
      calc (putAll entries (entry :: rest)).get? text
          = (putAll (put entry.1 entry.2 entries) rest).get? text := rfl
        _ = (get? rest.reverse text).or ((get? [entry] text).or (entries.get? text)) := by
              rw [ih, get?_put]
        _ = (get? (entry :: rest).reverse text).or (entries.get? text) := by
              rw [List.reverse_cons, get?_append, Option.or_assoc]

/-- The order of entries under different keys does not count. -/
theorem HaveDistinctKeys.get?_reverse (distinct : entries.HaveDistinctKeys) :
    get? entries.reverse text = entries.get? text := by
  induction entries with
  | nil => rfl
  | cons entry rest ih =>
      rcases entry with ⟨key, value⟩
      rcases List.pairwise_cons.mp distinct with ⟨differ, rest_distinct⟩
      rw [List.reverse_cons, get?_append, ih rest_distinct, get?_cons, get?_cons]
      split
      · next key_eq =>
        have absent : get? rest text = none := by
          rw [get?, Option.map_eq_none_iff, List.find?_eq_none]
          intro other isMember same
          have other_eq := Value.sameKey_text_iff.mp same
          exact Bool.false_ne_true
            ((differ other isMember).symm.trans (Value.sameKey_of_text? key_eq other_eq))
        rw [absent]
        rfl
      · exact Option.or_none

end Entries

/-! ## What an argument states -/

namespace Label

/-- The key that an argument states: what stands in front of the first equals sign. -/
def statedKey (argument : String) : String :=
  String.ofList (Text.trim (argument.toList.takeWhile (· ≠ '=')))

/-- The value that an argument states: what stands behind the first equals sign. -/
def statedValue (argument : String) : String :=
  String.ofList (Text.trim ((argument.toList.dropWhile (· ≠ '=')).drop 1))

/-- Whether an argument states a label. -/
def IsStated (argument : String) : Prop :=
  '=' ∈ argument.toList ∧ ∃ c ∈ argument.toList.takeWhile (· ≠ '='), Text.isBlank c = false

instance : DecidablePred IsStated := fun _ =>
  @instDecidableAnd _ _ inferInstance (List.decidableBEx _ _)

/-- The value that the last one of several arguments states for a key. -/
def lastStated? (key : String) (arguments : List String) : Option String :=
  (arguments.reverse.find? fun argument => statedKey argument = key).map statedValue

variable {argument key : String} {arguments : List String} {failure : Failure}

theorem ofArgument_of_isStated (stated : IsStated argument) :
    ofArgument argument = .ok (statedKey argument, statedValue argument) := by
  rcases stated with ⟨separated, c, isMember, visible⟩
  have key_ne : Text.trim (argument.toList.takeWhile (· ≠ '=')) ≠ [] := by
    intro blank
    rw [Text.trim_eq_nil_iff, List.all_eq_true] at blank
    exact Bool.false_ne_true (visible.symm.trans (blank c isMember))
  rw [ofArgument, Text.cut?_of_mem separated]
  dsimp only
  rw [List.isEmpty_eq_false_iff.mpr key_ne]
  rfl

theorem ofArgument_of_not_isStated (unstated : ¬IsStated argument) :
    ofArgument argument = .error (.label argument) := by
  rw [ofArgument]
  by_cases separated : '=' ∈ argument.toList
  · have blank : Text.trim (argument.toList.takeWhile (· ≠ '=')) = [] := by
      rw [Text.trim_eq_nil_iff, List.all_eq_true]
      intro c isMember
      by_contra visible
      exact unstated ⟨separated, c, isMember, Bool.eq_false_iff.mpr visible⟩
    rw [Text.cut?_of_mem separated]
    dsimp only
    rw [blank]
    rfl
  · rw [Text.cut?_eq_none_iff.mpr separated]

theorem ofArgument_eq_error_iff :
    ofArgument argument = .error failure ↔ ¬IsStated argument ∧ failure = .label argument := by
  constructor
  · intro failed
    have unstated : ¬IsStated argument := by
      intro stated
      rw [ofArgument_of_isStated stated] at failed
      cases failed
    rw [ofArgument_of_not_isStated unstated] at failed
    cases failed
    exact ⟨unstated, rfl⟩
  · rintro ⟨unstated, rfl⟩
    exact ofArgument_of_not_isStated unstated

/-- Arguments are rejected because of the first one that states no label. -/
theorem ofArguments_eq_error_iff :
    ofArguments arguments = .error failure ↔
      ∃ argument, IsFirst (fun argument => ¬IsStated argument) arguments argument ∧
        failure = .label argument := by
  have fails_iff (argument : String) :
      (∃ failure, ofArgument argument = .error failure) ↔ ¬IsStated argument := by
    simp [ofArgument_eq_error_iff]
  rw [ofArguments, Except.map_eq_error_iff, Except.mapM_eq_error_iff]
  simp only [fails_iff]
  simp only [ofArgument_eq_error_iff]
  constructor
  · rintro ⟨argument, isFirst, _, failure_eq⟩
    exact ⟨argument, isFirst, failure_eq⟩
  · rintro ⟨argument, isFirst, failure_eq⟩
    exact ⟨argument, isFirst, isFirst.holds, failure_eq⟩

theorem ofArguments_eq_ok (stated : ∀ argument ∈ arguments, IsStated argument) :
    ofArguments arguments =
      .ok (entries (arguments.map fun argument => (statedKey argument, statedValue argument))) := by
  rw [ofArguments, Except.mapM_eq_ok fun argument isMember =>
    ofArgument_of_isStated (stated argument isMember)]
  rfl

/-- Of several arguments for a key the last one is found under it. -/
theorem get?_entries :
    (entries (arguments.map fun argument => (statedKey argument, statedValue argument))).get? key =
      (lastStated? key arguments).map .text := by
  have nothing : Entries.get? [] key = none := rfl
  have sameKey_eq (argument : String) :
      (Value.text (statedKey argument)).sameKey (.text key) =
        decide (statedKey argument = key) := by
    rw [Bool.eq_iff_iff, Value.sameKey_text_iff]
    simp [Value.text?]
  rw [entries, Entries.get?_putAll, nothing, Option.or_none, ← List.map_reverse,
    ← List.map_reverse, lastStated?, Entries.get?, List.find?_map, List.find?_map]
  simp only [Option.map_map, Function.comp_def, sameKey_eq]

theorem forall_mem_entries {labels : List (String × String)} :
    ∀ label ∈ entries labels, (∃ text, label.1 = .text text) ∧ ∃ text, label.2 = .text text := by
  apply Entries.forall_mem_putAll (fun key => ∃ text, key = .text text)
    (fun value => ∃ text, value = .text text)
  · simp
  · rintro entry isMember
    rcases List.mem_map.mp isMember with ⟨label, _, rfl⟩
    exact ⟨⟨_, rfl⟩, ⟨_, rfl⟩⟩

end Label

end RbacManifest
