import RbacManifest.Yaml.Read

/-!
# Documents that are read by evaluation

Values made of texts, whole numbers and mappings are compared by `Value.agrees`, which can be
evaluated. So what a given text is read as can be found by evaluating the reading itself.
-/

namespace RbacManifest

namespace Value

mutual

/-- Whether two values are the same, if they are made of texts, whole numbers and mappings. -/
def agrees : Value → Value → Bool
  | text left, text right => left = right
  | int left, int right => left = right
  | mapping left, mapping right => agreesEntries left right
  | _, _ => false

/-- Whether the entries of two mappings are the same. -/
def agreesEntries : List (Value × Value) → List (Value × Value) → Bool
  | [], [] => true
  | (leftKey, left) :: rest, (rightKey, right) :: others =>
      leftKey.agrees rightKey && left.agrees right && agreesEntries rest others
  | _, _ => false

end

mutual

theorem eq_of_agrees : (left right : Value) → left.agrees right = true → left = right
  | text left, right, agree => by
      cases right <;> simp [agrees] at agree
      rw [agree]
  | int left, right, agree => by
      cases right <;> simp [agrees] at agree
      rw [agree]
  | mapping left, right, agree => by
      cases right <;> simp [agrees] at agree
      rw [eq_of_agreesEntries left _ agree]
  | null, right, agree | bool _, right, agree | float _, right, agree | bytes _, right, agree
  | date _, right, agree | time _, right, agree | kind _, right, agree | object, right, agree
  | list _, right, agree | tuple _, right, agree | set _, right, agree
  | enclosing _, right, agree => by
      simp [agrees] at agree

theorem eq_of_agreesEntries : (left right : List (Value × Value)) →
    agreesEntries left right = true → left = right
  | [], right, agree => by
      cases right <;> simp [agreesEntries] at agree
      rfl
  | (leftKey, left) :: rest, [], agree => by simp [agreesEntries] at agree
  | (leftKey, left) :: rest, (rightKey, right) :: others, agree => by
      simp only [agreesEntries, Bool.and_eq_true] at agree
      rcases agree with ⟨⟨keys_agree, values_agree⟩, rest_agree⟩
      rw [eq_of_agrees leftKey rightKey keys_agree, eq_of_agrees left right values_agree,
        eq_of_agreesEntries rest others rest_agree]

end

end Value

namespace Yaml

/-- Whether a text is read as a document. -/
def readsAs (text : List Char) (document : Value) : Bool :=
  match load text with
  | .ok found => found.agrees document
  | .error _ => false

theorem load_of_readsAs {text : List Char} {document : Value}
    (isRead : readsAs text document = true) : load text = .ok document := by
  rw [readsAs] at isRead
  split at isRead
  · next found found_eq => rw [found_eq, Value.eq_of_agrees found document isRead]
  · cases isRead

end Yaml

end RbacManifest
