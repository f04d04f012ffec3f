import Mathlib.Data.List.Nodup
import Mathlib.Data.List.Perm.Basic
import Mathlib.Data.String.Basic
import RbacManifest.Proofs.Related
import RbacManifest.Proofs.Yaml.LayoutInjective
import RbacManifest.Proofs.Yaml.Read

/-!
# Values that are written alike

Mappings are written in the order of their keys, so the order of their entries does not matter for
what is written; everything else does. `Value.IsMadeOf.ofValue_eq_iff` says so for all values of
texts, lists and mappings.
-/

namespace RbacManifest

/-! ## Sorted entries -/

namespace Value

theorem lessText_iff {left right : Value} :
    left.lessText right = true ↔
      ∃ leftText rightText, left.text? = some leftText ∧ right.text? = some rightText ∧
        leftText < rightText := by
  rw [lessText]
  cases left.text? <;> cases right.text? <;> simp [-String.lt_iff_ltb]

theorem lessText_trans {first second third : Value} (first_less : first.lessText second = true)
    (second_less : second.lessText third = true) : first.lessText third = true := by
  rw [lessText_iff] at first_less second_less ⊢
  rcases first_less with ⟨firstText, secondText, first_eq, second_eq, first_lt⟩
  rcases second_less with ⟨sameText, thirdText, same_eq, third_eq, second_lt⟩
  rw [Option.some.inj (second_eq.symm.trans same_eq)] at first_lt
  exact ⟨firstText, thirdText, first_eq, third_eq, lt_trans first_lt second_lt⟩

theorem lessText_asymm {first second : Value} (less : first.lessText second = true) :
    second.lessText first = false := by
  rw [← Bool.not_eq_true]
  intro more
  rcases lessText_iff.mp (lessText_trans less more) with ⟨left, right, left_eq, right_eq, left_lt⟩
  rw [Option.some.inj (left_eq.symm.trans right_eq)] at left_lt
  exact lt_irrefl right left_lt

theorem lessText_or {left right : Value} (left_text : ∃ text, left = .text text)
    (right_text : ∃ text, right = .text text) (differs : left ≠ right) :
    left.lessText right = true ∨ right.lessText left = true := by
  rcases left_text with ⟨leftText, rfl⟩
  rcases right_text with ⟨rightText, rfl⟩
  have texts_ne : leftText ≠ rightText := fun same => differs (congrArg Value.text same)
  rcases lt_or_gt_of_ne texts_ne with left_lt | right_lt
  · exact Or.inl (lessText_iff.mpr ⟨leftText, rightText, rfl, rfl, left_lt⟩)
  · exact Or.inr (lessText_iff.mpr ⟨rightText, leftText, rfl, rfl, right_lt⟩)

end Value

namespace Entries

variable {α : Type} {left right : List (Value × α)}

theorem insertBy_comm {first second : Value × α} (entries : List (Value × α))
    (less : first.1.lessText second.1 = true) :
    insertBy Value.lessText first (insertBy Value.lessText second entries) =
      insertBy Value.lessText second (insertBy Value.lessText first entries) := by
  have notLess := Value.lessText_asymm less
  induction entries with
  | nil => simp [insertBy, less, notLess]
  | cons other rest ih =>
      by_cases other_first : other.1.lessText first.1 = true
      · have other_second := Value.lessText_trans other_first less
        simp [insertBy, other_first, other_second, ih]
      · by_cases other_second : other.1.lessText second.1 = true
        · simp [insertBy, other_first, other_second, less]
        · simp [insertBy, other_first, other_second, less, notLess]

/-- How entries under different texts are sorted does not depend on their order. -/
theorem sortBy_eq_of_perm (distinct : (left.map (·.1)).Nodup)
    (textKeys : ∀ entry ∈ left, ∃ key, entry.1 = .text key) (perm : left.Perm right) :
    sortBy Value.lessText left = sortBy Value.lessText right := by
  refine perm.foldr_eq' ?_ []
  intro first first_mem second second_mem entries
  by_cases same : first = second
  · rw [same]
  have keys_ne : first.1 ≠ second.1 := by
    intro keys_eq
    exact same (List.inj_on_of_nodup_map distinct first_mem second_mem keys_eq)
  rcases Value.lessText_or (textKeys first first_mem) (textKeys second second_mem) keys_ne with
    less | less
  · exact (insertBy_comm entries less).symm
  · exact insertBy_comm entries less

variable {relation : Value × α → Value × α → Prop}

theorem forall₂_insertBy {leftEntry rightEntry : Value × α}
    (keeps : ∀ left right, relation left right → left.1 = right.1)
    (entry_related : relation leftEntry rightEntry) (related : List.Forall₂ relation left right) :
    List.Forall₂ relation (insertBy Value.lessText leftEntry left)
      (insertBy Value.lessText rightEntry right) := by
  induction related with
  | nil => exact .cons entry_related .nil
  | cons first_related rest_related ih =>
      rw [insertBy, insertBy, keeps _ _ first_related, keeps _ _ entry_related]
      split
      · exact .cons first_related ih
      · exact .cons entry_related (.cons first_related rest_related)

theorem forall₂_sortBy (keeps : ∀ left right, relation left right → left.1 = right.1)
    (related : List.Forall₂ relation left right) :
    List.Forall₂ relation (sortBy Value.lessText left) (sortBy Value.lessText right) := by
  induction related with
  | nil => exact .nil
  | cons entry_related _ ih => exact forall₂_insertBy keeps entry_related ih

/-- Entries under different texts are related in the order of their keys exactly when they are
related in some order. -/
theorem forall₂_sortBy_iff (distinct : (left.map (·.1)).Nodup)
    (textKeys : ∀ entry ∈ left, ∃ key, entry.1 = .text key)
    (keeps : ∀ left right, relation left right → left.1 = right.1) :
    List.Forall₂ relation (sortBy Value.lessText left) (sortBy Value.lessText right) ↔
      ∃ middle, left.Perm middle ∧ List.Forall₂ relation middle right := by
  constructor
  · intro related
    rcases List.perm_comp_forall₂ (perm_sortBy right) related.flip with
      ⟨middle, related_middle, middle_perm⟩
    exact ⟨middle, (perm_sortBy left).trans middle_perm.symm, related_middle.flip⟩
  · rintro ⟨middle, perm, related⟩
    rw [sortBy_eq_of_perm distinct textKeys perm]
    exact forall₂_sortBy keeps related

end Entries

/-! ## Values of texts -/

namespace Value

variable {left right : List Value} {leftEntries rightEntries : Entries} {text : String}

@[simp]
theorem alike_text_iff {value : Value} : (Value.text text).Alike value ↔ value = .text text := by
  constructor
  · intro alike
    cases alike
    rfl
  · rintro rfl
    exact .same _

@[simp]
theorem alike_null_iff {value : Value} : Value.null.Alike value ↔ value = .null := by
  constructor
  · intro alike
    cases alike
    rfl
  · rintro rfl
    exact .same _

@[simp]
theorem alike_null_right_iff {value : Value} : value.Alike .null ↔ value = .null := by
  constructor
  · intro alike
    cases alike
    rfl
  · rintro rfl
    exact .same _

theorem alike_list_iff :
    (Value.list left).Alike (.list right) ↔ List.Forall₂ Alike left right := by
  constructor
  · intro alike
    cases alike with
    | same => exact List.forall₂_same.mpr fun item _ => .same item
    | list items => exact items
  · exact .list

/-- Whether two entries have one key and values that are the same but for the order of entries. -/
def AlikeEntries (left right : Value × Value) : Prop :=
  left.1 = right.1 ∧ left.2.Alike right.2

theorem forall₂_alikeEntries_iff :
    List.Forall₂ AlikeEntries leftEntries rightEntries ↔
      leftEntries.map (·.1) = rightEntries.map (·.1) ∧
        List.Forall₂ Alike (leftEntries.map (·.2)) (rightEntries.map (·.2)) := by
  induction leftEntries generalizing rightEntries with
  | nil => cases rightEntries <;> simp
  | cons entry rest ih =>
      cases rightEntries with
      | nil => simp
      | cons other others => simp [AlikeEntries, ih, and_assoc, and_left_comm]

theorem alike_mapping_iff :
    (Value.mapping leftEntries).Alike (.mapping rightEntries) ↔
      ∃ middle : Entries, leftEntries.Perm middle ∧
        List.Forall₂ AlikeEntries middle rightEntries := by
  constructor
  · intro alike
    cases alike with
    | same =>
        refine ⟨leftEntries, List.Perm.refl _, ?_⟩
        exact List.forall₂_same.mpr fun entry _ => ⟨rfl, .same entry.2⟩
    | mapping order keys values =>
        exact ⟨_, order, forall₂_alikeEntries_iff.mpr ⟨keys, values⟩⟩
  · rintro ⟨middle, order, alike⟩
    rcases forall₂_alikeEntries_iff.mp alike with ⟨keys, values⟩
    exact .mapping order keys values

end Value

/-! ## Nodes of values of texts -/

namespace Yaml

namespace Node

variable {indent : Nat} {items : List Value} {entries left right : Entries}

theorem Writing.eq_map_of_all {α : Type} {writings : List (Writing α)} {written : List α}
    (all_eq : all writings = .ok written) : writings = written.map .ok := by
  induction writings generalizing written with
  | nil =>
      rw [all] at all_eq
      rw [← Except.ok.inj all_eq, List.map_nil]
  | cons writing rest ih =>
      rw [all] at all_eq
      rcases Except.bind_eq_ok_iff.mp all_eq with ⟨first, first_eq, others_eq⟩
      rcases Except.bind_eq_ok_iff.mp others_eq with ⟨others, rest_eq, cons_eq⟩
      rw [← Except.ok.inj cons_eq, first_eq, ih rest_eq, List.map_cons]

theorem Writing.all_map_eq_iff {α : Type} {build : List α → Node}
    (injective : Function.Injective build) {left right : List (Writing α)}
    (left_ok : ∃ nodes, all left = .ok nodes)
    (right_ok : ∃ nodes, all right = .ok nodes) :
    (all left).map build = (all right).map build ↔ left = right := by
  rcases left_ok with ⟨leftNodes, left_eq⟩
  rcases right_ok with ⟨rightNodes, right_eq⟩
  constructor
  · intro same
    rw [left_eq, right_eq] at same
    rw [eq_map_of_all left_eq, eq_map_of_all right_eq,
      injective (Except.ok.inj same)]
  · rintro rfl
    rfl

theorem exists_items (textual : ∀ item ∈ items, ∃ node, ofValue item = .ok node ∧
    node.IsTextual indent) :
    ∃ nodes, Writing.all (items.map ofValue) = .ok nodes ∧ AreTextual indent nodes := by
  induction items with
  | nil => exact ⟨[], rfl, trivial⟩
  | cons item rest ih =>
      rw [List.forall_mem_cons] at textual
      rcases textual.1 with ⟨node, node_eq, node_textual⟩
      rcases ih textual.2 with ⟨nodes, nodes_eq, nodes_textual⟩
      refine ⟨node :: nodes, ?_, node_textual, nodes_textual⟩
      rw [List.map_cons, Writing.all, node_eq, nodes_eq]
      rfl

theorem exists_entries (inside : indent + indentation < Folded.width)
    (keys : ∀ entry ∈ entries, ∃ key, entry.1 = .text key)
    (textual : ∀ entry ∈ entries, ∃ node, ofValue entry.2 = .ok node ∧ node.IsTextual indent) :
    ∃ nodes, Writing.all (entries.map writeEntry) = .ok nodes ∧
      AreTextualEntries indent nodes := by
  induction entries with
  | nil => exact ⟨[], rfl, trivial⟩
  | cons entry rest ih =>
      rw [List.forall_mem_cons] at keys textual
      rcases keys.1 with ⟨key, key_eq⟩
      rcases textual.1 with ⟨node, node_eq, node_textual⟩
      rcases ih keys.2 textual.2 with ⟨nodes, nodes_eq, nodes_textual⟩
      have key_textual : (scalar .text key.toList).IsTextual indent := by
        rw [IsTextual]
        exact ⟨rfl, inside⟩
      refine ⟨(scalar .text key.toList, node) :: nodes, ?_, ⟨_, rfl⟩, key_textual, node_textual,
        nodes_textual⟩
      rw [List.map_cons, Writing.all, nodes_eq, writeEntry, key_eq, node_eq]
      rfl

theorem exists_sortedEntries (inside : indent + indentation < Folded.width)
    (keys : ∀ entry ∈ entries, ∃ key, entry.1 = .text key)
    (textual : ∀ entry ∈ entries, ∃ node, ofValue entry.2 = .ok node ∧ node.IsTextual indent) :
    ∃ nodes, Writing.all ((Entries.sortBy Value.lessText entries).map writeEntry) = .ok nodes ∧
      AreTextualEntries indent nodes := by
  have perm : entries.Perm (Entries.sortBy Value.lessText entries) := Entries.perm_sortBy entries
  exact exists_entries inside (fun entry isMember => keys entry (perm.mem_iff.mpr isMember))
    fun entry isMember => textual entry (perm.mem_iff.mpr isMember)

theorem writeEntry_eq_iff {left right : Value × Value} {node : Node}
    (left_text : ∃ key, left.1 = .text key) (right_text : ∃ key, right.1 = .text key)
    (node_eq : ofValue left.2 = .ok node) :
    writeEntry left = writeEntry right ↔ left.1 = right.1 ∧ ofValue left.2 = ofValue right.2 := by
  rcases left_text with ⟨leftKey, left_eq⟩
  rcases right_text with ⟨rightKey, right_eq⟩
  rw [writeEntry, writeEntry, left_eq, right_eq, node_eq, ofValue, ofValue]
  cases ofValue right.2 with
  | error value => simp [bind, Except.bind, pure, Except.pure]
  | ok other => simp [bind, Except.bind, pure, Except.pure, String.toList_inj]

end Node

end Yaml

namespace Value.IsMadeOf

open Yaml Yaml.Node

variable {isText isKey : String → Prop} {indent : Nat} {value left right : Value}
  {items others : List Value} {entries leftEntries rightEntries : Entries} {text : String}

theorem exists_node (made : value.IsMadeOf isText isKey indent) :
    ∃ node, ofValue value = .ok node ∧ node.IsTextual indent := by
  induction made with
  | text _ inside =>
      refine ⟨_, by rw [ofValue], ?_⟩
      rw [IsTextual]
      exact ⟨rfl, inside⟩
  | list _ ih =>
      rcases exists_items ih with ⟨nodes, nodes_eq, nodes_textual⟩
      refine ⟨.list .list nodes, ?_, ?_⟩
      · rw [ofValue, ofValues_eq, nodes_eq]
        rfl
      · rw [IsTextual]
        exact ⟨rfl, nodes_textual⟩
  | mapping inside distinct keys made ih =>
      have textKeys := (IsMadeOf.mapping inside distinct keys made).textKeys
      rcases exists_sortedEntries inside textKeys ih with ⟨nodes, nodes_eq, nodes_textual⟩
      refine ⟨.mapping .mapping nodes, ?_, ?_⟩
      · rw [ofValue_mapping textKeys, nodes_eq]
        rfl
      · rw [IsTextual]
        exact ⟨rfl, nodes_textual⟩

theorem exists_writtenItems (made : (Value.list items).IsMadeOf isText isKey indent) :
    ∃ nodes, Writing.all (items.map ofValue) = .ok nodes := by
  cases made with
  | list items_made =>
      rcases exists_items fun item isMember => (items_made item isMember).exists_node with
        ⟨nodes, nodes_eq, _⟩
      exact ⟨nodes, nodes_eq⟩

theorem ofValue_list_eq_iff (left_made : (Value.list items).IsMadeOf isText isKey indent)
    (right_made : (Value.list others).IsMadeOf isText isKey indent) :
    ofValue (.list items) = ofValue (.list others) ↔
      List.Forall₂ (fun left right => ofValue left = ofValue right) items others := by
  have injective : Function.Injective (Node.list .list) := fun _ _ same => (Node.list.inj same).2
  rw [ofValue, ofValue, ofValues_eq, ofValues_eq,
    Writing.all_map_eq_iff injective (exists_writtenItems left_made)
      (exists_writtenItems right_made),
    Related.map_eq_map_iff]

theorem exists_writtenEntries (made : (Value.mapping entries).IsMadeOf isText isKey indent) :
    ∃ nodes, Writing.all ((Entries.sortBy Value.lessText entries).map writeEntry) =
      .ok nodes := by
  have textKeys := made.textKeys
  cases made with
  | mapping inside _ _ entries_made =>
      rcases exists_sortedEntries inside textKeys
        fun entry isMember => (entries_made entry isMember).exists_node with ⟨nodes, nodes_eq, _⟩
      exact ⟨nodes, nodes_eq⟩

theorem ofValue_mapping_eq_iff
    (left_made : (Value.mapping leftEntries).IsMadeOf isText isKey indent)
    (right_made : (Value.mapping rightEntries).IsMadeOf isText isKey indent) :
    ofValue (.mapping leftEntries) = ofValue (.mapping rightEntries) ↔
      List.Forall₂ (fun left right => writeEntry left = writeEntry right)
        (Entries.sortBy Value.lessText leftEntries)
        (Entries.sortBy Value.lessText rightEntries) := by
  have injective : Function.Injective (Node.mapping .mapping) :=
    fun _ _ same => (Node.mapping.inj same).2
  rw [ofValue_mapping left_made.textKeys, ofValue_mapping right_made.textKeys,
    Writing.all_map_eq_iff injective (exists_writtenEntries left_made)
      (exists_writtenEntries right_made),
    Related.map_eq_map_iff]

theorem ofValue_text_ne_list : ofValue (.text text) ≠ ofValue (.list items) := by
  rw [ofValue, ofValue]
  cases Writing.all (ofValues items) <;> simp [Except.map]

theorem ofValue_text_ne_mapping : ofValue (.text text) ≠ ofValue (.mapping entries) := by
  rw [ofValue, ofValue]
  cases Writing.all ((Entries.sorted (ofPairs entries)).map (·.2)) <;> simp [Except.map]

theorem ofValue_list_ne_mapping (made : (Value.list items).IsMadeOf isText isKey indent) :
    ofValue (.list items) ≠ ofValue (.mapping entries) := by
  rcases exists_writtenItems made with ⟨nodes, nodes_eq⟩
  rw [ofValue, ofValue, ofValues_eq, nodes_eq]
  cases Writing.all ((Entries.sorted (ofPairs entries)).map (·.2)) <;> simp [Except.map]

/-- Values of texts have one node exactly when they are the same but for the order of entries. -/
theorem ofValue_eq_iff (left_made : left.IsMadeOf isText isKey indent)
    (right_made : right.IsMadeOf isText isKey indent) :
    ofValue left = ofValue right ↔ left.Alike right := by
  induction left_made generalizing right with
  | text _ inside =>
      cases right_made with
      | text => simp [ofValue, String.toList_inj, eq_comm]
      | list => exact iff_of_false ofValue_text_ne_list (by rintro ⟨⟩)
      | mapping => exact iff_of_false ofValue_text_ne_mapping (by rintro ⟨⟩)
  | list left_made ih =>
      cases right_made with
      | text => exact iff_of_false ofValue_text_ne_list.symm (by rintro ⟨⟩)
      | list right_made =>
          rw [ofValue_list_eq_iff (.list left_made) (.list right_made), alike_list_iff]
          exact Related.congr_of_mem fun item item_mem other other_mem =>
            ih item item_mem (right_made other other_mem)
      | mapping => exact iff_of_false (ofValue_list_ne_mapping (.list left_made)) (by rintro ⟨⟩)
  | mapping left_inside left_distinct left_keys left_made ih =>
      have left_whole := mapping left_inside left_distinct left_keys left_made
      cases right_made with
      | text => exact iff_of_false ofValue_text_ne_mapping.symm (by rintro ⟨⟩)
      | list right_made =>
          exact iff_of_false (ofValue_list_ne_mapping (.list right_made)).symm (by rintro ⟨⟩)
      | mapping right_inside right_distinct right_keys right_made =>
          have right_whole := mapping right_inside right_distinct right_keys right_made
          rw [ofValue_mapping_eq_iff left_whole right_whole, alike_mapping_iff,
            ← Entries.forall₂_sortBy_iff left_distinct left_whole.textKeys fun _ _ alike => alike.1]
          refine Related.congr_of_mem ?_
          intro entry entry_mem other other_mem
          rw [← (Entries.perm_sortBy _).mem_iff] at entry_mem other_mem
          rcases (left_made entry entry_mem).exists_node with ⟨node, node_eq, _⟩
          rw [writeEntry_eq_iff (left_whole.textKeys entry entry_mem)
            (right_whole.textKeys other other_mem) node_eq,
            ih entry entry_mem (right_made other other_mem)]
          rfl

end Value.IsMadeOf

end RbacManifest
