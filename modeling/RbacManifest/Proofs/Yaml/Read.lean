import RbacManifest.Proofs.Logged
import RbacManifest.Proofs.Yaml.Tree
import RbacManifest.Yaml.Read
import RbacManifest.Yaml.Written

/-!
# Reading what is written for values

A value of texts, lists and mappings has a node, and from the document that is written for it the
value is read that the node stands for: `Yaml.load_writeDocument` and `Value.IsReadable.isReturned`.
The entries of mappings may be read in another order.
-/

namespace RbacManifest

/-- Whether two values are the same but for the order of the entries of mappings. -/
inductive Value.Alike : Value → Value → Prop
  | same (value : Value) : Alike value value
  | list {left right : List Value} (items : List.Forall₂ Alike left right) :
      Alike (.list left) (.list right)
  | mapping {left middle right : Entries} (order : left.Perm middle)
      (keys : middle.map (·.1) = right.map (·.1))
      (values : List.Forall₂ Alike (middle.map (·.2)) (right.map (·.2))) :
      Alike (.mapping left) (.mapping right)

namespace Yaml

open Node in
/-- A document of a mapping is read as what its node stands for. -/
theorem load_writeDocument {bound : Nat} {entry : Node × Node} {entries : List (Node × Node)}
    (safe : (mapping .mapping (entry :: entries)).IsSafe bound) :
    load (writeDocument (entry :: entries)) =
      (mapping .mapping (entry :: entries)).read.mapError (·.fault) := by
  have entries_safe : AreSafeEntries (bound + indentation) (entry :: entries) := by
    simp only [IsSafe] at safe
    exact safe.2
  have documentChars : (writeDocument (entry :: entries)).all isDocumentChar = true := by
    rw [List.all_eq_true]
    exact fun c isMember => (isLasting_writeDocument entries_safe c isMember).1
  rw [load, document, if_pos documentChars, ofText_writeDocument entries_safe,
    ofTokens?_tokens safe]
  simp only [bind, Except.bind]
  rw [ofTree_toTree _ safe]

end Yaml

/-! ## Entries in the order of their keys -/

namespace Entries

variable {α β : Type} {less : Value → Value → Bool} {entries : List (Value × α)}

theorem insertBy_map (write : Value × α → β) (entry : Value × α) (entries : List (Value × α)) :
    insertBy less (entry.1, write entry) (entries.map fun other => (other.1, write other)) =
      (insertBy less entry entries).map fun other => (other.1, write other) := by
  induction entries with
  | nil => rfl
  | cons other rest ih =>
      rw [List.map_cons, insertBy, insertBy]
      split
      · rw [List.map_cons, ih]
      · rfl

theorem sortBy_map (write : Value × α → β) (entries : List (Value × α)) :
    sortBy less (entries.map fun entry => (entry.1, write entry)) =
      (sortBy less entries).map fun entry => (entry.1, write entry) := by
  induction entries with
  | nil => rfl
  | cons entry rest ih =>
      have ih : (rest.map fun entry => (entry.1, write entry)).foldr (insertBy less) [] = _ := ih
      rw [List.map_cons, sortBy, List.foldr_cons, ih, insertBy_map]
      rfl

theorem perm_insertBy (entry : Value × α) (entries : List (Value × α)) :
    (entry :: entries).Perm (insertBy less entry entries) := by
  induction entries with
  | nil => exact List.Perm.refl _
  | cons other rest ih =>
      rw [insertBy]
      split
      · exact (List.Perm.swap other entry rest).trans (ih.cons other)
      · exact List.Perm.refl _

theorem perm_sortBy (entries : List (Value × α)) : entries.Perm (sortBy less entries) := by
  induction entries with
  | nil => exact List.Perm.refl _
  | cons entry rest ih => exact (ih.cons entry).trans (perm_insertBy entry _)

theorem perm_sorted (entries : List (Value × α)) : entries.Perm (sorted entries) := by
  rw [sorted]
  split
  · exact perm_sortBy entries
  split
  · exact perm_sortBy entries
  · exact List.Perm.refl _

theorem put_of_new {key value : Value} {entries : Entries}
    (isNew : ∀ entry ∈ entries, entry.1.sameKey key = false) :
    put key value entries = entries ++ [(key, value)] := by
  induction entries with
  | nil => rfl
  | cons entry rest ih =>
      rw [List.forall_mem_cons] at isNew
      rw [put, isNew.1, if_neg (by decide), ih isNew.2, List.cons_append]

/-- Entries with different keys are all kept, in their order. -/
theorem putAll_of_pairwise {entries more : Entries}
    (differ : (entries ++ more).Pairwise fun left right => left.1.sameKey right.1 = false) :
    putAll entries more = entries ++ more := by
  induction more generalizing entries with
  | nil => rw [putAll, List.foldl_nil, List.append_nil]
  | cons entry rest ih =>
      have isNew : ∀ other ∈ entries, other.1.sameKey entry.1 = false :=
        fun other isMember => (List.pairwise_append.mp differ).2.2 other isMember entry (by simp)
      have differ_last : ((entries ++ [entry]) ++ rest).Pairwise
          fun left right => left.1.sameKey right.1 = false := by
        simpa using differ
      have ih_eq : putAll (entries ++ [entry]) rest = _ := ih differ_last
      rw [putAll] at ih_eq ⊢
      rw [List.foldl_cons, put_of_new isNew, ih_eq, List.append_assoc, List.singleton_append]

theorem pairwise_of_distinct {entries : Entries} (distinct : (entries.map (·.1)).Nodup)
    (textKeys : ∀ key ∈ entries.map (·.1), ∃ text, key = .text text) :
    entries.Pairwise fun left right => left.1.sameKey right.1 = false := by
  rw [List.Nodup, List.pairwise_map] at distinct
  refine distinct.imp_of_mem ?_
  intro left right left_mem right_mem differs
  rcases textKeys left.1 (List.mem_map_of_mem left_mem) with ⟨leftKey, left_eq⟩
  rcases textKeys right.1 (List.mem_map_of_mem right_mem) with ⟨rightKey, right_eq⟩
  rw [left_eq, right_eq] at differs ⊢
  simpa [Value.sameKey, Value.text?] using differs

end Entries

/-! ## Values that are read back -/

namespace Yaml

namespace Node

theorem read_text {text : List Char} :
    (scalar .text text).read = .ok (.text (String.ofList text)) := by
  rw [read]
  rfl

/-- What is written for an entry of a mapping. -/
def writeEntry (entry : Value × Value) : Writing (Node × Node) := do
  return (← ofValue entry.1, ← ofValue entry.2)

theorem ofPairs_eq (entries : Entries) :
    ofPairs entries = entries.map fun entry => (entry.1, writeEntry entry) := by
  induction entries with
  | nil => rfl
  | cons entry rest ih =>
      rw [ofPairs, ih]
      rfl

theorem ofValues_eq (items : List Value) : ofValues items = items.map ofValue := by
  induction items with
  | nil => rfl
  | cons item rest ih => rw [ofValues, ih, List.map_cons]

theorem readAll_eq (nodes : List Node) : readAll nodes = nodes.map read := by
  induction nodes with
  | nil => rfl
  | cons node rest ih => rw [readAll, ih, List.map_cons]

/-- A mapping with texts as its keys is written in the order of its keys. -/
theorem ofValue_mapping {entries : Entries}
    (textKeys : ∀ entry ∈ entries, ∃ key, entry.1 = .text key) :
    ofValue (.mapping entries) =
      (Writing.all ((Entries.sortBy Value.lessText entries).map writeEntry)).map
        (mapping .mapping) := by
  have allTexts : (ofPairs entries).all (fun entry => entry.1.text?.isSome) = true := by
    rw [ofPairs_eq, List.all_map, List.all_eq_true]
    intro entry isMember
    rcases textKeys entry isMember with ⟨key, key_eq⟩
    simp [key_eq, Value.text?]
  rw [ofValue, Entries.sorted, if_pos allTexts, ofPairs_eq, Entries.sortBy_map, List.map_map]
  rfl

theorem exists_cons_of_all {α : Type} {first : Writing α} {rest : List (Writing α)}
    {written : List α} (all_eq : Writing.all (first :: rest) = .ok written) :
    ∃ node nodes, written = node :: nodes := by
  rw [Writing.all] at all_eq
  rcases Except.bind_eq_ok_iff.mp all_eq with ⟨node, _, rest_eq⟩
  rcases Except.bind_eq_ok_iff.mp rest_eq with ⟨nodes, _, cons_eq⟩
  exact ⟨node, nodes, (Except.ok.inj cons_eq).symm⟩

theorem exists_mapping_of_ofValue {entry : Value × Value} {entries : Entries} {node : Node}
    (textKeys : ∀ other ∈ entry :: entries, ∃ key, other.1 = .text key)
    (node_eq : ofValue (.mapping (entry :: entries)) = .ok node) :
    ∃ first nodes, node = mapping .mapping (first :: nodes) := by
  rw [ofValue_mapping textKeys] at node_eq
  cases sorted_eq : Entries.sortBy Value.lessText (entry :: entries) with
  | nil =>
      have perm : (entry :: entries).Perm [] := sorted_eq ▸ Entries.perm_sortBy _
      simp at perm
  | cons least others =>
      rw [sorted_eq, List.map_cons] at node_eq
      cases all_eq : Writing.all (writeEntry least :: others.map writeEntry) with
      | error value => simp [all_eq, Except.map] at node_eq
      | ok written =>
          rcases exists_cons_of_all all_eq with ⟨first, nodes, rfl⟩
          rw [all_eq] at node_eq
          exact ⟨first, nodes, (Except.ok.inj node_eq).symm⟩

/-- Whether a value is read back when it is written in a collection at a column. -/
def IsReturned (indent : Nat) (value : Value) : Prop :=
  ∃ node found, ofValue value = .ok node ∧ node.IsSafe indent ∧ node.read = .ok found ∧
    value.Alike found

theorem isReturned_list {indent : Nat} {items : List Value}
    (returned : ∀ item ∈ items, IsReturned (indent + indentation) item) :
    IsReturned indent (.list items) := by
  have all : ∃ nodes found, Writing.all (items.map ofValue) = .ok nodes ∧
      AreSafe (indent + indentation) nodes ∧ Reading.all (nodes.map read) = .ok found ∧
      List.Forall₂ Value.Alike items found := by
    induction items with
    | nil => exact ⟨[], [], rfl, trivial, rfl, .nil⟩
    | cons item rest ih =>
        rw [List.forall_mem_cons] at returned
        rcases returned with ⟨⟨node, first, node_eq, node_safe, first_eq, alike⟩, rest_returned⟩
        rcases ih rest_returned with ⟨nodes, others, nodes_eq, nodes_safe, others_eq, all_alike⟩
        refine ⟨node :: nodes, first :: others, ?_, ⟨node_safe, nodes_safe⟩, ?_,
          .cons alike all_alike⟩
        · rw [List.map_cons, Writing.all, node_eq, nodes_eq]
          rfl
        · rw [List.map_cons, Reading.all, first_eq, others_eq]
          rfl
  rcases all with ⟨nodes, found, nodes_eq, nodes_safe, found_eq, all_alike⟩
  refine ⟨list .list nodes, .list found, ?_, ?_, ?_, .list all_alike⟩
  · rw [ofValue, ofValues_eq, nodes_eq]
    rfl
  · rw [IsSafe]
    exact ⟨rfl, nodes_safe⟩
  · rw [read, readAll_eq]
    simp only [found_eq]
    rfl

/-- Whether the entries of a mapping are read back from what is written for them. -/
def AreReturned (indent : Nat) (entries : Entries) : Prop :=
  ∃ nodes own found, Writing.all (entries.map writeEntry) = .ok nodes ∧
    AreSafeEntries indent nodes ∧ readEntries nodes = some ⟨[], own⟩ ∧
    Reading.all (own.map fun (key, value) => Reading.both Prod.mk (Reading.asKey key) value) =
      .ok found ∧
    entries.map (·.1) = found.map (·.1) ∧
    List.Forall₂ Value.Alike (entries.map (·.2)) (found.map (·.2))

theorem areReturned {indent : Nat} {entries : Entries}
    (inside : indent + indentation < Folded.width)
    (safeKeys : ∀ entry ∈ entries, ∃ key : String, entry.1 = .text key ∧ IsSafeKey key.toList)
    (returned : ∀ entry ∈ entries, IsReturned indent entry.2) : AreReturned indent entries := by
  induction entries with
  | nil => exact ⟨[], [], [], rfl, trivial, rfl, rfl, rfl, .nil⟩
  | cons entry rest ih =>
      rw [List.forall_mem_cons] at safeKeys returned
      rcases safeKeys with ⟨⟨key, key_eq, key_safe⟩, rest_safeKeys⟩
      rcases returned with ⟨⟨node, value, node_eq, node_safe, value_eq, alike⟩, rest_returned⟩
      rcases ih rest_safeKeys rest_returned with
        ⟨nodes, own, found, nodes_eq, nodes_safe, own_eq, found_eq, keys_eq, values_alike⟩
      have name_safe : (scalar .text key.toList).IsSafe indent := by
        rw [IsSafe]
        exact ⟨rfl, key_safe.1, inside⟩
      refine ⟨(scalar .text key.toList, node) :: nodes,
        ((scalar .text key.toList).read, node.read) :: own, (.text key, value) :: found, ?_,
        ⟨⟨key.toList, rfl, key_safe⟩, name_safe, node_safe, nodes_safe⟩, ?_, ?_, ?_,
        .cons alike values_alike⟩
      · rw [List.map_cons, Writing.all, nodes_eq, writeEntry, key_eq, node_eq]
        rfl
      · rw [readEntries, own_eq]
        rfl
      · rw [List.map_cons, Reading.all, found_eq, read_text, value_eq, String.ofList_toList]
        rfl
      · rw [List.map_cons, List.map_cons, key_eq, keys_eq]

theorem isReturned_mapping {indent : Nat} {entries : Entries}
    (inside : indent + indentation + indentation < Folded.width)
    (distinct : (entries.map (·.1)).Nodup)
    (safeKeys : ∀ entry ∈ entries, ∃ key : String, entry.1 = .text key ∧ IsSafeKey key.toList)
    (returned : ∀ entry ∈ entries, IsReturned (indent + indentation) entry.2) :
    IsReturned indent (.mapping entries) := by
  have textKeys : ∀ entry ∈ entries, ∃ key, entry.1 = .text key :=
    fun entry isMember => (safeKeys entry isMember).imp fun key both => both.1
  -- The order of the keys is that of the document, and the reader keeps it.
  have perm : entries.Perm (Entries.sortBy Value.lessText entries) := Entries.perm_sortBy entries
  have sorted_returned :
      AreReturned (indent + indentation) (Entries.sortBy Value.lessText entries) :=
    areReturned inside (fun entry isMember => safeKeys entry (perm.mem_iff.mpr isMember))
      (fun entry isMember => returned entry (perm.mem_iff.mpr isMember))
  rcases sorted_returned with
    ⟨nodes, own, found, nodes_eq, nodes_safe, own_eq, found_eq, keys_eq, values_alike⟩
  have found_distinct : (found.map (·.1)).Nodup := by
    rw [← keys_eq]
    exact (perm.map _).nodup_iff.mp distinct
  have found_textKeys : ∀ key ∈ found.map (·.1), ∃ text, key = .text text := by
    rw [← keys_eq, List.forall_mem_map]
    exact fun entry isMember => textKeys entry (perm.mem_iff.mpr isMember)
  have putAll_eq : Entries.putAll [] found = [] ++ found :=
    Entries.putAll_of_pairwise (Entries.pairwise_of_distinct found_distinct found_textKeys)
  refine ⟨mapping .mapping nodes, .mapping found, ?_, ?_, ?_, .mapping perm keys_eq values_alike⟩
  · rw [ofValue_mapping textKeys, nodes_eq]
    rfl
  · rw [IsSafe]
    exact ⟨rfl, nodes_safe⟩
  · rw [read]
    simp only [own_eq, Contents.all, List.nil_append, Reading.entries, found_eq]
    simp only [Except.map, putAll_eq]
    rfl

end Node

end Yaml

open Yaml Node in
/-- Whether a value consists of texts, lists and mappings that are read back when they are written
in a collection at a column. The keys of mappings are texts that differ. -/
inductive Value.IsReadable : Nat → Value → Prop
  | text {indent : Nat} {text : String} (noNextLine : '\u0085' ∉ text.toList)
      (inside : indent + indentation < Folded.width) : IsReadable indent (.text text)
  | list {indent : Nat} {items : List Value}
      (readable : ∀ item ∈ items, IsReadable (indent + indentation) item) :
      IsReadable indent (.list items)
  | mapping {indent : Nat} {entries : Entries}
      (inside : indent + indentation + indentation < Folded.width)
      (distinct : (entries.map (·.1)).Nodup)
      (keys : ∀ entry ∈ entries, ∃ key : String, entry.1 = .text key ∧ IsSafeKey key.toList)
      (readable : ∀ entry ∈ entries, IsReadable (indent + indentation) entry.2) :
      IsReadable indent (.mapping entries)

open Yaml Node in
/-- Whether a value consists of texts of a kind, lists, and mappings with different texts of a kind
as keys, and there is room for the texts when it is written in a collection at a column. -/
inductive Value.IsMadeOf (isText isKey : String → Prop) : Nat → Value → Prop
  | text {indent : Nat} {text : String} (allowed : isText text)
      (inside : indent + indentation < Folded.width) : IsMadeOf isText isKey indent (.text text)
  | list {indent : Nat} {items : List Value}
      (made : ∀ item ∈ items, IsMadeOf isText isKey (indent + indentation) item) :
      IsMadeOf isText isKey indent (.list items)
  | mapping {indent : Nat} {entries : Entries}
      (inside : indent + indentation + indentation < Folded.width)
      (distinct : (entries.map (·.1)).Nodup)
      (keys : ∀ entry ∈ entries, ∃ key, entry.1 = .text key ∧ isKey key)
      (made : ∀ entry ∈ entries, IsMadeOf isText isKey (indent + indentation) entry.2) :
      IsMadeOf isText isKey indent (.mapping entries)

theorem Value.IsMadeOf.textKeys {isText isKey : String → Prop} {indent : Nat} {entries : Entries}
    (made : (Value.mapping entries).IsMadeOf isText isKey indent) :
    ∀ entry ∈ entries, ∃ key, entry.1 = .text key := by
  cases made with
  | mapping _ _ keys _ =>
      exact fun entry isMember => (keys entry isMember).imp fun key both => both.1

namespace Value.IsReadable

open Yaml Node

theorem of_isMadeOf {indent : Nat} {value : Value}
    (made : value.IsMadeOf (fun text => '\u0085' ∉ text.toList) (fun key => IsSafeKey key.toList)
      indent) : value.IsReadable indent := by
  induction made with
  | text noNextLine inside => exact .text noNextLine inside
  | list _ ih => exact .list ih
  | mapping inside distinct keys _ ih => exact .mapping inside distinct keys ih

theorem isReturned {indent : Nat} {value : Value} (readable : value.IsReadable indent) :
    IsReturned indent value := by
  induction readable with
  | text noNextLine inside =>
      refine ⟨_, _, rfl, ?_, read_text, ?_⟩
      · rw [IsSafe]
        exact ⟨rfl, noNextLine, inside⟩
      · rw [String.ofList_toList]
        exact .same _
  | list _ ih => exact isReturned_list ih
  | mapping inside distinct keys _ ih => exact isReturned_mapping inside distinct keys ih

/-- What is read from the document of a mapping is the mapping. -/
theorem load_document {indent : Nat} {entry : Value × Value} {entries : Entries}
    (readable : (Value.mapping (entry :: entries)).IsReadable indent) :
    ∃ nodes found, ofValue (.mapping (entry :: entries)) = .ok (.mapping .mapping nodes) ∧
      (∀ c ∈ writeDocument nodes, IsLasting c) ∧ load (writeDocument nodes) = .ok found ∧
      (Value.mapping (entry :: entries)).Alike found := by
  rcases readable.isReturned with ⟨node, found, node_eq, safe, found_eq, alike⟩
  have textKeys : ∀ other ∈ entry :: entries, ∃ key, other.1 = .text key := by
    cases readable with
    | mapping _ _ keys _ =>
        exact fun other isMember => (keys other isMember).imp fun key both => both.1
  rcases exists_mapping_of_ofValue textKeys node_eq with ⟨first, nodes, rfl⟩
  refine ⟨first :: nodes, found, node_eq, ?_, ?_, alike⟩
  · simp only [IsSafe] at safe
    exact isLasting_writeDocument safe.2
  · rw [load_writeDocument safe, found_eq]
    rfl

end Value.IsReadable

end RbacManifest
