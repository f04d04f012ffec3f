import RbacManifest.Proofs.Yaml.Layout

/-!
# Reading trees from tokens

The tokens of a value are read as its tree, in at most three steps for each of them, and the tree
has the value as its node: `Node.value_tokens` and `Node.ofTree_toTree`.
-/

namespace RbacManifest

namespace Yaml

namespace Node

mutual

/-- The tree of a value without properties. -/
def toTree : Node → Tree
  | scalar _ text => .scalar {} text (isPlain text)
  | list _ items => .list {} (toTrees items)
  | mapping _ entries => .mapping {} (toEntries entries)
  | enclosing _ => .blank

/-- The trees of the members of a list. -/
def toTrees : List Node → List Tree
  | [] => []
  | node :: rest => node.toTree :: toTrees rest

/-- The trees of the entries of a mapping. -/
def toEntries : List (Node × Node) → List (Tree × Tree)
  | [] => []
  | (key, value) :: rest => (key.toTree, value.toTree) :: toEntries rest

end

end Node

namespace Tree

variable {handles : Handles} {place : Place} {isIndented : Bool} {fuel : Nat} {token : Token}
  {tokens others rest : List Token}

/-! ## Steps of the reading -/

theorem value_scalar {text : List Char} {isPlain : Bool} :
    value handles place (fuel + 1) (.scalar text isPlain :: rest) =
      .ok (.scalar {} text isPlain, rest) := by
  simp [value, properties]
  rfl

theorem value_emptyList :
    value handles place (fuel + 2) (.listStart :: .listEnd :: rest) = .ok (.list {} [], rest) := by
  simp [value, properties]
  rfl

theorem value_emptyMapping :
    value handles place (fuel + 2) (.mappingStart :: .mappingEnd :: rest) =
      .ok (.mapping {} [], rest) := by
  simp [value, properties]
  rfl

theorem value_blockList {found : List Tree} (notFlow : place ≠ .inFlow)
    (items_eq : items handles true fuel tokens = .ok (found, rest)) :
    value handles place (fuel + 1) (.blockList :: tokens) = .ok (.list {} found, rest) := by
  have collects : value handles place (fuel + 1) (.blockList :: tokens) =
      (items handles true fuel tokens).map fun found => (.list {} found.1, found.2) := by
    cases place with
    | inFlow => exact absurd rfl notFlow
    | inBlock => rfl
    | inMapping => rfl
  rw [collects, items_eq]
  rfl

theorem value_blockMapping {found : List (Tree × Tree)} (notFlow : place ≠ .inFlow)
    (entries_eq : entries handles fuel tokens = .ok (found, rest)) :
    value handles place (fuel + 1) (.blockMapping :: tokens) = .ok (.mapping {} found, rest) := by
  have collects : value handles place (fuel + 1) (.blockMapping :: tokens) =
      (entries handles fuel tokens).map fun found => (.mapping {} found.1, found.2) := by
    cases place with
    | inFlow => exact absurd rfl notFlow
    | inBlock => rfl
    | inMapping => rfl
  rw [collects, entries_eq]
  rfl

theorem value_entry {found : List Tree}
    (items_eq : items handles false fuel (.entry :: tokens) = .ok (found, rest)) :
    value handles .inMapping (fuel + 1) (.entry :: tokens) = .ok (.list {} found, rest) := by
  have collects : value handles .inMapping (fuel + 1) (.entry :: tokens) =
      (items handles false fuel (.entry :: tokens)).map
        fun found => (.list {} found.1, found.2) := rfl
  rw [collects, items_eq]
  rfl

theorem part_of_value {stops : List Token} (notStop : token ∉ stops) :
    part handles place stops (fuel + 1) (token :: tokens) =
      value handles place fuel (token :: tokens) := by
  rw [part, if_neg]
  simpa [atAny] using notStop

theorem items_cons {item : Tree} {found : List Tree}
    (notStop : token ∉ [.entry, .key, .value, .blockEnd])
    (value_eq : value handles .inBlock fuel (token :: tokens) = .ok (item, others))
    (items_eq : items handles isIndented (fuel + 1) others = .ok (found, rest)) :
    items handles isIndented (fuel + 2) (.entry :: token :: tokens) =
      .ok (item :: found, rest) := by
  have notStop : token ∉ if isIndented then [Token.entry, .blockEnd] else
      [.entry, .key, .value, .blockEnd] := by
    split
    · simp at notStop ⊢
      tauto
    · exact notStop
  rw [items, part_of_value notStop, value_eq]
  simp only [bind, Except.bind, items_eq, pure, Except.pure]

theorem items_blockEnd : items handles true (fuel + 1) (.blockEnd :: rest) = .ok ([], rest) := by
  simp [items]

theorem items_end (notEntry : rest.head? ≠ some .entry) :
    items handles false (fuel + 1) rest = .ok ([], rest) := by
  rw [items]
  rintro tokens rfl
  simp at notEntry

theorem pair_of_value {first second : Token} {key value : Tree} {middle : List Token}
    (notStop : first ∉ [.key, .value, .blockEnd]) (notEnd : second ∉ [.key, .value, .blockEnd])
    (key_eq : Tree.value handles .inMapping fuel (first :: tokens) =
      .ok (key, .value :: second :: middle))
    (value_eq : Tree.value handles .inMapping fuel (second :: middle) = .ok (value, others)) :
    pair handles .inMapping [.key, .value, .blockEnd] (fuel + 2) (first :: tokens) =
      .ok ((key, value), others) := by
  rw [pair, part_of_value notStop, key_eq]
  simp only [bind, Except.bind, true_or, decide_true, List.filter_true]
  rw [part_of_value notEnd, value_eq]
  rfl

theorem entries_cons {entry : Tree × Tree} {found : List (Tree × Tree)}
    (pair_eq : pair handles .inMapping [.key, .value, .blockEnd] fuel tokens = .ok (entry, others))
    (entries_eq : entries handles fuel others = .ok (found, rest)) :
    entries handles (fuel + 1) (.key :: tokens) = .ok (entry :: found, rest) := by
  rw [entries, pair_eq]
  simp only [bind, Except.bind, entries_eq, pure, Except.pure]

theorem entries_blockEnd : entries handles (fuel + 1) (.blockEnd :: rest) = .ok ([], rest) := by
  rw [entries]

theorem ofTokens?_blockMapping {tree : Tree}
    (value_eq : value standardHandles .inBlock (steps (.blockMapping :: tokens))
      (.blockMapping :: tokens) = .ok (tree, [])) :
    ofTokens? (.blockMapping :: tokens) = .ok (some tree) := by
  have document?_eq : document? (.blockMapping :: tokens) =
      (value standardHandles .inBlock (steps (.blockMapping :: tokens))
        (.blockMapping :: tokens)).map fun found => (some found.1, found.2) := rfl
  rw [ofTokens?, onlyDocument?, document?_eq, value_eq]
  rfl

end Tree

/-! ## Trees of values -/

namespace Node

variable {bound fuel : Nat} {sameLine : Bool} {node : Node} {handles : Tree.Handles}
  {place : Tree.Place} {rest : List Token}

/-- The tokens of a value begin with one that no value ends at. -/
theorem exists_tokens_cons (sameLine : Bool) (safe : node.IsSafe bound) :
    ∃ token tokens, node.tokens sameLine = token :: tokens ∧
      token ∉ [.key, .value, .blockEnd] ∧ (sameLine = true → token ≠ .entry) := by
  cases node with
  | scalar tag text => exact ⟨_, _, by rw [tokens], by simp, by simp⟩
  | list tag items =>
      cases items with
      | nil => exact ⟨_, _, by rw [tokens], by simp, by simp⟩
      | cons first rest =>
          rw [tokens_list, itemTokens]
          cases sameLine with
          | true => exact ⟨_, _, rfl, by simp, by simp⟩
          | false => exact ⟨_, _, rfl, by simp, by simp⟩
  | mapping tag entries =>
      cases entries with
      | nil => exact ⟨_, _, by rw [tokens], by simp, by simp⟩
      | cons first rest => exact ⟨_, _, tokens_mapping first rest tag, by simp, by simp⟩
  | enclosing holder => simp [IsSafe] at safe

-- Between a member of a list and the value in it the reader takes two steps, between an entry of a
-- mapping and its values three; each of these has a token of its own in front.
mutual

/-- The tokens of a value are read as its tree. -/
theorem value_tokens {sameLine : Bool} {bound fuel : Nat} {place : Tree.Place} {rest : List Token}
    (notFlow : place ≠ .inFlow) :
    (node : Node) → node.IsSafe bound → 3 * (node.tokens sameLine).length + 2 ≤ fuel →
      (sameLine = false → place = .inMapping ∧ rest.head? ≠ some .entry) →
      Tree.value handles place fuel (node.tokens sameLine ++ rest) = .ok (node.toTree, rest)
  | scalar tag text, _, enough, _ => by
      rcases Nat.exists_eq_add_of_le' (Nat.le_of_add_left_le enough) with ⟨fuel, rfl⟩
      rw [tokens, toTree]
      exact Tree.value_scalar
  | list tag [], _, enough, _ => by
      rcases Nat.exists_eq_add_of_le' (Nat.le_of_add_left_le enough) with ⟨fuel, rfl⟩
      rw [tokens, toTree]
      exact Tree.value_emptyList
  | mapping tag [], _, enough, _ => by
      rcases Nat.exists_eq_add_of_le' (Nat.le_of_add_left_le enough) with ⟨fuel, rfl⟩
      rw [tokens, toTree]
      exact Tree.value_emptyMapping
  | list tag (first :: items), safe, enough, inPlace => by
      rcases Nat.exists_eq_add_of_le' (Nat.le_of_add_left_le enough) with ⟨fuel, rfl⟩
      simp only [IsSafe] at safe
      rw [tokens_list] at enough ⊢
      rw [toTree]
      cases sameLine with
      | true =>
          simp only [if_true, List.cons_append, List.append_assoc, List.length_cons,
            List.length_append] at enough ⊢
          apply Tree.value_blockList notFlow
          exact items_tokens true (first :: items) safe.2 (by omega) (by simp)
      | false =>
          -- No token ends such a list: it ends in front of what is no dash.
          rcases inPlace rfl with ⟨rfl, notEntry⟩
          simp only [Bool.false_eq_true, if_false] at enough ⊢
          apply Tree.value_entry
          exact items_tokens false (first :: items) safe.2 (by omega)
            (fun _ => notEntry)
  | mapping tag (first :: entries), safe, enough, _ => by
      rcases Nat.exists_eq_add_of_le' (Nat.le_of_add_left_le enough) with ⟨fuel, rfl⟩
      simp only [IsSafe] at safe
      rw [tokens_mapping] at enough ⊢
      rw [toTree]
      simp only [List.cons_append, List.append_assoc, List.length_cons, List.length_append]
        at enough ⊢
      apply Tree.value_blockMapping notFlow
      exact entries_tokens (first :: entries) safe.2 (by omega)
  | enclosing holder, safe, _, _ => by simp [IsSafe] at safe

theorem items_tokens (isIndented : Bool) {bound fuel : Nat} {rest : List Token} :
    (items : List Node) → AreSafe bound items → 3 * (itemTokens items).length + 1 ≤ fuel →
      (isIndented = false → rest.head? ≠ some .entry) →
      Tree.items handles isIndented fuel
        (itemTokens items ++ ((if isIndented then [.blockEnd] else []) ++ rest)) =
          .ok (toTrees items, rest)
  | [], _, enough, ends => by
      rcases Nat.exists_eq_add_of_le' (Nat.le_of_add_left_le enough) with ⟨fuel, rfl⟩
      rw [itemTokens, toTrees]
      cases isIndented with
      | true => exact Tree.items_blockEnd
      | false => exact Tree.items_end (ends rfl)
  | node :: items, safe, enough, ends => by
      rcases exists_tokens_cons true safe.1 with ⟨token, tokens, tokens_eq, notStop, notEntry⟩
      have item_eq {less : Nat} {others : List Token}
          (item_enough : 3 * (node.tokens true).length + 2 ≤ less) :
          Tree.value handles .inBlock less (node.tokens true ++ others) =
            .ok (node.toTree, others) :=
        value_tokens (by decide) node safe.1 item_enough (by simp)
      rw [itemTokens, toTrees]
      simp only [itemTokens, List.length_append, List.length_cons, List.cons_append,
        List.append_assoc] at enough ⊢
      rcases Nat.exists_eq_add_of_le' (show 2 ≤ fuel by omega) with ⟨fuel, rfl⟩
      rw [tokens_eq] at item_eq enough ⊢
      refine Tree.items_cons ?_ (item_eq ?_) (items_tokens isIndented items safe.2 (by omega) ends)
      · simp at notStop ⊢
        exact ⟨notEntry rfl, notStop⟩
      · omega

theorem entries_tokens {bound fuel : Nat} {rest : List Token} :
    (entries : List (Node × Node)) → AreSafeEntries bound entries →
      3 * (entryTokens entries).length + 1 ≤ fuel →
      Tree.entries handles fuel (entryTokens entries ++ .blockEnd :: rest) =
        .ok (toEntries entries, rest)
  | [], _, enough => by
      rcases Nat.exists_eq_add_of_le' (Nat.le_of_add_left_le enough) with ⟨fuel, rfl⟩
      exact Tree.entries_blockEnd
  | (key, value) :: entries, safe, enough => by
      rcases safe with ⟨_, key_safe, value_safe, entries_safe⟩
      rcases exists_tokens_cons true key_safe with ⟨first, firsts, key_tokens, key_notStop, _⟩
      rcases exists_tokens_cons (!key.isShortKey) value_safe with
        ⟨second, seconds, value_tokens_eq, value_notStop, _⟩
      rw [toEntries]
      simp only [entryTokens, List.length_append, List.length_cons, List.cons_append,
        List.append_assoc] at enough ⊢
      have key_eq {others : List Token} :
          Tree.value handles .inMapping (fuel - 3) (key.tokens true ++ others) =
            .ok (key.toTree, others) :=
        value_tokens (by decide) key key_safe (by omega) (by simp)
      have value_eq {others : List Token} (notEntry : others.head? ≠ some .entry) :
          Tree.value handles .inMapping (fuel - 3) (value.tokens (!key.isShortKey) ++ others) =
            .ok (value.toTree, others) :=
        value_tokens (by decide) value value_safe (by omega) (fun _ => ⟨rfl, notEntry⟩)
      have notEntry : (entryTokens entries ++ .blockEnd :: rest).head? ≠ some .entry := by
        cases entries <;> simp [entryTokens]
      rcases Nat.exists_eq_add_of_le' (show 3 ≤ fuel by omega) with ⟨fuel, rfl⟩
      rw [key_tokens, value_tokens_eq] at *
      exact Tree.entries_cons
        (Tree.pair_of_value key_notStop value_notStop key_eq (value_eq notEntry))
        (entries_tokens entries entries_safe (by omega))

end

theorem scalarTag_isPlain (text : List Char) : scalarTag {} text (isPlain text) = .text := by
  rcases writeScalar_cases false 0 0 text with
    ⟨plain, tag_eq, _⟩ | ⟨notPlain, _⟩ | ⟨notPlain, _⟩
  · rw [scalarTag, plain]
    exact tag_eq
  · rw [scalarTag, notPlain]
    rfl
  · rw [scalarTag, notPlain]
    rfl

mutual

/-- The node of the tree of a value is the value. -/
theorem ofTree_toTree {bound : Nat} :
    (node : Node) → node.IsSafe bound → ofTree [] node.toTree = .ok (node, [])
  | scalar tag text, safe => by
      simp only [IsSafe] at safe
      rw [toTree, ofTree, safe.1, scalarTag_isPlain]
      rfl
  | list tag items, safe => by
      simp only [IsSafe] at safe
      have items_eq : ofTrees (Anchors.entering none false []) (toTrees items) =
          .ok (items, []) :=
        ofTrees_toTrees items safe.2
      rw [toTree, ofTree, safe.1]
      simp only [items_eq]
      rfl
  | mapping tag entries, safe => by
      simp only [IsSafe] at safe
      have entries_eq : ofEntries (Anchors.entering none true []) (toEntries entries) =
          .ok (entries, []) :=
        ofEntries_toEntries entries safe.2
      rw [toTree, ofTree, safe.1]
      simp only [entries_eq]
      rfl
  | enclosing holder, safe => by simp [IsSafe] at safe

theorem ofTrees_toTrees {bound : Nat} :
    (items : List Node) → AreSafe bound items → ofTrees [] (toTrees items) = .ok (items, [])
  | [], _ => rfl
  | node :: rest, safe => by
      rw [toTrees, ofTrees, ofTree_toTree node safe.1]
      simp only [bind, Except.bind]
      rw [ofTrees_toTrees rest safe.2]
      rfl

theorem ofEntries_toEntries {bound : Nat} :
    (entries : List (Node × Node)) → AreSafeEntries bound entries →
      ofEntries [] (toEntries entries) = .ok (entries, [])
  | [], _ => rfl
  | (key, value) :: rest, safe => by
      rw [toEntries, ofEntries, ofTree_toTree key safe.2.1]
      simp only [bind, Except.bind]
      rw [ofTree_toTree value safe.2.2.1]
      simp only
      rw [ofEntries_toEntries rest safe.2.2.2]
      rfl

end

/-- The tokens of a mapping are read as a document. -/
theorem ofTokens?_tokens {entry : Node × Node} {entries : List (Node × Node)}
    (safe : (mapping .mapping (entry :: entries)).IsSafe bound) :
    Tree.ofTokens? ((mapping .mapping (entry :: entries)).tokens true) =
      .ok (some (mapping .mapping (entry :: entries)).toTree) := by
  have value_eq : Tree.value Tree.standardHandles .inBlock
      (Tree.steps ((mapping .mapping (entry :: entries)).tokens true))
      ((mapping .mapping (entry :: entries)).tokens true ++ []) =
        .ok ((mapping .mapping (entry :: entries)).toTree, []) :=
    value_tokens (by decide) _ safe (by rw [Tree.steps]; omega) (by simp)
  rw [List.append_nil] at value_eq
  rw [tokens_mapping] at value_eq ⊢
  exact Tree.ofTokens?_blockMapping value_eq

end Node

end Yaml

end RbacManifest
