import RbacManifest.Proofs.Marker.Fault

/-!
# Segments of markers

The commas of a marker body separate segments, and the rule of the marker is read from these one
after the other. What two bodies state is therefore stated by both together, and only the order of
the segments with one key matters: `Marker.rule_isCompositional`.
-/

namespace RbacManifest

/-- Two rules taken together field by field. -/
def Rule.join (first second : Rule) : Rule where
  target := {
    apiGroups := first.target.apiGroups ++ second.target.apiGroups
    resources := first.target.resources ++ second.target.resources
    resourceNames := first.target.resourceNames ++ second.target.resourceNames
    urls := first.target.urls ++ second.target.urls }
  verbs := first.verbs ++ second.verbs
  source := first.source

namespace Marker

/-- What stands between the commas of a body. -/
def segments (body : List Char) : List (List Char) :=
  Text.pieces ',' body

/-- Whether a key stands in front of the first equals sign of a segment. -/
inductive HasKey (key : Key) : List Char → Prop
  | stated {name value : List Char} (absent : '=' ∉ name)
      (isKey : String.ofList (Text.trim name) = key.name) : HasKey key (name ++ '=' :: value)

variable {key other : Key} {segment text body first second : List Char}
  {parts more : List (List Char)} {place : SourcePosition}

theorem hasKey_iff : HasKey key text ↔ ∃ values, pair text = .ok (key, values) := by
  constructor
  · rintro ⟨absent, isKey⟩
    rw [pair, Text.cut?_append absent]
    simp only [isKey, Key.ofString?_name]
    exact ⟨_, rfl⟩
  · rintro ⟨values, read⟩
    rw [pair] at read
    split at read
    · cases read
    · next name value cut =>
      rcases Text.eq_append_of_cut? cut with ⟨rfl, absent⟩
      simp only at read
      split at read
      · cases read
      · next found =>
        cases read
        exact .stated absent (Key.name_of_ofString? found).symm

instance : DecidablePred (HasKey key) := fun text =>
  decidable_of_iff ((pair text).toOption.map (·.1) = some key) <| by
    rw [hasKey_iff]
    cases pair text with
    | error fault => simp [Except.toOption]
    | ok read => simp [Except.toOption, Prod.ext_iff]

theorem isBlank_equals : Text.isBlank '=' = false := by
  decide

/-- White space around a segment does not matter to its key. -/
theorem hasKey_trim_iff : HasKey key (Text.trim segment) ↔ HasKey key segment := by
  constructor
  · intro has
    rcases Text.trim_eq_iff.mp (Eq.refl (Text.trim segment)) with
      ⟨_, margin, behind, isMargin, _, split⟩
    have noEquals : '=' ∉ margin := by
      intro isMember
      have isBlank := List.all_eq_true.mp isMargin '=' isMember
      simp [isBlank_equals] at isBlank
    generalize Text.trim segment = inner at has split
    cases has with
    | @stated name value absent isKey =>
        rw [split, List.append_assoc, List.append_assoc, ← List.append_assoc margin,
          List.cons_append]
        apply HasKey.stated
        · simp [noEquals, absent]
        · rw [Text.trim_append isMargin, isKey]
  · intro has
    cases has with
    | @stated name value absent isKey =>
        rw [Text.trim_append_cons isBlank_equals]
        apply HasKey.stated
        · intro isMember
          rcases Text.exists_trimStart name with ⟨margin, _, split⟩
          apply absent
          rw [split]
          exact List.mem_append_right _ isMember
        · rw [Text.trim_trimStart, isKey]

theorem HasKey.unique (has : HasKey key text) (hasOther : HasKey other text) : other = key := by
  rcases hasKey_iff.mp has with ⟨values, read⟩
  rcases hasKey_iff.mp hasOther with ⟨others, otherRead⟩
  rw [read] at otherRead
  cases otherRead
  rfl

theorem HasKey.not_blank (has : HasKey key text) : text.all Text.isBlank ≠ true := by
  intro blank
  rw [List.all_eq_true] at blank
  cases has with
  | stated absent isKey =>
      have isBlank := blank '=' (by simp)
      simp [isBlank_equals] at isBlank

/-! ## Reading segments -/

/-- The segments that are more than white space, without the white space around them. -/
def writtenParts (parts : List (List Char)) : List (List Char) :=
  (parts.map Text.trim).filter (!·.isEmpty)

/-- The pairs that segments state. -/
def readParts (parts : List (List Char)) : Except Fault (List (Key × List String)) :=
  (writtenParts parts).mapM pair

/-- The rule that pairs state at a place. -/
def ofPairs (place : SourcePosition) (pairs : List (Key × List String)) : Rule where
  target := {
    apiGroups := (valuesOf .groups pairs).map apiGroup
    resources := valuesOf .resources pairs
    resourceNames := valuesOf .resourceNames pairs
    urls := valuesOf .urls pairs }
  verbs := valuesOf .verbs pairs
  source := some place

theorem rule_eq : rule body place = (readParts (segments body)).map (ofPairs place) := by
  change (readParts (segments body) >>= fun pairs => pure (ofPairs place pairs)) = _
  cases readParts (segments body) <;> rfl

theorem readParts_append :
    readParts (parts ++ more) =
      (readParts parts >>= fun pairs => (readParts more).map (pairs ++ ·)) := by
  have written : writtenParts (parts ++ more) = writtenParts parts ++ writtenParts more := by
    simp only [writtenParts, List.map_append, List.filter_append]
  rw [readParts, readParts, readParts, written, List.mapM_append]
  cases (writtenParts parts).mapM pair with
  | error fault => rfl
  | ok pairs => cases (writtenParts more).mapM pair <;> rfl

theorem readParts_of_blank (blank : segment.all Text.isBlank = true) :
    readParts [segment] = .ok [] := by
  have nothing : Text.trim segment = [] := Text.trim_eq_nil_iff.mpr blank
  simp [readParts, writtenParts, nothing]
  rfl

/-- The values that a segment states, whatever its key is. -/
def statedValues (segment : List Char) : List String :=
  match pair (Text.trim segment) with
  | .ok (_, values) => values
  | .error _ => []

theorem readParts_of_hasKey (has : HasKey key segment) :
    readParts [segment] = .ok [(key, statedValues segment)] := by
  have given : Text.trim segment ≠ [] := by
    intro nothing
    exact has.not_blank (Text.trim_eq_nil_iff.mp nothing)
  rcases hasKey_iff.mp (hasKey_trim_iff.mpr has) with ⟨values, read⟩
  have written : writtenParts [segment] = [Text.trim segment] := by
    simp [writtenParts, given]
  rw [readParts, written, List.mapM_cons, statedValues, read]
  rfl

/-- The values that segments state for a key. -/
def partValues (parts : List (List Char)) (key : Key) : List String :=
  (parts.filter (HasKey key ·)).flatMap statedValues

theorem exists_readParts_iff :
    (∃ pairs, readParts parts = .ok pairs) ↔
      ∀ segment ∈ parts, segment.all Text.isBlank = true ∨ ∃ key, HasKey key segment := by
  simp only [readParts, Except.exists_mapM_iff, writtenParts, List.forall_mem_filter,
    List.forall_mem_map]
  apply forall₂_congr
  intro segment _
  have isRead : (∃ result, pair (Text.trim segment) = .ok result) ↔ ∃ key, HasKey key segment := by
    simp only [Prod.exists, ← hasKey_iff, hasKey_trim_iff]
  rw [isRead, ← Text.trim_eq_nil_iff]
  cases Text.trim segment <;> simp

theorem partValues_cons :
    partValues (segment :: parts) key =
      (if HasKey key segment then statedValues segment else []) ++ partValues parts key := by
  by_cases has : HasKey key segment
  · simp [partValues, has]
  · simp [partValues, has]

/-- The values of a key are those of its segments, in their order. -/
theorem valuesOf_eq {pairs : List (Key × List String)} (read : readParts parts = .ok pairs) :
    valuesOf key pairs = partValues parts key := by
  induction parts generalizing pairs with
  | nil =>
      cases read
      rfl
  | cons part rest ih =>
      have accepted := exists_readParts_iff.mp ⟨pairs, read⟩ part (by simp)
      rw [← List.singleton_append, readParts_append] at read
      rcases Except.bind_eq_ok_iff.mp read with ⟨own, own_eq, rest_eq⟩
      rcases Except.map_eq_ok_iff.mp rest_eq with ⟨others, others_eq, rfl⟩
      rw [partValues_cons, ← ih others_eq]
      rcases accepted with blank | ⟨other, has⟩
      · rw [readParts_of_blank blank] at own_eq
        cases own_eq
        rw [if_neg fun has => has.not_blank blank]
        rfl
      · rw [readParts_of_hasKey has] at own_eq
        cases own_eq
        have hasKey_eq : HasKey key part ↔ other = key :=
          ⟨fun hasOther => hasOther.unique has, fun same => same ▸ has⟩
        simp only [hasKey_eq]
        rfl

/-! ## Markers made of other markers -/

/-- Whether a segment states nothing that belongs to a rule. -/
def IsInert (segment : List Char) : Prop :=
  segment.all Text.isBlank = true ∨ HasKey .namespaces segment

/-- Whether bodies are read segment by segment, from the first to the last. -/
structure IsCompositional (place : SourcePosition) : Prop where
  firstFails : ∀ first second fault, rule first place = .error fault →
    rule (first ++ ',' :: second) place = .error fault
  secondFails : ∀ first second stated fault, rule first place = .ok stated →
    rule second place = .error fault → rule (first ++ ',' :: second) place = .error fault
  joined : ∀ first second stated other, rule first place = .ok stated →
    rule second place = .ok other →
      rule (first ++ ',' :: second) place = .ok (stated.join other)
  accepted_iff : ∀ body, (∃ stated, rule body place = .ok stated) ↔
    ∀ segment ∈ segments body, segment.all Text.isBlank = true ∨ ∃ key, HasKey key segment
  /-- The order of segments counts only among those with one key that rules have. -/
  permuted : ∀ body other stated, rule body place = .ok stated →
    (segments other).Perm (segments body) →
    (∀ key ∈ ruleKeys,
      (segments other).filter (HasKey key ·) = (segments body).filter (HasKey key ·)) →
    rule other place = .ok stated
  /-- Inert segments may be inserted and deleted, also where a marker is malformed. -/
  inserted : ∀ body other before behind segment, IsInert segment →
    segments body = before ++ behind → segments other = before ++ segment :: behind →
    rule other place = rule body place

theorem ofPairs_append {pairs others : List (Key × List String)} :
    ofPairs place (pairs ++ others) = (ofPairs place pairs).join (ofPairs place others) := by
  simp [ofPairs, Rule.join, valuesOf]

theorem rule_join :
    rule (first ++ ',' :: second) place =
      (rule first place >>= fun stated => (rule second place).map stated.join) := by
  have split : segments (first ++ ',' :: second) = segments first ++ segments second :=
    Text.pieces_append_separator
  rw [rule_eq, rule_eq, rule_eq, split, readParts_append]
  cases readParts (segments first) with
  | error fault => rfl
  | ok pairs =>
      cases readParts (segments second) with
      | error fault => rfl
      | ok others => exact congrArg Except.ok ofPairs_append

theorem exists_rule_iff :
    (∃ stated, rule body place = .ok stated) ↔
      ∀ segment ∈ segments body, segment.all Text.isBlank = true ∨ ∃ key, HasKey key segment := by
  rw [← exists_readParts_iff, rule_eq]
  cases readParts (segments body) <;> simp [Except.map]

/-- What an accepted body states follows from the values of its keys. -/
theorem rule_eq_of_partValues {other : List Char} {stated : Rule}
    (read : rule body place = .ok stated) (accepted : ∃ found, rule other place = .ok found)
    (same : ∀ key ∈ ruleKeys,
      partValues (segments other) key = partValues (segments body) key) :
    rule other place = .ok stated := by
  rcases accepted with ⟨found, otherRead⟩
  rw [rule_eq] at read otherRead ⊢
  rcases Except.map_eq_ok_iff.mp read with ⟨pairs, pairs_eq, rfl⟩
  rcases Except.map_eq_ok_iff.mp otherRead with ⟨others, others_eq, _⟩
  simp only [ruleKeys, List.forall_mem_cons, ← valuesOf_eq pairs_eq, ← valuesOf_eq others_eq]
    at same
  rcases same with ⟨groups, resources, resourceNames, verbs, urls, _⟩
  rw [others_eq, Except.map, ofPairs, groups, resources, resourceNames, verbs, urls]
  rfl

theorem rule_of_perm {other : List Char} {stated : Rule} (read : rule body place = .ok stated)
    (perm : (segments other).Perm (segments body))
    (kept : ∀ key ∈ ruleKeys,
      (segments other).filter (HasKey key ·) = (segments body).filter (HasKey key ·)) :
    rule other place = .ok stated := by
  apply rule_eq_of_partValues read
  · apply exists_rule_iff.mpr
    intro segment isMember
    exact exists_rule_iff.mp ⟨stated, read⟩ segment (perm.mem_iff.mp isMember)
  · intro key isKey
    rw [partValues, partValues, kept key isKey]

theorem exists_readParts_of_isInert (place : SourcePosition) (inert : IsInert segment) :
    ∃ own, readParts [segment] = .ok own ∧
      ∀ others, ofPairs place (own ++ others) = ofPairs place others := by
  rcases inert with blank | has
  · exact ⟨[], readParts_of_blank blank, fun others => rfl⟩
  · exact ⟨_, readParts_of_hasKey has, fun others => rfl⟩

theorem rule_insert {other : List Char} {before behind : List (List Char)}
    (inert : IsInert segment) (split : segments body = before ++ behind)
    (inserted : segments other = before ++ segment :: behind) :
    rule other place = rule body place := by
  rcases exists_readParts_of_isInert place inert with ⟨own, own_eq, states_nothing⟩
  have insert_eq : readParts (before ++ segment :: behind) = (readParts before >>= fun pairs =>
      (readParts behind).map fun others => pairs ++ (own ++ others)) := by
    rw [readParts_append, ← List.singleton_append, readParts_append, own_eq]
    cases readParts behind <;> rfl
  rw [rule_eq, rule_eq, split, inserted, insert_eq, readParts_append]
  cases readParts before with
  | error fault => rfl
  | ok pairs =>
      cases readParts behind with
      | error fault => rfl
      | ok others =>
          apply congrArg Except.ok
          rw [ofPairs_append, states_nothing, ← ofPairs_append]

/-- Markers are read segment by segment. Of a marker that is put together from two, the first fault
is reported, and if there is none their rules are taken together. -/
theorem rule_isCompositional (place : SourcePosition) : IsCompositional place := by
  constructor
  · intro first second fault failed
    rw [rule_join, failed]
    rfl
  · intro first second stated fault read failed
    rw [rule_join, read, failed]
    rfl
  · intro first second stated other read otherRead
    rw [rule_join, read, otherRead]
    rfl
  · intro body
    exact exists_rule_iff
  · intro body other stated read perm kept
    exact rule_of_perm read perm kept
  · intro body other before behind segment inert split inserted
    exact rule_insert inert split inserted

end Marker

end RbacManifest
