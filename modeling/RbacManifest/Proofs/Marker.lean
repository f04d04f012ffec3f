import RbacManifest.Marker
import RbacManifest.Proofs.Text.Blank
import RbacManifest.Proofs.Text.Line
import RbacManifest.Proofs.Text.Split

/-!
# Written markers

Rules of texts without commas, semicolons and line ends can be written as markers. `Marker.Line` is
such a line with all that its writer is free to choose, and the rule is read back from the line
whatever was chosen: `Line.body?_text`, `rule_writeBody`.
-/

namespace RbacManifest

namespace Marker

/-! ## Writing -/

/-- The spelling of a key. -/
def Key.name : Key → String
  | .groups => "groups"
  | .resources => "resources"
  | .resourceNames => "resourceNames"
  | .verbs => "verbs"
  | .urls => "urls"
  | .namespaces => "namespace"

/-- The texts of a rule that are written behind a key. -/
def Key.values (rule : Rule) : Key → List String
  | .groups => rule.target.apiGroups
  | .resources => rule.target.resources
  | .resourceNames => rule.target.resourceNames
  | .verbs => rule.verbs
  | .urls => rule.target.urls
  | .namespaces => []

/-- The keys that a rule is written with. -/
def ruleKeys : List Key := [.groups, .resources, .resourceNames, .verbs, .urls]

/-- A member of a value between quotes. -/
def writeMember (text : String) : List Char :=
  '"' :: text.toList ++ ['"']

/-- Texts as a value: every one between quotes, with semicolons between them. -/
def writeValue (values : List String) : List Char :=
  [';'].intercalate (values.map writeMember)

/-- A key of a rule with its value. -/
def writePair (rule : Rule) (key : Key) : List Char :=
  key.name.toList ++ '=' :: writeValue (key.values rule)

/-- The body of a marker for a rule, with its keys in a given order. -/
def writeBody (rule : Rule) (keys : List Key) : List Char :=
  [','].intercalate (keys.map (writePair rule))

/-- The rule that is read from the marker for a rule at a place. -/
def reading (rule : Rule) (place : SourcePosition) : Rule :=
  { target := { rule.target with apiGroups := rule.target.apiGroups.map apiGroup }
    verbs := rule.verbs
    source := some place }

/-- Whether a text can stand in a marker: it does not separate members, pairs or lines. -/
def IsWritable (text : String) : Prop :=
  ';' ∉ text.toList ∧ ',' ∉ text.toList ∧ Text.IsUnbroken text.toList

instance : DecidablePred IsWritable := fun _ => inferInstanceAs (Decidable (_ ∧ _))

/-- A line with a marker for a rule: white space, the token of a comment, white space again, and
the opening of a marker in front of the pairs, which come in any order. -/
structure Line (tokens : List String) where
  rule : Rule
  margin : List Char
  token : String
  gap : List Char
  opening : String
  keys : List Key
  writable : ∀ key ∈ ruleKeys, ∀ text ∈ key.values rule, IsWritable text
  isMargin : margin.all Text.isBlank = true
  isUnbrokenMargin : Text.IsUnbroken margin
  isToken : token ∈ tokens
  isGap : gap.all Text.isBlank = true
  isUnbrokenGap : Text.IsUnbroken gap
  isOpening : opening ∈ openings
  isOrder : keys.Perm ruleKeys

/-- The text of a marker line. -/
def Line.text {tokens : List String} (line : Line tokens) : List Char :=
  line.margin ++ (line.token.toList ++ (line.gap ++ (line.opening.toList ++
    writeBody line.rule line.keys)))

/-! ## Members -/

section Members

variable {text : String} {values : List String}

theorem isTight_writeMember : Text.IsTight (writeMember text) := by
  refine ⟨rfl, ?_⟩
  rw [writeMember, List.getLast?_concat]
  rfl

theorem forall_mem_writeMember {property : Char → Prop} (quote : property '"')
    (inside : ∀ c ∈ text.toList, property c) : ∀ c ∈ writeMember text, property c := by
  rw [writeMember, List.cons_append, List.forall_mem_cons, List.forall_mem_append,
    List.forall_mem_singleton]
  exact ⟨quote, inside, quote⟩

theorem forall_mem_writeValue {property : Char → Prop} (quote : property '"')
    (separator : property ';') (inside : ∀ text ∈ values, ∀ c ∈ text.toList, property c) :
    ∀ c ∈ writeValue values, property c := by
  refine Text.forall_mem_intercalate (List.forall_mem_singleton.mpr separator) ?_
  rw [List.forall_mem_map]
  exact fun text isMember => forall_mem_writeMember quote (inside text isMember)

/-- The quotes come off, whatever stands between them. -/
theorem member?_writeMember : member? (writeMember text) = some text := by
  rw [writeMember, List.cons_append, member?, if_pos ⟨rfl, List.getLast?_concat⟩,
    List.dropLast_concat, String.ofList_toList]

theorem members_writeValue (writable : ∀ text ∈ values, IsWritable text) :
    members (writeValue values) = values := by
  cases values with
  | nil => rfl
  | cons first rest =>
      have cut : Text.pieces ';' (writeValue (first :: rest)) =
          (first :: rest).map writeMember := by
        refine Text.pieces_intercalate (by simp) ?_
        rw [List.forall_mem_map]
        intro text isMember
        exact List.forall_mem_ne.mp <| forall_mem_writeMember (by decide)
          (List.forall_mem_ne.mpr (writable text isMember).1)
      have read : (fun item => member? (Text.trim item)) ∘ writeMember = some := by
        funext text
        rw [Function.comp_apply, Text.trim_eq_self isTight_writeMember, member?_writeMember]
      rw [members, cut, List.filterMap_map, read, List.filterMap_some]

end Members

/-! ## Pairs -/

section Pairs

variable {rule : Rule} {key : Key} {keys : List Key}

theorem Key.ofString?_name : Key.ofString? key.name = some key := by
  cases key <;> rfl

theorem Key.isTight_name : Text.IsTight key.name.toList := by
  cases key <;> decide

theorem Key.forall_mem_name {property : Char → Prop} (letter : ∀ c : Char, c.isAlpha → property c) :
    ∀ c ∈ key.name.toList, property c := by
  have isAlpha : key.name.toList.all Char.isAlpha = true := by cases key <;> decide
  exact fun c isMember => letter c (List.all_eq_true.mp isAlpha c isMember)

theorem isTight_writePair : Text.IsTight (writePair rule key) := by
  have isTightStart : Text.IsTight (key.name.toList ++ ['=']) := Key.isTight_name.append (by decide)
  rw [writePair, List.append_cons]
  cases given : key.values rule with
  | nil => simpa [writeValue] using isTightStart
  | cons first rest =>
      refine isTightStart.append (Text.IsTight.intercalate (by simp) ?_)
      rw [List.forall_mem_map]
      exact fun text _ => isTight_writeMember

theorem forall_mem_writePair {property : Char → Prop} (letter : ∀ c : Char, c.isAlpha → property c)
    (equals : property '=') (quote : property '"') (separator : property ';')
    (inside : ∀ text ∈ key.values rule, ∀ c ∈ text.toList, property c) :
    ∀ c ∈ writePair rule key, property c := by
  rw [writePair, List.forall_mem_append, List.forall_mem_cons]
  exact ⟨Key.forall_mem_name letter, equals, forall_mem_writeValue quote separator inside⟩

theorem pair_writePair (writable : ∀ text ∈ key.values rule, IsWritable text) :
    pair (writePair rule key) = .ok (key, key.values rule) := by
  have noEquals : '=' ∉ key.name.toList :=
    List.forall_mem_ne.mp (Key.forall_mem_name fun c isAlpha => by rintro rfl; simp at isAlpha)
  rw [pair, writePair, Text.cut?_append noEquals]
  simp only
  rw [Text.trim_eq_self Key.isTight_name, String.ofList_toList, Key.ofString?_name,
    members_writeValue writable]

/-! ## Bodies -/

theorem writePair_ne_nil : writePair rule key ≠ [] := by
  simp [writePair]

theorem isTight_writeBody (given : keys ≠ []) : Text.IsTight (writeBody rule keys) := by
  refine Text.IsTight.intercalate (by simpa using given) ?_
  rw [List.forall_mem_map]
  exact fun key _ => isTight_writePair

theorem pieces_writeBody (given : keys ≠ [])
    (writable : ∀ key ∈ keys, ∀ text ∈ key.values rule, IsWritable text) :
    Text.pieces ',' (writeBody rule keys) = keys.map (writePair rule) := by
  refine Text.pieces_intercalate (by simpa using given) ?_
  rw [List.forall_mem_map]
  intro key isKey
  refine List.forall_mem_ne.mp
    (forall_mem_writePair ?_ (by decide) (by decide) (by decide) ?_)
  · rintro c isAlpha rfl
    simp at isAlpha
  · exact fun text isMember => List.forall_mem_ne.mpr (writable key isKey text isMember).2.1

theorem mapM_pair (writable : ∀ key ∈ keys, ∀ text ∈ key.values rule, IsWritable text) :
    (keys.map (writePair rule)).mapM pair = .ok (keys.map fun key => (key, key.values rule)) := by
  induction keys with
  | nil => rfl
  | cons key others ih =>
      rw [List.forall_mem_cons] at writable
      rw [List.map_cons, List.mapM_cons, pair_writePair writable.1, ih writable.2]
      rfl

theorem pairs_writeBody (given : keys ≠ [])
    (writable : ∀ key ∈ keys, ∀ text ∈ key.values rule, IsWritable text) :
    pairs (writeBody rule keys) = .ok (keys.map fun key => (key, key.values rule)) := by
  have trimmed : (keys.map (writePair rule)).map Text.trim = keys.map (writePair rule) := by
    rw [List.map_map]
    exact List.map_congr_left fun key _ => Text.trim_eq_self isTight_writePair
  have kept : (keys.map (writePair rule)).filter (!·.isEmpty) = keys.map (writePair rule) := by
    rw [List.filter_eq_self, List.forall_mem_map]
    intro key _
    simp [writePair_ne_nil]
  rw [pairs, pieces_writeBody given writable, trimmed, kept, mapM_pair writable]

theorem valuesOf_pairs_cons {other : Key} :
    valuesOf key ((other :: keys).map fun key => (key, key.values rule)) =
      (if other = key then other.values rule else []) ++
        valuesOf key (keys.map fun key => (key, key.values rule)) := rfl

theorem valuesOf_pairs_of_not_mem (absent : key ∉ keys) :
    valuesOf key (keys.map fun key => (key, key.values rule)) = [] := by
  induction keys with
  | nil => rfl
  | cons other others ih =>
      rw [List.mem_cons, not_or] at absent
      rw [valuesOf_pairs_cons, if_neg (Ne.symm absent.1), ih absent.2, List.append_nil]

theorem valuesOf_pairs (distinct : keys.Nodup) (isMember : key ∈ keys) :
    valuesOf key (keys.map fun key => (key, key.values rule)) = key.values rule := by
  induction keys with
  | nil => exact absurd isMember (by simp)
  | cons other others ih =>
      rw [List.nodup_cons] at distinct
      rw [valuesOf_pairs_cons]
      rcases List.mem_cons.mp isMember with rfl | isOther
      · rw [if_pos rfl, valuesOf_pairs_of_not_mem distinct.1, List.append_nil]
      · have different : other ≠ key := by
          rintro rfl
          exact distinct.1 isOther
        rw [if_neg different, ih distinct.2 isOther, List.nil_append]

/-- A rule is read back from the body of its marker, apart from the name of the core group. -/
theorem rule_writeBody {place : SourcePosition} (order : keys.Perm ruleKeys)
    (writable : ∀ key ∈ ruleKeys, ∀ text ∈ key.values rule, IsWritable text) :
    Marker.rule (writeBody rule keys) place = .ok (reading rule place) := by
  have distinct : keys.Nodup := order.nodup_iff.mpr (by decide)
  have values : ∀ key ∈ ruleKeys,
      valuesOf key (keys.map fun key => (key, key.values rule)) = key.values rule :=
    fun key isMember => valuesOf_pairs distinct (order.mem_iff.mpr isMember)
  have given : keys ≠ [] := by
    rintro rfl
    exact absurd order.length_eq (by decide)
  simp only [ruleKeys, List.forall_mem_cons] at values
  rw [Marker.rule, pairs_writeBody given fun key isKey => writable key (order.mem_iff.mp isKey)]
  simp only [bind, Except.bind, values]
  rfl

end Pairs

/-! ## Lines -/

theorem areApart_openings : Text.AreApart (openings.map String.toList) := by
  decide

theorem isTight_of_mem_openings {opening : String} (isOpening : opening ∈ openings) :
    Text.IsTight opening.toList := by
  revert opening
  decide

section Tokens

variable {tokens : List String} {token opening : String} {margin gap rest : List Char}
  (apart : Text.AreApart (tokens.map String.toList))
  (tight : ∀ token ∈ tokens, Text.IsTight token.toList)

include apart tight

/-- Behind the token of its comment, a line is a marker if an opening follows. -/
theorem body?_of_token (isToken : token ∈ tokens) (isMargin : margin.all Text.isBlank = true) :
    body? tokens (margin ++ (token.toList ++ rest)) =
      (Text.afterAny? (openings.map String.toList) (Text.trim rest)).map Text.trim := by
  rw [body?, Text.trim_append isMargin, Text.trim_append_of_isTight (tight token isToken),
    Text.afterAny?_append apart (List.mem_map_of_mem isToken)]
  simp only [Option.bind_eq_bind, Option.bind_some, Text.trim_trimEnd]
  cases Text.afterAny? (openings.map String.toList) (Text.trim rest) <;> rfl

/-- Whatever follows an opening is the body, but for the white space around it. -/
theorem body?_of_opening (isToken : token ∈ tokens) (isMargin : margin.all Text.isBlank = true)
    (isGap : gap.all Text.isBlank = true) (isOpening : opening ∈ openings) :
    body? tokens (margin ++ (token.toList ++ (gap ++ (opening.toList ++ rest)))) =
      some (Text.trim rest) := by
  rw [body?_of_token apart tight isToken isMargin, Text.trim_append isGap,
    Text.trim_append_of_isTight (isTight_of_mem_openings isOpening),
    Text.afterAny?_append areApart_openings (List.mem_map_of_mem isOpening), Option.map_some,
    Text.trim_trimEnd]

end Tokens

namespace Line

variable {tokens : List String} (line : Line tokens)

theorem keys_ne_nil : line.keys ≠ [] := by
  intro none
  exact absurd (none ▸ line.isOrder).length_eq (by decide)

/-- The body of the marker is found on its line. -/
theorem body?_text (apart : Text.AreApart (tokens.map String.toList))
    (tight : ∀ token ∈ tokens, Text.IsTight token.toList) :
    body? tokens line.text = some (writeBody line.rule line.keys) := by
  have isTightBody : Text.IsTight (writeBody line.rule line.keys) :=
    isTight_writeBody line.keys_ne_nil
  rw [text, body?_of_opening apart tight line.isToken line.isMargin line.isGap line.isOpening,
    Text.trim_eq_self isTightBody]

/-- A marker does not go beyond its line. -/
theorem isUnbroken_text (unbroken : ∀ token ∈ tokens, Text.IsUnbroken token.toList) :
    Text.IsUnbroken line.text := by
  have inOpening : ∀ opening ∈ openings, Text.IsUnbroken opening.toList := by decide
  have inBody : Text.IsUnbroken (writeBody line.rule line.keys) := by
    refine Text.forall_mem_intercalate (List.forall_mem_singleton.mpr (by decide)) ?_
    rw [List.forall_mem_map]
    intro key isKey
    refine forall_mem_writePair ?_ (by decide) (by decide) (by decide) fun text isMember =>
      (line.writable key (line.isOrder.mem_iff.mp isKey) text isMember).2.2
    rintro c isAlpha
    constructor <;> rintro rfl <;> simp at isAlpha
  simp only [text, Text.IsUnbroken, List.forall_mem_append]
  exact ⟨line.isUnbrokenMargin, unbroken _ line.isToken, line.isUnbrokenGap,
    inOpening _ line.isOpening, inBody⟩

end Line

end Marker

end RbacManifest
