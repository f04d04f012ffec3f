import RbacManifest.Proofs.Yaml.BadToken
import RbacManifest.Yaml.Node

/-!
# Faults of trees

A row of tokens that holds no document is malformed, or it has the fault of one of its tokens:
`Tree.failsBy_ofTokens`. A tree whose values cannot be given types is malformed:
`Node.failsBy_ofTree`.
-/

namespace RbacManifest

namespace Yaml

variable {allowed : Fault → Prop}

namespace Tree

/-- Whether all faults in a row of tokens are allowed. -/
def Permits (allowed : Fault → Prop) (tokens : List Token) : Prop :=
  ∀ fault, .bad fault ∈ tokens → allowed fault

/-- Whether a result is an allowed fault, or leaves tokens with allowed faults. -/
def Reads {α : Type} (allowed : Fault → Prop) (result : Except Fault (α × List Token)) : Prop :=
  FailsBy allowed result ∧ ∀ found rest, result = .ok (found, rest) → Permits allowed rest

section Reads

variable {α β : Type} {token : Token} {tokens rest : List Token} {fault : Fault}

theorem permits_cons_iff : Permits allowed (token :: rest) ↔
    (∀ fault, token = .bad fault → allowed fault) ∧ Permits allowed rest := by
  simp [Permits, or_imp, forall_and, eq_comm]

theorem Permits.tail (permits : Permits allowed (token :: rest)) : Permits allowed rest :=
  (permits_cons_iff.mp permits).2

theorem Reads.ok {found : α} (permits : Permits allowed rest) :
    Reads allowed (.ok (found, rest)) := by
  simpa [Reads] using permits

theorem Reads.error (isAllowed : allowed fault) :
    Reads allowed (.error fault : Except Fault (α × List Token)) := by
  simpa [Reads] using isAllowed

theorem Reads.bind {first : Except Fault (α × List Token)}
    {next : α × List Token → Except Fault (β × List Token)} (reads : Reads allowed first)
    (next_reads : ∀ found rest, Permits allowed rest → Reads allowed (next (found, rest))) :
    Reads allowed (first >>= next) := by
  cases first with
  | error fault => exact .error (FailsBy.error_iff.mp reads.1)
  | ok pair => exact next_reads pair.1 pair.2 (reads.2 pair.1 pair.2 rfl)

end Reads

/-! ## Readers of rows -/

variable {handles : Handles} {tokens : List Token} (malformed : allowed .malformed)
include malformed

theorem allowed_unexpected (permits : Permits allowed tokens) : allowed (unexpected tokens) := by
  rw [unexpected.eq_def]
  split
  · exact permits _ List.mem_cons_self
  · exact malformed

theorem failsBy_fullTag {handle : Option String} {suffix : String} :
    FailsBy allowed (fullTag handles handle suffix) := by
  rw [fullTag.eq_def]
  split
  · simp
  · split <;> simp [malformed]

theorem reads_properties (permits : Permits allowed tokens) :
    Reads allowed (properties handles tokens) := by
  have withTag {α : Type} {handle : Option String} {suffix : String} {rest : List Token}
      {make : String → α} (permits : Permits allowed rest) :
      Reads allowed (do return (make (← fullTag handles handle suffix), rest)) := by
    cases tag_eq : fullTag handles handle suffix with
    | error fault => exact .error (failsBy_fullTag malformed fault tag_eq)
    | ok tag => exact .ok permits
  rw [properties.eq_def]
  split
  · exact withTag permits.tail.tail
  · exact withTag permits.tail.tail
  · exact .ok permits.tail
  · exact .error (permits.tail _ List.mem_cons_self)
  · exact withTag permits.tail
  · exact .ok permits

theorem reads_missing {properties : Properties} (permits : Permits allowed tokens) :
    Reads allowed (missing properties tokens) := by
  rw [missing]
  split
  · exact .ok permits
  · exact .error (allowed_unexpected malformed permits)

theorem reads_behindComma {α : Type} {isFirst : Bool}
    {next : List Token → Except Fault (α × List Token)} (permits : Permits allowed tokens)
    (next_reads : ∀ rest, Permits allowed rest → Reads allowed (next rest)) :
    Reads allowed (behindComma isFirst tokens >>= next) := by
  rw [behindComma.eq_def]
  split
  · exact next_reads _ permits
  · exact next_reads _ permits.tail
  · exact .error (allowed_unexpected malformed permits)

mutual

theorem reads_value {handles : Handles} {place : Place} :
    (fuel : Nat) → (tokens : List Token) → Permits allowed tokens →
      Reads allowed (value handles place fuel tokens)
  | 0, tokens, permits => by
      rw [value]
      exact .error (allowed_unexpected malformed permits)
  | fuel + 1, tokens, permits => by
      rw [value.eq_def]
      dsimp only
      split
      · exact .error (allowed_unexpected malformed permits)
      · exact .ok permits.tail
      · next fuel_eq _ =>
        cases fuel_eq
        refine (reads_properties malformed permits).bind fun properties tokens permits => ?_
        dsimp only
        split
        · exact .ok permits.tail
        · exact (reads_flowItems fuel _ permits.tail).bind fun _ _ => .ok
        · exact (reads_flowEntries fuel _ permits.tail).bind fun _ _ => .ok
        · exact (reads_items fuel _ permits).bind fun _ _ => .ok
        · exact reads_missing malformed permits
        · exact (reads_items fuel _ permits.tail).bind fun _ _ => .ok
        · exact (reads_entries fuel _ permits.tail).bind fun _ _ => .ok
        · exact reads_missing malformed permits

theorem reads_part {handles : Handles} {place : Place} {stops : List Token} :
    (fuel : Nat) → (tokens : List Token) → Permits allowed tokens →
      Reads allowed (part handles place stops fuel tokens)
  | 0, tokens, permits => by
      rw [part]
      exact .error (allowed_unexpected malformed permits)
  | fuel + 1, tokens, permits => by
      rw [part]
      split
      · exact .ok permits
      · exact reads_value fuel tokens permits

theorem reads_items {handles : Handles} {isIndented : Bool} :
    (fuel : Nat) → (tokens : List Token) → Permits allowed tokens →
      Reads allowed (items handles isIndented fuel tokens)
  | 0, tokens, permits => by
      rw [items]
      exact .error (allowed_unexpected malformed permits)
  | fuel + 1, tokens, permits => by
      rw [items.eq_def]
      dsimp only
      split
      · next impossible => cases impossible
      · next fuel_eq =>
        cases fuel_eq
        refine (reads_part fuel _ permits.tail).bind fun item rest permits => ?_
        exact (reads_items fuel _ permits).bind fun _ _ => .ok
      · split
        · exact .ok permits
        · exact .ok permits.tail
        · exact .error (allowed_unexpected malformed permits)

theorem reads_entries {handles : Handles} :
    (fuel : Nat) → (tokens : List Token) → Permits allowed tokens →
      Reads allowed (entries handles fuel tokens)
  | 0, tokens, permits => by
      rw [entries.eq_def]
      exact .error (allowed_unexpected malformed permits)
  | fuel + 1, tokens, permits => by
      rw [entries.eq_def]
      dsimp only
      split
      · next fuel_eq =>
        cases fuel_eq
        refine (reads_pair fuel _ permits.tail).bind fun entry rest permits => ?_
        exact (reads_entries fuel _ permits).bind fun _ _ => .ok
      · exact .ok permits.tail
      · exact .error (allowed_unexpected malformed permits)

theorem reads_pair {handles : Handles} {place : Place} {stops : List Token} :
    (fuel : Nat) → (tokens : List Token) → Permits allowed tokens →
      Reads allowed (pair handles place stops fuel tokens)
  | 0, tokens, permits => by
      rw [pair]
      exact .error (allowed_unexpected malformed permits)
  | fuel + 1, tokens, permits => by
      rw [pair]
      refine (reads_part fuel _ permits).bind fun key rest permits => ?_
      dsimp only
      split
      · exact (reads_part fuel _ permits.tail).bind fun _ _ => .ok
      · exact .ok permits

theorem reads_flowItems {handles : Handles} {isFirst : Bool} :
    (fuel : Nat) → (tokens : List Token) → Permits allowed tokens →
      Reads allowed (flowItems handles isFirst fuel tokens)
  | 0, tokens, permits => by
      rw [flowItems]
      exact .error (allowed_unexpected malformed permits)
  | fuel + 1, tokens, permits => by
      rw [flowItems.eq_def]
      dsimp only
      split
      · next impossible => cases impossible
      · exact .ok permits.tail
      · next fuel_eq _ =>
        cases fuel_eq
        refine reads_behindComma malformed permits fun tokens permits => ?_
        split
        · exact .ok permits.tail
        · refine (reads_pair fuel _ permits.tail).bind fun entry rest permits => ?_
          exact (reads_flowItems fuel _ permits).bind fun _ _ => .ok
        · refine (reads_value fuel _ permits).bind fun item rest permits => ?_
          exact (reads_flowItems fuel _ permits).bind fun _ _ => .ok

theorem reads_flowEntries {handles : Handles} {isFirst : Bool} :
    (fuel : Nat) → (tokens : List Token) → Permits allowed tokens →
      Reads allowed (flowEntries handles isFirst fuel tokens)
  | 0, tokens, permits => by
      rw [flowEntries]
      exact .error (allowed_unexpected malformed permits)
  | fuel + 1, tokens, permits => by
      rw [flowEntries.eq_def]
      dsimp only
      split
      · next impossible => cases impossible
      · exact .ok permits.tail
      · next fuel_eq _ =>
        cases fuel_eq
        refine reads_behindComma malformed permits fun tokens permits => ?_
        split
        · exact .ok permits.tail
        · refine (reads_pair fuel _ permits.tail).bind fun entry rest permits => ?_
          exact (reads_flowEntries fuel _ permits).bind fun _ _ => .ok
        · refine (reads_value fuel _ permits).bind fun key rest permits => ?_
          exact (reads_flowEntries fuel _ permits).bind fun _ _ => .ok

end

/-! ## Documents -/

omit malformed in
theorem Permits.skipEnds (permits : Permits allowed tokens) :
    Permits allowed (skipEnds tokens) := by
  induction tokens with
  | nil => exact permits
  | cons token rest ih =>
      rw [Tree.skipEnds.eq_def]
      split
      · next rest_eq =>
        cases rest_eq
        exact ih permits.tail
      · exact permits

end Tree

namespace Node

mutual

theorem failsBy_ofTree : (tree : Tree) → (anchors : Anchors) →
    FailsBy (· = .malformed) (ofTree anchors tree)
  | .alias name, anchors => by
      rw [ofTree]
      split <;> simp
  | .scalar properties text isPlain, anchors => by
      rw [ofTree]
      split <;> simp
  | .list properties items, anchors => by
      rw [ofTree]
      split
      · simp
      · exact (failsBy_ofTrees items _).bind fun _ _ => .ok
  | .mapping properties entries, anchors => by
      rw [ofTree]
      split
      · simp
      · exact (failsBy_ofEntries entries _).bind fun _ _ => .ok

theorem failsBy_ofTrees : (trees : List Tree) → (anchors : Anchors) →
    FailsBy (· = .malformed) (ofTrees anchors trees)
  | [], anchors => .ok
  | tree :: rest, anchors => by
      rw [ofTrees]
      refine (failsBy_ofTree tree anchors).bind fun first _ => ?_
      exact (failsBy_ofTrees rest _).bind fun _ _ => .ok

theorem failsBy_ofEntries : (entries : List (Tree × Tree)) → (anchors : Anchors) →
    FailsBy (· = .malformed) (ofEntries anchors entries)
  | [], anchors => .ok
  | (key, value) :: rest, anchors => by
      rw [ofEntries]
      refine (failsBy_ofTree key anchors).bind fun first _ => ?_
      refine (failsBy_ofTree value _).bind fun second _ => ?_
      exact (failsBy_ofEntries rest _).bind fun _ _ => .ok

end

end Node

end Yaml

end RbacManifest
