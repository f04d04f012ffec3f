import RbacManifest.Proofs.Logged
import RbacManifest.Proofs.Text.Utf8

/-!
# What can be decoded

Bytes are decoded exactly if they are the encoding of a text, and then to this text:
`decode_eq_ok_iff`. So a file holds a text in one way only. What begins with a sequence that no
character is encoded as is refused wherever it stands: `decode_ne_ok_of_isIllFormed`.
-/

namespace RbacManifest

namespace Text

namespace Utf8

variable {first second third fourth : UInt8} {code start : Nat} {bytes rest : List UInt8}
  {text : List Char} {c : Char}

/-! ## Bytes as numbers -/

theorem toNat_char (valid : code.isValidChar) : (Char.ofNat code).toNat = code := by
  rw [Char.ofNat, dif_pos valid]
  rfl

theorem ofNat_eq {n : Nat} (b : UInt8) (same : n = b.toNat) : UInt8.ofNat n = b := by
  rw [same, UInt8.ofNat_toNat]

theorem isContinuation_iff :
    isContinuation first = true ↔ 0x80 ≤ first.toNat ∧ first.toNat < 0xC0 := by
  rw [isContinuation, Bool.and_eq_true, decide_eq_true_eq, decide_eq_true_eq,
    UInt8.le_iff_toNat_le, UInt8.lt_iff_toNat_lt]
  rfl

theorem isSecond_iff : isSecond first second = true ↔
    (0x80 ≤ second.toNat ∧ second.toNat < 0xC0) ∧
      (first.toNat = 0xE0 → 0xA0 ≤ second.toNat) ∧ (first.toNat = 0xED → second.toNat < 0xA0) ∧
      (first.toNat = 0xF0 → 0x90 ≤ second.toNat) ∧
      (first.toNat = 0xF4 → second.toNat < 0x90) := by
  simp only [isSecond, Bool.and_eq_true, isContinuation_iff, Bool.or_eq_true, bne_iff_ne,
    decide_eq_true_eq, ← UInt8.toNat_inj, UInt8.le_iff_toNat_le, UInt8.lt_iff_toNat_lt, ne_eq,
    and_assoc, ← imp_iff_not_or]
  rfl

/-! ## Sequences that are decoded -/

theorem encodeChar_one (isFirst : first.toNat < 0x80) :
    String.utf8EncodeChar (Char.ofNat first.toNat) = [first] := by
  have code_toNat : (Char.ofNat first.toNat).val.toNat = first.toNat :=
    toNat_char (Or.inl (by omega))
  rw [String.utf8EncodeChar]
  simp only [code_toNat]
  rw [if_pos (by omega), ofNat_eq first rfl]

theorem encodeChar_two (isFirst : 0xC2 ≤ first.toNat ∧ first.toNat < 0xE0)
    (isNext : isSecond first second = true) :
    String.utf8EncodeChar (Char.ofNat (first.toNat % 0x20 * 0x40 + payload second)) =
      [first, second] := by
  rw [isSecond_iff] at isNext
  simp only [payload]
  generalize code_eq : first.toNat % 0x20 * 0x40 + second.toNat % 0x40 = code
  have code_toNat : (Char.ofNat code).val.toNat = code := toNat_char (Or.inl (by omega))
  rw [String.utf8EncodeChar]
  simp only [code_toNat]
  rw [if_neg (by omega), if_pos (by omega), ofNat_eq first (by omega),
    ofNat_eq second (by omega)]

theorem encodeChar_three (isFirst : 0xE0 ≤ first.toNat ∧ first.toNat < 0xF0)
    (isNext : isSecond first second = true) (isThird : isContinuation third = true) :
    String.utf8EncodeChar (Char.ofNat
        ((first.toNat % 0x10 * 0x40 + payload second) * 0x40 + payload third)) =
      [first, second, third] := by
  rw [isSecond_iff] at isNext
  rw [isContinuation_iff] at isThird
  simp only [payload]
  generalize code_eq :
    (first.toNat % 0x10 * 0x40 + second.toNat % 0x40) * 0x40 + third.toNat % 0x40 = code
  have valid : code.isValidChar := by
    rw [Nat.isValidChar]
    omega
  have code_toNat : (Char.ofNat code).val.toNat = code := toNat_char valid
  rw [String.utf8EncodeChar]
  simp only [code_toNat]
  rw [if_neg (by omega), if_neg (by omega), if_pos (by omega),
    ofNat_eq first (by omega), ofNat_eq second (by omega),
    ofNat_eq third (by omega)]

theorem encodeChar_four (isFirst : 0xF0 ≤ first.toNat ∧ first.toNat ≤ 0xF4)
    (isNext : isSecond first second = true) (isThird : isContinuation third = true)
    (isFourth : isContinuation fourth = true) :
    String.utf8EncodeChar (Char.ofNat
        (((first.toNat % 0x8 * 0x40 + payload second) * 0x40 + payload third) * 0x40
          + payload fourth)) =
      [first, second, third, fourth] := by
  rw [isSecond_iff] at isNext
  rw [isContinuation_iff] at isThird isFourth
  simp only [payload]
  generalize code_eq : ((first.toNat % 0x8 * 0x40 + second.toNat % 0x40) * 0x40
    + third.toNat % 0x40) * 0x40 + fourth.toNat % 0x40 = code
  have valid : code.isValidChar := by
    rw [Nat.isValidChar]
    omega
  have code_toNat : (Char.ofNat code).val.toNat = code := toNat_char valid
  rw [String.utf8EncodeChar]
  simp only [code_toNat]
  rw [if_neg (by omega), if_neg (by omega), if_neg (by omega),
    ofNat_eq first (by omega), ofNat_eq second (by omega),
    ofNat_eq third (by omega), ofNat_eq fourth (by omega)]

theorem length_encodeChar_pos : 0 < (String.utf8EncodeChar c).length := by
  rw [String.length_utf8EncodeChar]
  exact c.utf8Size_pos

/-- Bytes that can be decoded begin with the encoding of a character. -/
theorem exists_encodeChar_of_decodeFrom (decoded : decodeFrom start (first :: rest) = .ok text) :
    ∃ c behind, first :: rest = String.utf8EncodeChar c ++ behind := by
  rw [decodeFrom.eq_def] at decoded
  simp only [UInt8.lt_iff_toNat_lt, Bool.not_eq_true'] at decoded
  split at decoded
  · next one => exact ⟨_, rest, by rw [encodeChar_one one]; rfl⟩
  split at decoded
  · cases decoded
  next many isFirst =>
  rw [not_or, Nat.not_lt, Nat.not_lt] at isFirst
  split at decoded
  · cases decoded
  next second rest =>
  split at decoded
  · cases decoded
  next isNext =>
  rw [Bool.not_eq_false] at isNext
  split at decoded
  · next two =>
    exact ⟨_, rest, by rw [encodeChar_two ⟨isFirst.1, two⟩ isNext]; rfl⟩
  next notTwo =>
  rw [Nat.not_lt] at notTwo
  split at decoded
  · cases decoded
  next third rest =>
  split at decoded
  · cases decoded
  next isThird =>
  rw [Bool.not_eq_false] at isThird
  split at decoded
  · next three =>
    exact ⟨_, rest, by rw [encodeChar_three ⟨notTwo, three⟩ isNext isThird]; rfl⟩
  next notThree =>
  rw [Nat.not_lt] at notThree
  split at decoded
  · cases decoded
  next fourth rest =>
  split at decoded
  · cases decoded
  next isFourth =>
  rw [Bool.not_eq_false] at isFourth
  exact ⟨_, rest, by rw [encodeChar_four ⟨notThree, isFirst.2⟩ isNext isThird isFourth]; rfl⟩

theorem encode_of_decodeFrom (decoded : decodeFrom start bytes = .ok text) :
    bytes = encode text := by
  -- One character is read at a time, so the induction is on the number of bytes.
  induction length_eq : bytes.length using Nat.strongRecOn generalizing start bytes text with
  | ind length ih =>
      cases bytes with
      | nil =>
          cases decoded
          rfl
      | cons first rest =>
          rcases exists_encodeChar_of_decodeFrom decoded with ⟨c, behind, bytes_eq⟩
          rw [bytes_eq] at decoded length_eq ⊢
          rw [decodeFrom_encodeChar, Except.map_eq_ok_iff] at decoded
          rcases decoded with ⟨others, others_eq, rfl⟩
          have shorter : behind.length < length := by
            rw [← length_eq, List.length_append]
            exact Nat.lt_add_of_pos_left length_encodeChar_pos
          rw [ih _ shorter others_eq rfl]
          rfl

/-! ## Sequences that no character is encoded as -/

/-- How many bytes a sequence has that carries a value in more than one byte. -/
inductive Length
  | two
  | three
  | four
  deriving DecidableEq, Repr

namespace Length

/-- The least value that does not fit into fewer bytes. -/
def least : Length → Nat
  | two => 0x80
  | three => 0x800
  | four => 0x10000

/-- The greatest code point that needs this length. -/
def most : Length → Nat
  | two => 0x7FF
  | three => 0xFFFF
  | four => 0x10FFFF

/-- A value in a sequence of this length, also where fewer bytes would do. -/
def spread (value : Nat) : Length → List UInt8
  | two => [UInt8.ofNat (0xC0 + value / 0x40), UInt8.ofNat (0x80 + value % 0x40)]
  | three =>
      [UInt8.ofNat (0xE0 + value / 0x1000), UInt8.ofNat (0x80 + value / 0x40 % 0x40),
        UInt8.ofNat (0x80 + value % 0x40)]
  | four =>
      [UInt8.ofNat (0xF0 + value / 0x40000), UInt8.ofNat (0x80 + value / 0x1000 % 0x40),
        UInt8.ofNat (0x80 + value / 0x40 % 0x40), UInt8.ofNat (0x80 + value % 0x40)]

end Length

/-- How many bytes a sequence has that starts with a byte. -/
def lengthFrom (first : UInt8) : Nat :=
  if first < 0x80 then 1 else if first < 0xE0 then 2 else if first < 0xF0 then 3 else 4

/-- Whether bytes begin with a sequence that no character is encoded as. -/
inductive IsIllFormed : List UInt8 → Prop
  /-- A continuation byte that continues nothing. -/
  | stray {first : UInt8} {rest : List UInt8} (continues : isContinuation first = true) :
      IsIllFormed (first :: rest)
  /-- A byte that would start a sequence of more than four bytes. -/
  | tooLong {first : UInt8} {rest : List UInt8} (isLarge : 0xF8 ≤ first) :
      IsIllFormed (first :: rest)
  /-- A value in more bytes than it needs. -/
  | overlong {length : Length} {value : Nat} {rest : List UInt8} (isSmall : value < length.least) :
      IsIllFormed (length.spread value ++ rest)
  | surrogate {value : Nat} {rest : List UInt8} (isSurrogate : 0xD800 ≤ value ∧ value ≤ 0xDFFF) :
      IsIllFormed (Length.three.spread value ++ rest)
  /-- A value above the last code point. -/
  | tooLarge {value : Nat} {rest : List UInt8} (isLarge : 0x10FFFF < value ∧ value < 0x200000) :
      IsIllFormed (Length.four.spread value ++ rest)
  /-- A sequence that is cut short, by the end or by a byte that does not continue it. -/
  | truncated {c : Char} {count : Nat} {rest : List UInt8} (begun : 0 < count)
      (isShort : count < (String.utf8EncodeChar c).length)
      (isCut : rest.head?.any isContinuation = false) :
      IsIllFormed ((String.utf8EncodeChar c).take count ++ rest)

/-- A character has the shortest sequence that its value fits into. -/
theorem encodeChar_cases (c : Char) :
    c.toNat < 0x80 ∧ String.utf8EncodeChar c = [UInt8.ofNat c.toNat] ∨
      ∃ length : Length, length.least ≤ c.toNat ∧ c.toNat ≤ length.most ∧
        String.utf8EncodeChar c = length.spread c.toNat := by
  have code_lt : c.toNat < 0x110000 := by
    have isScalar : c.toNat < 0xD800 ∨ 0xDFFF < c.toNat ∧ c.toNat < 0x110000 := c.valid
    omega
  have c_eq : c.val.toNat = c.toNat := rfl
  rw [String.utf8EncodeChar]
  simp only [c_eq]
  split
  · next one => exact Or.inl ⟨by omega, rfl⟩
  next notOne =>
  right
  split
  · next two =>
    refine ⟨.two, ?_, two, ?_⟩
    · exact Nat.lt_of_not_le notOne
    · rw [Length.spread, Nat.mod_eq_of_lt (show c.toNat / 64 < 32 by omega), Nat.add_comm 0xC0,
        Nat.add_comm 0x80]
  next notTwo =>
  split
  · next three =>
    refine ⟨.three, ?_, three, ?_⟩
    · exact Nat.lt_of_not_le notTwo
    · rw [Length.spread, Nat.mod_eq_of_lt (show c.toNat / 4096 < 16 by omega), Nat.add_comm 0xE0,
        Nat.add_comm 0x80, Nat.add_comm 0x80]
  next notThree =>
  refine ⟨.four, ?_, ?_, ?_⟩
  · exact Nat.lt_of_not_le notThree
  · exact Nat.le_of_lt_succ code_lt
  · rw [Length.spread, Nat.mod_eq_of_lt (show c.toNat / 262144 < 8 by omega), Nat.add_comm 0xF0,
      Nat.add_comm 0x80, Nat.add_comm 0x80, Nat.add_comm 0x80]

/-- The first byte of a character tells how many bytes it has, and the others continue it. -/
theorem exists_encodeChar_eq_cons (c : Char) : ∃ first others,
    String.utf8EncodeChar c = first :: others ∧ others.length + 1 = lengthFrom first ∧
      ∀ b ∈ others, isContinuation b = true := by
  have continues {n : Nat} (fits : n < 0x40) : isContinuation (UInt8.ofNat (0x80 + n)) = true := by
    rw [isContinuation_iff, toNat_ofNat (by omega)]
    omega
  have starts {n : Nat} (fits : n < 256) : lengthFrom (UInt8.ofNat n) =
      if n < 0x80 then 1 else if n < 0xE0 then 2 else if n < 0xF0 then 3 else 4 := by
    have one : UInt8.ofNat n < 0x80 ↔ n < 0x80 := ofNat_lt_iff fits (by decide)
    have two : UInt8.ofNat n < 0xE0 ↔ n < 0xE0 := ofNat_lt_iff fits (by decide)
    have three : UInt8.ofNat n < 0xF0 ↔ n < 0xF0 := ofNat_lt_iff fits (by decide)
    simp only [lengthFrom, one, two, three]
  have digit_lt {n : Nat} : n % 0x40 < 0x40 := Nat.mod_lt _ (by decide)
  rcases encodeChar_cases c with ⟨isOne, sequence_eq⟩ | ⟨length, least_le, le_most, sequence_eq⟩
  · refine ⟨_, _, sequence_eq, ?_, by simp⟩
    rw [starts (by omega), if_pos isOne]
    rfl
  rw [sequence_eq]
  cases length with
  | two =>
      simp only [Length.least, Length.most] at least_le le_most
      refine ⟨_, _, rfl, ?_, List.forall_mem_singleton.mpr (continues digit_lt)⟩
      rw [starts (by omega), if_neg (by omega), if_pos (by omega)]
      rfl
  | three =>
      simp only [Length.least, Length.most] at least_le le_most
      refine ⟨_, _, rfl, ?_, List.forall_mem_cons.mpr
        ⟨continues digit_lt, List.forall_mem_singleton.mpr (continues digit_lt)⟩⟩
      rw [starts (by omega), if_neg (by omega), if_neg (by omega), if_pos (by omega)]
      rfl
  | four =>
      simp only [Length.least, Length.most] at least_le le_most
      refine ⟨_, _, rfl, ?_, List.forall_mem_cons.mpr ⟨continues digit_lt,
        List.forall_mem_cons.mpr
          ⟨continues digit_lt, List.forall_mem_singleton.mpr (continues digit_lt)⟩⟩⟩
      rw [starts (by omega), if_neg (by omega), if_neg (by omega), if_neg (by omega)]
      rfl

theorem decodeFrom_ne_ok_of_start (notOne : 0x80 ≤ first.toNat)
    (invalid : first.toNat < 0xC2 ∨ 0xF4 < first.toNat) :
    decodeFrom start (first :: rest) ≠ .ok text := by
  have notOne_byte : ¬first < 0x80 := UInt8.not_lt.mpr notOne
  have invalid_byte : first < 0xC2 ∨ 0xF4 < first := invalid
  intro decoded
  rw [decodeFrom.eq_def] at decoded
  simp only [notOne_byte, invalid_byte, if_false, if_true] at decoded
  cases decoded

theorem decodeFrom_ne_ok_of_second (notOne : 0x80 ≤ first.toNat)
    (unfit : isSecond first second = false) :
    decodeFrom start (first :: second :: rest) ≠ .ok text := by
  have notOne_byte : ¬first < 0x80 := UInt8.not_lt.mpr notOne
  intro decoded
  rw [decodeFrom.eq_def] at decoded
  simp only [notOne_byte, unfit, if_false, Bool.not_false, if_true] at decoded
  split at decoded <;> cases decoded

/-- A sequence that is cut short begins with no character: its first byte asks for more. -/
theorem take_encodeChar_append_ne {c d : Char} {count : Nat} {behind : List UInt8}
    (begun : 0 < count) (isShort : count < (String.utf8EncodeChar c).length)
    (isCut : rest.head?.any isContinuation = false) :
    (String.utf8EncodeChar c).take count ++ rest ≠ String.utf8EncodeChar d ++ behind := by
  intro same
  rcases exists_encodeChar_eq_cons c with ⟨first, others, c_eq, c_length, _⟩
  rcases exists_encodeChar_eq_cons d with ⟨start, more, d_eq, d_length, continue_more⟩
  rcases Nat.exists_eq_succ_of_ne_zero (Nat.ne_of_gt begun) with ⟨place, rfl⟩
  rw [c_eq, d_eq, List.take_succ_cons, List.cons_append, List.cons_append, List.cons.injEq] at same
  rcases same with ⟨rfl, same⟩
  rw [c_eq, List.length_cons] at isShort
  have shorter : place < others.length := Nat.lt_of_succ_lt_succ isShort
  have inside : place < more.length := by omega
  have next_eq : rest.head? = some more[place] := by
    have left : (others.take place ++ rest)[place]? = rest.head? := by
      rw [List.getElem?_append_right (by rw [List.length_take]; omega), List.length_take,
        Nat.min_eq_left (Nat.le_of_lt shorter), Nat.sub_self, List.head?_eq_getElem?]
    rw [← left, same, List.getElem?_append_left inside, List.getElem?_eq_getElem inside]
  rw [next_eq, Option.any_some, continue_more _ (List.getElem_mem inside)] at isCut
  cases isCut

theorem decodeFrom_ne_ok_of_isIllFormed (illFormed : IsIllFormed bytes) :
    decodeFrom start bytes ≠ .ok text := by
  have notOne {n : Nat} (bounds : 0x80 ≤ n ∧ n < 256) : 0x80 ≤ (UInt8.ofNat n).toNat := by
    rw [toNat_ofNat bounds.2]
    exact bounds.1
  have unfit {first second : Nat} (fits : first < 256 ∧ second < 256)
      (outside : first = 0xE0 ∧ second < 0xA0 ∨ first = 0xED ∧ 0xA0 ≤ second ∨
        first = 0xF0 ∧ second < 0x90 ∨ first = 0xF4 ∧ 0x90 ≤ second) :
      isSecond (UInt8.ofNat first) (UInt8.ofNat second) = false := by
    rw [Bool.eq_false_iff, ne_eq, isSecond_iff, toNat_ofNat fits.1, toNat_ofNat fits.2]
    omega
  cases illFormed with
  | stray continues =>
      rw [isContinuation_iff] at continues
      exact decodeFrom_ne_ok_of_start continues.1 (Or.inl (by omega))
  | @tooLong first rest isLarge =>
      have isLarge_nat : 0xF8 ≤ first.toNat := isLarge
      exact decodeFrom_ne_ok_of_start (by omega) (Or.inr (by omega))
  | @overlong length value rest isSmall =>
      cases length with
      | two =>
          simp only [Length.least] at isSmall
          apply decodeFrom_ne_ok_of_start (notOne (by omega))
          rw [toNat_ofNat (by omega)]
          omega
      | three =>
          simp only [Length.least] at isSmall
          exact decodeFrom_ne_ok_of_second (notOne (by omega)) (unfit (by omega) (by omega))
      | four =>
          simp only [Length.least] at isSmall
          exact decodeFrom_ne_ok_of_second (notOne (by omega)) (unfit (by omega) (by omega))
  | surrogate isSurrogate =>
      exact decodeFrom_ne_ok_of_second (notOne (by omega)) (unfit (by omega) (by omega))
  | @tooLarge value rest isLarge =>
      -- The first byte of a value that is still larger starts no sequence.
      by_cases isNear : value < 0x140000
      · exact decodeFrom_ne_ok_of_second (notOne (by omega)) (unfit (by omega) (by omega))
      · apply decodeFrom_ne_ok_of_start (notOne (by omega))
        rw [toNat_ofNat (by omega)]
        omega
  | @truncated c count rest begun isShort isCut =>
      intro decoded
      cases bytes_eq : (String.utf8EncodeChar c).take count ++ rest with
      | nil =>
          have empty := congrArg List.length bytes_eq
          rw [List.length_append, List.length_take, List.length_nil] at empty
          omega
      | cons first others =>
          rw [bytes_eq] at decoded
          rcases exists_encodeChar_of_decodeFrom decoded with ⟨d, behind, other_eq⟩
          exact take_encodeChar_append_ne begun isShort isCut (bytes_eq.trans other_eq)

theorem decodeFrom_encode_append (before : List Char) :
    decodeFrom start (encode before ++ rest) =
      (decodeFrom (start + (encode before).length) rest).map (before ++ ·) := by
  induction before generalizing start with
  | nil => cases decoded : decodeFrom start rest <;> simp [encode, decoded, Except.map]
  | cons c others ih =>
      rw [encode, List.flatMap_cons, List.append_assoc, decodeFrom_encodeChar, ← encode, ih,
        List.length_append, Nat.add_assoc]
      cases decodeFrom _ rest <;> rfl

end Utf8

/-- Bytes are decoded to a text exactly if they are what the text is encoded as. -/
theorem decode_eq_ok_iff {bytes : List UInt8} {text : List Char} :
    decode bytes = .ok text ↔ bytes = encode text := by
  constructor
  · exact Utf8.encode_of_decodeFrom
  · rintro rfl
    exact decode_encode text

/-- A sequence that no character is encoded as is refused behind any text. -/
theorem decode_ne_ok_of_isIllFormed {bytes : List UInt8} {before text : List Char}
    (illFormed : Utf8.IsIllFormed bytes) : decode (encode before ++ bytes) ≠ .ok text := by
  intro decoded
  rw [decode, Utf8.decodeFrom_encode_append, Except.map_eq_ok_iff] at decoded
  rcases decoded with ⟨others, others_eq, _⟩
  exact Utf8.decodeFrom_ne_ok_of_isIllFormed illFormed others_eq

end Text

end RbacManifest
