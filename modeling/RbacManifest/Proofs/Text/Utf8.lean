import Mathlib.Data.List.Basic
import RbacManifest.Text.Utf8

/-!
# Decoding what was encoded

Every character is encoded as one sequence of up to four bytes, and decoding reads each sequence
back to the character. So `decode_encode` gives the whole text back.
-/

namespace RbacManifest

namespace Text

namespace Utf8

theorem toNat_ofNat {n : Nat} (fits : n < 256) : (UInt8.ofNat n).toNat = n := by
  rw [UInt8.toNat_ofNat']
  exact Nat.mod_eq_of_lt fits

theorem ofNat_lt_iff {n m : Nat} (fits : n < 256) (bound_fits : m < 256) :
    UInt8.ofNat n < UInt8.ofNat m ↔ n < m := by
  rw [UInt8.lt_iff_toNat_lt, toNat_ofNat fits, toNat_ofNat bound_fits]

theorem le_ofNat_iff {n m : Nat} (fits : n < 256) (bound_fits : m < 256) :
    UInt8.ofNat m ≤ UInt8.ofNat n ↔ m ≤ n := by
  rw [UInt8.le_iff_toNat_le, toNat_ofNat fits, toNat_ofNat bound_fits]

theorem isContinuation_ofNat {n : Nat} (fits : n < 256) :
    isContinuation (UInt8.ofNat n) = decide (0x80 ≤ n ∧ n < 0xC0) := by
  have low : (0x80 : UInt8) ≤ UInt8.ofNat n ↔ 0x80 ≤ n := le_ofNat_iff fits (by decide)
  have high : UInt8.ofNat n < (0xC0 : UInt8) ↔ n < 0xC0 := ofNat_lt_iff fits (by decide)
  simp [isContinuation, low, high]

theorem payload_ofNat {n : Nat} (fits : n < 256) : payload (UInt8.ofNat n) = n % 0x40 := by
  rw [payload, toNat_ofNat fits]

theorem isSecond_ofNat {first second : Nat} (first_fits : first < 256)
    (isContinuation : 0x80 ≤ second ∧ second < 0xC0) (notOverlong : first = 0xE0 → 0xA0 ≤ second)
    (notSurrogate : first = 0xED → second < 0xA0) (notOverlongFour : first = 0xF0 → 0x90 ≤ second)
    (notLarge : first = 0xF4 → second < 0x90) :
    isSecond (UInt8.ofNat first) (UInt8.ofNat second) = true := by
  have fits : second < 256 := by omega
  have first_eq {m : Nat} (bound_fits : m < 256) (same : UInt8.ofNat first = UInt8.ofNat m) :
      first = m := by
    rw [← toNat_ofNat first_fits, same, toNat_ofNat bound_fits]
  simp only [isSecond, isContinuation_ofNat fits, isContinuation, and_self, decide_true,
    Bool.true_and, Bool.and_eq_true, Bool.or_eq_true, bne_iff_ne, decide_eq_true_eq]
  refine ⟨⟨⟨?_, ?_⟩, ?_⟩, ?_⟩
  · by_cases same : UInt8.ofNat first = 0xE0
    · exact Or.inr ((le_ofNat_iff fits (by decide)).mpr (notOverlong (first_eq (by decide) same)))
    · exact Or.inl same
  · by_cases same : UInt8.ofNat first = 0xED
    · exact Or.inr ((ofNat_lt_iff fits (by decide)).mpr (notSurrogate (first_eq (by decide) same)))
    · exact Or.inl same
  · by_cases same : UInt8.ofNat first = 0xF0
    · exact Or.inr ((le_ofNat_iff fits (by decide)).mpr
        (notOverlongFour (first_eq (by decide) same)))
    · exact Or.inl same
  · by_cases same : UInt8.ofNat first = 0xF4
    · exact Or.inr ((ofNat_lt_iff fits (by decide)).mpr (notLarge (first_eq (by decide) same)))
    · exact Or.inl same

variable {start : Nat} {rest : List UInt8} {c : Char}

theorem decodeFrom_one {n : Nat} (isFirst : n < 0x80) :
    decodeFrom start (UInt8.ofNat n :: rest) =
      (decodeFrom (start + 1) rest).map (Char.ofNat n :: ·) := by
  have isOne : UInt8.ofNat n < 0x80 ↔ n < 0x80 := ofNat_lt_iff (by omega) (by decide)
  rw [decodeFrom.eq_def]
  simp only [isOne, isFirst, if_true, toNat_ofNat (show n < 256 by omega)]

/-- What decoding does with a first byte that starts a longer sequence. -/
theorem decodeFrom_many {n : Nat} (isFirst : 0xC2 ≤ n ∧ n ≤ 0xF4) {second : UInt8}
    (fitting : isSecond (UInt8.ofNat n) second = true) :
    decodeFrom start (UInt8.ofNat n :: second :: rest) =
      if n < 0xE0 then
        (decodeFrom (start + 2) rest).map (Char.ofNat (n % 0x20 * 0x40 + payload second) :: ·)
      else
        match rest with
        | [] => .error ⟨.truncated, start, [UInt8.ofNat n, second]⟩
        | third :: rest =>
            if !isContinuation third then
              .error ⟨.invalidContinuation, start, [UInt8.ofNat n, second]⟩
            else if n < 0xF0 then
              (decodeFrom (start + 3) rest).map
                (Char.ofNat ((n % 0x10 * 0x40 + payload second) * 0x40 + payload third) :: ·)
            else
              match rest with
              | [] => .error ⟨.truncated, start, [UInt8.ofNat n, second, third]⟩
              | fourth :: rest =>
                  if !isContinuation fourth then
                    .error ⟨.invalidContinuation, start, [UInt8.ofNat n, second, third]⟩
                  else
                    (decodeFrom (start + 4) rest).map
                      (Char.ofNat (((n % 0x8 * 0x40 + payload second) * 0x40
                        + payload third) * 0x40 + payload fourth) :: ·) := by
  have fits : n < 256 := by omega
  have isOne : UInt8.ofNat n < 0x80 ↔ n < 0x80 := ofNat_lt_iff fits (by decide)
  have isLow : UInt8.ofNat n < 0xC2 ↔ n < 0xC2 := ofNat_lt_iff fits (by decide)
  have isHigh : 0xF4 < UInt8.ofNat n ↔ 0xF4 < n := ofNat_lt_iff (by decide) fits
  have isTwo : UInt8.ofNat n < 0xE0 ↔ n < 0xE0 := ofNat_lt_iff fits (by decide)
  have isThree : UInt8.ofNat n < 0xF0 ↔ n < 0xF0 := ofNat_lt_iff fits (by decide)
  have notOne : ¬ n < 0x80 := by omega
  have notOutside : ¬ (n < 0xC2 ∨ 0xF4 < n) := by omega
  have unfolded := decodeFrom.eq_def start (UInt8.ofNat n :: second :: rest)
  simp only [isOne, notOne, isLow, isHigh, notOutside, isTwo, isThree, fitting, Bool.not_true,
    Bool.false_eq_true, if_false, toNat_ofNat fits] at unfolded
  exact unfolded

/-- Decoding starts with the sequence of the first character that was encoded. -/
theorem decodeFrom_encodeChar :
    decodeFrom start (String.utf8EncodeChar c ++ rest) =
      (decodeFrom (start + (String.utf8EncodeChar c).length) rest).map (c :: ·) := by
  have isScalar : c.toNat < 0xD800 ∨ 0xDFFF < c.toNat ∧ c.toNat < 0x110000 := c.valid
  have c_eq : c.val.toNat = c.toNat := rfl
  -- A case for each number of bytes. The range of the second byte leaves out overlong forms and
  -- surrogates, which characters do not have.
  rw [String.utf8EncodeChar]
  simp only [c_eq]
  split
  · next one =>
    rw [List.singleton_append, decodeFrom_one (by omega), Char.ofNat_toNat]
    rfl
  split
  · next many two =>
    have second : isSecond (UInt8.ofNat (c.toNat / 64 % 0x20 + 0xC0))
        (UInt8.ofNat (c.toNat % 0x40 + 0x80)) = true := by
      apply isSecond_ofNat <;> omega
    have code : (c.toNat / 64 % 0x20 + 0xC0) % 0x20 * 0x40 + (c.toNat % 0x40 + 0x80) % 0x40 =
        c.toNat := by
      omega
    rw [List.cons_append, List.singleton_append, decodeFrom_many (by omega) second,
      if_pos (by omega), payload_ofNat (by omega), code, Char.ofNat_toNat]
    rfl
  split
  · next three =>
    have second : isSecond (UInt8.ofNat (c.toNat / 4096 % 0x10 + 0xE0))
        (UInt8.ofNat (c.toNat / 64 % 0x40 + 0x80)) = true := by
      apply isSecond_ofNat <;> omega
    have code : ((c.toNat / 4096 % 0x10 + 0xE0) % 0x10 * 0x40 +
        (c.toNat / 64 % 0x40 + 0x80) % 0x40) * 0x40 + (c.toNat % 0x40 + 0x80) % 0x40 =
          c.toNat := by
      omega
    simp only [List.cons_append, List.nil_append]
    rw [decodeFrom_many (by omega) second, if_neg (by omega)]
    simp only [isContinuation_ofNat (show c.toNat % 0x40 + 0x80 < 256 by omega)]
    rw [if_neg (by simp; omega), if_pos (by omega), payload_ofNat (by omega),
      payload_ofNat (by omega), code, Char.ofNat_toNat]
    rfl
  · next four =>
    have second : isSecond (UInt8.ofNat (c.toNat / 262144 % 0x08 + 0xF0))
        (UInt8.ofNat (c.toNat / 4096 % 0x40 + 0x80)) = true := by
      apply isSecond_ofNat <;> omega
    have code : (((c.toNat / 262144 % 0x08 + 0xF0) % 0x8 * 0x40 +
        (c.toNat / 4096 % 0x40 + 0x80) % 0x40) * 0x40 + (c.toNat / 64 % 0x40 + 0x80) % 0x40) *
          0x40 + (c.toNat % 0x40 + 0x80) % 0x40 = c.toNat := by
      omega
    simp only [List.cons_append, List.nil_append]
    rw [decodeFrom_many (by omega) second, if_neg (by omega)]
    simp only [isContinuation_ofNat (show c.toNat % 0x40 + 0x80 < 256 by omega),
      isContinuation_ofNat (show c.toNat / 64 % 0x40 + 0x80 < 256 by omega)]
    rw [if_neg (by simp; omega), if_neg (by omega), if_neg (by simp; omega),
      payload_ofNat (by omega), payload_ofNat (by omega), payload_ofNat (by omega), code,
      Char.ofNat_toNat]
    rfl

/-- Decoding gives the text back that was encoded. -/
theorem decodeFrom_encode (text : List Char) : decodeFrom start (encode text) = .ok text := by
  induction text generalizing start with
  | nil => rfl
  | cons c rest ih =>
      rw [encode, List.flatMap_cons, decodeFrom_encodeChar, ← encode, ih]
      rfl

end Utf8

/-- Decoding gives the text back that was encoded. -/
theorem decode_encode (text : List Char) : decode (encode text) = .ok text :=
  Utf8.decodeFrom_encode text

end Text

end RbacManifest
