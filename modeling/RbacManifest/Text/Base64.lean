/-!
# Bytes in base sixty-four

Four characters of an alphabet of sixty-four stand for three bytes; an equals sign fills up the
last four. Characters outside of the alphabet do not count.
-/

namespace RbacManifest

namespace Text

namespace Base64

/-- The six bits that a character stands for. -/
def digit? (c : Char) : Option Nat :=
  if 'A' ≤ c ∧ c ≤ 'Z' then some (c.toNat - 0x41)
  else if 'a' ≤ c ∧ c ≤ 'z' then some (c.toNat - 0x61 + 26)
  else if '0' ≤ c ∧ c ≤ '9' then some (c.toNat - 0x30 + 52)
  else if c = '+' then some 62
  else if c = '/' then some 63
  else none

/-- Decodes the rest of a text, where `place` characters of the present four were read, `pads`
equals signs since the last of them, and `bits` are the bits left over from it. -/
def decodeFrom (place pads bits : Nat) : List Char → Option (List UInt8)
  | [] => if place = 0 then some [] else none
  | c :: rest =>
      if c = '=' then
        if 2 ≤ place then
          if 4 ≤ place + pads + 1 then some [] else decodeFrom place (pads + 1) bits rest
        else decodeFrom place pads bits rest
      else
        match digit? c with
        | none => decodeFrom place pads bits rest
        | some digit =>
            match place with
            | 0 => decodeFrom 1 0 digit rest
            | 1 =>
                (decodeFrom 2 0 (digit % 16) rest).map
                  (UInt8.ofNat (bits * 4 + digit / 16) :: ·)
            | 2 =>
                (decodeFrom 3 0 (digit % 4) rest).map
                  (UInt8.ofNat (bits * 16 + digit / 4) :: ·)
            | _ => (decodeFrom 0 0 0 rest).map (UInt8.ofNat (bits * 64 + digit) :: ·)

/-- The bytes that a text stands for; `none` if its last four characters are not filled up. -/
def decode? (text : List Char) : Option (List UInt8) :=
  decodeFrom 0 0 0 text

end Base64

end Text

end RbacManifest
