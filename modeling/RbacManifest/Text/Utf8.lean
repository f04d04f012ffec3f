import RbacManifest.Text.Hex

/-!
# Encoded texts

Files hold texts in UTF-8. Decoding is strict: overlong forms, surrogates, values above the last
code point, stray continuation bytes and sequences cut short are all refused, and a refusal names
the bytes at fault and where they lie.
-/

namespace RbacManifest

namespace Text

def encode (text : List Char) : List UInt8 :=
  text.flatMap String.utf8EncodeChar

namespace Utf8

/-- Why a byte sequence is no text. -/
inductive Reason
  /-- No sequence starts with this byte. -/
  | invalidStart
  /-- The sequence goes on with a byte that cannot stand there. -/
  | invalidContinuation
  /-- The input ends inside a sequence. -/
  | truncated
  deriving DecidableEq, Repr

/-- The first place where a byte sequence stops being a text. -/
structure Fault where
  /-- What is wrong there. -/
  reason : Reason
  /-- How many bytes stand before the sequence at fault. -/
  start : Nat
  /-- The bytes of the sequence up to the fault; there is at least one. -/
  bytes : List UInt8
  deriving DecidableEq, Repr

/-- Whether a byte continues a sequence. -/
def isContinuation (b : UInt8) : Bool :=
  0x80 ≤ b && b < 0xC0

/-- Whether a byte may be the second one after the given first byte. After four of the first
bytes the range is narrower: it leaves out overlong forms, surrogates and values that are too
large. -/
def isSecond (first second : UInt8) : Bool :=
  isContinuation second &&
    (first != 0xE0 || 0xA0 ≤ second) && (first != 0xED || second < 0xA0) &&
    (first != 0xF0 || 0x90 ≤ second) && (first != 0xF4 || second < 0x90)

/-- The six bits that a continuation byte carries. -/
def payload (b : UInt8) : Nat :=
  b.toNat % 0x40

/-- The text that bytes stand for, after `start` bytes that are already decoded. -/
def decodeFrom (start : Nat) : List UInt8 → Except Fault (List Char)
  | [] => .ok []
  | first :: rest =>
      if first < 0x80 then
        (decodeFrom (start + 1) rest).map (Char.ofNat first.toNat :: ·)
      else if first < 0xC2 ∨ 0xF4 < first then
        .error ⟨.invalidStart, start, [first]⟩
      else
        match rest with
        | [] => .error ⟨.truncated, start, [first]⟩
        | second :: rest =>
            if !isSecond first second then
              .error ⟨.invalidContinuation, start, [first]⟩
            else if first < 0xE0 then
              (decodeFrom (start + 2) rest).map
                (Char.ofNat (first.toNat % 0x20 * 0x40 + payload second) :: ·)
            else
              match rest with
              | [] => .error ⟨.truncated, start, [first, second]⟩
              | third :: rest =>
                  if !isContinuation third then
                    .error ⟨.invalidContinuation, start, [first, second]⟩
                  else if first < 0xF0 then
                    (decodeFrom (start + 3) rest).map
                      (Char.ofNat ((first.toNat % 0x10 * 0x40 + payload second) * 0x40
                        + payload third) :: ·)
                  else
                    match rest with
                    | [] => .error ⟨.truncated, start, [first, second, third]⟩
                    | fourth :: rest =>
                        if !isContinuation fourth then
                          .error ⟨.invalidContinuation, start, [first, second, third]⟩
                        else
                          (decodeFrom (start + 4) rest).map
                            (Char.ofNat (((first.toNat % 0x8 * 0x40 + payload second) * 0x40
                              + payload third) * 0x40 + payload fourth) :: ·)

/-- The number of bytes that a file is read in at a time. -/
def pieceSize : Nat := 8192

/-- The first byte at or before `place` that does not continue a sequence. -/
def sequenceStart (bytes : List UInt8) : (place : Nat) → Nat
  | 0 => 0
  | place + 1 =>
      match bytes[place + 1]? with
      | some b => if isContinuation b then sequenceStart bytes place else place + 1
      | none => place + 1

/-- Whether a fault is two bytes that begin a surrogate, at the end of a piece. Only what follows
them shows the fault then. -/
def Fault.isHeldBack (fault : Fault) (bytes : List UInt8) : Bool :=
  let next := fault.start + 2
  fault.bytes = [0xED] && (bytes[fault.start + 1]?).any isContinuation &&
    (next = bytes.length || next % pieceSize = 0)

/-- Where a fault is said to lie: the count starts with the first byte that was not yet decoded
when the piece that shows the fault was read. All sequences in front of a fault are whole, so a
wrong start goes on none of them. A sequence that is cut short or held back shows its fault only
afterwards, so the count starts with that sequence. -/
def Fault.position (fault : Fault) (bytes : List UInt8) : Nat :=
  match fault.reason with
  | .truncated => 0
  | .invalidStart =>
      fault.start -
        sequenceStart (bytes.take fault.start) (fault.start / pieceSize * pieceSize)
  | .invalidContinuation =>
      if fault.isHeldBack bytes then 0
      else
        fault.start -
          sequenceStart bytes ((fault.start + fault.bytes.length) / pieceSize * pieceSize)

def Reason.message : Reason → String
  | .invalidStart => "invalid start byte"
  | .invalidContinuation => "invalid continuation byte"
  | .truncated => "unexpected end of data"

def Fault.message (fault : Fault) (bytes : List UInt8) : String :=
  let position := fault.position bytes
  let place :=
    match fault.bytes with
    | [b] => s!"byte 0x{String.ofList (hex hexDigit 2 b.toNat)} in position {position}"
    | bytes => s!"bytes in position {position}-{position + bytes.length - 1}"
  s!"'utf-8' codec can't decode {place}: {fault.reason.message}"

end Utf8

def decode (bytes : List UInt8) : Except Utf8.Fault (List Char) :=
  Utf8.decodeFrom 0 bytes

end Text

end RbacManifest
