import CommandFile.Text.Basic

/-!
# UTF-8

`encode` writes a text as bytes.  `scan` reads bytes back and marks what it cannot
read: each maximal piece that no code point can start or continue becomes one
defect.  `decode` refuses the first defect and `decodeReplacing` writes U+FFFD for
each of them.
-/

namespace CommandFile

abbrev Bytes := List UInt8

namespace Utf8

def encodeChar (character : Char) : Bytes :=
  let code := character.toNat
  if code < 0x80 then [code.toUInt8]
  else if code < 0x800 then
    [(0xC0 + code / 0x40).toUInt8, (0x80 + code % 0x40).toUInt8]
  else if code < 0x10000 then
    [(0xE0 + code / 0x1000).toUInt8, (0x80 + code / 0x40 % 0x40).toUInt8,
      (0x80 + code % 0x40).toUInt8]
  else
    [(0xF0 + code / 0x40000).toUInt8, (0x80 + code / 0x1000 % 0x40).toUInt8,
      (0x80 + code / 0x40 % 0x40).toUInt8, (0x80 + code % 0x40).toUInt8]

def encode (text : Text) : Bytes := text.flatMap encodeChar

/-- What a sequence announces by its first byte: how many bytes follow, the range
that the second byte must lie in, and the bits that the first byte contributes. -/
structure Lead where
  following : Nat
  lowest : Nat
  highest : Nat
  bits : Nat
deriving DecidableEq, Repr

/-- Overlong forms, surrogates and values past U+10FFFF are ruled out by the range of
the second byte. -/
def lead? (byte : UInt8) : Option Lead :=
  let value := byte.toNat
  if value < 0x80 then some ⟨0, 0x80, 0xBF, value⟩
  else if value < 0xC2 then none
  else if value < 0xE0 then some ⟨1, 0x80, 0xBF, value - 0xC0⟩
  else if value = 0xE0 then some ⟨2, 0xA0, 0xBF, 0⟩
  else if value = 0xED then some ⟨2, 0x80, 0x9F, 0xD⟩
  else if value < 0xF0 then some ⟨2, 0x80, 0xBF, value - 0xE0⟩
  else if value = 0xF0 then some ⟨3, 0x90, 0xBF, 0⟩
  else if value < 0xF4 then some ⟨3, 0x80, 0xBF, value - 0xF0⟩
  else if value = 0xF4 then some ⟨3, 0x80, 0x8F, 4⟩
  else none

/-- Why a piece of the bytes is not part of any code point. -/
inductive Defect
  | invalidStart
  | invalidContinuation
  | unexpectedEnd
deriving DecidableEq, Repr

/-- The next piece of the bytes: a code point, or a defect that spans some bytes. -/
inductive Piece
  | character (value : Char) (width : Nat)
  | defect (reason : Defect) (width : Nat)
deriving DecidableEq, Repr

def Piece.width : Piece → Nat
  | .character _ width => width
  | .defect _ width => width

def continueWith (lowest highest value taken : Nat) : (remaining : Nat) → Bytes → Piece
  | 0, _ => .character (Char.ofNat value) taken
  | _ + 1, [] => .defect .unexpectedEnd taken
  | remaining + 1, byte :: rest =>
      if lowest ≤ byte.toNat && byte.toNat ≤ highest then
        continueWith 0x80 0xBF (value * 0x40 + (byte.toNat - 0x80)) (taken + 1)
          remaining rest
      else
        .defect .invalidContinuation taken

def piece (byte : UInt8) (rest : Bytes) : Piece :=
  match lead? byte with
  | none => .defect .invalidStart 1
  | some lead => continueWith lead.lowest lead.highest lead.bits 1 lead.following rest

/-- The pieces with their offsets; `skip` bytes still belong to the piece before. -/
def scanFrom (offset skip : Nat) : Bytes → List (Nat × Piece)
  | [] => []
  | byte :: rest =>
      match skip with
      | skip + 1 => scanFrom (offset + 1) skip rest
      | 0 =>
          let found := piece byte rest
          (offset, found) :: scanFrom (offset + 1) (found.width - 1) rest

def scan (bytes : Bytes) : List (Nat × Piece) := scanFrom 0 0 bytes

def replacement : Char := '\uFFFD'

def decodeReplacing (bytes : Bytes) : Text :=
  (scan bytes).map fun
    | (_, .character value _) => value
    | (_, .defect _ _) => replacement

structure Refusal where
  offset : Nat
  byte : UInt8
  width : Nat
  reason : Defect
deriving DecidableEq, Repr

def firstRefusal? (bytes : Bytes) : Option Refusal :=
  (scan bytes).findSome? fun
    | (_, .character _ _) => none
    | (offset, .defect reason width) =>
        some ⟨offset, bytes.getD offset 0, width, reason⟩

def decode (bytes : Bytes) : Except Refusal Text :=
  match firstRefusal? bytes with
  | some refusal => .error refusal
  | none => .ok (decodeReplacing bytes)

def Defect.words : Defect → String
  | .invalidStart => "invalid start byte"
  | .invalidContinuation => "invalid continuation byte"
  | .unexpectedEnd => "unexpected end of data"

end Utf8

end CommandFile
