import CommandFile.Text.Utf8

/-!
# Documents

Bytes under `raw_unicode_escape` are code points of their own, and `\u` and `\U` write all
others.  So a document can hold surrogates, which no character is and which no file can be
given to hold or be named by.  In a text each of them is represented by a character that the
document does not hold itself; lines that quote the text show that character.
-/

namespace CommandFile

/-- A character that is in the place of a surrogate. -/
structure StandIn where
  character : Char
  code : Nat
deriving DecidableEq, Repr

structure Document where
  text : Text
  standIns : List StandIn
deriving DecidableEq, Repr

/-- Where a text cannot be written: the place of the first surrogate, and how many there are in
a row. -/
structure Unencodable where
  offset : Nat
  width : Nat
  code : Nat
deriving DecidableEq, Repr

namespace StandIn

def codeOf? (standIns : List StandIn) (character : Char) : Option Nat :=
  (standIns.find? (·.character = character)).map (·.code)

def unencodable? (standIns : List StandIn) (text : Text) : Option Unencodable :=
  let plain := text.takeWhile fun character => (codeOf? standIns character).isNone
  let others := text.drop plain.length
  let row := others.takeWhile fun character => (codeOf? standIns character).isSome
  (others.head?.bind (codeOf? standIns)).map (⟨plain.length, row.length, ·⟩)

@[simp] theorem unencodable?_nil (text : Text) : unencodable? [] text = none := by
  have none (character : Char) : codeOf? [] character = none := rfl
  simp [unencodable?, none]

end StandIn

namespace Document

def plain (text : Text) : Document := ⟨text, []⟩

@[simp] theorem text_plain (text : Text) : (plain text).text = text := rfl

@[simp] theorem standIns_plain (text : Text) : (plain text).standIns = [] := rfl

def isSurrogate (code : Nat) : Bool := 0xD800 ≤ code && code < 0xE000

def standInsFor (codes : List Nat) : List StandIn :=
  match (codes.filter isSurrogate).eraseDups with
  | [] => []
  | surrogates =>
      let candidates := (List.range (codes.length + 1)).map (0xF0000 + ·)
      let spare := candidates.filter fun code => !codes.contains code
      (spare.zip surrogates).map fun (spare, code) => ⟨Char.ofNat spare, code⟩

def ofCodes (codes : List Nat) : Document :=
  let standIns := standInsFor codes
  let characters := codes.map fun code =>
    match standIns.find? (·.code = code) with
    | some standIn => standIn.character
    | none => Char.ofNat code
  ⟨characters, standIns⟩

/-- Where a reader of escapes is; `digits` says how many digits are missing and what those so
far have given. -/
inductive Escape
  | outside
  | begun
  | digits (missing value : Nat)

def hexDigit? (byte : UInt8) : Option Nat :=
  let character := Char.ofNat byte.toNat
  if character.isDigit then some (character.toNat - '0'.toNat)
  else if 'a' ≤ character && character ≤ 'f' then some (character.toNat - 'a'.toNat + 10)
  else if 'A' ≤ character && character ≤ 'F' then some (character.toNat - 'A'.toNat + 10)
  else none

def replacementCode : Nat := Utf8.replacement.toNat

/-- The code points that bytes with escapes stand for.  An escape that is broken off, or that
is too large, is replaced. -/
def unescape : Escape → Bytes → List Nat
  | .outside, [] => []
  | .begun, [] => ['\\'.toNat]
  | .digits _ _, [] => [replacementCode]
  | .outside, byte :: rest =>
      if byte.toNat = '\\'.toNat then unescape .begun rest
      else byte.toNat :: unescape .outside rest
  | .begun, byte :: rest =>
      if byte.toNat = 'u'.toNat then unescape (.digits 4 0) rest
      else if byte.toNat = 'U'.toNat then unescape (.digits 8 0) rest
      else '\\'.toNat :: byte.toNat :: unescape .outside rest
  | .digits missing value, byte :: rest =>
      match hexDigit? byte with
      | none =>
          replacementCode ::
            if byte.toNat = '\\'.toNat then unescape .begun rest
            else byte.toNat :: unescape .outside rest
      | some digit =>
          let value := value * 16 + digit
          if missing ≤ 1 then
            (if value ≤ 0x10FFFF then value else replacementCode) :: unescape .outside rest
          else unescape (.digits (missing - 1) value) rest

def ofEscapes (bytes : Bytes) : Document := ofCodes (unescape .outside bytes)

end Document

end CommandFile
