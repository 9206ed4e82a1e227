import CommandFile.Text.Document

/-!
# Charsets

A charset turns bytes into a text.  Reading never refuses single bytes: what does
not belong to a code point becomes U+FFFD.  Only an unknown name, or a stream that
has to start with a byte order mark and does not, is an error.
-/

namespace CommandFile

inductive Charset
  | utf8
  | utf8Marked
  | ascii
  | latin1
  | windows1252
  | rawEscaped
  | utf16
  | utf16Little
  | utf16Big
  | utf32
  | utf32Little
  | utf32Big
deriving DecidableEq, Repr

namespace Charset

inductive Refusal
  | unknown (name : Text)
  | unmarked (width : Nat)
deriving DecidableEq, Repr

/-- A name counts up to case, and every run of other characters than letters, digits
and dots counts as one underscore, or as nothing at either end. -/
def normalName (name : Text) : String :=
  go false [] name
where
  go (gap : Bool) (done : List Char) : Text → String
    | [] => String.ofList done.reverse
    | character :: rest =>
        if character.isAlphanum || character = '.' then
          let done := if gap && !done.isEmpty then '_' :: done else done
          go false (character.toLower :: done) rest
        else
          go true done rest

def names : List (Charset × List String) :=
  [(.utf8, ["utf_8", "u8", "utf", "utf8", "utf8_ucs2", "utf8_ucs4", "cp65001"]),
    (.utf8Marked, ["utf_8_sig"]),
    (.ascii, ["ascii", "646", "ansi_x3.4_1968", "ansi_x3_4_1968", "ansi_x3.4_1986",
      "cp367", "csascii", "ibm367", "iso646_us", "iso_646.irv_1991", "iso_ir_6", "us",
      "us_ascii"]),
    (.latin1, ["latin_1", "8859", "cp819", "csisolatin1", "ibm819", "iso8859",
      "iso8859_1", "iso_8859_1", "iso_8859_1_1987", "iso_ir_100", "l1", "latin",
      "latin1"]),
    (.windows1252, ["cp1252", "1252", "windows_1252"]),
    (.rawEscaped, ["raw_unicode_escape"]),
    (.utf16, ["utf_16", "u16", "utf16"]),
    (.utf16Little, ["utf_16_le", "unicodelittleunmarked", "utf_16le"]),
    (.utf16Big, ["utf_16_be", "unicodebigunmarked", "utf_16be"]),
    (.utf32, ["utf_32", "u32", "utf32"]),
    (.utf32Little, ["utf_32_le", "utf_32le"]),
    (.utf32Big, ["utf_32_be", "utf_32be"])]

def ofName? (name : Text) : Option Charset :=
  (names.find? fun entry => entry.2.contains (normalName name)).map (·.1)

/-- The code points of the bytes 0x80 to 0x9F; zero marks the five unused ones. -/
def windows1252High : List Nat :=
  [0x20AC, 0, 0x201A, 0x0192, 0x201E, 0x2026, 0x2020, 0x2021, 0x02C6, 0x2030, 0x0160,
    0x2039, 0x0152, 0, 0x017D, 0, 0, 0x2018, 0x2019, 0x201C, 0x201D, 0x2022, 0x2013,
    0x2014, 0x02DC, 0x2122, 0x0161, 0x203A, 0x0153, 0, 0x017E, 0x0178]

def windows1252Char (byte : UInt8) : Char :=
  if 0x80 ≤ byte.toNat && byte.toNat ≤ 0x9F then
    match windows1252High.getD (byte.toNat - 0x80) 0 with
    | 0 => Utf8.replacement
    | code => Char.ofNat code
  else Char.ofNat byte.toNat

def scalar (code : Nat) : Char :=
  if code < 0xD800 || (0xE000 ≤ code && code ≤ 0x10FFFF) then Char.ofNat code
  else Utf8.replacement

/-- Two bytes as a number, the more significant one second unless `big`. -/
def pairValue (big : Bool) (first second : UInt8) : Nat :=
  if big then first.toNat * 0x100 + second.toNat
  else second.toNat * 0x100 + first.toNat

def isHighSurrogate (unit : Nat) : Bool := 0xD800 ≤ unit && unit < 0xDC00

def isLowSurrogate (unit : Nat) : Bool := 0xDC00 ≤ unit && unit < 0xE000

/-- Sixteen-bit units.  A surrogate without its partner is replaced alone, and so is
everything from a cut-off unit on. -/
def units16 (big : Bool) : Bytes → Text
  | [] => []
  | [_] => [Utf8.replacement]
  | first :: second :: rest =>
      let unit := pairValue big first second
      if isHighSurrogate unit then
        match rest with
        | third :: fourth :: others =>
            let low := pairValue big third fourth
            if isLowSurrogate low then
              scalar (0x10000 + (unit - 0xD800) * 0x400 + (low - 0xDC00)) ::
                units16 big others
            else
              Utf8.replacement :: units16 big (third :: fourth :: others)
        | _ => [Utf8.replacement]
      else
        scalar unit :: units16 big rest

def units32 (big : Bool) : Bytes → Text
  | [] => []
  | first :: second :: third :: fourth :: rest =>
      let low := pairValue big first second
      let high := pairValue big third fourth
      scalar (if big then low * 0x10000 + high else high * 0x10000 + low) ::
        units32 big rest
  | _ => [Utf8.replacement]

/-- The document of the bytes.  A byte order mark that is cut off by the end leaves nothing. -/
def decode : Charset → Bytes → Except Refusal Document
  | .utf8, bytes => .ok (.plain (Utf8.decodeReplacing bytes))
  | .utf8Marked, 0xEF :: 0xBB :: 0xBF :: bytes => .ok (.plain (Utf8.decodeReplacing bytes))
  | .utf8Marked, [0xEF] => .ok (.plain [])
  | .utf8Marked, [0xEF, 0xBB] => .ok (.plain [])
  | .utf8Marked, bytes => .ok (.plain (Utf8.decodeReplacing bytes))
  | .ascii, bytes =>
      .ok <| .plain <| bytes.map fun byte =>
        if byte.toNat < 0x80 then Char.ofNat byte.toNat else Utf8.replacement
  | .latin1, bytes => .ok (.plain (bytes.map fun byte => Char.ofNat byte.toNat))
  | .windows1252, bytes => .ok (.plain (bytes.map windows1252Char))
  | .rawEscaped, bytes => .ok (.ofEscapes bytes)
  | .utf16, 0xFF :: 0xFE :: bytes => .ok (.plain (units16 false bytes))
  | .utf16, 0xFE :: 0xFF :: bytes => .ok (.plain (units16 true bytes))
  | .utf16, bytes =>
      if bytes.length < 2 then .ok (.plain (units16 false bytes)) else .error (.unmarked 16)
  | .utf16Little, bytes => .ok (.plain (units16 false bytes))
  | .utf16Big, bytes => .ok (.plain (units16 true bytes))
  | .utf32, 0xFF :: 0xFE :: 0x00 :: 0x00 :: bytes => .ok (.plain (units32 false bytes))
  | .utf32, 0x00 :: 0x00 :: 0xFE :: 0xFF :: bytes => .ok (.plain (units32 true bytes))
  | .utf32, bytes =>
      if bytes.length < 4 then .ok (.plain (units32 false bytes)) else .error (.unmarked 32)
  | .utf32Little, bytes => .ok (.plain (units32 false bytes))
  | .utf32Big, bytes => .ok (.plain (units32 true bytes))

def read (name : Text) (bytes : Bytes) : Except Refusal Document :=
  match ofName? name with
  | none => .error (.unknown name)
  | some charset => charset.decode bytes

end Charset

namespace Text

def unifyLineBreaks : Text → Text
  | [] => []
  | '\r' :: '\n' :: rest => '\n' :: unifyLineBreaks rest
  | '\r' :: rest => '\n' :: unifyLineBreaks rest
  | character :: rest => character :: unifyLineBreaks rest

end Text

def Document.unifyLineBreaks (document : Document) : Document :=
  { document with text := document.text.unifyLineBreaks }

end CommandFile
