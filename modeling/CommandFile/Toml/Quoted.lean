import CommandFile.Text.Basic

/-!
# Quoted strings in settings files

Strings are basic, with escapes, or literal, without.  Either kind may span lines when
it stands between triple marks.  A reader returns the text of the string and what
follows it.
-/

namespace CommandFile.Toml

/-- The control characters other than the tab. -/
def isControl (character : Char) : Bool :=
  (character.toNat < 0x20 && character ≠ '\t') || character.toNat = 0x7F

def isSpace (character : Char) : Bool := character = ' ' || character = '\t'

def isSpaceOrBreak (character : Char) : Bool := isSpace character || character = '\n'

def isHexDigit (character : Char) : Bool :=
  character.isDigit || ('a' ≤ character && character ≤ 'f')
    || ('A' ≤ character && character ≤ 'F')

def hexValue (digit : Char) : Nat :=
  if digit.isDigit then digit.toNat - '0'.toNat
  else digit.toLower.toNat - 'a'.toNat + 10

def codedChar? (digits : List Char) : Option Char :=
  if digits.all isHexDigit then
    let code := digits.foldl (fun value digit => value * 16 + hexValue digit) 0
    if code < 0xD800 || (0xE000 ≤ code && code ≤ 0x10FFFF) then some (Char.ofNat code)
    else none
  else none

def shortEscape? : Char → Option Char
  | 'b' => some '\x08'
  | 't' => some '\t'
  | 'n' => some '\n'
  | 'f' => some '\x0c'
  | 'r' => some '\r'
  | '"' => some '"'
  | '\\' => some '\\'
  | _ => none

def push (character : Char) (read : Option (Text × Text)) : Option (Text × Text) :=
  read.map fun found => (character :: found.1, found.2)

def basic : Text → Option (Text × Text)
  | [] => none
  | '"' :: rest => some ([], rest)
  | '\\' :: 'u' :: a :: b :: c :: d :: rest =>
      (codedChar? [a, b, c, d]).bind fun character => push character (basic rest)
  | '\\' :: 'U' :: a :: b :: c :: d :: e :: f :: g :: h :: rest =>
      (codedChar? [a, b, c, d, e, f, g, h]).bind fun character =>
        push character (basic rest)
  | '\\' :: mark :: rest =>
      (shortEscape? mark).bind fun character => push character (basic rest)
  | character :: rest =>
      if isControl character || character = '\\' then none else push character (basic rest)

/-- Where a reader stands in a basic string of several lines: in its text, behind a
backslash that only spaces may follow up to the line break, or behind that break. -/
inductive Place
  | text
  | lineEnd
  | margin
deriving DecidableEq, Repr

def basicLines : Place → Text → Option (Text × Text)
  | _, [] => none
  | .lineEnd, character :: rest =>
      if isSpace character then basicLines .lineEnd rest
      else if character = '\n' then basicLines .margin rest
      else none
  | place, '"' :: '"' :: '"' :: rest =>
      match place, rest with
      | _, '"' :: '"' :: others => some (['"', '"'], others)
      | _, '"' :: others => some (['"'], others)
      | _, _ => some ([], rest)
  | _, '\\' :: 'u' :: a :: b :: c :: d :: rest =>
      (codedChar? [a, b, c, d]).bind fun character =>
        push character (basicLines .text rest)
  | _, '\\' :: 'U' :: a :: b :: c :: d :: e :: f :: g :: h :: rest =>
      (codedChar? [a, b, c, d, e, f, g, h]).bind fun character =>
        push character (basicLines .text rest)
  | _, '\\' :: mark :: rest =>
      if isSpace mark then basicLines .lineEnd rest
      else if mark = '\n' then basicLines .margin rest
      else (shortEscape? mark).bind fun character => push character (basicLines .text rest)
  | place, character :: rest =>
      if place = .margin && isSpaceOrBreak character then basicLines .margin rest
      else if (isControl character && character ≠ '\n') || character = '\\' then none
      else push character (basicLines .text rest)

def literal : Text → Option (Text × Text)
  | [] => none
  | '\x27' :: rest => some ([], rest)
  | character :: rest => if isControl character then none else push character (literal rest)

def literalLines : Text → Option (Text × Text)
  | [] => none
  | '\x27' :: '\x27' :: '\x27' :: rest =>
      match rest with
      | '\x27' :: '\x27' :: others => some (['\x27', '\x27'], others)
      | '\x27' :: others => some (['\x27'], others)
      | _ => some ([], rest)
  | character :: rest =>
      if isControl character && character ≠ '\n' then none
      else push character (literalLines rest)

/-- A line break right behind the opening marks is not part of the string. -/
def withoutFirstBreak : Text → Text
  | '\n' :: rest => rest
  | text => text

def string? : Text → Option (Text × Text)
  | '"' :: '"' :: '"' :: rest => basicLines .text (withoutFirstBreak rest)
  | '"' :: rest => basic rest
  | '\x27' :: '\x27' :: '\x27' :: rest => literalLines (withoutFirstBreak rest)
  | '\x27' :: rest => literal rest
  | _ => none

end CommandFile.Toml
