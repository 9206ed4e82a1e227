import CommandFile.Text.Printable

/-!
# Quoted texts

Messages quote a path so that it can be read back: unprintable characters become
escapes, and the quotation mark is the one that needs fewer escapes.
-/

namespace CommandFile.Text

def hexDigits (width number : Nat) : List Char :=
  let digits := Nat.toDigits 16 number
  List.replicate (width - digits.length) '0' ++ digits

/-- A character as it stands between two quotation marks `mark`. -/
def escaped (mark character : Char) : List Char :=
  if character = mark || character = '\\' then ['\\', character]
  else if character = '\t' then ['\\', 't']
  else if character = '\n' then ['\\', 'n']
  else if character = '\r' then ['\\', 'r']
  else if isPrintable character then [character]
  else if character.toNat ≤ 0xFF then '\\' :: 'x' :: hexDigits 2 character.toNat
  else if character.toNat ≤ 0xFFFF then '\\' :: 'u' :: hexDigits 4 character.toNat
  else '\\' :: 'U' :: hexDigits 8 character.toNat

/-- Single quotation marks, unless the text holds one and no double mark. -/
def quotationMark (text : Text) : Char :=
  if text.contains '\x27' && !text.contains '"' then '"' else '\x27'

def quoted (text : Text) : String :=
  let mark := quotationMark text
  String.ofList (mark :: text.flatMap (escaped mark) ++ [mark])

end CommandFile.Text
