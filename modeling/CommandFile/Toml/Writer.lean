import CommandFile.Number.Decimal
import CommandFile.Text.Quoted
import CommandFile.Toml.Quoted

/-!
# Writing settings files

Values are written on one line each.  Strings are basic: a quotation mark, a backslash
and every control character but the tab becomes an escape.
-/

namespace CommandFile.Toml

def escapeLetter? (character : Char) : Option Char :=
  match character with
  | '\x08' => some 'b'
  | '\n' => some 'n'
  | '\x0c' => some 'f'
  | '\r' => some 'r'
  | '"' => some '"'
  | '\\' => some '\\'
  | _ => none

def escapeChar (character : Char) : Text :=
  match escapeLetter? character with
  | some letter => ['\\', letter]
  | none =>
      if isControl character then '\\' :: 'u' :: Text.hexDigits 4 character.toNat
      else [character]

def writeString (text : Text) : Text := '"' :: text.flatMap escapeChar ++ ['"']

def writeFlag (value : Bool) : Text := Text.ofString (if value then "true" else "false")

def writePair (key : String) (value : Text) : Text :=
  key.toList ++ Text.ofString " = " ++ value ++ ['\n']

end CommandFile.Toml
