import CommandFile.Text.Quoted

/-!
# Strings of JSON

Between quotation marks, a quotation mark, a backslash and every character below the
space become escapes.  All others stand for themselves.
-/

namespace CommandFile.Text

def jsonLetter? (character : Char) : Option Char :=
  match character with
  | '\x08' => some 'b'
  | '\t' => some 't'
  | '\n' => some 'n'
  | '\x0c' => some 'f'
  | '\r' => some 'r'
  | '"' => some '"'
  | '\\' => some '\\'
  | _ => none

def jsonEscaped (character : Char) : Text :=
  match jsonLetter? character with
  | some letter => ['\\', letter]
  | none =>
      if character < ' ' then '\\' :: 'u' :: hexDigits 4 character.toNat else [character]

def jsonQuoted (text : Text) : Text := '"' :: text.flatMap jsonEscaped ++ ['"']

end CommandFile.Text
