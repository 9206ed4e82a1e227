import CommandFile.Number.Decimal
import CommandFile.Settings.Basic
import CommandFile.Text.JsonString

/-!
# Settings as an outline

The settings in force as an object of JSON, one field a line.  An infinite delay has no
numeral there and shows as null.
-/

namespace CommandFile.Settings

def indent (depth : Nat) (line : Text) : Text := List.replicate (2 * depth) ' ' ++ line

def field (name : String) (value : Text) : Text :=
  Text.jsonQuoted name.toList ++ Text.ofString ": " ++ value

def flagText (value : Bool) : Text := Text.ofString (if value then "true" else "false")

def numberText : Number → Text
  | .finite negative mantissa exponent => Number.text (.finite negative mantissa exponent)
  | _ => Text.ofString "null"

def separated : List Text → List Text
  | [] => []
  | [line] => [line]
  | line :: others => (line ++ [',']) :: separated others

def watchLines (watch : WatchSettings) : List Text :=
  separated
    [field "file" (Text.jsonQuoted watch.file.text), field "delay" (numberText watch.delay),
      field "call_now" (flagText watch.callNow),
      field "encoding" (Text.jsonQuoted watch.encoding)]

def outline (settings : Settings) : List Text :=
  [Text.ofString "\x7b", indent 1 (field "watch" (Text.ofString "\x7b"))]
    ++ (watchLines settings.watch).map (indent 2)
    ++ [indent 1 (Text.ofString "\x7d,"), indent 1 (field "debug" (flagText settings.debug)),
      Text.ofString "\x7d"]

end CommandFile.Settings
