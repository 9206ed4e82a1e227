import CommandFile.Text.Basic

/-!
# Lines on a terminal

What a text looks like once it is printed.  Characters that a terminal would act on are
left out, and tabs become spaces.
-/

namespace CommandFile.Console

def isControl (character : Char) : Bool :=
  [7, 8, 11, 12, 13].contains character.toNat

def tabWidth : Nat := 8

def expandTabs (column : Nat) : Text → Text
  | [] => []
  | character :: rest =>
      if character = '\t' then
        let width := tabWidth - column % tabWidth
        List.replicate width ' ' ++ expandTabs (column + width) rest
      else
        character :: expandTabs (column + 1) rest

/-- The lines of a text; there is always one. -/
def lines (text : Text) : List Text :=
  (Text.pieces '\n' (text.filter (!isControl ·))).map (expandTabs 0)

/-- Lines with a line feed behind each. -/
def page (lines : List Text) : Text := Text.join ['\n'] lines ++ ['\n']

def paint (colour : Nat) (line : Text) : Text :=
  if line = [] then []
  else Text.ofString s!"\x1b[{colour}m" ++ line ++ Text.ofString "\x1b[0m"

def shown (text : Text) : Text := page (lines text)

def painted (colour : Nat) (text : Text) : Text := page ((lines text).map (paint colour))

end CommandFile.Console
