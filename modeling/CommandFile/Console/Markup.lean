import CommandFile.Text.Blank

/-!
# Markup

A tag in square brackets sets the style of the text behind it, and a tag that begins with
a slash ends a style.  `plain` is the text without its tags.  A backslash before a tag
makes it a part of the text.
-/

namespace CommandFile.Markup

/-- A closing tag that closes nothing: where it stands and what stands in its brackets. -/
structure Refusal where
  position : Nat
  tag : Text
  named : Bool
deriving DecidableEq, Repr

def Refusal.message (refusal : Refusal) : String :=
  if refusal.named then
    s!"closing tag \x27[{String.ofList refusal.tag}]\x27 at position {refusal.position} "
      ++ "doesn\x27t match any open tag"
  else s!"closing tag \x27[/]\x27 at position {refusal.position} has nothing to close"

inductive Piece
  | character (character : Char)
  | tag (position : Nat) (content : Text)
deriving DecidableEq, Repr

/-! ## Reading -/

def begins (character : Char) : Bool :=
  ('a' ≤ character && character ≤ 'z') || ['#', '/', '@'].contains character

def tagContent? : Text → Option Text
  | [] => none
  | first :: rest =>
      if begins first then
        let more := rest.takeWhile fun character => character ≠ '[' && character ≠ ']'
        match rest.drop more.length with
        | ']' :: _ => some (first :: more)
        | _ => none
      else none

/-- The content of a tag that stands at the beginning of a text, with the number of
backslashes before it. -/
def tagAt? (text : Text) : Option (Nat × Text) :=
  let slashes := text.takeWhile (· = '\\')
  match text.drop slashes.length with
  | '[' :: rest => (tagContent? rest).map fun content => (slashes.length, content)
  | _ => none

/-- The pieces for a tag behind some backslashes.  Two of them stand for one, and one
that is left makes the tag a part of the text. -/
def tagPieces (position slashes : Nat) (content : Text) : List Piece :=
  List.replicate (slashes / 2) (.character '\\') ++
    if slashes % 2 = 1 then ('[' :: content ++ [']']).map .character
    else [.tag (position + slashes) content]

/-- The pieces of a text, of which `skip` characters have been read already.  A backslash
before a bracket that opens no tag is left out. -/
def piecesFrom (position skip : Nat) : Text → List Piece
  | [] => []
  | character :: rest =>
      match skip with
      | skip + 1 => piecesFrom (position + 1) skip rest
      | 0 =>
          match tagAt? (character :: rest) with
          | some (slashes, content) =>
              tagPieces position slashes content
                ++ piecesFrom (position + 1) (slashes + content.length + 1) rest
          | none =>
              if character = '\\' && rest.head? = some '[' then
                piecesFrom (position + 1) 0 rest
              else .character character :: piecesFrom (position + 1) 0 rest

def pieces (text : Text) : List Piece := piecesFrom 0 0 text

/-! ## Names of styles -/

def attributes : List (String × String) :=
  [("bold", "b"), ("dim", "d"), ("italic", "i"), ("underline", "u"), ("blink", "blink"),
    ("blink2", "blink2"), ("reverse", "r"), ("conceal", "c"), ("strike", "s"),
    ("underline2", "uu"), ("frame", "frame"), ("encircle", "encircle"), ("overline", "o")]

def colours : List String :=
  ["black", "red", "green", "yellow", "blue", "magenta", "cyan", "white"]

def isColour (word : String) : Bool :=
  colours.contains word || (colours.map ("bright_" ++ ·)).contains word

def attribute? (word : String) : Option String :=
  (attributes.find? fun entry => entry.1 = word || entry.2 = word).map (·.1)

def isBreak (character : Char) : Bool := Text.isBlankChar character

def words (text : Text) : List String :=
  let spaced := text.map fun character => if isBreak character then ' ' else character
  ((Text.pieces ' ' spaced).filter (· ≠ [])).map String.ofList

/-- One spelling for every style: the attributes in their order, then the colour.  Other
styles keep their spelling. -/
def normalName (name : Text) : String :=
  let lower := name.map Char.toLower
  let listed := words lower
  let asked := listed.filterMap attribute?
  let others := listed.filter fun word => (attribute? word).isNone
  if listed = [] then "none"
  else if others.all isColour then
    let set := (attributes.map (·.1)).filter asked.contains
    String.intercalate " " (set ++ others.getLast?.toList)
  else String.ofList (Text.trim lower)

/-! ## Styles that are open -/

def nameOf (content : Text) : Text := content.takeWhile (· ≠ '=')

def close (opened : List String) (name : String) : Option (List String) :=
  if opened.contains name then some (opened.erase name) else none

def plainFrom (opened : List String) : List Piece → Except Refusal Text
  | [] => .ok []
  | .character character :: rest => (plainFrom opened rest).map (character :: ·)
  | .tag position content :: rest =>
      match nameOf content with
      | '/' :: name =>
          if Text.trim name = [] then
            match opened with
            | [] => .error ⟨position, content, false⟩
            | _ :: others => plainFrom others rest
          else
            match close opened (normalName (Text.trim name)) with
            | none => .error ⟨position, content, true⟩
            | some others => plainFrom others rest
      | name => plainFrom (normalName name :: opened) rest

def plain (text : Text) : Except Refusal Text := plainFrom [] (pieces text)

end CommandFile.Markup
