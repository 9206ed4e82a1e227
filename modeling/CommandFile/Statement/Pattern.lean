import CommandFile.Statement.Form

/-!
# Statement patterns

A pattern collects the statements of one kind.  It may have several matchers, whose
occurrences are paired by number; they must agree on how many there are.  Before a
kind is looked at, its marker words are looked up in the text.

A statement that is quoted in the body of another one is content.  `mask` blanks out
the bodies, and kinds without a body of their own read the masked text.
-/

namespace CommandFile

structure Pattern where
  kind : Kind
  matchers : List Matcher
  markers : List Text
  excluded : List Text

/-- A statement taken from a document: the captured texts in slot order. -/
structure Command where
  kind : Kind
  args : List Text
deriving DecidableEq, Repr

namespace Command

def path? (command : Command) : Option Text := command.args.head?

/-- The paths under which the command is reported: both for a renaming, otherwise the
first. -/
def targets (command : Command) : List Text :=
  command.args.take (if command.kind = .rename then 2 else 1)

end Command

structure Malformed where
  kind : String
  counts : List Nat
deriving DecidableEq, Repr

def Malformed.message (malformed : Malformed) : String :=
  s!"malformed {malformed.kind} statements: matchers captured "
    ++ String.intercalate ", " (malformed.counts.map toString)
    ++ " occurrences, expected equal counts"

namespace Pattern

def slots (pattern : Pattern) : List Slot := pattern.matchers.flatMap (·.slots)

def hasBody (pattern : Pattern) : Bool := pattern.slots.contains .body

/-- Whether every marker occurs in the text and no excluded marker does. -/
def isPresent (pattern : Pattern) (text : Text) : Bool :=
  pattern.markers.all text.holds && !pattern.excluded.any text.holds

def ofKind (kind : Kind) : Pattern where
  kind := kind
  matchers := [(Form.ofKind kind).matcher]
  markers :=
    match kind with
    | .createFolder => [Text.ofString "CREATE FOLDER"]
    | .createFile => [Text.ofString "CREATE FILE"]
    | .write => [Text.ofString "WRITE TO", Form.contentWord]
    | .append => [Text.ofString "APPEND TO", Form.contentWord]
    | .rename => [Text.ofString "RENAME", Form.toWord]
    | .deleteFile => [Text.ofString "DELETE FILE"]
    | .deleteFolder => [Text.ofString "DELETE FOLDER"]
    | .deleteForce => [Text.ofString "DELETE", Text.ofString "FORCE"]
  excluded :=
    match kind with
    | .deleteFolder => [Text.ofString "FORCE"]
    | _ => []

def table : List Pattern := Kind.all.map ofKind

end Pattern

def bodySpans (text : Text) : List (Nat × Nat) :=
  ((Pattern.table.flatMap (·.matchers)).filter Matcher.hasBody).flatMap fun matcher =>
    (matcher.occurrences text).filterMap Occurrence.bodySpan?

/-- The text with every body blanked out; line breaks stay where they are. -/
def mask (text : Text) : Text :=
  let spans := bodySpans text
  text.mapIdx fun index character =>
    if character ≠ '\n' && spans.any fun span => span.1 ≤ index && index < span.2 then
      ' '
    else
      character

namespace Pattern

def visibleText (pattern : Pattern) (text : Text) : Text :=
  if pattern.hasBody then text else mask text

def columns (pattern : Pattern) (text : Text) : List (List (List Text)) :=
  let visible := pattern.visibleText text
  pattern.matchers.map (·.rows visible)

def pairRows (rows column : List (List Text)) : List (List Text) :=
  List.zipWith (· ++ ·) rows column

def extract (pattern : Pattern) (text : Text) : Except Malformed (List (List Text)) :=
  match pattern.columns text with
  | [] => .ok []
  | first :: others =>
      if others.all (·.length = first.length) then
        .ok (others.foldl pairRows first)
      else
        .error ⟨pattern.kind.name, (first :: others).map List.length⟩

def commands (pattern : Pattern) (text : Text) : Except Malformed (List Command) :=
  (pattern.extract text).map fun rows => rows.map fun args => ⟨pattern.kind, args⟩

/-- The earliest of the longest lists. -/
def longest {α : Type} : List (List α) → List α
  | [] => []
  | list :: others =>
      let rest := longest others
      if list.length < rest.length then rest else list

/-- The first capture of every row of the matcher that found most. -/
def primaryTargets (pattern : Pattern) (text : Text) : List Text :=
  (longest (pattern.columns text)).map fun row => row.headD []

end Pattern

/-- The kinds whose markers are in the text, in dispatch order. -/
def detectKinds (text : Text) : List Kind :=
  (Pattern.table.filter (·.isPresent text)).map (·.kind)

end CommandFile
