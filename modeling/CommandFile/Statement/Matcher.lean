import CommandFile.Text.Blank

/-!
# Matchers

A matcher says whether a statement starts right at the beginning of a text, how far
it reaches and what it captures.  Its occurrences in a text are found from left to
right: each one is the leftmost match behind the one before, so occurrences never
overlap.
-/

namespace CommandFile

inductive Slot
  | path
  | newPath
  | body
deriving DecidableEq, Repr

def Slot.name : Slot → String
  | .path => "path"
  | .newPath => "new_path"
  | .body => "body"

/-- The text in a slot, with its offset from the start of the match. -/
structure Capture where
  slot : Slot
  offset : Nat
  text : Text
deriving DecidableEq, Repr

/-- A match at the beginning of a text, `length` characters long. -/
structure Match where
  length : Nat
  captures : List Capture
deriving DecidableEq, Repr

structure Matcher where
  slots : List Slot
  matchAt : Text → Option Match

structure Occurrence where
  start : Nat
  captures : List Capture
deriving DecidableEq, Repr

namespace Occurrence

def row (occurrence : Occurrence) : List Text :=
  occurrence.captures.map fun capture => capture.text.trim

/-- The first and the past-the-end position of the body, if there is one. -/
def bodySpan? (occurrence : Occurrence) : Option (Nat × Nat) :=
  (occurrence.captures.find? (·.slot = .body)).map fun capture =>
    (occurrence.start + capture.offset,
      occurrence.start + capture.offset + capture.text.length)

end Occurrence

namespace Matcher

/-- The occurrences in a text that begins at `position`; its first `skip` characters
belong to the occurrence before. -/
def occurrencesFrom (matcher : Matcher) (position skip : Nat) : Text → List Occurrence
  | [] => []
  | character :: rest =>
      match skip with
      | skip + 1 => occurrencesFrom matcher (position + 1) skip rest
      | 0 =>
          match matcher.matchAt (character :: rest) with
          | some found =>
              ⟨position, found.captures⟩ ::
                occurrencesFrom matcher (position + 1) (found.length - 1) rest
          | none => occurrencesFrom matcher (position + 1) 0 rest

def occurrences (matcher : Matcher) (text : Text) : List Occurrence :=
  occurrencesFrom matcher 0 0 text

def rows (matcher : Matcher) (text : Text) : List (List Text) :=
  (matcher.occurrences text).map Occurrence.row

def hasBody (matcher : Matcher) : Bool := matcher.slots.contains .body

end Matcher

end CommandFile
