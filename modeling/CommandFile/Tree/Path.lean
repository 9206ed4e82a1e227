import CommandFile.Tree.Basic

/-!
# Paths

A path is read in two ways.  Its steps say how to walk, and a slash at its end is a
step of its own, written as the empty name.  Its normal form keeps only the root and
the names: empty steps and single dots are left out, and nothing else is resolved.
-/

namespace CommandFile

namespace Name

def here : Name := ['.']

def up : Name := ['.', '.']

def longest : Nat := 255

def tooLong (name : Name) : Bool := longest < (Utf8.encode name).length

end Name

structure Path where
  root : Text
  names : List Name
deriving DecidableEq, Repr

namespace Path

/-- The number of bytes from which on a path is too long. -/
def tooMany : Nat := 4096

def parts (text : Text) : List Name := (Text.pieces '/' text).filter (· ≠ [])

def isAbsolute (text : Text) : Bool := text.head? = some '/'

/-- The names to walk along; a slash at the end adds an empty one. -/
def steps (text : Text) : List Name :=
  match parts text with
  | [] => []
  | names => if text.getLast? = some '/' then names ++ [[]] else names

/-- Two slashes at the beginning are a root of their own, three or more are one. -/
def rootOf : Text → Text
  | '/' :: '/' :: '/' :: _ => ['/']
  | '/' :: '/' :: _ => ['/', '/']
  | '/' :: _ => ['/']
  | _ => []

def parse (text : Text) : Path := ⟨rootOf text, (parts text).filter (· ≠ Name.here)⟩

/-- The path as it is written; the empty path is a dot. -/
def text (path : Path) : Text :=
  match path.root ++ Text.join ['/'] path.names with
  | [] => Name.here
  | written => written

def parent (path : Path) : Path := ⟨path.root, path.names.dropLast⟩

def child (path : Path) (name : Name) : Path := ⟨path.root, path.names ++ [name]⟩

def normalize (written : Text) : Text := (parse written).text

end Path

end CommandFile
