import CommandFile.Tree.Path
import CommandFile.Tree.Errno

/-!
# Walking along paths

A walk goes from folder to folder along the steps of a path and follows the links it
meets.  `descend` is the part of a walk up to the next link, and `walk` goes on behind
it for a limited number of links.  `spot` stops before the last step, so that the step
can be created, removed or renamed itself.
-/

namespace CommandFile

/-- Where a walk ends: at an entry, or in a folder that lacks the last name. -/
inductive Landing
  | absent (folder : Location) (name : Name)
  | present (location : Location) (entry : Entry)
deriving DecidableEq, Repr

inductive Descent
  | landed (landing : Landing)
  | redirected (folder : Location) (target : Text) (rest : List Name)
deriving DecidableEq, Repr

inductive LastStep
  | name (name : Name)
  | here
  | up
  | root
deriving DecidableEq, Repr

/-- The folder that a path leads to before its last step; `closed` tells of a slash
behind that step. -/
structure Spot where
  folder : Location
  last : LastStep
  closed : Bool
deriving DecidableEq, Repr

namespace Tree

def linkLimit : Nat := 40

def lookUp (tree : Tree) (folder : Location) (name : Name) : Except Errno (Option Entry) :=
  if name.tooLong then .error .nameTooLong else .ok (tree.at? (name :: folder))

/-- Walks to the next link.  A walk that may create its last name refuses a slash
behind that name before it looks the name up. -/
def descend (tree : Tree) (creating : Bool) (folder : Location) :
    List Name → Except Errno Descent
  | [] => .ok (.landed (.present folder .folder))
  | [name] =>
      if name = [] || name = Name.here then .ok (.landed (.present folder .folder))
      else if name = Name.up then .ok (.landed (.present folder.tail .folder))
      else
        match tree.lookUp folder name with
        | .error errno => .error errno
        | .ok none => .ok (.landed (.absent folder name))
        | .ok (some (.link target)) => .ok (.redirected folder target [])
        | .ok (some entry) => .ok (.landed (.present (name :: folder) entry))
  | name :: next :: rest =>
      if name = [] || name = Name.here then descend tree creating folder (next :: rest)
      else if name = Name.up then descend tree creating folder.tail (next :: rest)
      else if creating && next = [] && rest = [] then .error .isFolder
      else
        match tree.lookUp folder name with
        | .error errno => .error errno
        | .ok none => .error .noEntry
        | .ok (some (.file _)) => .error .notFolder
        | .ok (some (.link target)) => .ok (.redirected folder target (next :: rest))
        | .ok (some .folder) => descend tree creating (name :: folder) (next :: rest)

/-- The folder where the walk along a path begins when it is met in `folder`. -/
def startOf (folder : Location) (path : Text) : Location :=
  if Path.isAbsolute path then [] else folder

def walk (tree : Tree) (creating : Bool) (links : Nat) (folder : Location)
    (steps : List Name) : Except Errno Landing :=
  match tree.descend creating folder steps with
  | .error errno => .error errno
  | .ok (.landed landing) => .ok landing
  | .ok (.redirected folder target rest) =>
      match links with
      | 0 => .error .tooManyLinks
      | links + 1 =>
          walk tree creating links (startOf folder target) (Path.steps target ++ rest)

def screen (path : Text) : Except Errno Unit :=
  if path = [] then .error .noEntry
  else if Path.tooMany ≤ (Utf8.encode path).length then .error .nameTooLong
  else .ok ()

def land (tree : Tree) (creating : Bool) (path : Text) : Except Errno Landing := do
  screen path
  tree.walk creating linkLimit [] (Path.steps path)

def spot (tree : Tree) (path : Text) : Except Errno Spot := do
  screen path
  let names := Path.parts path
  let closed := path.getLast? = some '/'
  match names.getLast? with
  | none => .ok ⟨[], .root, closed⟩
  | some name =>
      match ← tree.walk false linkLimit [] (names.dropLast ++ [Name.here]) with
      | .absent _ _ => .error .noEntry
      | .present folder _ =>
          if name = Name.here then .ok ⟨folder, .here, closed⟩
          else if name = Name.up then .ok ⟨folder, .up, closed⟩
          else .ok ⟨folder, .name name, closed⟩

end Tree

end CommandFile
