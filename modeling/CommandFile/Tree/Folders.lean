import CommandFile.Tree.Calls

/-!
# Whole branches

Making a folder together with the folders above it, and removing an entry together with
everything below it.  Unlike single calls, both can stop halfway: what was made or
removed until then stays so.  Folders can be nested to any depth here, where an interpreter
gives up at the limit of its recursion.
-/

namespace CommandFile.Tree

/-- The tree as it was left, and the reason and the path of the call that was refused. -/
structure Making where
  tree : Tree
  refusal? : Option (Errno × Text)
deriving DecidableEq, Repr

abbrev Bars := Text → Option Errno

def unbarred : Bars := fun _ => none

def tryFolder (bars : Bars) (tree : Tree) (path : Text) : Except Errno Tree :=
  match bars path with
  | some errno => .error errno
  | none => tree.makeFolder path

@[simp] theorem tryFolder_unbarred (tree : Tree) (path : Text) :
    tryFolder unbarred tree path = tree.makeFolder path := rfl

def ensureFolder (tree : Tree) (path : Text) (bars : Bars := unbarred) : Making :=
  match tryFolder bars tree path with
  | .ok made => ⟨made, none⟩
  | .error errno =>
      match tree.probe path with
      | .ok (some .folder) => ⟨tree, none⟩
      | .ok _ => ⟨tree, some (errno, path)⟩
      | .error other => ⟨tree, some (other, path)⟩

/-- The names lead upwards, the folder's own name first. -/
def ensureUpwards (tree : Tree) (root : Text) (names : List Name) (bars : Bars := unbarred) :
    Making :=
  match names with
  | [] => tree.ensureFolder (Path.text ⟨root, []⟩) bars
  | name :: above =>
      let path := Path.text ⟨root, (name :: above).reverse⟩
      match tryFolder bars tree path with
      | .error .noEntry =>
          let making := ensureUpwards tree root above bars
          match making.refusal? with
          | none => making.tree.ensureFolder path bars
          | some _ => making
      | _ => tree.ensureFolder path bars

def ensureFolders (tree : Tree) (path : Path) (bars : Bars := unbarred) : Making :=
  tree.ensureUpwards path.root path.names.reverse bars

structure Removal where
  tree : Tree
  answer : Except Errno Bool

/-- Not to find the entry is no failure. -/
def Removal.of (before : Tree) : Except Errno Tree → Removal
  | .ok after => ⟨after, .ok true⟩
  | .error .noEntry => ⟨before, .ok false⟩
  | .error errno => ⟨before, .error errno⟩

/-- Removes what a path leads to, and for a folder that is not reached by a link all
that is below it.  The content of a folder goes first. -/
def removeBranch (tree : Tree) (path : Text) : Removal :=
  match tree.probe path, tree.isLink path, tree.land false path with
  | .error errno, _, _ => ⟨tree, .error errno⟩
  | _, false, .ok (.present location .folder) =>
      let emptied := tree.removeBelow location
      Removal.of emptied (emptied.removeFolder path)
  | _, _, _ => Removal.of tree (tree.unlink path)

/-- What a removal leaves that is broken off when it has taken away so many of the entries
below a folder, the deepest of them first. -/
def clearSome (tree : Tree) (path : Text) (count : Nat) : Tree :=
  match tree.isLink path, tree.land false path with
  | false, .ok (.present location .folder) =>
      let below := tree.entries.filter fun item => Location.isBelow item.1 location
      let deepest := below.mergeSort fun left right => right.1.length ≤ left.1.length
      (deepest.take count).foldl (fun tree item => tree.remove item.1) tree
  | _, _ => tree

end CommandFile.Tree
