import CommandFile.Tree.Walk

/-!
# Resolving paths that need not lead anywhere

`resolve` follows the links along a path as far as there are any, and takes the other
steps as they are written.  Two paths for the same place resolve to one location, whether
or not something is there yet.  Where links lead round in a circle, what comes of it depends on the
version of the library; here the place is one on the circle, and nothing is refused.
-/

namespace CommandFile.Tree

def resolveNames (tree : Tree) (folder : Location) :
    List Name → Location × Option (Text × List Name)
  | [] => (folder, none)
  | name :: rest =>
      if name = [] || name = Name.here then resolveNames tree folder rest
      else if name = Name.up then resolveNames tree folder.tail rest
      else
        match tree.at? (name :: folder) with
        | some (.link target) => (folder, some (target, rest))
        | _ => resolveNames tree (name :: folder) rest

def resolveFrom (tree : Tree) (links : Nat) (folder : Location) (names : List Name) :
    Location :=
  match links, tree.resolveNames folder names with
  | _, (place, none) => place
  | 0, (place, some _) => place
  | links + 1, (place, some (target, rest)) =>
      resolveFrom tree links (startOf place target) (Path.steps target ++ rest)

def resolve (tree : Tree) (path : Text) : Location :=
  tree.resolveFrom linkLimit [] (Path.steps path)

end CommandFile.Tree
