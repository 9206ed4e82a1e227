import CommandFile.Tree.Walk

/-!
# Calls on the file tree

Each call takes a path, walks to it and either changes the tree or gives the reason why
not.  A refused call has changed nothing.
-/

namespace CommandFile.Tree

def status (tree : Tree) (path : Text) : Except Errno Entry := do
  match ← tree.land false path with
  | .absent _ _ => .error .noEntry
  | .present _ entry => .ok entry

/-- The entry that a path leads to, if any.  Reasons that say that it leads nowhere are
no failure here. -/
def probe (tree : Tree) (path : Text) : Except Errno (Option Entry) :=
  match tree.status path with
  | .ok entry => .ok (some entry)
  | .error .noEntry => .ok none
  | .error .notFolder => .ok none
  | .error .tooManyLinks => .ok none
  | .error errno => .error errno

/-- Whether the last step of a path is itself a link. -/
def isLink (tree : Tree) (path : Text) : Bool :=
  match tree.spot path with
  | .ok ⟨folder, .name name, false⟩ =>
      match tree.lookUp folder name with
      | .ok (some (.link _)) => true
      | _ => false
  | _ => false

def contentAt (tree : Tree) (path : Text) : Except Errno Bytes := do
  match ← tree.status path with
  | .file content => .ok content
  | _ => .error .isFolder

def unlink (tree : Tree) (path : Text) : Except Errno Tree := do
  let spot ← tree.spot path
  match spot.last with
  | .name name =>
      match ← tree.lookUp spot.folder name with
      | none => .error .noEntry
      | some .folder => .error .isFolder
      | some _ =>
          if spot.closed then .error .notFolder else .ok (tree.remove (name :: spot.folder))
  | _ => .error .isFolder

def removeFolder (tree : Tree) (path : Text) : Except Errno Tree := do
  let spot ← tree.spot path
  match spot.last with
  | .up => .error .notEmpty
  | .here => .error .invalid
  | .root => .error .busy
  | .name name =>
      match ← tree.lookUp spot.folder name with
      | none => .error .noEntry
      | some .folder =>
          if tree.isEmptyAt (name :: spot.folder) then
            .ok (tree.remove (name :: spot.folder))
          else .error .notEmpty
      | some _ => .error .notFolder

def makeFolder (tree : Tree) (path : Text) : Except Errno Tree := do
  let spot ← tree.spot path
  match spot.last with
  | .name name =>
      match ← tree.lookUp spot.folder name with
      | none => .ok (tree.put (name :: spot.folder) .folder)
      | some _ => .error .alreadyThere
  | _ => .error .alreadyThere

def makeFile (tree : Tree) (path : Text) : Except Errno Tree := do
  let spot ← tree.spot path
  match spot.last with
  | .name name =>
      if spot.closed then .error .isFolder
      else
        match ← tree.lookUp spot.folder name with
        | none => .ok (tree.put (name :: spot.folder) (.file []))
        | some _ => .error .alreadyThere
  | _ => .error .alreadyThere

/-- Makes a link; its target need not be there. -/
def makeLink (tree : Tree) (path target : Text) : Except Errno Tree := do
  let spot ← tree.spot path
  match spot.last with
  | .name name =>
      match ← tree.lookUp spot.folder name with
      | none =>
          if spot.closed then .error .noEntry
          else .ok (tree.put (name :: spot.folder) (.link target))
      | some _ => .error .alreadyThere
  | _ => .error .alreadyThere

/-- Gives a file the content that `change` makes of its present one.  A file that is not
there is made, at the end of a link too. -/
def changeFile (tree : Tree) (path : Text) (change : Bytes → Bytes) : Except Errno Tree := do
  match ← tree.land true path with
  | .absent folder name => .ok (tree.put (name :: folder) (.file (change [])))
  | .present location (.file content) => .ok (tree.put location (.file (change content)))
  | .present _ _ => .error .isFolder

def overwrite (tree : Tree) (path : Text) (content : Bytes) : Except Errno Tree :=
  tree.changeFile path fun _ => content

def extend (tree : Tree) (path : Text) (content : Bytes) : Except Errno Tree :=
  tree.changeFile path (· ++ content)

def allowAt (tree : Tree) (entry : Entry) (location : Location) : Except Errno Unit :=
  match entry, tree.at? location with
  | _, none => .ok ()
  | .folder, some .folder =>
      if tree.isEmptyAt location then .ok () else .error .notEmpty
  | .folder, some _ => .error .notFolder
  | _, some .folder => .error .isFolder
  | _, some _ => .ok ()

def rename (tree : Tree) (source destination : Text) : Except Errno Tree := do
  let start ← tree.spot source
  let goal ← tree.spot destination
  match start.last, goal.last with
  | .name startName, .name goalName =>
      match ← tree.lookUp start.folder startName with
      | none => .error .noEntry
      | some entry =>
          let present ← tree.lookUp goal.folder goalName
          let startLocation := startName :: start.folder
          let goalLocation := goalName :: goal.folder
          if entry ≠ .folder && (start.closed || goal.closed) then .error .notFolder
          else if startLocation.isSuffixOf goal.folder then .error .invalid
          else if present.isSome && goalLocation.isSuffixOf start.folder then
            .error .notEmpty
          else if startLocation = goalLocation then .ok tree
          else
            tree.allowAt entry goalLocation
            .ok ((tree.remove goalLocation).move startLocation goalLocation)
  | _, _ => .error .busy

end CommandFile.Tree
