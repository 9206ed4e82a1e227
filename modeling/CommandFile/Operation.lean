import CommandFile.Failure
import CommandFile.Tree.Folders

/-!
# Operations on files

The operations that statements ask for.  Each one refuses a blank path, turns the
system's refusal into a failure that names the action and the path, and logs what came
of it.  `Faults` stand for calls that the system refuses for reasons outside the tree.
-/

namespace CommandFile

/-- The calls that can be at fault.  A file that is written is opened first, and its content
is encoded before it is put in; `target` is the new path of a renaming. -/
inductive Call
  | stat
  | access
  | opening
  | encoding
  | writing
  | mkdir
  | unlink
  | rmdir
  | clearing
  | rename
  | target
deriving DecidableEq, Repr

inductive Fault
  | refuse (errno : Errno)
  /-- The call is refused when so much of it has been done: bytes that were written, or
  entries that were taken away. -/
  | cut (count : Nat) (errno : Errno)
  | answer (readable : Bool)
  | raise (failure : Failure)
deriving DecidableEq, Repr

/-- What a call meets, by the path as it is written or, for `encoding`, by the content. -/
abbrev Faults := Call → Text → Option Fault

namespace Faults

def none : Faults := fun _ _ => Option.none

def set (faults : Faults) (call : Call) (path : Text) (fault : Fault) : Faults :=
  fun otherCall otherPath =>
    if otherCall = call ∧ otherPath = path then some fault else faults otherCall otherPath

def failure? (faults : Faults) (call : Call) (path : Text) : Option Failure :=
  match faults call path with
  | some (.refuse errno) => some (.system (.ofErrno errno [path]))
  | some (.cut _ errno) => some (.system (.ofErrno errno [path]))
  | some (.raise failure) => some failure
  | some (.answer _) => Option.none
  | Option.none => Option.none

/-- What the calls meet that are given texts of a document: no surrogate is encoded. -/
def ofDocument (document : Document) : Faults := fun _ text =>
  (StandIn.unencodable? document.standIns text).map fun place => .raise (.unencodable place)

@[simp] theorem ofDocument_plain (text : Text) : ofDocument (.plain text) = none := by
  funext call path
  simp [ofDocument, Document.plain, none]

def break? (faults : Faults) (call : Call) (path : Text) : Option (Nat × Failure) :=
  match faults call path with
  | some (.cut count _) => (faults.failure? call path).map (count, ·)
  | _ => (faults.failure? call path).map (0, ·)

/-- How many bytes of a content get into an opened file that is not written to the end. -/
def shortfall? (faults : Faults) (path content : Text) : Option (Nat × Failure) :=
  match faults.failure? .encoding content with
  | some failure => some (0, failure)
  | Option.none => faults.break? .writing path

def bars (faults : Faults) : Tree.Bars := fun path =>
  match faults .mkdir path with
  | some (.refuse errno) => some errno
  | some (.cut _ errno) => some errno
  | _ => Option.none

@[simp] theorem failure?_none (call : Call) (path : Text) :
    Faults.none.failure? call path = Option.none := rfl

@[simp] theorem break?_none (call : Call) (path : Text) :
    Faults.none.break? call path = Option.none := rfl

@[simp] theorem shortfall?_none (path content : Text) :
    Faults.none.shortfall? path content = Option.none := rfl

@[simp] theorem bars_none : Faults.none.bars = Tree.unbarred := rfl

end Faults

structure Effect (α : Type) where
  answer : Except Failure α
  tree : Tree
  log : Log

namespace Operation

def source : String := "handycmd.execution.filesystem"

def say (level : Level) (message : String) : Log := [.plain level source message]

/-- Runs a call on paths, none of which may hold a null character. -/
def call {α : Type} (paths : List Text) (result : Except Errno α) : Except Failure α :=
  if paths.any (·.contains '\x00') then .error .nulInPath
  else result.mapError fun errno => .system (.ofErrno errno paths)

def callUnder {α : Type} (faults : Faults) (kind : Call) (path : Text) (others : List Text)
    (result : Except Errno α) : Except Failure α :=
  match faults.failure? kind path, others.findSome? (faults.failure? .target) with
  | some failure, _ => .error failure
  | none, some failure => .error failure
  | none, none => call (path :: others) result

def blame (action : String) (path : Text) : Failure → Failure
  | .system error => .refused action path error
  | failure => failure

def complain (attempt : String) : Failure → Log
  | .system error => say .error s!"Error {attempt}: {error.message}"
  | _ => []

def unlessBlank {α : Type} (action : String) (path : Text) (tree : Tree)
    (effect : Effect α) : Effect α :=
  if path.isBlank then ⟨.error (.blankPath action path), tree, []⟩ else effect

structure Wording where
  action : String
  attempt : String
  done : String

/-- Carries out a change.  A refused change leaves the tree as it was. -/
def change (wording : Wording) (path : Text) (tree : Tree) (result : Except Failure Tree) :
    Effect Unit :=
  match result with
  | .ok after => ⟨.ok (), after, say .info wording.done⟩
  | .error failure =>
      ⟨.error (blame wording.action path failure), tree, complain wording.attempt failure⟩

def checkAccess (faults : Faults) (path : Text) (tree : Tree) : Effect Bool :=
  unlessBlank "access" path tree <|
    match callUnder faults .stat path [] (tree.status path) with
    | .error (.system error) =>
        if error.isMissing then ⟨.ok false, tree, []⟩
        else ⟨.error (.refused "access" path error), tree, []⟩
    | .error failure => ⟨.error failure, tree, []⟩
    | .ok _ =>
        match faults .access path, faults.failure? .access path with
        | some (.answer false), _ => ⟨.error (.unreadable path), tree, []⟩
        | _, some failure => ⟨.error failure, tree, []⟩
        | _, none => ⟨.ok true, tree, []⟩

def createFile (faults : Faults) (path : Text) (tree : Tree) : Effect Unit :=
  unlessBlank "create file" path tree <|
    change
      { action := "create file"
        attempt := s!"creating file at {String.ofList path}"
        done := s!"Created file at {String.ofList path}" }
      path tree (callUnder faults .opening path [] (tree.makeFile path))

/-- Makes a folder, and with `parents` also the folders above it.  A fault that is no refusal
comes before anything is made. -/
def createFolder (faults : Faults) (path : Text) (parents : Bool) (tree : Tree) : Effect Unit :=
  let wording : Wording :=
    { action := "create folder"
      attempt := s!"creating directory at {String.ofList path}"
      done := s!"Created directory at {String.ofList path}" }
  let normal := Path.normalize path
  unlessBlank wording.action path tree <|
    match faults .mkdir normal with
    | some (.raise failure) => change wording path tree (.error failure)
    | _ =>
        if parents && !path.contains '\x00' then
          let making := tree.ensureFolders (Path.parse path) faults.bars
          change wording path making.tree <|
            match making.refusal? with
            | none => .ok making.tree
            | some (errno, refused) => .error (.system (.ofErrno errno [refused]))
        else
          change wording path tree (call [normal] (tree.tryFolder faults.bars normal))

def deleteFile (faults : Faults) (path : Text) (tree : Tree) : Effect Unit :=
  unlessBlank "delete file" path tree <|
    change
      { action := "delete file"
        attempt := s!"deleting file at {String.ofList path}"
        done := s!"Deleted file at {String.ofList path}" }
      path tree (callUnder faults .unlink path [] (tree.unlink path))

def deleteFolder (faults : Faults) (path : Text) (tree : Tree) : Effect Unit :=
  unlessBlank "delete folder" path tree <|
    change
      { action := "delete folder"
        attempt := s!"deleting directory at {String.ofList path}"
        done := s!"Deleted directory at {String.ofList path}" }
      path tree (callUnder faults .rmdir path [] (tree.removeFolder path))

/-- Removes a file or a folder with everything below it; says whether there was one.  A null
character is refused before anything is removed. -/
def deleteBranch (faults : Faults) (path : Text) (tree : Tree) : Effect Bool :=
  unlessBlank "force delete" path tree <|
    let normal := Path.normalize path
    let fail (failure : Failure) (left : Tree) : Effect Bool :=
      ⟨.error (blame "force delete" path failure), left,
        complain s!"force-deleting {String.ofList path}" failure⟩
    if normal.contains '\x00' then ⟨.error .nulInPath, tree, []⟩
    else
      match faults.break? .clearing normal with
      | some (count, failure) => fail failure (tree.clearSome normal count)
      | none =>
          let removal := tree.removeBranch normal
          match call [normal] removal.answer with
          | .ok removed =>
              let words := if removed then "Recursively deleted" else "Nothing to delete at"
              ⟨.ok removed, removal.tree, say .info s!"{words} {String.ofList path}"⟩
          | .error failure => fail failure removal.tree

def putInto (faults : Faults) (path : Text) (append : Bool) (tree : Tree) (bytes : Bytes) :
    Except Failure Tree :=
  callUnder faults .opening path []
    (if append then tree.extend path bytes else tree.overwrite path bytes)

/-- Writes a content, in the place of the old one or behind it.  Opening the file empties or
makes it, and a writing that fails afterwards does not undo that. -/
def writeFile (faults : Faults) (path content : Text) (append : Bool) (tree : Tree) :
    Effect Unit :=
  let words := if append then "Appended to" else "Wrote to"
  let wording : Wording :=
    { action := if append then "append to" else "write to"
      attempt := s!"writing to file at {String.ofList path}"
      done := s!"{words} file at {String.ofList path}" }
  let bytes := Utf8.encode content
  unlessBlank wording.action path tree <|
    match faults.shortfall? path content with
    | none => change wording path tree (putInto faults path append tree bytes)
    | some (count, failure) =>
        match putInto faults path append tree (bytes.take count) with
        | .error refusal => change wording path tree (.error refusal)
        | .ok left => change wording path left (.error failure)

def rename (faults : Faults) (path newPath : Text) (tree : Tree) : Effect Unit :=
  unlessBlank "rename" path tree <| unlessBlank "rename" newPath tree <|
    change
      { action := "rename"
        attempt := s!"renaming {String.ofList path} to {String.ofList newPath}"
        done := s!"Renamed {String.ofList path} to {String.ofList newPath}" }
      path tree (callUnder faults .rename path [newPath] (tree.rename path newPath))

/-- The file at a path in normal form, read under a charset, with single line feeds for line
breaks. -/
def documentAt (path charset : Text) (tree : Tree) : Except Failure Document :=
  if charset.contains '\x00' then .error .nulInCharset
  else
    match call [path] (tree.contentAt path) with
    | .error failure => .error failure
    | .ok bytes =>
        match Charset.read charset bytes with
        | .error refusal => .error (.charset refusal)
        | .ok document => .ok document.unifyLineBreaks

def readDocument (path charset : Text) (tree : Tree) : Except Failure Document :=
  (documentAt (Path.normalize path) charset tree).mapError (blame "read" path)

def readText (path charset : Text) (tree : Tree) : Except Failure Text :=
  (readDocument path charset tree).map (·.text)

end Operation

end CommandFile
