import CommandFile.Statement.Kind
import CommandFile.Statement.Matcher

/-!
# Statement forms

A form is the written shape of a statement: a keyword, and a reading of what stands
between the keyword and the next semicolon.  A semicolon ends the statement that is
open at it, whatever that statement holds, so a form never looks past one.
-/

namespace CommandFile

def terminator : Char := ';'

structure Form where
  keyword : Text
  slots : List Slot
  /-- Captures in what follows the keyword, with offsets from its end. -/
  read : Text → Option (List Capture)

namespace Form

/-- The keyword, then everything up to the first semicolon. -/
def matchAt (form : Form) (text : Text) : Option Match :=
  match text.after? form.keyword with
  | none => none
  | some rest =>
      let inner := rest.takeWhile (· ≠ terminator)
      match rest.drop inner.length with
      | [] => none
      | _ :: _ =>
          (form.read inner).map fun captures =>
            { length := form.keyword.length + inner.length + 1
              captures := captures.map fun capture =>
                { capture with offset := form.keyword.length + capture.offset } }

def matcher (form : Form) : Matcher := ⟨form.slots, form.matchAt⟩

/-- A path lies on one line. -/
def isPathChar (character : Char) : Bool :=
  character ≠ '\n' && character ≠ terminator

def wholePath? (text : Text) : Option Text :=
  if text ≠ [] && text.all isPathChar then some text else none

/-- The shortest non-empty path behind which `close` can read on. -/
def shortestPath? {α : Type} (close : Text → Option α) : Text → Option (Text × α)
  | [] => none
  | character :: rest =>
      if isPathChar character then
        match close rest with
        | some closed => some ([character], closed)
        | none =>
            (shortestPath? close rest).map fun found =>
              (character :: found.1, found.2)
      else
        none

def readPath (inner : Text) : Option (List Capture) :=
  (wholePath? inner).map fun path => [⟨.path, 0, path⟩]

def forceWord : Text := Text.ofString " FORCE"

/-- A path, unless the statement ends in the word that asks for a forced deletion. -/
def readPlainPath (keyword inner : Text) : Option (List Capture) :=
  if forceWord.isSuffixOf (keyword ++ inner) then none else readPath inner

def forcedPath? (offset : Nat) (text : Text) : Option (List Capture) :=
  (text.before? forceWord).bind fun path =>
    (wholePath? path).map fun path => [⟨.path, offset, path⟩]

def forcedBehind? (word inner : Text) : Option (List Capture) :=
  (inner.after? word).bind (forcedPath? word.length)

/-- A forced deletion may name what it deletes; where the name has to serve as the
path, it does. -/
def readForcedPath (inner : Text) : Option (List Capture) :=
  ((forcedBehind? (Text.ofString "FILE ") inner).or
    (forcedBehind? (Text.ofString "FOLDER ") inner)).or (forcedPath? 0 inner)

def toWord : Text := Text.ofString " TO "

/-- Two paths, the first one as short as possible. -/
def readTwoPaths (inner : Text) : Option (List Capture) :=
  (shortestPath? (fun rest => (rest.after? toWord).bind wholePath?) inner).map
    fun found =>
      [⟨.path, 0, found.1⟩, ⟨.newPath, found.1.length + toWord.length, found.2⟩]

def contentWord : Text := Text.ofString "THIS CONTENT:"

/-- White space before the opening quotation mark of a body. -/
def longestGap : Nat := 3

/-- A quoted body that fills the rest of the statement, with the number of characters
before it. -/
def quotedBody? (text : Text) : Option (Nat × Text) :=
  let gap := text.takeWhile Text.isBlankChar
  if gap.length ≤ longestGap then
    match text.drop gap.length with
    | '"' :: rest =>
        if rest.getLast? = some '"' then some (gap.length + 1, rest.dropLast) else none
    | _ => none
  else
    none

/-- One white-space character, the word that announces a body, and the body. -/
def announcedBody? : Text → Option (Nat × Text)
  | [] => none
  | character :: rest =>
      if Text.isBlankChar character then
        ((Text.after? rest contentWord).bind quotedBody?).map fun found =>
          (1 + contentWord.length + found.1, found.2)
      else
        none

/-- One white-space character, a path as short as possible, and a quoted body. -/
def readContent : Text → Option (List Capture)
  | [] => none
  | character :: rest =>
      if Text.isBlankChar character then
        (shortestPath? announcedBody? rest).map fun found =>
          [⟨.path, 1, found.1⟩, ⟨.body, 1 + found.1.length + found.2.1, found.2.2⟩]
      else
        none

def createFolder : Form := ⟨Text.ofString "CREATE FOLDER ", [.path], readPath⟩

def createFile : Form := ⟨Text.ofString "CREATE FILE ", [.path], readPath⟩

def write : Form := ⟨Text.ofString "WRITE TO", [.path, .body], readContent⟩

def append : Form := ⟨Text.ofString "APPEND TO", [.path, .body], readContent⟩

def rename : Form := ⟨Text.ofString "RENAME ", [.path, .newPath], readTwoPaths⟩

def deleteFile : Form :=
  ⟨Text.ofString "DELETE FILE ", [.path], readPlainPath (Text.ofString "DELETE FILE ")⟩

def deleteFolder : Form :=
  ⟨Text.ofString "DELETE FOLDER ", [.path],
    readPlainPath (Text.ofString "DELETE FOLDER ")⟩

def deleteForce : Form := ⟨Text.ofString "DELETE ", [.path], readForcedPath⟩

def ofKind : Kind → Form
  | .createFolder => createFolder
  | .createFile => createFile
  | .write => write
  | .append => append
  | .rename => rename
  | .deleteFile => deleteFile
  | .deleteFolder => deleteFolder
  | .deleteForce => deleteForce

end Form

end CommandFile
