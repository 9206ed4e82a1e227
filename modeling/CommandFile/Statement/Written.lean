import CommandFile.Statement.Pattern
import Mathlib.Data.List.Infix

/-!
# Writing statements

A line holds a statement in one of its written forms, and a document holds statements
line by line.  Reading a document gives its statements back, unless a path or a body
holds words that a reader takes for something else; those that hold none are plain.
-/

namespace CommandFile

inductive Statement
  | createFolder (path : Text)
  | createFile (path : Text)
  | write (path body : Text)
  | append (path body : Text)
  | rename (path newPath : Text)
  | deleteFile (path : Text)
  | deleteFolder (path : Text)
  | deleteForce (path : Text)
deriving DecidableEq, Repr

namespace Statement

def kind : Statement → Kind
  | .createFolder _ => .createFolder
  | .createFile _ => .createFile
  | .write _ _ => .write
  | .append _ _ => .append
  | .rename _ _ => .rename
  | .deleteFile _ => .deleteFile
  | .deleteFolder _ => .deleteFolder
  | .deleteForce _ => .deleteForce

def args : Statement → List Text
  | .createFolder path => [path]
  | .createFile path => [path]
  | .write path body => [path, body]
  | .append path body => [path, body]
  | .rename path newPath => [path, newPath]
  | .deleteFile path => [path]
  | .deleteFolder path => [path]
  | .deleteForce path => [path]

def paths : Statement → List Text
  | .write path _ => [path]
  | .append path _ => [path]
  | statement => statement.args

def body? : Statement → Option Text
  | .write _ body => some body
  | .append _ body => some body
  | _ => none

def renamedPath? : Statement → Option Text
  | .rename path _ => some path
  | _ => none

def forcedPath? : Statement → Option Text
  | .deleteForce path => some path
  | _ => none

def command (statement : Statement) : Command := ⟨statement.kind, statement.args⟩

def commandsOf (kind : Kind) (statements : List Statement) : List Command :=
  (statements.map command).filter (·.kind = kind)

end Statement

/-! ## Lines -/

inductive Naming
  | unnamed
  | file
  | folder
deriving DecidableEq, Repr

def Naming.word : Naming → Text
  | .unnamed => []
  | .file => Text.ofString "FILE "
  | .folder => Text.ofString "FOLDER "

/-- A statement, with the spaces before its body and with what it says that it deletes,
if it has a body or forces a deletion. -/
structure Line where
  statement : Statement
  gap : Fin (Form.longestGap + 1)
  naming : Naming
deriving DecidableEq, Repr

namespace Line

def content (line : Line) (body : Text) : Text :=
  Form.contentWord ++ List.replicate line.gap ' ' ++ '"' :: (body ++ ['"'])

def inner (line : Line) : Text :=
  match line.statement with
  | .createFolder path => path
  | .createFile path => path
  | .write path body => ' ' :: (path ++ ' ' :: line.content body)
  | .append path body => ' ' :: (path ++ ' ' :: line.content body)
  | .rename path newPath => path ++ Form.toWord ++ newPath
  | .deleteFile path => path
  | .deleteFolder path => path
  | .deleteForce path => line.naming.word ++ path ++ Form.forceWord

def segment (line : Line) : Text :=
  (Form.ofKind line.statement.kind).keyword ++ line.inner

def document (lines : List Line) : Text :=
  lines.flatMap fun line => line.segment ++ [terminator, '\n']

@[simp] theorem document_nil : document [] = [] := rfl

@[simp] theorem document_cons (line : Line) (others : List Line) :
    document (line :: others) = line.segment ++ terminator :: '\n' :: document others := by
  simp [document]

end Line

/-! ## Plain statements -/

/-- Words that would be read as a part of a statement. -/
def reservedWords : List Text :=
  [Text.ofString "CREATE", Text.ofString "DELETE", Text.ofString "RENAME",
    Text.ofString "WRITE TO", Text.ofString "APPEND TO", Text.ofString "FORCE",
    Form.contentWord]

structure PlainPath (path : Text) : Prop where
  present : path ≠ []
  trimmed : path.trim = path
  oneLine : '\n' ∉ path
  unended : terminator ∉ path
  unreserved : ∀ word ∈ reservedWords, ¬ word <:+: path

/-- A body may hold anything but the keywords of the statements with bodies. -/
structure PlainBody (body : Text) : Prop where
  trimmed : body.trim = body
  unended : terminator ∉ body
  unwritten : ¬ Form.write.keyword <:+: body
  unappended : ¬ Form.append.keyword <:+: body

/-- A statement that is found again where it was written. -/
structure Statement.Plain (statement : Statement) : Prop where
  paths : ∀ path ∈ statement.paths, PlainPath path
  bodies : ∀ body ∈ statement.body?, PlainBody body
  renamed : ∀ path ∈ statement.renamedPath?, ¬ Text.ofString " TO" <:+: path
  forced : ∀ path ∈ statement.forcedPath?,
    ¬ Text.ofString "FILE " <+: path ∧ ¬ Text.ofString "FOLDER " <+: path

instance (path : Text) : Decidable (PlainPath path) :=
  decidable_of_iff
    (path ≠ [] ∧ path.trim = path ∧ '\n' ∉ path ∧ terminator ∉ path ∧
      ∀ word ∈ reservedWords, ¬ word <:+: path)
    ⟨fun ⟨present, trimmed, oneLine, unended, unreserved⟩ =>
        ⟨present, trimmed, oneLine, unended, unreserved⟩,
      fun plain =>
        ⟨plain.present, plain.trimmed, plain.oneLine, plain.unended, plain.unreserved⟩⟩

instance (body : Text) : Decidable (PlainBody body) :=
  decidable_of_iff
    (body.trim = body ∧ terminator ∉ body ∧ ¬ Form.write.keyword <:+: body ∧
      ¬ Form.append.keyword <:+: body)
    ⟨fun ⟨trimmed, unended, unwritten, unappended⟩ =>
        ⟨trimmed, unended, unwritten, unappended⟩,
      fun plain => ⟨plain.trimmed, plain.unended, plain.unwritten, plain.unappended⟩⟩

instance (statement : Statement) : Decidable statement.Plain :=
  decidable_of_iff
    ((∀ path ∈ statement.paths, PlainPath path) ∧
      (∀ body ∈ statement.body?, PlainBody body) ∧
      (∀ path ∈ statement.renamedPath?, ¬ Text.ofString " TO" <:+: path) ∧
      ∀ path ∈ statement.forcedPath?,
        ¬ Text.ofString "FILE " <+: path ∧ ¬ Text.ofString "FOLDER " <+: path)
    ⟨fun ⟨paths, bodies, renamed, forced⟩ => ⟨paths, bodies, renamed, forced⟩,
      fun plain => ⟨plain.paths, plain.bodies, plain.renamed, plain.forced⟩⟩

end CommandFile
