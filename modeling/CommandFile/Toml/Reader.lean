import CommandFile.Toml.Quoted
import CommandFile.Toml.Scalar

/-!
# Settings files

A settings file is a sequence of lines: blank ones, pairs of a key and a value, and
headers that open a table or a further element of an array of tables.  Every table has
one place where it is written: a header may not open it twice, and what stands inside
an inline table or an array cannot be added to.  Arrays and inline tables can be nested to any
depth here, where an interpreter gives up at the limit of its recursion.
-/

namespace CommandFile.Toml

abbrev KeyPath := List Text

def skipSpaces (text : Text) : Text := text.dropWhile isSpace

def skipComment? : Text → Option Text
  | '#' :: rest =>
      let comment := rest.takeWhile (· ≠ '\n')
      if comment.any isControl then none else some (rest.drop comment.length)
  | text => some text

def skipBlank? (inComment : Bool) : Text → Option Text
  | [] => some []
  | character :: rest =>
      if character = '\n' then skipBlank? false rest
      else if inComment then
        if isControl character then none else skipBlank? true rest
      else if isSpace character then skipBlank? false rest
      else if character = '#' then skipBlank? true rest
      else some (character :: rest)

/-! ## Keys -/

def isBareChar (character : Char) : Bool :=
  character.isAlphanum || character = '-' || character = '_'

def keyPart? : Text → Option (Text × Text)
  | '"' :: rest => basic rest
  | '\x27' :: rest => literal rest
  | text =>
      match text.takeWhile isBareChar with
      | [] => none
      | part => some (part, text.drop part.length)

/-- A key of at most `limit` parts, and the spaces behind it. -/
def key? (limit : Nat) (text : Text) : Option (KeyPath × Text) :=
  match limit with
  | 0 => none
  | limit + 1 =>
      match keyPart? text with
      | none => none
      | some (part, rest) =>
          match skipSpaces rest with
          | '.' :: behind =>
              (key? limit (skipSpaces behind)).map fun found => (part :: found.1, found.2)
          | behind => some ([part], behind)

/-! ## What may still be written -/

/-- A table that a header or a dotted key has opened, or a value that is complete in
itself together with all that is below it. -/
inductive Mark
  | opened (path : KeyPath)
  | closed (path : KeyPath)
deriving DecidableEq, Repr

namespace Mark

def path : Mark → KeyPath
  | .opened path => path
  | .closed path => path

end Mark

def isOpened (marks : List Mark) (path : KeyPath) : Bool := marks.contains (.opened path)

def isClosed (marks : List Mark) (path : KeyPath) : Bool :=
  marks.any fun
    | .closed closed => closed.isPrefixOf path
    | .opened _ => false

def release (marks : List Mark) (path : KeyPath) : List Mark :=
  marks.filter fun mark => !path.isPrefixOf mark.path

def isClosedForm : Value → Bool
  | .array _ => true
  | .table _ => true
  | _ => false

/-- Changes the table at a path; the tables on the way are made where they are missing.
With `lists`, the way leads through the last element of an array of tables. -/
def changeAt (lists : Bool) (change : Table → Option Table) :
    KeyPath → Table → Option Table
  | [], table => change table
  | key :: path, table =>
      match table.get? key with
      | none => (changeAt lists change path []).map fun nested => table.put key (.table nested)
      | some (.table nested) =>
          (changeAt lists change path nested).map fun nested => table.put key (.table nested)
      | some (.array items) =>
          match lists, items.getLast? with
          | true, some (.table nested) =>
              (changeAt lists change path nested).map fun nested =>
                table.put key (.array (items.dropLast ++ [.table nested]))
          | _, _ => none
      | some _ => none

def addEntry (key : Text) (value : Value) (table : Table) : Option Table :=
  match table.get? key with
  | none => some (table ++ [(key, value)])
  | some _ => none

/-- Adds an empty table to an array of tables, which may begin here. -/
def addElement (key : Text) (table : Table) : Option Table :=
  match table.get? key with
  | none => some (table ++ [(key, .array [.table []])])
  | some (.array items) => some (table.put key (.array (items ++ [.table []])))
  | some _ => none

/-! ## Values -/

mutual

/-- A value; `limit` bounds the number of values and separators in it. -/
def value (limit : Nat) (text : Text) : Except Refusal (Value × Text) :=
  match limit with
  | 0 => .error .malformed
  | limit + 1 =>
      match text with
      | '[' :: rest =>
          (orMalformed (skipBlank? false rest)).bind fun rest =>
            (items limit rest).map fun found => (.array found.1, found.2)
      | '{' :: rest =>
          match skipSpaces rest with
          | '}' :: behind => .ok (.table [], behind)
          | behind => (entries limit [] [] behind).map fun found => (.table found.1, found.2)
      | '"' :: _ => orMalformed ((string? text).map fun found => (.string found.1, found.2))
      | '\x27' :: _ => orMalformed ((string? text).map fun found => (.string found.1, found.2))
      | _ =>
          match text.after? (Text.ofString "true"), text.after? (Text.ofString "false") with
          | some rest, _ => .ok (.boolean true, rest)
          | _, some rest => .ok (.boolean false, rest)
          | none, none =>
              match moment? text with
              | some found => orMalformed found
              | none => number text

def items (limit : Nat) (text : Text) : Except Refusal (List Value × Text) :=
  match limit with
  | 0 => .error .malformed
  | limit + 1 =>
      match text with
      | ']' :: rest => .ok ([], rest)
      | _ =>
          (value limit text).bind fun (item, rest) =>
            (orMalformed (skipBlank? false rest)).bind fun
              | ']' :: behind => .ok ([item], behind)
              | ',' :: behind =>
                  (orMalformed (skipBlank? false behind)).bind fun behind =>
                    (items limit behind).map fun found => (item :: found.1, found.2)
              | _ => .error .malformed

def entries (limit : Nat) (table : Table) (marks : List Mark) (text : Text) :
    Except Refusal (Table × Text) :=
  match limit with
  | 0 => .error .malformed
  | limit + 1 =>
      (orMalformed (key? limit text)).bind fun
        | (path, '=' :: rest) =>
            (value limit (skipSpaces rest)).bind fun (value, rest) =>
              if isClosed marks path then .error .malformed
              else
                (orMalformed
                  (changeAt false (addEntry (path.getLastD []) value) path.dropLast table)).bind
                  fun table =>
                    let marks := if isClosedForm value then .closed path :: marks else marks
                    match skipSpaces rest with
                    | '}' :: behind => .ok (table, behind)
                    | ',' :: behind => entries limit table marks (skipSpaces behind)
                    | _ => .error .malformed
        | _ => .error .malformed

end

/-! ## Lines -/

/-- The tables read so far, and the header that the next pairs belong to.  What a dotted
key opens counts as opened from the next header on, and waits in `pending` till then. -/
structure Document where
  root : Table
  marks : List Mark
  pending : List Mark
  header : KeyPath

namespace Document

def empty : Document := ⟨[], [], [], []⟩

def beginnings (path : KeyPath) : List KeyPath :=
  (List.range (path.length - 1)).map fun index => path.take (index + 1)

def addPair (document : Document) (path : KeyPath) (value : Value) : Option Document :=
  let above := (beginnings path).map (document.header ++ ·)
  let parent := document.header ++ path.dropLast
  if above.any (isOpened document.marks) || isClosed document.marks parent then none
  else
    (changeAt true (addEntry (path.getLastD []) value) parent document.root).map fun root =>
      { document with
        root := root
        pending := above.map Mark.opened ++ document.pending
        marks :=
          if isClosedForm value then .closed (document.header ++ path) :: document.marks
          else document.marks }

def openTable (document : Document) (path : KeyPath) : Option Document :=
  let marks := document.pending ++ document.marks
  if isOpened marks path || isClosed marks path then none
  else
    (changeAt true some path document.root).map fun root =>
      ⟨root, .opened path :: marks, [], path⟩

def openElement (document : Document) (path : KeyPath) : Option Document :=
  let marks := document.pending ++ document.marks
  if isClosed marks path then none
  else
    (changeAt true (addElement (path.getLastD [])) path.dropLast document.root).map fun root =>
      ⟨root, .opened path :: release marks path, [], path⟩

def statement (document : Document) (text : Text) : Except Refusal (Document × Text) :=
  let limit := 2 * text.length + 2
  match text with
  | '[' :: '[' :: rest =>
      (orMalformed (key? limit (skipSpaces rest))).bind fun (path, rest) =>
        match rest with
        | ']' :: ']' :: behind => orMalformed ((document.openElement path).map (·, behind))
        | _ => .error .malformed
  | '[' :: rest =>
      (orMalformed (key? limit (skipSpaces rest))).bind fun (path, rest) =>
        match rest with
        | ']' :: behind => orMalformed ((document.openTable path).map (·, behind))
        | _ => .error .malformed
  | _ =>
      (orMalformed (key? limit text)).bind fun (path, rest) =>
        match rest with
        | '=' :: behind =>
            (value limit (skipSpaces behind)).bind fun (value, rest) =>
              orMalformed ((document.addPair path value).map (·, rest))
        | _ => .error .malformed

def lines (limit : Nat) (document : Document) (text : Text) : Except Refusal Document :=
  match limit with
  | 0 => .error .malformed
  | limit + 1 =>
      match skipSpaces text with
      | [] => .ok document
      | '\n' :: rest => lines limit document rest
      | character :: rest =>
          let found :=
            if character = '#' then .ok (document, character :: rest)
            else document.statement (character :: rest)
          found.bind fun (document, rest) =>
            (orMalformed (skipComment? (skipSpaces rest))).bind fun
              | [] => .ok document
              | '\n' :: rest => lines limit document rest
              | _ => .error .malformed

end Document

/-- A carriage return before a line feed belongs to the line break. -/
def unifyBreaks : Text → Text
  | [] => []
  | '\r' :: '\n' :: rest => '\n' :: unifyBreaks rest
  | character :: rest => character :: unifyBreaks rest

/-- The table that a settings file holds.  The first thing that cannot be read decides
why there is none. -/
def read (text : Text) : Except Refusal Table :=
  let text := unifyBreaks text
  (Document.empty.lines (text.length + 1) text).map (·.root)

end CommandFile.Toml
