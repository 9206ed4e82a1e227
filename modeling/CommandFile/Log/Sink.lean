import CommandFile.Operation
import CommandFile.Text.JsonString

/-!
# Where log rows go

Every row is offered to three sinks, and each of them keeps those from its threshold on.
The console shows warnings and worse, since each statement is reported there already;
asking for debugging lowers the threshold of the console and of the log file.
-/

namespace CommandFile

structure Sink where
  threshold : Level
deriving DecidableEq, Repr

namespace Sink

def keeps (sink : Sink) (row : LogRow) : Bool :=
  sink.threshold.severity ≤ row.level.severity

def rows (sink : Sink) (log : Log) : Log := log.filter sink.keeps

@[simp] theorem mem_rows {sink : Sink} {log : Log} {row : LogRow} :
    row ∈ sink.rows log ↔ row ∈ log ∧ sink.threshold.severity ≤ row.level.severity := by
  simp [rows, keeps]

end Sink

namespace LogRow

inductive Part
  | time
  | level
  | source
  | message
deriving DecidableEq, Repr

def Part.written : Part → String
  | .time => "\x7btime:YYYY-MM-DD HH:mm:ss\x7d"
  | .level => "\x7blevel\x7d"
  | .source => "\x7bextra[name]\x7d"
  | .message => "\x7bmessage\x7d"

def Part.text (row : LogRow) (time : String) : Part → String
  | .time => time
  | .level => row.level.name
  | .source => row.source
  | .message => row.message

def body : List Part := [.level, .source, .message]

def separator : String := " | "

def layout : String := String.intercalate separator ((Part.time :: body).map Part.written)

def line (row : LogRow) : String := String.intercalate separator (body.map (Part.text row ""))

def record (row : LogRow) : Text :=
  let pair (key value : String) : Text :=
    Text.jsonQuoted key.toList ++ [':', ' '] ++ Text.jsonQuoted value.toList
  '\x7b' :: Text.join [',', ' ']
    [pair "level" row.level.name, pair "name" row.source, pair "message" row.message]
    ++ ['\x7d']

end LogRow

structure Sinks where
  console : Sink
  file : Sink
  structured : Sink
deriving DecidableEq, Repr

namespace Sinks

def source : String := "handycmd.utils.logging"

def fileName : Name := Text.ofString "handycmd.log"

def structuredName : Name := Text.ofString "handycmd_structured.log"

def thresholds (debug : Bool) : Sinks where
  console := ⟨if debug then .debug else .warning⟩
  file := ⟨if debug then .debug else .info⟩
  structured := ⟨.info⟩

def touch (path : Text) (tree : Tree) : Except Failure Tree :=
  Operation.call [path] (tree.changeFile path id)

def setUp (debug : Bool) (folder : Path) (tree : Tree) : Effect Sinks :=
  let file := (folder.child fileName).text
  let structured := (folder.child structuredName).text
  if folder.text.contains '\x00' then ⟨.error .nulInPath, tree, []⟩
  else
    let making := tree.ensureFolders folder
    match making.refusal? with
    | some (errno, refused) =>
        ⟨.error (.system (.ofErrno errno [refused])), making.tree, []⟩
    | none =>
        match (touch file making.tree).bind (touch structured) with
        | .error failure => ⟨.error failure, making.tree, []⟩
        | .ok after =>
            ⟨.ok (thresholds debug), after,
              [.plain .debug source
                (s!"Logging initialized. Log files: {String.ofList file}, "
                  ++ String.ofList structured)]⟩

def write (sinks : Sinks) (folder : Path) (log : Log) (tree : Tree) : Tree :=
  let put (name : Name) (lines : List Text) (tree : Tree) : Tree :=
    let content := Utf8.encode (lines.flatMap (· ++ ['\n']))
    match tree.extend (folder.child name).text content with
    | .ok after => after
    | .error _ => tree
  put structuredName ((sinks.structured.rows log).map LogRow.record)
    (put fileName ((sinks.file.rows log).map fun row => row.line.toList) tree)

end Sinks

end CommandFile
