import CommandFile.Console.Line
import CommandFile.Log.Logger
import CommandFile.Outcome

/-!
# Reports

A report turns the outcomes of a batch into lines, in the order of the outcomes, and
repeats each line in the log.  `Message.printed` is the line as it reaches a terminal.
-/

namespace CommandFile

structure Report where
  messages : List Message
  log : Log
deriving DecidableEq, Repr

namespace Report

def logger : Logger := .named "handycmd.commands.reporter"

def row (message : Message) : LogRow := logger.row message.category.level message.text

def info (text : String) : Report :=
  let message : Message := ⟨.info, text⟩
  ⟨[message], [row message]⟩

/-- The report on a batch; nothing is reported unless every outcome has its line. -/
def ofOutcomes (kind : Kind) (outcomes : List Outcome) : Except Failure Report :=
  match outcomes.mapM Outcome.message with
  | .error failure => .error failure
  | .ok messages =>
      let head := logger.withContext [("kind", kind.name)]
      .ok ⟨messages,
        head.row .debug s!"Reporting {messages.length} outcome(s)" :: messages.map row⟩

end Report

namespace Category

def style : Category → String
  | .success => "bright_green"
  | .warn => "bright_yellow"
  | .error => "red"
  | .info => "bright_cyan"

def colour : Category → Nat
  | .success => 92
  | .warn => 93
  | .error => 31
  | .info => 96

end Category

namespace Message

def printed (message : Message) (coloured : Bool) : Text :=
  let text := message.text.toList
  if coloured then Console.painted message.category.colour text else Console.shown text

end Message

end CommandFile
