import CommandFile.CommandLine.Request
import CommandFile.Console.Markup
import CommandFile.Pass
import CommandFile.Settings.Outline
import CommandFile.Settings.Store
import CommandFile.Watch.Watcher

/-!
# Calls

A call loads the settings, sets up logging, carries out its command and ends in one of four
ways.  A one-shot run is a pass over the statements of a command file; it has failed when one
of them has.
-/

namespace CommandFile.CommandLine

def programName : String := "handycmd"

def description : String :=
  "Watch a command file and turn its statements into filesystem changes"

def version : String := "0.1.0"

def logger : Logger := .named "handycmd.cli.main"

inductive Ending
  | done
  | statementsFailed
  | misused (usage : Usage)
  | stopped (failure : Failure)
deriving DecidableEq, Repr

def Ending.status : Ending → Nat
  | .done => 0
  | .statementsFailed => 1
  | .misused _ => 2
  | .stopped _ => 1

/-- What a call leaves.  `debug?` says how logging was set up, if it came to that, and
`watch?` what was watched. -/
structure Answer where
  ending : Ending
  output : Text
  debug? : Option Bool
  watch? : Option WatchSettings
  log : Log
  tree : Tree

namespace Answer

def early (ending : Ending) (output : Text) (log : Log) (tree : Tree) : Answer :=
  ⟨ending, output, none, none, log, tree⟩

end Answer

structure Result where
  ending : Ending
  output : Text
  watch? : Option WatchSettings
  log : Log
  tree : Tree

/-- Prints a text with tags, and goes on unless they do not match. -/
def printed (markup : Text) : Except Failure Text :=
  match Markup.plain markup with
  | .ok text => .ok (Console.shown text)
  | .error refusal => .error (.unmatchedTag refusal)

/-! ## One-shot runs -/

def nothingFound : Report := .info "No statements found."

def pass (path : Path) (charset : Text) (tree : Tree) (turns : Kind → List Nat := fun _ => []) :
    Effect Pass :=
  match Operation.documentAt path.text charset tree with
  | .error failure => ⟨.error failure, tree, []⟩
  | .ok document => Pass.run (.ofDocument document) document.text tree turns

def report (pass : Pass) : Report :=
  if pass.results = [] then nothingFound else ⟨pass.messages, []⟩

def run (path : Path) (charset : Text) (tree : Tree) (turns : Kind → List Nat := fun _ => []) :
    Result :=
  let effect := pass path charset tree turns
  match effect.answer with
  | .error failure => ⟨.stopped failure, [], none, effect.log, effect.tree⟩
  | .ok pass =>
      let lines := report pass
      let output := lines.messages.flatMap (·.printed false)
      let log := effect.log ++ lines.log
      if pass.failures = 0 then ⟨.done, output, none, log, effect.tree⟩
      else
        let words := s!"{pass.failures} statement(s) failed in {String.ofList path.text}"
        ⟨.statementsFailed, output, none, log ++ [logger.row .error words], effect.tree⟩

def runFile (file charset : Text) (tree : Tree) (turns : Kind → List Nat := fun _ => []) :
    Result :=
  let misused (usage : Usage) : Result := ⟨.misused usage, [], none, [], tree⟩
  if file.contains '\x00' then ⟨.stopped .nulInPath, [], none, [], tree⟩
  else
    match tree.status file with
    | .error _ => misused (.fileNotFound file)
    | .ok .folder => misused (.fileIsFolder file)
    | .ok _ => run (.parse file) charset tree turns

/-! ## Watching and settings -/

def watchLine (file : Path) : Text :=
  Text.ofString "[bold cyan]Watching[/bold cyan] " ++ file.text
    ++ Text.ofString " [dim](Ctrl+C to stop)[/dim]"

def stoppedLine : Text := Text.ofString "[bold yellow]Stopped watching.[/bold yellow]"

def watch (settings : WatchSettings) (interrupted : Bool) (tree : Tree) : Result :=
  let stopped (watch? : Option WatchSettings) (failure : Failure) : Result :=
    ⟨.stopped failure, [], watch?, [], tree⟩
  match Watcher.ofSettings settings .passes tree with
  | .error failure => stopped none failure
  | .ok _ =>
      match printed (watchLine settings.file), printed stoppedLine with
      | .error failure, _ => stopped (some settings) failure
      | _, .error failure => stopped (some settings) failure
      | .ok first, .ok last =>
          let output := if interrupted then first ++ last else first
          ⟨.done, output, some settings, [], tree⟩

def withArguments (settings : WatchSettings) (file? : Option Text) (delay? : Option Number)
    (callNow? : Option Bool) : WatchSettings where
  file := (file?.map Path.parse).getD settings.file
  delay := delay?.getD settings.delay
  callNow := callNow?.getD settings.callNow
  encoding := settings.encoding

def savedLine (path : Text) : Text :=
  Text.ofString "[bold green]Configuration saved to[/bold green] " ++ path

def config (store : Store) (save : Bool) (tree : Tree) : Result :=
  let output := Console.page store.settings.outline
  if save then
    let change := store.save tree
    match change.answer with
    | .error failure => ⟨.stopped failure, output, none, change.log, change.tree⟩
    | .ok path =>
        match printed (savedLine path) with
        | .error failure => ⟨.stopped failure, output, none, change.log, change.tree⟩
        | .ok line => ⟨.done, output ++ line, none, change.log, change.tree⟩
  else ⟨.done, output, none, [], tree⟩

/-! ## Calls -/

def versionLine : String := s!"{programName} version: {version}"

def helpLines : List Text :=
  (s!"{programName}: {description}" ::
    Subcommand.all.map fun each => s!"  {each.name}: {each.summary}").map String.toList

def perform (store : Store) (interrupted : Bool) (turns : Kind → List Nat) (tree : Tree) :
    Order → Result
  | .help => ⟨.done, Console.page helpLines, none, [], tree⟩
  | .watch file? delay? callNow? =>
      if (file?.getD []).contains '\x00' then ⟨.stopped .nulInPath, [], none, [], tree⟩
      else watch (withArguments store.settings.watch file? delay? callNow?) interrupted tree
  | .run file => runFile file store.settings.watch.encoding tree turns
  | .config save => config store save tree

def openStore (start : Store) (head : Head) (environment : Environment) (tree : Tree) :
    Store.Change Unit :=
  let store : Store := { start with path := (head.config?.map Path.parse).getD start.path }
  if (head.config?.getD []).contains '\x00' then ⟨store, .error .nulInPath, tree, []⟩
  else store.load environment tree

def withDebug (store : Store) (debug : Bool) : Store :=
  if debug then { store with settings := { store.settings with debug := true } } else store

abbrev Logging := Bool → Tree → Effect Unit

def Logging.nowhere : Logging := fun _ tree => ⟨.ok (), tree, []⟩

def call (logging : Logging) (start : Store) (environment : Environment) (interrupted : Bool)
    (words : List Text) (tree : Tree) (turns : Kind → List Nat := fun _ => []) : Answer :=
  match Request.read words with
  | .error usage => .early (.misused usage) [] [] tree
  | .ok .version => .early .done (Console.shown versionLine.toList) [] tree
  | .ok .help => .early .done (Console.page helpLines) [] tree
  | .ok (.order head subcommand rest) =>
      let change := openStore start head environment tree
      match change.answer with
      | .error failure => .early (.stopped failure) [] change.log change.tree
      | .ok () =>
          let store := withDebug change.store head.debug
          let logs := logging store.settings.debug change.tree
          match logs.answer with
          | .error failure => .early (.stopped failure) [] (change.log ++ logs.log) logs.tree
          | .ok () =>
              let result : Result :=
                match Order.read subcommand rest with
                | .error usage => ⟨.misused usage, [], none, [], logs.tree⟩
                | .ok order => perform store interrupted turns logs.tree order
              ⟨result.ending, result.output, some store.settings.debug, result.watch?,
                change.log ++ logs.log ++ result.log, result.tree⟩

end CommandFile.CommandLine
