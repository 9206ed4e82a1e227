import CommandFile.CommandLine.Words
import CommandFile.Number.Numeral

/-!
# What a call asks for

The words of a call name a command.  Options before the command hold for every command;
those behind it belong to it and may be mixed with its arguments.
-/

namespace CommandFile.CommandLine

inductive Subcommand
  | watch
  | run
  | config
deriving DecidableEq, Repr

namespace Subcommand

def all : List Subcommand := [.watch, .run, .config]

def name : Subcommand → String
  | .watch => "watch"
  | .run => "run"
  | .config => "config"

def ofName? (name : String) : Option Subcommand := all.find? (·.name = name)

def summary : Subcommand → String
  | .watch => "Watch the command file and execute statements on every save."
  | .run => "Execute the statements currently in a command file once."
  | .config => "Show the effective configuration."

end Subcommand

inductive GeneralOption
  | debug
  | config
  | version
  | help
deriving DecidableEq, Repr

structure Head where
  debug : Bool
  config? : Option Text
deriving DecidableEq, Repr

inductive Request
  | version
  | help
  | order (head : Head) (subcommand : Subcommand) (words : List Text)
deriving DecidableEq, Repr

namespace Request

def switches : List (Switch GeneralOption) :=
  [.flag .debug "--debug" ['d'], .valued .config "--config" ['c'],
    .flag .version "--version" ['v'], .flag .help "--help" []]

def read (words : List Text) : Except Usage Request :=
  match readWords switches false words with
  | .error usage => .error usage
  | .ok ⟨given, words⟩ =>
      match given.find? fun item => item.1 = .version || item.1 = .help with
      | some (.version, _) => .ok .version
      | some _ => .ok .help
      | none =>
          match words with
          | [] => .error .commandMissing
          | word :: others =>
              match Subcommand.ofName? (String.ofList word) with
              | none => .error (.unknownCommand word)
              | some subcommand =>
                  let head : Head := ⟨given.has .debug, given.value? .config⟩
                  .ok (.order head subcommand others)

end Request

inductive WatchOption
  | delay
  | callNow
  | callLater
  | help
deriving DecidableEq, Repr

inductive RunOption
  | help
deriving DecidableEq, Repr

inductive ConfigOption
  | save
  | help
deriving DecidableEq, Repr

inductive Order
  | help
  | watch (file? : Option Text) (delay? : Option Number) (callNow? : Option Bool)
  | run (file : Text)
  | config (save : Bool)
deriving DecidableEq, Repr

namespace Order

def watchSwitches : List (Switch WatchOption) :=
  [.valued .delay "--delay" [], .flag .callNow "--call-now" [],
    .flag .callLater "--no-call-now" [], .flag .help "--help" []]

def runSwitches : List (Switch RunOption) := [.flag .help "--help" []]

def configSwitches : List (Switch ConfigOption) :=
  [.flag .save "--save" [], .flag .help "--help" []]

def readDelay : Option Text → Except Usage (Option Number)
  | none => .ok none
  | some word =>
      match Numeral.readWritten word with
      | none => .error (.badDelay word)
      | some delay =>
          if delay.isAtLeastZero then .ok (some delay) else .error (.badDelay word)

/-- The last of the two flags counts. -/
def callNowIn (given : Given WatchOption) : Option Bool :=
  (given.filterMap fun item =>
    match item.1 with
    | .callNow => some true
    | .callLater => some false
    | _ => none).getLast?

def readWatch (words : List Text) : Except Usage Order :=
  match readWords watchSwitches true words with
  | .error usage => .error usage
  | .ok ⟨given, words⟩ =>
      if given.has .help then .ok .help
      else
        match readDelay (given.value? .delay), words with
        | .error usage, _ => .error usage
        | .ok _, _ :: _ :: _ => .error .tooManyWords
        | .ok delay?, words => .ok (.watch words.head? delay? (callNowIn given))

def readRun (words : List Text) : Except Usage Order :=
  match readWords runSwitches true words with
  | .error usage => .error usage
  | .ok ⟨given, words⟩ =>
      if given.has .help then .ok .help
      else
        match words with
        | [] => .error .fileMissing
        | [file] => .ok (.run file)
        | _ => .error .tooManyWords

def readConfig (words : List Text) : Except Usage Order :=
  match readWords configSwitches true words with
  | .error usage => .error usage
  | .ok ⟨given, words⟩ =>
      if given.has .help then .ok .help
      else if words = [] then .ok (.config (given.has .save))
      else .error .tooManyWords

def read : Subcommand → List Text → Except Usage Order
  | .watch, words => readWatch words
  | .run, words => readRun words
  | .config, words => readConfig words

end Order

end CommandFile.CommandLine
