import CommandFile.Log
import CommandFile.Settings.Basic
import CommandFile.Text.Quoted

/-!
# Settings in the environment

Variables of the environment override the settings of a file.  An empty variable counts
as one that is not set.
-/

namespace CommandFile

structure Environment where
  watchFile : Text
  delay : Text
  callNow : Text
  debug : Text
deriving DecidableEq, Repr

namespace Environment

def empty : Environment := ⟨[], [], [], []⟩

/-! The names of the variables. -/

def watchFileName : String := "HANDYCMD_WATCH_FILE"

def delayName : String := "HANDYCMD_DELAY"

def callNowName : String := "HANDYCMD_CALL_NOW"

def debugName : String := "HANDYCMD_DEBUG"

def ofVariables (value : String → Text) : Environment :=
  ⟨value watchFileName, value delayName, value callNowName, value debugName⟩

def source : String := "handycmd.config"

def trueWords : List String := ["1", "true", "yes", "on"]

def saysYes (value : Text) : Bool :=
  trueWords.contains (String.ofList (value.trim.map Char.toLower))

/-- A set variable decides a setting, and an empty one leaves it as it is. -/
def unlessEmpty {α : Type} (value : Text) (setting : α) (read : Text → α) : α :=
  if value = [] then setting else read value

/-- The delay that a variable asks for.  What is no number is passed over, and what is
not above zero is zero. -/
def delayIn (value : Text) (setting : Number) : Number :=
  match Numeral.readWritten value with
  | some number => number.clamp
  | none => setting

def override (environment : Environment) (settings : Settings) : Settings where
  watch :=
    { settings.watch with
      file := unlessEmpty environment.watchFile settings.watch.file Path.parse
      delay :=
        unlessEmpty environment.delay settings.watch.delay (delayIn · settings.watch.delay)
      callNow := unlessEmpty environment.callNow settings.watch.callNow saysYes }
  debug := unlessEmpty environment.debug settings.debug saysYes

def warnings (environment : Environment) : Log :=
  if environment.delay = [] then []
  else
    match Numeral.readWritten environment.delay with
    | some _ => []
    | none =>
        [.plain .warning source
          s!"Ignoring {delayName}={Text.quoted environment.delay}: not a number"]

end Environment

end CommandFile
