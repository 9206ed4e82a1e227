import CommandFile.Record

/-!
# Settings

What a user can set: how the command file is watched, and whether everything is logged.
A table of values gives the settings of the watch as a whole or not at all.
-/

namespace CommandFile

structure WatchSettings where
  file : Path
  delay : Number
  callNow : Bool
  encoding : Text
deriving DecidableEq, Repr

namespace WatchSettings

def default : WatchSettings where
  file := ⟨[], [Text.ofString "commands.txt"]⟩
  delay := .finite false 4503599627370496 (-53)
  callNow := true
  encoding := Text.ofString "utf-8"

/-- The settings in a table.  Fields that the table lacks keep their defaults, and
entries that are no field are passed over. -/
def ofTable (table : Table) : Except (List Issue) WatchSettings :=
  let file := Record.fieldOr table "file" Record.path default.file
  let delay := Record.fieldOr table "delay" Record.duration default.delay
  let callNow := Record.fieldOr table "call_now" Record.flag default.callNow
  let encoding := Record.fieldOr table "encoding" Record.string default.encoding
  Record.both (Record.both (Record.both (file.map WatchSettings.mk) delay) callNow) encoding

end WatchSettings

structure Settings where
  watch : WatchSettings
  debug : Bool
deriving DecidableEq, Repr

def Settings.default : Settings := ⟨.default, false⟩

end CommandFile
