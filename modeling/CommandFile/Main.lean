import CommandFile.CommandLine.Call
import CommandFile.Log.Sink

/-!
# The program

Runs calls on the working directory.  The program takes a picture of the files there,
carries out the call on the picture, and then makes the changes that the call has made.
The working directory is all that it sees: absolute paths begin there, and links are left
alone.  Settings and logs are kept in a folder of their own.
-/

namespace CommandFile.Program

def homeFolder : Path := .parse (Text.ofString ".config/handycmd")

def settingsFile : Path := homeFolder.child (Text.ofString "config.toml")

def logFolder : Path := homeFolder.child (Text.ofString "logs")

def fileName (location : Location) : String := String.ofList location.pathText

partial def entriesAt (folder : Location) (found : IO.FS.DirEntry) :
    IO (List (Location × Entry)) := do
  let location := found.fileName.toList :: folder
  match (← found.path.symlinkMetadata).type with
  | .dir =>
      let below ← (← found.path.readDir).toList.mapM (entriesAt location)
      pure ((location, .folder) :: below.flatten)
  | .file =>
      let content ← IO.FS.readBinFile found.path
      pure [(location, .file content.toList)]
  | _ => pure []

def readTree : IO Tree := do
  let found ← (← (← IO.currentDir).readDir).toList.mapM (entriesAt [])
  pure ⟨found.flatten⟩

def removeGone (before after : Tree) : IO Unit := do
  let gone := before.entries.filter fun item => after.at? item.1 |>.isNone
  for item in gone.mergeSort fun left right => right.1.length ≤ left.1.length do
    match item.2 with
    | .folder => IO.FS.removeDir (fileName item.1)
    | _ => IO.FS.removeFile (fileName item.1)

def makeFresh (before after : Tree) : IO Unit := do
  let fresh := after.entries.filter fun item => before.at? item.1 ≠ some item.2
  for item in fresh.mergeSort fun left right => left.1.length ≤ right.1.length do
    match item.2 with
    | .folder => IO.FS.createDir (fileName item.1)
    | .file content => IO.FS.writeBinFile (fileName item.1) ⟨content.toArray⟩
    | .link _ => pure ()

/-- Makes the changes that lead from one tree to another.  An entry that has become one
of another sort is removed first. -/
def writeTree (before after : Tree) : IO Unit := do
  let same (item : Location × Entry) : Bool :=
    match item.2, after.at? item.1 with
    | .folder, some .folder => true
    | .file _, some (.file _) => true
    | _, _ => false
  let kept : Tree := ⟨before.entries.filter same⟩
  removeGone before kept
  makeFresh kept after

def print (text : Text) : IO Unit := do
  IO.print (String.ofList text)
  (← IO.getStdout).flush

def readEnvironment : IO Environment := do
  let names :=
    [Environment.watchFileName, Environment.delayName, Environment.callNowName,
      Environment.debugName]
  let found ← names.mapM fun name => do pure (name, (← IO.getEnv name).getD "")
  pure (.ofVariables fun name => ((found.lookup name).getD "").toList)

def logging : CommandLine.Logging := fun debug tree =>
  let effect := Sinks.setUp debug logFolder tree
  ⟨effect.answer.map fun _ => (), effect.tree, effect.log⟩

def record (debug : Bool) (log : Log) (tree : Tree) : IO Tree := do
  let sinks := Sinks.thresholds debug
  for row in sinks.console.rows log do
    IO.eprintln row.line
  pure (sinks.write logFolder log tree)

partial def keepWatching (debug : Bool) (watcher : Watcher) : IO Unit := do
  IO.sleep Watcher.gathering.toUInt32
  let before ← readTree
  let after := watcher.poll before
  let known := watcher.debouncer
  let now := after.debouncer
  print ((now.world.messages.drop known.world.messages.length).flatMap (·.printed true))
  let rows := now.log.drop known.log.length
  let tree ← if rows = [] then pure after.tree else record debug rows after.tree
  writeTree before tree
  keepWatching debug (after.setTree tree)

def watch (debug : Bool) (settings : WatchSettings) (tree : Tree) : IO Unit := do
  match Watcher.ofSettings settings .passes tree with
  | .error failure => IO.eprintln failure.message
  | .ok watcher =>
      let (started, answer) := watcher.start
      writeTree tree started.tree
      match answer with
      | .error failure => IO.eprintln failure.message
      | .ok () => keepWatching debug started

def run (arguments : List String) : IO UInt32 := do
  let environment ← readEnvironment
  let before ← readTree
  let words := arguments.map String.toList
  let answer := CommandLine.call logging (.new settingsFile) environment false words before
  let tree ←
    match answer.debug? with
    | none => pure answer.tree
    | some debug => record debug answer.log answer.tree
  writeTree before tree
  print answer.output
  match answer.ending, answer.watch? with
  | .misused usage, _ => IO.eprintln usage.message
  | .stopped failure, _ => IO.eprintln s!"{failure.name}: {failure.message}"
  | .done, some settings => watch (answer.debug?.getD false) settings tree
  | _, _ => pure ()
  pure (UInt32.ofNat answer.ending.status)

end CommandFile.Program

def main (arguments : List String) : IO UInt32 := CommandFile.Program.run arguments
