import CommandFile.Failure
import CommandFile.Settings.Environment
import CommandFile.Toml.Reader
import CommandFile.Toml.Writer
import CommandFile.Tree.Folders

/-!
# Stored settings

Settings are layered: the defaults, then a settings file, then the environment.  A file
that is malformed or has invalid values contributes nothing at all.  Saving writes the
settings so that loading gives them back.
-/

namespace CommandFile

structure Store where
  path : Path
  settings : Settings
deriving DecidableEq, Repr

namespace Store

def source : String := "handycmd.config"

def say (level : Level) (message : String) : LogRow := .plain level source message

def new (path : Path) : Store := ⟨path, .default⟩

structure Layer where
  settings : Settings
  log : Log

def unusable (message : String) : Layer :=
  ⟨.default,
    [say .error message,
      say .error "Using default configuration and environment variables."]⟩

/-- The debug flag of a table; a value of another type is passed over. -/
def debugIn (path : Text) (table : Table) : Bool × Log :=
  match table.get? (Text.ofString "debug") with
  | none => (false, [])
  | some (.boolean value) => (value, [])
  | some value =>
      (false,
        [say .warning
          (s!"Invalid type for \x27debug\x27 in {String.ofList path}. "
            ++ s!"Expected boolean, got <class \x27{value.typeName}\x27>. Ignoring.")])

def layerOf (path : Text) (table : Table) : Layer :=
  let watch :=
    match table.get? (Text.ofString "watch") with
    | some (.table entries) => WatchSettings.ofTable entries
    | _ => .ok .default
  match watch with
  | .error _ =>
      unusable s!"Invalid values in configuration file ({String.ofList path})"
  | .ok watch =>
      let (debug, log) := debugIn path table
      ⟨⟨watch, debug⟩, log⟩

def layerOfText (path text : Text) : Except Failure Layer :=
  match Toml.read text with
  | .error .malformed =>
      .ok (unusable s!"Error decoding TOML configuration file ({String.ofList path})")
  | .error (.tooManyDigits count) => .error (.tooManyDigits Toml.greatestWidth count)
  | .ok table => .ok (layerOf path table)

def layer (path : Text) (tree : Tree) : Except Failure Layer :=
  match tree.contentAt path with
  | .error errno =>
      let error := SystemError.ofErrno errno [path]
      .ok (unusable s!"I/O error accessing configuration file: {error.message}")
  | .ok bytes =>
      match Utf8.decode bytes with
      | .error refusal => .error (.undecodable refusal)
      | .ok text => layerOfText path text

def present (store : Store) (tree : Tree) : Except Failure Bool :=
  let path := store.path.text
  if path.contains '\x00' then .ok false
  else
    match tree.probe path with
    | .error errno => .error (.system (.ofErrno errno [path]))
    | .ok found => .ok found.isSome

structure Change (α : Type) where
  store : Store
  answer : Except Failure α
  tree : Tree
  log : Log

/-- Loads the settings anew; nothing of the earlier ones is kept. -/
def load (store : Store) (environment : Environment) (tree : Tree) : Change Unit :=
  let path := store.path.text
  let shown := String.ofList path
  let finish (layer : Layer) (log : Log) : Change Unit :=
    ⟨⟨store.path, environment.override layer.settings⟩, .ok (), tree,
      log ++ layer.log ++ environment.warnings⟩
  let stop (failure : Failure) (log : Log) : Change Unit :=
    ⟨⟨store.path, .default⟩, .error failure, tree, log⟩
  match store.present tree with
  | .error failure => stop failure []
  | .ok false =>
      finish ⟨.default, []⟩
        [say .debug s!"Configuration file not found at \x27{shown}\x27. Using defaults."]
  | .ok true =>
      let log := [say .debug s!"Loading configuration from: {shown}"]
      match layer path tree with
      | .error failure => stop failure log
      | .ok layer => finish layer log

def render (settings : Settings) : Text :=
  let watch := settings.watch
  Toml.writePair "debug" (Toml.writeFlag settings.debug)
    ++ Text.ofString "\n[watch]\n"
    ++ Toml.writePair "file" (Toml.writeString watch.file.text)
    ++ Toml.writePair "delay" watch.delay.text
    ++ Toml.writePair "call_now" (Toml.writeFlag watch.callNow)
    ++ Toml.writePair "encoding" (Toml.writeString watch.encoding)

def save (store : Store) (tree : Tree) : Change Text :=
  let path := store.path.text
  let fail (tree : Tree) (failure : Failure) : Change Text :=
    ⟨store, .error failure, tree, []⟩
  if path.contains '\x00' then fail tree .nulInPath
  else
    let making := tree.ensureFolders store.path.parent
    match making.refusal? with
    | some (errno, refused) => fail making.tree (.system (.ofErrno errno [refused]))
    | none =>
        match making.tree.overwrite path (Utf8.encode (render store.settings)) with
        | .error errno => fail making.tree (.system (.ofErrno errno [path]))
        | .ok after =>
            ⟨store, .ok path, after,
              [say .info s!"Configuration saved to {String.ofList path}"]⟩

end Store

end CommandFile
