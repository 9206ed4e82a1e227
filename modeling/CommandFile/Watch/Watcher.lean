import CommandFile.Debounce.Clock
import CommandFile.Pass
import CommandFile.Settings.Basic
import CommandFile.Tree.Resolve

/-!
# Watching a command file

A watcher performs its command file whenever that has changed.  Changes arrive in
batches; a batch with a new or altered file triggers the debouncer, and each run of the
debouncer reads the file as it then is and hands it to the dispatcher.

A prompt watcher does both at the instant at which a run starts.  The file is read on a thread of
a pool, however, so a run may read it later and hand it on later still, and other runs may come
in between.  Then `read` and `hand` are the moments at which one of the runs gets on with it,
for some scheduler to choose.
-/

namespace CommandFile

abbrev Dispatcher := Document → Tree → Effect (List Message)

namespace Dispatcher

def passes : Dispatcher := fun document tree =>
  let effect := Pass.run (.ofDocument document) document.text tree
  ⟨effect.answer.map Pass.messages, effect.tree, effect.log⟩

def ignores : Dispatcher := fun _ tree => ⟨.ok [], tree, []⟩

def fails (failure : Failure) : Dispatcher := fun _ tree => ⟨.error failure, tree, []⟩

end Dispatcher

inductive ChangeKind
  | added
  | modified
  | deleted
deriving DecidableEq, Repr

/-- The changes that lead from one content of a file to another; without a content the
file is not there. -/
def ChangeKind.between (before after : Option Bytes) : List ChangeKind :=
  match before, after with
  | none, none => []
  | none, some _ => [.added]
  | some _, none => [.deleted]
  | some old, some new => if old = new then [] else [.modified]

structure Reading where
  time : Rat
  answer : Except Failure Document

structure Dispatch where
  document : Document
  tree : Tree
  effect : Effect (List Message)

/-- What the runs of a watcher act on.  `readings` and `dispatches` begin with the latest one,
`unread` counts the runs that have started and not read the file, and what is `unhanded` has been
read and not been dispatched. -/
structure WatchWorld where
  tree : Tree
  readings : List Reading
  dispatches : List Dispatch
  messages : List Message
  unread : Nat
  unhanded : List Document

/-- What a watcher is set up for; `pace` tells how long the run of each number takes, and `prompt`
whether a run reads the file and hands it on as it starts. -/
structure WatchPlan where
  path : Path
  encoding : Text
  target : Location
  dispatcher : Dispatcher
  pace : Nat → Rat
  prompt : Bool

structure Watcher where
  plan : WatchPlan
  debouncer : Debouncer WatchWorld
  watching : Bool

namespace WatchWorld

def first (tree : Tree) : WatchWorld := ⟨tree, [], [], [], 0, []⟩

def dispatched (world : WatchWorld) : List Document := world.dispatches.map (·.document)

end WatchWorld

structure Deed (α : Type) where
  answer : Except Failure α
  log : Log
  world : WatchWorld

def Deed.failure? {α : Type} (deed : Deed α) : Option Failure :=
  match deed.answer with
  | .error failure => some failure
  | .ok _ => none

namespace WatchPlan

def source : String := "handycmd.monitoring.watcher"

def shown (plan : WatchPlan) : String := String.ofList plan.path.text

def logger (plan : WatchPlan) : Logger :=
  (Logger.named source).withContext [("path", plan.shown)]

/-- Reads the command file.  A file that cannot be opened is only logged. -/
def read (plan : WatchPlan) (time : Rat) (world : WatchWorld) : Deed (Option Document) :=
  let answer := Operation.readDocument plan.path.text plan.encoding world.tree
  let after : WatchWorld := { world with readings := ⟨time, answer⟩ :: world.readings }
  match answer with
  | .ok document => ⟨.ok (some document), [], after⟩
  | .error failure =>
      if failure.path?.isSome then
        ⟨.ok none,
          [plan.logger.row .warning s!"Could not read command file: {failure.message}"], after⟩
      else ⟨.error failure, [], after⟩

def hand (plan : WatchPlan) (document : Document) (world : WatchWorld) : Deed Unit :=
  let effect := plan.dispatcher document world.tree
  let messages :=
    match effect.answer with
    | .ok messages => messages
    | .error _ => []
  ⟨effect.answer.map fun _ => (), effect.log,
    { world with
      tree := effect.tree
      dispatches := ⟨document, world.tree, effect⟩ :: world.dispatches
      messages := world.messages ++ messages }⟩

def process (plan : WatchPlan) (time : Rat) (world : WatchWorld) : Deed Unit :=
  let reading := plan.read time world
  match reading.answer with
  | .error failure => ⟨.error failure, reading.log, reading.world⟩
  | .ok none => ⟨.ok (), reading.log, reading.world⟩
  | .ok (some document) =>
      let handing := plan.hand document reading.world
      ⟨handing.answer, reading.log ++ handing.log, handing.world⟩

/-- A run that has started reads the file, if one has not read it yet. -/
def readNext (plan : WatchPlan) (time : Rat) (world : WatchWorld) : Deed (Option Document) :=
  match world.unread with
  | 0 => ⟨.ok none, [], world⟩
  | others + 1 =>
      let reading := plan.read time { world with unread := others }
      match reading.answer with
      | .ok (some document) =>
          let unhanded := reading.world.unhanded ++ [document]
          { reading with world := { reading.world with unhanded := unhanded } }
      | _ => reading

def handNext (plan : WatchPlan) (place : Nat) (world : WatchWorld) : Deed Unit :=
  match world.unhanded[place]? with
  | none => ⟨.ok (), [], world⟩
  | some document =>
      plan.hand document { world with unhanded := world.unhanded.eraseIdx place }

def work (plan : WatchPlan) : Work WatchWorld := fun number time world =>
  if plan.prompt then
    let deed := plan.process time world
    ⟨deed.world, deed.log, plan.pace number, deed.failure?⟩
  else ⟨{ world with unread := world.unread + 1 }, [], plan.pace number, none⟩

def ensureFile (plan : WatchPlan) (tree : Tree) : Effect Unit :=
  let path := plan.path.text
  let refuse (tree : Tree) (errno : Errno) (path : Text) : Effect Unit :=
    ⟨.error (.system (.ofErrno errno [path])), tree, []⟩
  match tree.probe path with
  | .error errno => refuse tree errno path
  | .ok (some _) => ⟨.ok (), tree, []⟩
  | .ok none =>
      let making := tree.ensureFolders plan.path.parent
      match making.refusal? with
      | some (errno, refused) => refuse making.tree errno refused
      | none =>
          match making.tree.changeFile path id with
          | .error errno => refuse making.tree errno path
          | .ok after =>
              ⟨.ok (), after,
                [plan.logger.row .info s!"Created empty command file {plan.shown}"]⟩

def accepts (plan : WatchPlan) (tree : Tree) (path : Text) : Bool :=
  tree.resolve path = plan.target

def content? (plan : WatchPlan) (tree : Tree) : Option Bytes :=
  (tree.contentAt plan.path.text).toOption

end WatchPlan

namespace Watcher

def fresh (plan : WatchPlan) (delay : Delay) (callNow : Bool) (tree : Tree) : Watcher :=
  ⟨plan, .new delay callNow (.first tree), false⟩

/-- A watcher of the file at a path; the path is resolved once and for all.  Its runs are prompt
and take no time. -/
def new (path encoding : Text) (delay : Number) (callNow : Bool) (dispatcher : Dispatcher)
    (tree : Tree) : Except Failure Watcher :=
  if path.contains '\x00' then .error .nulInPath
  else
    let path := Path.parse path
    match Debouncer.delayFor none delay with
    | .error failure => .error failure
    | .ok delay =>
        .ok (fresh ⟨path, encoding, tree.resolve path.text, dispatcher, fun _ => 0, true⟩
          delay callNow tree)

def ofSettings (settings : WatchSettings) (dispatcher : Dispatcher) (tree : Tree) :
    Except Failure Watcher :=
  new settings.file.text settings.encoding settings.delay settings.callNow dispatcher tree

def tree (watcher : Watcher) : Tree := watcher.debouncer.world.tree

def setTree (watcher : Watcher) (tree : Tree) : Watcher :=
  { watcher with
    debouncer :=
      { watcher.debouncer with world := { watcher.debouncer.world with tree := tree } } }

def log (watcher : Watcher) (rows : Log) : Watcher :=
  { watcher with
    debouncer := { watcher.debouncer with log := watcher.debouncer.log ++ rows } }

def order (watcher : Watcher) (order : Debouncer.Order) : Watcher :=
  { watcher with debouncer := watcher.debouncer.obey watcher.plan.work order }

def ensureFile (watcher : Watcher) : Watcher × Except Failure Unit :=
  let effect := watcher.plan.ensureFile watcher.tree
  ((watcher.setTree effect.tree).log effect.log, effect.answer)

def setWorld (watcher : Watcher) (world : WatchWorld) : Watcher :=
  { watcher with debouncer := { watcher.debouncer with world := world } }

/-- Reads and dispatches at once, past the debouncer. -/
def process (watcher : Watcher) : Watcher × Except Failure Unit :=
  let deed := watcher.plan.process watcher.debouncer.now watcher.debouncer.world
  ((watcher.setWorld deed.world).log deed.log, deed.answer)

def getOn {α : Type} (watcher : Watcher) (deed : Deed α) : Watcher :=
  (watcher.setWorld deed.world).log
    (deed.log ++ deed.failure?.toList.flatMap Debouncer.complaints)

def read (watcher : Watcher) : Watcher :=
  watcher.getOn (watcher.plan.readNext watcher.debouncer.now watcher.debouncer.world)

def hand (watcher : Watcher) (place : Nat) : Watcher :=
  watcher.getOn (watcher.plan.handNext place watcher.debouncer.world)

def finish (watcher : Watcher) : Watcher :=
  let reads := Nat.repeat Watcher.read watcher.debouncer.world.unread watcher
  Nat.repeat (Watcher.hand · 0) reads.debouncer.world.unhanded.length reads

/-- Takes a batch of changes to the command file; says whether it was a trigger. -/
def handleChanges (watcher : Watcher) (kinds : List ChangeKind) : Watcher × Bool :=
  if kinds.contains .added || kinds.contains .modified then
    (watcher.order (.trigger 1), true)
  else if kinds.contains .deleted then
    (watcher.log
      [watcher.plan.logger.row .warning
        (s!"The watched file {watcher.plan.shown} was removed or renamed; "
          ++ "watching continues for a file at the same path")], false)
  else (watcher, false)

/-- Takes a raw batch while watching.  Changes elsewhere are dropped, and so is a batch
of nothing else. -/
def feed (watcher : Watcher) (changes : List (ChangeKind × Text)) : Watcher :=
  let kept := changes.filter fun change => watcher.plan.accepts watcher.tree change.2
  if watcher.watching && kept ≠ [] then (watcher.handleChanges (kept.map (·.1))).1
  else watcher

def advance (watcher : Watcher) (seconds : Rat) : Watcher := watcher.order (.advance seconds)

def start (watcher : Watcher) : Watcher × Except Failure Unit :=
  match watcher.ensureFile with
  | (watcher, .error failure) => (watcher, .error failure)
  | (watcher, .ok ()) =>
      ({ watcher with watching := true }.log
        [watcher.plan.logger.row .info s!"Watching {watcher.plan.shown}"], .ok ())

/-- Stops to watch: the open window is dropped, and runs that have started are waited
for. -/
def stop (watcher : Watcher) : Watcher :=
  if watcher.watching then
    let stopped := ((watcher.order .cancel).order .drain).finish
    { stopped with watching := false }.log
      [watcher.plan.logger.row .info s!"Stopped watching {watcher.plan.shown}"]
  else watcher

def watchedFolder (plan : WatchPlan) : Text :=
  match plan.target with
  | [] => Name.up
  | _ :: [] => Name.here
  | _ :: folder => Location.pathText folder

def gathering : Nat := 50

/-- Looks at the tree as it has become since the last look, and lets the time until the
next one pass. -/
def poll (watcher : Watcher) (tree : Tree) : Watcher :=
  let changes :=
    ChangeKind.between (watcher.plan.content? watcher.tree) (watcher.plan.content? tree)
  let seen := watcher.setTree tree
  let told := if changes = [] then seen else (seen.handleChanges changes).1
  told.advance ((gathering : Rat) / 1000)

end Watcher

end CommandFile
