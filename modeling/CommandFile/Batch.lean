import CommandFile.Operation
import CommandFile.Report

/-!
# Batches

A batch performs all statements of one kind that a text holds.  Every statement gets an
outcome, and a failing statement does not keep the others from being performed.

A statement that creates something looks for its target first; then it is carried out.  Both are
calls on the threads of a pool, so those of different statements can come in any order.  Each call
is taken to be made as a whole, with no other call at the same time.  The order is a parameter:
`turns` names the statements whose next calls come before all others, and behind them the calls come
as they are submitted, so that everything is looked for before the rest is carried out in document
order.  No turns are given where this order is assumed; `strictly` is the order that finishes each
statement before it begins the next.
-/

namespace CommandFile

structure Settled (α : Type) where
  answers : List (Except Failure α)
  tree : Tree
  log : Log

/-- The steps for the items one after another, each on the tree that the one before it
left. -/
def oneByOne {α β : Type} (step : β → Tree → Effect α) : List β → Tree → Settled α
  | [], tree => ⟨[], tree, []⟩
  | item :: items, tree =>
      let effect := step item tree
      let rest := oneByOne step items effect.tree
      ⟨effect.answer :: rest.answers, rest.tree, effect.log ++ rest.log⟩

structure Batch where
  outcomes : List Outcome
  messages : List Message
deriving DecidableEq, Repr

namespace Batch

def logger (kind : Kind) : Logger :=
  (Logger.named "handycmd.commands.handlers").withContext [("kind", kind.name)]

def conclude {α : Type} (kind : Kind) (targets : List Text) (effect : Effect α) :
    Effect Outcome :=
  ⟨effect.answer.map fun _ => .succeeded kind targets, effect.tree, effect.log⟩

def giveUp (failure : Failure) (tree : Tree) : Effect Outcome := ⟨.error failure, tree, []⟩

def withPath (command : Command) (tree : Tree) (step : Text → Effect Outcome) :
    Effect Outcome :=
  match command.args with
  | [] => giveUp .noPath tree
  | path :: _ => step path

def withTwo (command : Command) (tree : Tree) (step : Text → Text → Effect Outcome) :
    Effect Outcome :=
  match command.args with
  | [first, second] => step first second
  | others => giveUp (.argumentCount others.length) tree

def found (faults : Faults) (tree : Tree) (command : Command) : Except Failure Bool :=
  match command.args with
  | [] => .error .noPath
  | path :: _ => (Operation.checkAccess faults path tree).answer

def create (operation : Text → Tree → Effect Unit) (item : Command × Except Failure Bool)
    (tree : Tree) : Effect Outcome :=
  let (command, answer) := item
  match answer with
  | .error failure => giveUp failure tree
  | .ok true =>
      withPath command tree fun path =>
        ⟨.ok (.alreadyExists command.kind [path]), tree, []⟩
  | .ok false =>
      withPath command tree fun path =>
        conclude command.kind [path] (operation path tree)

def creation? (faults : Faults) : Kind → Option (Text → Tree → Effect Unit)
  | .createFile => some (Operation.createFile faults)
  | .createFolder => some fun path tree => Operation.createFolder faults path true tree
  | _ => none

def perform (faults : Faults) (command : Command) (tree : Tree) : Effect Outcome :=
  let kind := command.kind
  match kind with
  | .createFile => create (Operation.createFile faults) (command, found faults tree command) tree
  | .createFolder =>
      create (fun path tree => Operation.createFolder faults path true tree)
        (command, found faults tree command) tree
  | .deleteFile =>
      withPath command tree fun path =>
        conclude kind [path] (Operation.deleteFile faults path tree)
  | .deleteFolder =>
      withPath command tree fun path =>
        conclude kind [path] (Operation.deleteFolder faults path tree)
  | .deleteForce =>
      withPath command tree fun path =>
        conclude kind [path] (Operation.deleteBranch faults path tree)
  | .write =>
      withTwo command tree fun path body =>
        conclude kind [path] (Operation.writeFile faults path body false tree)
  | .append =>
      withTwo command tree fun path body =>
        conclude kind [path] (Operation.writeFile faults path body true tree)
  | .rename =>
      withTwo command tree fun path newPath =>
        conclude kind [path, newPath] (Operation.rename faults path newPath tree)

/-- Each statement is finished before the next one begins. -/
def strictly (faults : Faults) (commands : List Command) (tree : Tree) : Settled Outcome :=
  oneByOne (perform faults) commands tree

def look (faults : Faults) (tree : Tree) (command : Command) : Except Failure Bool :=
  match creation? faults command.kind with
  | some _ => found faults tree command
  | none => .ok false

def carryOut (faults : Faults) (command : Command) (answer : Except Failure Bool) (tree : Tree) :
    Effect Outcome :=
  match creation? faults command.kind with
  | some operation => create operation (command, answer) tree
  | none => perform faults command tree

inductive Progress
  | waiting
  | checked (found : Except Failure Bool)
  | settled (answer : Except Failure Outcome)

structure Task where
  command : Command
  progress : Progress

namespace Task

def check (faults : Faults) (tree : Tree) (task : Task) : Task :=
  match task.progress with
  | .waiting => ⟨task.command, .checked (look faults tree task.command)⟩
  | _ => task

def finish (faults : Faults) (task : Task) (tree : Tree) : Effect Outcome :=
  match task.progress with
  | .waiting => perform faults task.command tree
  | .checked found => carryOut faults task.command found tree
  | .settled answer => ⟨answer, tree, []⟩

end Task

structure Stage where
  tasks : List Task
  tree : Tree
  log : Log

def Stage.first (commands : List Command) (tree : Tree) : Stage :=
  ⟨commands.map (Task.mk · .waiting), tree, []⟩

/-- Makes the next call of the statement at a place. -/
def turn (faults : Faults) (stage : Stage) (place : Nat) : Stage :=
  match stage.tasks[place]? with
  | none => stage
  | some task =>
      match task.progress with
      | .waiting => { stage with tasks := stage.tasks.set place (task.check faults stage.tree) }
      | _ =>
          let effect := task.finish faults stage.tree
          ⟨stage.tasks.set place ⟨task.command, .settled effect.answer⟩, effect.tree,
            stage.log ++ effect.log⟩

def Stage.finish (faults : Faults) (stage : Stage) : Settled Outcome :=
  let checked := stage.tasks.map (Task.check faults stage.tree)
  let late := oneByOne (Task.finish faults) checked stage.tree
  ⟨late.answers, late.tree, stage.log ++ late.log⟩

def schedule (faults : Faults) (commands : List Command) (tree : Tree)
    (turns : List Nat := []) : Settled Outcome :=
  (turns.foldl (turn faults) (.first commands tree)).finish faults

def settle (command : Command) : Except Failure Outcome → Outcome
  | .ok outcome => outcome
  | .error failure => .failed command.kind command.targets failure

def report (kind : Kind) (outcomes : List Outcome) (tree : Tree) (log : Log) :
    Effect Batch :=
  match Report.ofOutcomes kind outcomes with
  | .error failure => ⟨.error failure, tree, log⟩
  | .ok report => ⟨.ok ⟨outcomes, report.messages⟩, tree, log ++ report.log⟩

/-- Performs the statements that a pattern finds in a text.  When its matchers disagree
nothing is performed, and every statement that was seen fails. -/
def handle (faults : Faults) (pattern : Pattern) (text : Text) (tree : Tree)
    (turns : List Nat := []) : Effect Batch :=
  let kind := pattern.kind
  match pattern.commands text with
  | .error columns =>
      let failure := Failure.malformed columns
      report kind ((pattern.primaryTargets text).map fun target =>
          .failed kind [target] failure)
        tree [(logger kind).row .warning s!"Rejecting batch: {failure.message}"]
  | .ok commands =>
      let settled := schedule faults commands tree turns
      let log :=
        (logger kind).row .debug s!"Extracted {commands.length} occurrence(s)"
          :: settled.log
      if settled.answers.any fun answer => answer matches .error .cancelled then
        ⟨.error .cancelled, settled.tree, log⟩
      else
        report kind (List.zipWith settle commands settled.answers) settled.tree log

end Batch

end CommandFile
