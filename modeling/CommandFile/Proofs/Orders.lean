import CommandFile.Proofs.Decomposition
import Mathlib.Data.List.Nodup

/-!
# Orders of statements

While no statement has a second turn, the calls of a batch come as they are submitted, and once
every target has been looked for, what comes then begins with the same findings.  Statements that
are performed in one go have no other effect than to be performed one after another, in an order
that the turns determine.
-/

namespace CommandFile.Batch

variable {faults : Faults} {tree : Tree}

/-! ## Checks first -/

@[simp] theorem check_check (faults : Faults) (tree : Tree) (task : Task) :
    (task.check faults tree).check faults tree = task.check faults tree := by
  obtain ⟨command, progress⟩ := task
  cases progress <;> rfl

def Stage.looked (faults : Faults) (commands : List Command) (tree : Tree) : Stage :=
  ⟨commands.map fun command => ⟨command, .checked (look faults tree command)⟩, tree, []⟩

def Task.left (task : Task) : Nat :=
  match task.progress with
  | .waiting => 2
  | .checked _ => 1
  | .settled _ => 0

def called (calls : List (Command × Nat)) (place : Nat) : List (Command × Nat) :=
  calls.modify place fun call => (call.1, call.2 - 1)

def due? (calls : List (Command × Nat)) (place : Nat) : Option Command :=
  match calls[place]? with
  | some (command, 1) => some command
  | _ => none

def Stage.calls (stage : Stage) : List (Command × Nat) :=
  stage.tasks.map fun task => (task.command, task.left)

end CommandFile.Batch
