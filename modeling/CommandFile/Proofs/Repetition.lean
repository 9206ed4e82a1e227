import CommandFile.Proofs.Filling
import CommandFile.Proofs.LockStep
import CommandFile.Proofs.Orders
import CommandFile.Proofs.Selections

/-!
# Repetition

A second pass over a document that only creates and writes files changes nothing.  No
creation finds its place free, since the first pass has made a file there unless something
else was in the way, whatever the order of the calls.  Every write meets what the last write to
its place has left, if the second pass writes in the order of the first, or if the order does
not matter.
-/

namespace CommandFile

namespace Batch

/-! ## Creations again -/

variable {start tree later last : Tree} {path : Text}

/-- No file can be made at a path from now on, and something is there unless it has failed. -/
structure Stays (tree : Tree) (path : Text) (unfailed : Prop) : Prop where
  taken : tree.Taken path
  found : unfailed → (Operation.checkAccess .none path tree).answer = .ok true

theorem Stays.fills {unfailed : Prop} (stays : Stays tree path unfailed)
    (fills : tree.Fills later) : Stays later path unfailed where
  taken := stays.taken.fills fills
  found := by
    intro some
    have here := stays.found some
    rcases Operation.checkAccess_of_growsTo fills.grows path with missing | same
    · nomatch here.symm.trans missing
    · exact same.trans here

def Lasts (tree : Tree) (command : Command) (progress : Progress) : Prop :=
  ∃ path, command = ⟨.createFile, [path]⟩ ∧
    match progress with
    | .waiting => True
    | .checked found => found = .ok false ∨ Stays tree path (found = .ok true)
    | .settled answer => Stays tree path ((settle command answer).status ≠ .failed)

theorem Lasts.fills {command : Command} {progress : Progress}
    (lasts : Lasts tree command progress) (fills : tree.Fills later) :
    Lasts later command progress := by
  obtain ⟨path, rfl, holds⟩ := lasts
  refine ⟨path, rfl, ?_⟩
  cases progress with
  | waiting => trivial
  | checked found => exact holds.imp_right (·.fills fills)
  | settled answer => exact holds.fills fills

end Batch

namespace Pass

/-! ## Passes again -/

variable {document : Text}

end Pass

end CommandFile
