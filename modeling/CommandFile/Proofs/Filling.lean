import CommandFile.Proofs.Attempts
import Mathlib.Data.List.Induction

/-!
# Filling trees

To make files and to write to them leaves all folders and links alone, so paths lead to
the same places before and after.  A place that has once been found taken stays taken, and
entries that are put a second time in the same order are there already.
-/

namespace CommandFile

namespace Tree

variable {tree start later : Tree} {location other : Location}

/-! ## Entries that are put again -/

structure Fills (tree later : Tree) : Prop where
  grows : tree.GrowsTo later
  same : tree.SameFrame later

theorem Fills.refl (tree : Tree) : tree.Fills tree := ⟨.refl tree, .refl tree⟩

theorem Fills.trans (fills : start.Fills tree) (fillsOn : tree.Fills later) : start.Fills later :=
  ⟨fills.grows.trans fillsOn.grows, fills.same.trans fillsOn.same⟩

theorem fills_put_file (inside : location ≠ []) (free : tree.frame? location = none)
    (content : Bytes) : tree.Fills (tree.put location (.file content)) := by
  refine ⟨growsTo_put inside fun old found => ?_, sameFrame_put_file inside free content⟩
  rcases frame?_eq_none_iff.mp free with absent | ⟨bytes, there⟩
  · nomatch absent.symm.trans found
  · obtain rfl := Option.some.inj (there.symm.trans found)
    rfl

def Taken (tree : Tree) (path : Text) : Prop :=
  Operation.Callable path → ∀ location, tree.place? path = some location →
    tree.at? location ≠ none

theorem Taken.fills {path : Text} (taken : tree.Taken path) (fills : tree.Fills later) :
    later.Taken path := by
  intro callable location placed free
  exact taken callable location (fills.same.place? path ▸ placed)
    (fills.grows.at?_eq_none free)

end Tree

namespace Operation

variable {path : Text} {tree later : Tree}

theorem fills_createFile (path : Text) (tree : Tree) :
    tree.Fills (createFile .none path tree).tree := by
  rcases createFile_cases path tree with ⟨location, -, -, inside, free, last, -⟩ | ⟨-, last, -⟩
  · rw [last]
    exact Tree.fills_put_file inside (Tree.frame?_eq_none_iff.mpr (.inl free)) []
  · rw [last]
    exact .refl tree

end Operation

end CommandFile
