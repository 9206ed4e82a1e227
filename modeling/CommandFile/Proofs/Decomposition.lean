import CommandFile.Proofs.Settling

/-!
# Batches in parts

A batch of a kind that does not look at its targets beforehand is a run of steps, and a
run can be cut anywhere.  So what is appended to a complete document is performed as if it
were a document of its own, on the tree that the first one has left.
-/

namespace CommandFile

namespace Batch

def immediate : List Kind := [.deleteFile, .deleteFolder, .deleteForce, .write, .append, .rename]

variable {faults : Faults}

theorem carryOut_of_immediate {command : Command} (single : command.kind ∈ immediate)
    (found : Except Failure Bool) (tree : Tree) :
    carryOut faults command found tree = perform faults command tree := by
  have uncreated : creation? faults command.kind = none := by
    revert single
    cases command.kind <;> simp [immediate, creation?]
  rw [carryOut, uncreated]

theorem step_eq_perform {command : Command} (single : command.kind ∈ immediate) (start : Tree) :
    step faults start command = perform faults command := by
  funext tree
  rw [step, carryOut_of_immediate single]

theorem rightUnique_tells : Relator.RightUnique Tells :=
  fun _ _ _ here there => Except.ok.inj (here.1.symm.trans there.1)

theorem handle_eq_strictly (calm : faults.Calm) {kind : Kind} (single : kind ∈ immediate)
    (document : Text) (tree : Tree) :
    let settled := strictly faults (kind.commands document) tree
    let outcomes := List.zipWith settle (kind.commands document) settled.answers
    (handle faults (Pattern.ofKind kind) document tree).tree = settled.tree ∧
      ∃ messages,
        (handle faults (Pattern.ofKind kind) document tree).answer = .ok ⟨outcomes, messages⟩ ∧
        List.Forall₂ Tells outcomes messages := by
  have performs : oneByOne (step faults tree) (kind.commands document) tree =
      strictly faults (kind.commands document) tree := by
    refine oneByOne_congr (fun command inside => ?_) tree
    obtain ⟨args, rfl, -⟩ := kind_of_mem_commands inside
    exact step_eq_perform single tree
  obtain ⟨last, -, messages, answer, tells⟩ := handle_eq_oneByOne calm kind document tree
  rw [performs] at last answer tells
  exact ⟨last, messages, answer, tells⟩

/-- What follows a complete document is handled like a document of its own, on the tree
that the first one has left: the outcomes and the lines come one after another. -/
theorem handle_append (faults : Faults) (calm : faults.Calm) {kind : Kind}
    (single : kind ∈ immediate) {first : Text}
    (complete : first = [] ∨ first.getLast? = some terminator) (second : Text) (tree : Tree) :
    let before := handle faults (Pattern.ofKind kind) first tree
    let after := handle faults (Pattern.ofKind kind) second before.tree
    let whole := handle faults (Pattern.ofKind kind) (first ++ second) tree
    whole.tree = after.tree ∧
    ∃ batch others, before.answer = .ok batch ∧ after.answer = .ok others ∧
      whole.answer =
        .ok ⟨batch.outcomes ++ others.outcomes, batch.messages ++ others.messages⟩ := by
  intro before after whole
  obtain ⟨lastBefore, messages, answer, tells⟩ := handle_eq_strictly calm single first tree
  obtain ⟨lastAfter, others, answerAfter, tellsAfter⟩ :=
    handle_eq_strictly calm single second before.tree
  obtain ⟨lastWhole, all, answerWhole, tellsWhole⟩ :=
    handle_eq_strictly calm single (first ++ second) tree
  have commands : kind.commands (first ++ second) =
      kind.commands first ++ kind.commands second := by
    rw [Kind.commands, kind.rows_append complete, List.map_append]
    rfl
  have lengths := length_oneByOne (perform faults) (kind.commands first) tree
  have runs := oneByOne_append (perform faults) (kind.commands first) (kind.commands second) tree
  change before.tree = (oneByOne _ _ _).tree at lastBefore
  rw [strictly, commands, runs, ← lastBefore] at lastWhole
  rw [strictly, commands, runs, List.zipWith_append lengths.symm, ← lastBefore]
    at answerWhole tellsWhole
  have lines : all = messages ++ others :=
    rightUnique_tells.forall₂ tellsWhole (List.rel_append tells tellsAfter)
  exact ⟨lastWhole.trans lastAfter.symm, _, _, answer, answerAfter, lines ▸ answerWhole⟩

/-- What a first document writes is there for the second one to append to, behind a failure too. -/
theorem handle_append_written :
    let first := Text.ofString "APPEND TO a THIS CONTENT: \"x\";"
    let second := Text.ofString "APPEND TO a/b THIS CONTENT: \"y\";APPEND TO a THIS CONTENT: \"z\";"
    let before := handle .none (Pattern.ofKind .append) first .empty
    let after := handle .none (Pattern.ofKind .append) second before.tree
    let whole := handle .none (Pattern.ofKind .append) (first ++ second) .empty
    Faults.none.Calm ∧ Kind.append ∈ immediate ∧ first.getLast? = some terminator ∧
    whole.tree = after.tree ∧
    whole.tree.at? [Text.ofString "a"] = some (.file (Utf8.encode (Text.ofString "xz"))) ∧
    ∃ batch others, before.answer = .ok batch ∧ after.answer = .ok others ∧
      whole.answer =
        .ok ⟨batch.outcomes ++ others.outcomes, batch.messages ++ others.messages⟩ := by
  intro first second before after whole
  have single : Kind.append ∈ immediate := by decide
  have ends : first.getLast? = some terminator := by decide
  obtain ⟨last, parts⟩ := handle_append .none Faults.calm_none single (.inr ends) second .empty
  exact ⟨Faults.calm_none, single, ends, last, by decide, parts⟩

end Batch

end CommandFile
