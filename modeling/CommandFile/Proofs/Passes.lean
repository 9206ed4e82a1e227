import CommandFile.Proofs.Settling

/-!
# Settled passes

A pass is a chain of batches, one for every detected kind, each on the tree that the one
before it left.  Its results and its lines are those of its batches put together.
-/

namespace CommandFile.Pass

inductive Batches (faults : Faults) (document : Text) (turns : Kind → List Nat) :
    Tree → List (Kind × Batch) → Tree → Prop
  | done (tree : Tree) : Batches faults document turns tree [] tree
  | next {kind : Kind} {tree last : Tree} {batch : Batch} {others : List (Kind × Batch)}
      (here : (Batch.handle faults (Pattern.ofKind kind) document tree (turns kind)).answer =
        .ok batch)
      (later : Batches faults document turns
        (Batch.handle faults (Pattern.ofKind kind) document tree (turns kind)).tree others last) :
      Batches faults document turns tree ((kind, batch) :: others) last

def ofBatches (batches : List (Kind × Batch)) : Pass where
  results := batches.map fun item => (item.1, item.2.outcomes)
  messages := batches.flatMap fun item => item.2.messages

variable {faults : Faults} {document : Text}

theorem ofKinds_cons_of_ok (turns : Kind → List Nat) {kind : Kind} {tree : Tree} {batch : Batch}
    (here : (Batch.handle faults (Pattern.ofKind kind) document tree (turns kind)).answer =
      .ok batch)
    (kinds : List Kind) :
    let first := Batch.handle faults (Pattern.ofKind kind) document tree (turns kind)
    (ofKinds faults document (kind :: kinds) tree turns).answer =
        (ofKinds faults document kinds first.tree turns).answer.map
            (fun pass => ⟨(kind, batch.outcomes) :: pass.results,
              batch.messages ++ pass.messages⟩) ∧
      (ofKinds faults document (kind :: kinds) tree turns).tree =
        (ofKinds faults document kinds first.tree turns).tree := by
  rw [ofKinds]
  simp [here]

theorem ofKinds_ok (calm : faults.Calm) (document : Text) (kinds : List Kind) (tree : Tree)
    (turns : Kind → List Nat := fun _ => []) :
    ∃ batches,
      Batches faults document turns tree batches (ofKinds faults document kinds tree turns).tree ∧
      batches.map Prod.fst = kinds ∧
      (ofKinds faults document kinds tree turns).answer = .ok (ofBatches batches) := by
  induction kinds generalizing tree with
  | nil => exact ⟨[], .done tree, rfl, rfl⟩
  | cons kind kinds ih =>
      obtain ⟨batch, here, -, -⟩ := Batch.handle_ok calm kind document tree (turns kind)
      obtain ⟨batches, later, same, answer⟩ :=
        ih (Batch.handle faults (Pattern.ofKind kind) document tree (turns kind)).tree
      obtain ⟨answerAll, treeAll⟩ := ofKinds_cons_of_ok turns here kinds
      refine ⟨(kind, batch) :: batches, ?_, by simp [same], ?_⟩
      · rw [treeAll]
        exact .next here later
      · rw [answerAll, answer]
        rfl

theorem run_eq_ofKinds (faults : Faults) (document : Text) (tree : Tree)
    (turns : Kind → List Nat := fun _ => []) :
    (run faults document tree turns).answer =
        (ofKinds faults document (detectKinds document) tree turns).answer ∧
      (run faults document tree turns).tree =
        (ofKinds faults document (detectKinds document) tree turns).tree := by
  unfold run
  split
  · next none =>
      rw [none]
      exact ⟨rfl, rfl⟩
  · exact ⟨rfl, rfl⟩

/-- Whatever a document holds, in whatever order its statements come, and however the calls
on its files fail short of being cancelled, every statement of every kind gets its outcome
and every outcome its line. -/
theorem run_settles (faults : Faults) (calm : faults.Calm) (document : Text) (tree : Tree)
    (turns : Kind → List Nat) :
    (∀ kind, ∃ commands batch, (Pattern.ofKind kind).commands document = .ok commands ∧
      (Batch.handle faults (Pattern.ofKind kind) document tree (turns kind)).answer = .ok batch ∧
      List.Forall₂ (Batch.Answers kind) commands batch.outcomes ∧
      List.Forall₂ Batch.Tells batch.outcomes batch.messages) ∧
    ∃ batches, Batches faults document turns tree batches (run faults document tree turns).tree ∧
      batches.map Prod.fst = detectKinds document ∧
      (run faults document tree turns).answer = .ok (ofBatches batches) := by
  constructor
  · intro kind
    obtain ⟨batch, answer, answers, tells⟩ := Batch.handle_ok calm kind document tree (turns kind)
    exact ⟨_, batch, Pattern.commands_ofKind kind document, answer, answers, tells⟩
  · obtain ⟨answer, last⟩ := run_eq_ofKinds faults document tree turns
    rw [answer, last]
    exact ofKinds_ok calm document (detectKinds document) tree turns

/-- A refused deletion is told like the renaming before it. -/
theorem run_settles_refused :
    let faults := Faults.none.set .unlink (Text.ofString "a") (.refuse .accessDenied)
    let document := Text.ofString "DELETE FILE a;RENAME b TO c;"
    faults.Calm ∧
    ∃ batches,
      Batches faults document (fun _ => []) .empty batches (run faults document .empty).tree ∧
      batches.map Prod.fst = [.rename, .deleteFile] ∧
      (run faults document .empty).answer = .ok (ofBatches batches) := by
  intro faults document
  have calm : faults.Calm := by
    intro call path
    simp only [faults, Faults.set, Faults.none]
    split <;> simp
  obtain ⟨-, batches, chain, kinds, answer⟩ := run_settles faults calm document .empty fun _ => []
  have detected : detectKinds document = [.rename, .deleteFile] := by decide
  exact ⟨calm, batches, chain, kinds.trans detected, answer⟩

end CommandFile.Pass
