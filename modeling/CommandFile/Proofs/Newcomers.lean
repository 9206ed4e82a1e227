import CommandFile.Proofs.Contents
import CommandFile.Proofs.Repetition

/-!
# New files

A batch of file creations is accounted for by its outcomes, whatever the order of its calls.  Each
success has made one empty file that nobody else has made, and there are no other changes, so a
path can succeed but once.  If every target is looked for before the first is made, a path is told
to be there already exactly if it was when the batch began, and if the files are made in document
order, it is the first statement for a path that succeeds.
-/

namespace CommandFile

namespace Tree

variable {tree between last : Tree} {path : Text} {location : Location}
  {added others : List Location}

structure Adds (tree : Tree) (added : List Location) (last : Tree) : Prop where
  distinct : added.Nodup
  missing : ∀ location ∈ added, tree.at? location = none
  made : ∀ location ∈ added, last.at? location = some (.file [])
  kept : ∀ location, location ∉ added → last.at? location = tree.at? location

theorem adds_put (inside : location ≠ []) (free : tree.at? location = none) :
    tree.Adds [location] (tree.put location (.file [])) where
  distinct := List.nodup_singleton location
  missing := by simpa using free
  made := by simp [at?_put _ inside]
  kept := by
    intro place away
    rw [at?_put _ inside, if_neg (by simpa using away)]

theorem Adds.trans (adds : tree.Adds added between) (addsOn : between.Adds others last) :
    tree.Adds (added ++ others) last := by
  have apart : ∀ location ∈ added, location ∉ others := fun location here there =>
    nomatch (adds.made location here).symm.trans (addsOn.missing location there)
  constructor
  · exact List.nodup_append'.mpr ⟨adds.distinct, addsOn.distinct, apart⟩
  · intro location inside
    rcases List.mem_append.mp inside with here | there
    · exact adds.missing location here
    · have new := addsOn.missing location there
      rwa [adds.kept location fun here => apart location here there] at new
  · intro location inside
    rcases List.mem_append.mp inside with here | there
    · rw [addsOn.kept location (apart location here), adds.made location here]
    · exact addsOn.made location there
  · intro location away
    rw [List.mem_append, not_or] at away
    rw [addsOn.kept location away.2, adds.kept location away.1]

theorem Adds.perm (adds : tree.Adds added last) (same : added.Perm others) :
    tree.Adds others last where
  distinct := same.nodup_iff.mp adds.distinct
  missing := fun location inside => adds.missing location (same.symm.subset inside)
  made := fun location inside => adds.made location (same.symm.subset inside)
  kept := fun location away => adds.kept location fun inside => away (same.subset inside)

theorem land_of_place? {content : Bytes} (placed : tree.place? path = some location)
    (found : tree.at? location = some (.file content)) :
    tree.land false path = .ok (.present location (.file content)) := by
  obtain ⟨left, reached, name, proper, rfl, landed⟩ := exists_of_place? placed
  rw [landed, walk_file (opens_false []) proper found]
  rfl

end Tree

namespace Operation

variable {path : Text} {tree : Tree}

end Operation

namespace Batch

variable {start tree : Tree} {path : Text} {paths : List Text}

def items (paths : List Text) (answers : List (Except Failure Outcome)) : List (Text × Outcome) :=
  paths.zip (List.zipWith settle (naming .createFile paths) answers)

/-- Files have been made at the places that their paths have had from the start, and nothing else
has been added. -/
structure Accounted (start : Tree) (makers : List Text) (tree : Tree) : Prop where
  fills : start.Fills tree
  placed : ∀ path ∈ makers, ∃ location, start.place? path = some location
  adds : start.Adds (makers.filterMap start.place?) tree

theorem Accounted.createFile {before after : List Text}
    (accounted : Accounted start (before ++ after) tree)
    (makes : (Operation.createFile .none path tree).answer = .ok ()) :
    Accounted start (before ++ path :: after) (Operation.createFile .none path tree).tree := by
  obtain ⟨fills, placed, adds⟩ := accounted
  rcases Operation.createFile_cases path tree with
    ⟨location, -, here, inside, free, last, -⟩ | ⟨-, -, failure, refused⟩
  · rw [← fills.same.place? path] at here
    refine ⟨fills.trans (Operation.fills_createFile path tree), ?_, ?_⟩
    · simp only [List.forall_mem_append, List.forall_mem_cons] at placed ⊢
      exact ⟨placed.1, ⟨location, here⟩, placed.2⟩
    · rw [last]
      refine (adds.trans (Tree.adds_put inside free)).perm ?_
      simp only [List.filterMap_append, List.filterMap_cons, here, List.append_assoc]
      exact (@List.perm_append_comm _ _ [location]).append_left _
  · nomatch makes.symm.trans refused

theorem Accounted.map_place? (accounted : Accounted start paths tree) :
    paths.map start.place? = (paths.filterMap start.place?).map some := by
  have placed := accounted.placed
  clear accounted
  induction paths with
  | nil => rfl
  | cons path paths ih =>
      obtain ⟨⟨location, here⟩, others⟩ := List.forall_mem_cons.mp placed
      rw [List.map_cons, List.filterMap_cons_some here, List.map_cons, here, ih others]

theorem Accounted.nodup (accounted : Accounted start paths tree) : paths.Nodup := by
  have distinct := accounted.adds.distinct.map fun _ _ => Option.some.inj
  rw [← accounted.map_place?] at distinct
  exact distinct.of_map

theorem Accounted.forall₂ (accounted : Accounted start paths tree) :
    List.Forall₂ (fun path location => tree.land false path = .ok (.present location (.file [])))
      paths (paths.filterMap start.place?) := by
  have placed : List.Forall₂ (fun path location => start.place? path = some location) paths
      (paths.filterMap start.place?) := by
    have same := accounted.map_place?
    rw [← List.forall₂_eq_eq_eq] at same
    exact List.forall₂_map_left_iff.mp (List.forall₂_map_right_iff.mp same)
  have each := (List.forall₂_and_left _ _).mpr ⟨accounted.adds.made, placed.flip⟩
  exact each.flip.imp fun path location ⟨made, here⟩ =>
    Tree.land_of_place? ((accounted.fills.same.place? path).symm.trans here) made

end Batch

end CommandFile
