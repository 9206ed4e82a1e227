import CommandFile.Proofs.Branches
import CommandFile.Proofs.Failures
import CommandFile.Proofs.LockStep

/-!
# Losses

To remove a folder is to empty it first, and then to walk to it once more and remove the folder
itself.  The content is lost without a word where that does not come to its end: where the path
ends in no name, so that no call can remove the folder by it, and where the way to the folder leads
through what has just been removed.  In the second case it is even said that nothing was there.
Wherever else a removal removes nothing or fails, the tree is as it was.
-/

namespace CommandFile

/-- A path that leads to the root or, with its last step, to the folder above. -/
def Path.EndsUnnamed (path : Path) : Prop := ∀ name ∈ path.names.getLast?, name = Name.up

namespace Tree

variable {tree smaller other : Tree} {path : Text} {links : Nat} {folder place location : Location}
  {name : Name} {names : List Name}

/-! ## What a walk looks for -/

inductive Consults (tree : Tree) : Nat → Location → List Name → Location → Prop
  | idle {links : Nat} {folder : Location} {name : Name} {rest : List Name} {place : Location}
      (stays : name.Idle) (later : Consults tree links folder rest place) :
      Consults tree links folder (name :: rest) place
  | up {links : Nat} {folder : Location} {rest : List Name} {place : Location}
      (later : Consults tree links folder.tail rest place) :
      Consults tree links folder (Name.up :: rest) place
  | here {links : Nat} {folder : Location} {name : Name} {rest : List Name}
      (proper : name.Proper) : Consults tree links folder (name :: rest) (name :: folder)
  | enter {links : Nat} {folder : Location} {name : Name} {rest : List Name} {place : Location}
      (proper : name.Proper) (found : tree.at? (name :: folder) = some .folder)
      (later : Consults tree links (name :: folder) rest place) :
      Consults tree links folder (name :: rest) place
  | follow {links : Nat} {folder : Location} {name : Name} {rest : List Name} {target : Text}
      {place : Location} (proper : name.Proper)
      (found : tree.at? (name :: folder) = some (.link target))
      (later : Consults tree links (startOf folder target) (Path.steps target ++ rest) place) :
      Consults tree (links + 1) folder (name :: rest) place

theorem walk_congr (links : Nat) (folder : Location) (names : List Name)
    (same : ∀ place, tree.Consults links folder names place → other.at? place = tree.at? place) :
    other.walk false links folder (names ++ [Name.here]) =
      tree.walk false links folder (names ++ [Name.here]) := by
  have further : Further false [Name.here] := further_of_not_creating (by simp)
  induction links, folder, names using walkInduction tree false with
  | done links folder =>
      rw [List.nil_append, walk_idle (.inr rfl), walk_nil, walk_idle (.inr rfl), walk_nil]
  | idle links folder name rest stays ih =>
      rw [List.cons_append, walk_idle stays, walk_idle stays]
      exact ih fun place later => same place (.idle stays later)
  | up links folder rest ih =>
      rw [List.cons_append, walk_up, walk_up]
      exact ih fun place later => same place (.up later)
  | closing links folder name solid creates => nomatch creates
  | refused links folder name rest solid long =>
      have opens := further.opens rest
      rw [List.cons_append, walk_refused opens solid long, walk_refused opens solid long]
  | missing links folder name rest proper found =>
      have opens := further.opens rest
      have there := (same _ (.here proper)).trans found
      rw [List.cons_append, walk_missing opens proper found, walk_missing opens proper there]
  | file links folder name rest content proper found =>
      have opens := further.opens rest
      have there := (same _ (.here proper)).trans found
      rw [List.cons_append, walk_file opens proper found, walk_file opens proper there]
  | enter links folder name rest proper found _ ih =>
      have opens := further.opens rest
      have there := (same _ (.here proper)).trans found
      rw [List.cons_append, walk_enter opens proper found, walk_enter opens proper there]
      exact ih fun place later => same place (.enter proper found later)
  | stuck folder name rest target proper found =>
      have opens := further.opens rest
      have there := (same _ (.here proper)).trans found
      rw [List.cons_append, walk_stuck opens proper found, walk_stuck opens proper there]
  | follow links folder name rest target proper found _ ih =>
      have opens := further.opens rest
      have there := (same _ (.here proper)).trans found
      rw [List.cons_append, walk_follow opens proper found, walk_follow opens proper there,
        ← List.append_assoc]
      exact ih fun place later => same place (.follow proper found later)

theorem Consults.walk_of_missing (keeps : smaller.Keeps tree)
    (consults : tree.Consults links folder names place) (missing : smaller.at? place = none) :
    smaller.walk false links folder (names ++ [Name.here]) = .error .noEntry := by
  have further : Further false [Name.here] := further_of_not_creating (by simp)
  have ends {links : Nat} {folder : Location} {name : Name} (rest : List Name)
      (proper : name.Proper) (gone : smaller.at? (name :: folder) = none) :
      smaller.walk false links folder (name :: (rest ++ [Name.here])) = .error .noEntry := by
    rw [walk_missing (further.opens rest) proper gone, if_neg (further.ne_nil rest)]
  -- The walk goes where it went before, until it looks for an entry that is gone.
  induction consults with
  | idle stays _ ih =>
      rw [List.cons_append, walk_idle stays]
      exact ih missing
  | up _ ih =>
      rw [List.cons_append, walk_up]
      exact ih missing
  | here proper => exact ends _ proper missing
  | @enter links folder name rest place proper found _ ih =>
      cases there : smaller.at? (name :: folder) with
      | none => exact ends rest proper there
      | some entry =>
          obtain rfl := Option.some.inj ((keeps _ _ there).symm.trans found)
          rw [List.cons_append, walk_enter (further.opens rest) proper there]
          exact ih missing
  | @follow links folder name rest target place proper found _ ih =>
      cases there : smaller.at? (name :: folder) with
      | none => exact ends rest proper there
      | some entry =>
          obtain rfl := Option.some.inj ((keeps _ _ there).symm.trans found)
          rw [List.cons_append, walk_follow (further.opens rest) proper there,
            ← List.append_assoc]
          exact ih missing

/-! ## The second walk -/

def PassesBelow (tree : Tree) (path : Text) (location : Location) : Prop :=
  ∃ place, tree.Consults linkLimit [] (Path.parse path).parent.names place ∧
    place.isBelow location

theorem walk_parts_normalize (tree : Tree) (path : Text) :
    tree.walk false linkLimit [] ((Path.parts (Path.normalize path)).dropLast ++ [Name.here]) =
      tree.walk false linkLimit [] ((Path.parse path).parent.names ++ [Name.here]) := by
  rcases Path.parts_normalize path with ⟨-, same, -⟩ | ⟨none, dots⟩
  · rw [same]
    rfl
  · have stay : ∀ step ∈ (Path.parts (Path.normalize path)).dropLast ++ [Name.here], step.Idle := by
      intro step inside
      rcases List.mem_append.mp inside with part | last
      · exact .inr (List.mem_singleton.mp (dots ((List.dropLast_prefix _).subset part)))
      · exact .inr (List.mem_singleton.mp last)
    rw [walk_of_idle stay, Path.parent, none, List.dropLast_nil, List.nil_append,
      walk_idle (.inr rfl), walk_nil]

theorem spot_of_passesBelow (screened : screen (Path.normalize path) = .ok ())
    (passes : tree.PassesBelow path location) :
    (tree.removeBelow location).spot (Path.normalize path) = .error .noEntry := by
  obtain ⟨place, consults, below⟩ := passes
  have gone : (tree.removeBelow location).at? place = none := by
    rw [at?_removeBelow, if_pos below]
  have ends := consults.walk_of_missing (keeps_removeBelow tree location) gone
  have named : (Path.parse path).names ≠ [] := by
    intro none
    rw [Path.parent, none] at consults
    cases consults
  rcases Path.parts_normalize path with ⟨-, same, -⟩ | ⟨none, -⟩
  · obtain ⟨last, lasts⟩ := Option.ne_none_iff_exists'.mp (mt List.getLast?_eq_none_iff.mp named)
    rw [spot_eq, screened, walk_parts_normalize, ends, same, lasts]
    rfl
  · exact absurd none named

theorem spot_of_not_passesBelow (apart : ¬ tree.PassesBelow path location) :
    (tree.removeBelow location).spot (Path.normalize path) = tree.spot (Path.normalize path) := by
  have same : ∀ place, tree.Consults linkLimit [] (Path.parse path).parent.names place →
      (tree.removeBelow location).at? place = tree.at? place := by
    intro place consults
    rw [at?_removeBelow, if_neg fun below => apart ⟨place, consults, below⟩]
  rw [spot_eq, spot_eq, walk_parts_normalize, walk_parts_normalize,
    walk_congr linkLimit [] _ same]

theorem endsUnnamed_iff_of_spot {spot : Spot}
    (spotted : tree.spot (Path.normalize path) = .ok spot) :
    (Path.parse path).EndsUnnamed ↔ ∀ name, spot.last ≠ .name name := by
  rw [last_of_spot spotted, Path.EndsUnnamed]
  rcases Path.parts_normalize path with ⟨named, same, -⟩ | ⟨none, dots⟩
  · rw [same]
    obtain ⟨above, last, whole⟩ := (List.eq_nil_or_concat _).resolve_left named
    rw [List.concat_eq_append] at whole
    have part := (Path.normal_parse path).names last (whole ▸ List.mem_concat_self)
    rw [whole, List.getLast?_concat]
    by_cases climbs : last = Name.up
    · simp [climbs, LastStep.of, Name.up, Name.here]
    · simp [climbs, LastStep.of, part.2]
  · cases last : (Path.parts (Path.normalize path)).getLast? with
    | none => simp [none]
    | some step =>
        obtain rfl := List.mem_singleton.mp (dots (List.mem_of_getLast? last))
        simp [none, LastStep.of]

theorem removeFolder_of_unnamed {spot : Spot} (spotted : tree.spot path = .ok spot)
    (unnamed : ∀ name, spot.last ≠ .name name) :
    ∃ errno, errno ≠ .noEntry ∧ tree.removeFolder path = .error errno := by
  unfold removeFolder
  rw [spotted]
  obtain ⟨folder, last, closed⟩ := spot
  cases last with
  | name name => exact absurd rfl (unnamed name)
  | here => exact ⟨.invalid, by decide, rfl⟩
  | up => exact ⟨.notEmpty, by decide, rfl⟩
  | root => exact ⟨.busy, by decide, rfl⟩

theorem removeBelow_eq_self_iff : tree.removeBelow location = tree ↔ tree.isEmptyAt location := by
  obtain ⟨entries⟩ := tree
  rw [removeBelow, isEmptyAt, Tree.mk.injEq, List.filter_eq_self]
  simp

@[simp] theorem isEmptyAt_removeBelow (tree : Tree) (location : Location) :
    (tree.removeBelow location).isEmptyAt location = true := by
  simp [isEmptyAt, removeBelow]

/-! ## Removals that come to no end -/

/-- The normal form of the path leads to the folder at the location, and once the folder has been
emptied, it cannot be removed by the path. -/
structure Forfeits (tree : Tree) (path : Text) (location : Location) : Prop where
  direct : tree.isLink (Path.normalize path) = false
  lands : tree.land false (Path.normalize path) = .ok (.present location .folder)
  fails : (Path.parse path).EndsUnnamed ∨ tree.PassesBelow path location

theorem removeBranch_of_folder (direct : tree.isLink path = false)
    (lands : tree.land false path = .ok (.present location .folder)) :
    tree.removeBranch path = Removal.of (tree.removeBelow location)
      ((tree.removeBelow location).removeFolder path) := by
  have there : tree.probe path = .ok (some .folder) := by
    rw [probe_eq_some_iff, status_eq, lands]
    rfl
  rw [removeBranch, there, direct, lands]

theorem Forfeits.removeBranch (forfeits : tree.Forfeits path location) :
    let removal := tree.removeBranch (Path.normalize path)
    removal.tree = tree.removeBelow location ∧ removal.answer ≠ .ok true ∧
      (removal.answer = .ok false ↔ tree.PassesBelow path location) := by
  obtain ⟨direct, lands, fails⟩ := forfeits
  intro removal
  unfold removal
  rw [removeBranch_of_folder direct lands]
  by_cases passes : tree.PassesBelow path location
  · have free : (tree.removeBelow location).Vacant (Path.normalize path) :=
      .inl (spot_of_passesBelow (screen_of_land lands) passes)
    rw [free.removeFolder]
    exact ⟨rfl, nofun, iff_of_true rfl passes⟩
  · have unnamed := fails.resolve_right passes
    have again := spot_of_not_passesBelow passes
    obtain ⟨spot, spotted⟩ := exists_spot_of_land lands
    obtain ⟨errno, known, refused⟩ := removeFolder_of_unnamed (again.trans spotted)
      ((endsUnnamed_iff_of_spot spotted).mp unnamed)
    rw [refused, Removal.of_refused known]
    exact ⟨rfl, nofun, iff_of_false nofun passes⟩

theorem removeFolder_of_named (direct : tree.isLink (Path.normalize path) = false)
    (lands : tree.land false (Path.normalize path) = .ok (.present location .folder))
    (named : ¬ (Path.parse path).EndsUnnamed) (apart : ¬ tree.PassesBelow path location) :
    (tree.removeBelow location).removeFolder (Path.normalize path) =
      .ok ((tree.removeBelow location).remove location) := by
  rcases spot_of_land direct lands with
    ⟨spot, spotted, unnamed, -⟩ | ⟨reached, name, spotted, rfl, looked⟩
  · exact absurd ((endsUnnamed_iff_of_spot spotted).mpr unnamed) named
  · have again := (spot_of_not_passesBelow apart).trans spotted
    obtain ⟨short, found⟩ := lookUp_eq_ok_iff.mp looked
    have still : (tree.removeBelow (name :: reached)).at? (name :: reached) = some .folder := by
      rw [at?_removeBelow, if_neg fun below => (Location.isBelow_iff.mp below).2 rfl, found]
    simp [removeFolder, again, bind, Except.bind, lookUp_eq_ok_iff.mpr ⟨short, still⟩,
      isEmptyAt_removeBelow]

theorem removeBranch_of_not_forfeits (none : ∀ location, ¬ tree.Forfeits path location)
    (unremoved : (tree.removeBranch (Path.normalize path)).answer ≠ .ok true) :
    (tree.removeBranch (Path.normalize path)).tree = tree := by
  rcases tree.removeBranch_cases (Path.normalize path) with
    ⟨errno, -, refused⟩ | ⟨location, direct, lands, removes⟩ | unlinks
  · rw [refused]
  · have finished := not_or.mp fun fails => none location ⟨direct, lands, fails⟩
    rw [removes, removeFolder_of_named direct lands finished.1 finished.2] at unremoved
    exact absurd rfl unremoved
  · rw [unlinks] at unremoved ⊢
    cases unlinked : tree.unlink (Path.normalize path) with
    | ok after =>
        rw [unlinked] at unremoved
        exact absurd rfl unremoved
    | error errno => cases errno <;> rfl

end Tree

namespace Operation

variable {path : Text} {tree : Tree} {location : Location}

theorem deleteBranch_of_forfeits (callable : Callable path)
    (forfeits : tree.Forfeits path location) :
    (deleteBranch .none path tree).tree = tree.removeBelow location ∧
      (deleteBranch .none path tree).answer ≠ .ok true ∧
      ((deleteBranch .none path tree).answer = .ok false ↔ tree.PassesBelow path location) := by
  obtain ⟨last, answers⟩ := deleteBranch_of_callable callable tree
  obtain ⟨emptied, unremoved, passes⟩ := forfeits.removeBranch
  exact ⟨last.trans emptied, mt (answers true).mp unremoved, (answers false).trans passes⟩

theorem deleteBranch_of_not_forfeits
    (none : Callable path → ∀ location, ¬ tree.Forfeits path location)
    (unremoved : (deleteBranch .none path tree).answer ≠ .ok true) :
    (deleteBranch .none path tree).tree = tree := by
  by_cases callable : Callable path
  · obtain ⟨last, answers⟩ := deleteBranch_of_callable callable tree
    rw [last]
    exact Tree.removeBranch_of_not_forfeits (none callable) (mt (answers true).mpr unremoved)
  · exact (deleteBranch_of_not_callable callable tree).1

theorem deleteBranch_unremoved_iff :
    ((deleteBranch .none path tree).answer ≠ .ok true →
      (deleteBranch .none path tree).tree = tree) ↔
      ∀ location, Callable path → tree.Forfeits path location → tree.isEmptyAt location := by
  constructor
  · intro unremoved location callable forfeits
    obtain ⟨emptied, refused, -⟩ := deleteBranch_of_forfeits callable forfeits
    exact Tree.removeBelow_eq_self_iff.mp (emptied.symm.trans (unremoved refused))
  · intro empty unremoved
    by_cases forfeited : Callable path ∧ ∃ location, tree.Forfeits path location
    · obtain ⟨callable, location, forfeits⟩ := forfeited
      rw [(deleteBranch_of_forfeits callable forfeits).1]
      exact Tree.removeBelow_eq_self_iff.mpr (empty location callable forfeits)
    · exact deleteBranch_of_not_forfeits
        (fun callable location forfeits => forfeited ⟨callable, location, forfeits⟩) unremoved

end Operation

namespace Batch

/-- A forced deletion that fails has left the tree alone, or it has emptied a folder by a path
that ends in no name. -/
theorem step_deleteForce_failed {start tree : Tree} {path : Text}
    (failed : (settle ⟨.deleteForce, [path]⟩
      (step .none start ⟨.deleteForce, [path]⟩ tree).answer).isFailed = true) :
    (step .none start ⟨.deleteForce, [path]⟩ tree).tree = tree ∨
      ∃ location, tree.Forfeits path location ∧ (Path.parse path).EndsUnnamed ∧
        (step .none start ⟨.deleteForce, [path]⟩ tree).tree = tree.removeBelow location := by
  change (Operation.deleteBranch .none path tree).tree = _ ∨ ∃ location, _ ∧ _ ∧
    (Operation.deleteBranch .none path tree).tree = _
  have refused (removed : Bool) :
      (Operation.deleteBranch .none path tree).answer ≠ .ok removed := by
    intro done
    change (settle _ (conclude _ _ (Operation.deleteBranch .none path tree)).answer).isFailed = true
      at failed
    rw [conclude, done] at failed
    exact absurd failed Bool.false_ne_true
  by_cases forfeited : Operation.Callable path ∧ ∃ location, tree.Forfeits path location
  · obtain ⟨callable, location, forfeits⟩ := forfeited
    obtain ⟨emptied, -, passes⟩ := Operation.deleteBranch_of_forfeits callable forfeits
    exact .inr ⟨location, forfeits,
      forfeits.fails.resolve_right fun below => refused false (passes.mpr below), emptied⟩
  · exact .inl (Operation.deleteBranch_of_not_forfeits
      (fun callable location forfeits => forfeited ⟨callable, location, forfeits⟩) (refused true))

/-- A removal that is said to have removed nothing, or that has failed, leaves the tree as it was,
except where there is something in a folder, the path leads to the folder without a link at its end,
and it ends in no name or leads through what is in the folder.  Then what was below the folder is
gone, and in the case that the way leads through it the answer is that nothing was there.  So a
forced deletion that fails has left the tree alone, unless its path ends in no name. -/
theorem handle_losses (document : Text) (tree : Tree) :
    (∀ path reached,
      let effect := Operation.deleteBranch .none path reached
      ((effect.answer ≠ .ok true → effect.tree = reached) ↔
        ∀ location, Operation.Callable path → reached.Forfeits path location →
          reached.isEmptyAt location) ∧
      ∀ location, Operation.Callable path → reached.Forfeits path location →
        effect.tree = reached.removeBelow location ∧ effect.answer ≠ .ok true ∧
          (effect.answer = .ok false ↔ reached.PassesBelow path location)) ∧
    ∃ paths outcomes messages,
      let batch := handle .none (Pattern.ofKind .deleteForce) document tree
      (Pattern.ofKind .deleteForce).commands document = .ok (naming .deleteForce paths) ∧
      batch.answer = .ok ⟨outcomes, messages⟩ ∧
      Steps .none tree tree ((naming .deleteForce paths).zip outcomes) batch.tree ∧
      ∀ path reached,
        let effect := step .none tree ⟨.deleteForce, [path]⟩ reached
        (settle ⟨.deleteForce, [path]⟩ effect.answer).isFailed = true →
          effect.tree = reached ∨
            ∃ location, reached.Forfeits path location ∧ (Path.parse path).EndsUnnamed ∧
              effect.tree = reached.removeBelow location := by
  refine ⟨fun path reached => ⟨Operation.deleteBranch_unremoved_iff, fun location callable =>
    Operation.deleteBranch_of_forfeits callable⟩, ?_⟩
  obtain ⟨paths, commands⟩ := @exists_naming .deleteForce rfl document
  obtain ⟨last, -, messages, answer, -⟩ :=
    handle_eq_oneByOne Faults.calm_none .deleteForce document tree
  rw [commands] at last answer
  refine ⟨paths, _, messages, ?_, answer, ?_, fun path reached => step_deleteForce_failed⟩
  · rw [Pattern.commands_ofKind, commands]
  · rw [last]
    exact steps_oneByOne tree _ tree

/-- The way of `d/..` leads to the root through a folder in it: the root is emptied, and the answer
is that nothing was there.  A dot names no entry: the root is emptied, and the removal fails. -/
theorem handle_losses_emptied :
    let d := Text.ofString "d"
    let f := Text.ofString "f"
    let tree : Tree := ⟨[([d], .folder), ([f, d], .file [])]⟩
    let above := Text.ofString "d/.."
    let document := Text.ofString "DELETE . FORCE;"
    let failed := step .none tree ⟨.deleteForce, [Name.here]⟩ tree
    Operation.Callable above ∧ tree.Forfeits above [] ∧ ¬ tree.isEmptyAt [] ∧
    (Operation.deleteBranch .none above tree).answer = .ok false ∧
    (Operation.deleteBranch .none above tree).tree = .empty ∧
    (Pattern.ofKind .deleteForce).commands document = .ok (naming .deleteForce [Name.here]) ∧
    (settle ⟨.deleteForce, [Name.here]⟩ failed.answer).isFailed = true ∧
    failed.tree ≠ tree ∧ ∃ location, tree.Forfeits Name.here location := by
  intro d f tree above document failed
  have callable : Operation.Callable above := by decide
  have proper : Name.Proper d := ⟨⟨by decide, by decide⟩, by decide⟩
  have passes : tree.PassesBelow above [] := ⟨[d], .here proper, by decide⟩
  have forfeits : tree.Forfeits above [] := ⟨by decide, by decide, .inr passes⟩
  obtain ⟨losses, paths, outcomes, messages, commands, -, -, fails⟩ := handle_losses document tree
  obtain ⟨emptied, -, nothing⟩ := (losses above tree).2 [] callable forfeits
  have isFailed : (settle ⟨.deleteForce, [Name.here]⟩ failed.answer).isFailed = true := by decide
  have lost : failed.tree ≠ tree := by decide
  obtain ⟨location, forfeitsToo, -, -⟩ := (fails Name.here tree isFailed).resolve_left lost
  exact ⟨callable, forfeits, by decide, nothing.mpr passes, emptied.trans (by decide), by decide,
    isFailed, lost, location, forfeitsToo⟩

end Batch

end CommandFile
