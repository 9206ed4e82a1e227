import CommandFile.Proofs.Attempts

/-!
# Branches

A branch is an entry together with all that is below it, and a path names the entry that its
normal form leads to, without following a link at its end.  Removing a branch without a refusal
leaves nothing at the path, not even a link, and touches nothing beside the branch: where links
in the branch lead to does not matter.  To remove it again is no failure and changes nothing.
-/

namespace CommandFile

namespace Tree

variable {tree smaller : Tree} {path written : Text} {location folder : Location} {name : Name}

/-! ## What a path names -/

/-- The entry at a path itself: a link that the path ends in is not followed. -/
def linkStatus (tree : Tree) (path : Text) : Except Errno Entry :=
  match tree.spot path with
  | .ok ⟨folder, .name name, false⟩ =>
      (tree.lookUp folder name).bind fun found => found.elim (.error .noEntry) .ok
  | _ => tree.status path

def named? (tree : Tree) (path : Text) : Option Location :=
  (tree.spot path).toOption.map Spot.location

theorem named?_of_spot {spot : Spot} (spotted : tree.spot path = .ok spot) :
    tree.named? path = some spot.location := by
  rw [named?, spotted]
  rfl

/-- In normal form a path to a folder ends in the name of the folder, unless it ends in a link or
in no name at all. -/
theorem spot_of_land (direct : tree.isLink (Path.normalize written) = false)
    (lands : tree.land false (Path.normalize written) = .ok (.present location .folder)) :
    (∃ spot, tree.spot (Path.normalize written) = .ok spot ∧ (∀ name, spot.last ≠ .name name) ∧
      spot.location = location) ∨
    ∃ reached name, tree.spot (Path.normalize written) = .ok ⟨reached, .name name, false⟩ ∧
      location = name :: reached ∧ tree.lookUp reached name = .ok (some .folder) := by
  rcases tree.spot_cases (Path.normalize written) with
    ⟨errno, -, failed⟩ | ⟨spot, spotted, unnamed, landed⟩ |
    ⟨left, reached, name, solid, spotted, landed⟩
  · nomatch (failed false).symm.trans lands
  · obtain ⟨same, -⟩ := Landing.present.inj (Except.ok.inj (landed.symm.trans lands))
    exact .inl ⟨spot, spotted, unnamed, same⟩
  · have unclosed := closed_of_spot_normalize spotted
    rw [unclosed] at spotted
    have walks := (landed false).symm.trans lands
    rw [unclosed, if_neg Bool.false_ne_true] at walks
    have opens := opens_false ([] : List Name)
    cases long : name.tooLong with
    | true => nomatch (walk_refused opens solid long).symm.trans walks
    | false =>
        have proper : name.Proper := ⟨solid, long⟩
        match found : tree.at? (name :: reached) with
        | none => nomatch (walk_missing opens proper found).symm.trans walks
        | some (.file content) => nomatch (walk_file opens proper found).symm.trans walks
        | some .folder =>
            rw [walk_enter opens proper found, walk_nil] at walks
            obtain ⟨same, -⟩ := Landing.present.inj (Except.ok.inj walks)
            exact .inr ⟨reached, name, spotted, same.symm, lookUp_eq_ok_iff.mpr ⟨long, found⟩⟩
        | some (.link target) =>
            have isLink : tree.isLink (Path.normalize written) = true := by
              simp [Tree.isLink, spotted, lookUp_eq_ok_iff.mpr ⟨long, found⟩]
            nomatch isLink.symm.trans direct

theorem named?_of_land (direct : tree.isLink (Path.normalize written) = false)
    (lands : tree.land false (Path.normalize written) = .ok (.present location .folder)) :
    tree.named? (Path.normalize written) = some location := by
  rcases spot_of_land direct lands with
    ⟨spot, spotted, -, rfl⟩ | ⟨reached, name, spotted, rfl, -⟩
  · exact named?_of_spot spotted
  · exact named?_of_spot spotted

theorem removeBranch_cases (tree : Tree) (path : Text) :
    (∃ errno, tree.probe path = .error errno ∧ tree.removeBranch path = ⟨tree, .error errno⟩) ∨
    (∃ location, tree.isLink path = false ∧
      tree.land false path = .ok (.present location .folder) ∧
      tree.removeBranch path = Removal.of (tree.removeBelow location)
        ((tree.removeBelow location).removeFolder path)) ∨
    tree.removeBranch path = Removal.of tree (tree.unlink path) := by
  unfold removeBranch
  cases tree.probe path with
  | error errno => exact .inl ⟨errno, rfl, rfl⟩
  | ok found =>
      match tree.isLink path, tree.land false path with
      | false, .ok (.present location .folder) => exact .inr (.inl ⟨location, rfl, rfl, rfl⟩)
      | false, .ok (.present location (.file content)) => exact .inr (.inr rfl)
      | false, .ok (.present location (.link target)) => exact .inr (.inr rfl)
      | false, .ok (.absent folder name) => exact .inr (.inr rfl)
      | false, .error errno => exact .inr (.inr rfl)
      | true, landed => exact .inr (.inr rfl)

/-! ## Paths that lead nowhere -/

theorem Vacant.lookUp {closed : Bool} (free : tree.Vacant path)
    (spotted : tree.spot path = .ok ⟨folder, .name name, closed⟩) :
    tree.lookUp folder name = .ok none := by
  rcases free with missing | ⟨_, _, _, named, looked⟩
  · nomatch missing.symm.trans spotted
  · cases spotted.symm.trans named
    exact looked

theorem Vacant.status (free : tree.Vacant path) : tree.status path = .error .noEntry := by
  rw [status_eq]
  rcases tree.spot_cases path with
    ⟨errno, failed, landed⟩ | ⟨spot, spotted, unnamed, -⟩ |
    ⟨left, reached, name, solid, spotted, landed⟩
  · rcases free with missing | ⟨folder, name, closed, spotted, -⟩
    · rw [landed false, ← Except.error.inj (missing.symm.trans failed)]
      rfl
    · nomatch failed.symm.trans spotted
  · rcases free with missing | ⟨folder, name, closed, named, -⟩
    · nomatch missing.symm.trans spotted
    · obtain rfl := Except.ok.inj (spotted.symm.trans named)
      exact absurd rfl (unnamed name)
  · obtain ⟨short, absent⟩ := lookUp_eq_ok_iff.mp (free.lookUp spotted)
    rw [landed false, walk_missing (opens_false _) ⟨solid, short⟩ absent]
    split <;> rfl

theorem Vacant.linkStatus (free : tree.Vacant path) : tree.linkStatus path = .error .noEntry := by
  unfold Tree.linkStatus
  split
  · next spotted =>
      rw [free.lookUp spotted]
      rfl
  · exact free.status

theorem Vacant.removeBranch (free : tree.Vacant path) :
    tree.removeBranch path = ⟨tree, .ok false⟩ := by
  rcases tree.removeBranch_cases path with ⟨errno, failed, -⟩ | ⟨location, -, lands, -⟩ | unlinks
  · rw [probe, free.status] at failed
    nomatch failed
  · have there : tree.status path = .ok .folder := by
      rw [status_eq, lands]
      rfl
    nomatch free.status.symm.trans there
  · rw [unlinks, free.unlink]
    rfl

theorem Vacant.of_normalize (free : tree.Vacant (Path.normalize path)) (entry : Entry) :
    tree.status path ≠ .ok entry ∧ tree.linkStatus path ≠ .ok entry := by
  have nowhere : tree.status path ≠ .ok entry := fun there =>
    nomatch (status_of_status_normalize (screen_of_status there) free.status).symm.trans there
  refine ⟨nowhere, fun there => ?_⟩
  unfold Tree.linkStatus at there
  split at there
  · next spotted =>
      rw [free.lookUp (spot_normalize spotted)] at there
      nomatch there
  · exact nowhere there

/-! ## Fewer entries -/

theorem keeps_remove (inside : location ≠ []) : (tree.remove location).Keeps tree := by
  intro place entry found
  rw [at?_remove _ inside] at found
  split at found
  · nomatch found
  · exact found

theorem keeps_removeBelow (tree : Tree) (folder : Location) :
    (tree.removeBelow folder).Keeps tree := by
  intro place entry found
  rw [at?_removeBelow] at found
  split at found
  · nomatch found
  · exact found

theorem GrowsTo.spot (grows : smaller.GrowsTo tree) (path : Text) :
    smaller.spot path = .error .noEntry ∨ tree.spot path = smaller.spot path := by
  rw [spot_eq, spot_eq]
  cases screen path with
  | error errno => exact .inr rfl
  | ok _ =>
      cases (Path.parts path).getLast? with
      | none => exact .inr rfl
      | some name =>
          dsimp only [Except.bind]
          generalize (Path.parts path).dropLast ++ [Name.here] = steps
          have walks := grows.walk false linkLimit [] steps
          generalize smaller.walk false linkLimit [] steps = less at walks ⊢
          generalize tree.walk false linkLimit [] steps = more at walks ⊢
          cases walks with
          | missing later => exact .inl rfl
          | absent folder name later => exact .inl rfl
          | present location same => exact .inr rfl
          | error errno => exact .inr rfl

theorem vacant_remove {closed : Bool} (spotted : tree.spot path = .ok ⟨folder, .name name, closed⟩)
    (short : name.tooLong = false) : (tree.remove (name :: folder)).Vacant path := by
  have inside : name :: folder ≠ [] := List.cons_ne_nil _ _
  rcases (keeps_remove inside).growsTo.spot path with missing | same
  · exact .inl missing
  · refine .inr ⟨folder, name, closed, same.symm.trans spotted, lookUp_eq_ok_iff.mpr ⟨short, ?_⟩⟩
    rw [at?_remove _ inside, if_pos rfl]

/-! ## Removing a branch -/

/-- What may be left when a branch is removed: nothing was there, an entry that is no folder is
gone, a folder is gone with all that was below it, or, where the path led through the branch
itself, only what was below the folder is gone. -/
inductive Pruned (tree : Tree) (path : Text) : Tree → Bool → Prop
  | nothing : Pruned tree path tree false
  | entry {location : Location} {entry : Entry} (named : tree.named? path = some location)
      (inside : location ≠ []) (found : tree.at? location = some entry) (single : entry ≠ .folder) :
      Pruned tree path (tree.remove location) true
  | folder {location : Location} (named : tree.named? path = some location)
      (inside : location ≠ []) (found : tree.at? location = some .folder) :
      Pruned tree path ((tree.removeBelow location).remove location) true
  | below {location : Location} (named : tree.named? path = some location) :
      Pruned tree path (tree.removeBelow location) false

theorem Removal.of_refused {errno : Errno} (known : errno ≠ .noEntry) :
    Removal.of tree (.error errno) = ⟨tree, .error errno⟩ := by
  cases errno <;> first | exact absurd rfl known | rfl

theorem pruned_unlink {removed : Bool}
    (done : (Removal.of tree (tree.unlink path)).answer = .ok removed) :
    (Removal.of tree (tree.unlink path)).tree.Vacant path ∧
      tree.Pruned path (Removal.of tree (tree.unlink path)).tree removed := by
  rcases tree.unlink_cases path with
    ⟨folder, name, entry, spotted, looked, single, unlinked⟩ | free | ⟨errno, other, refused⟩
  · obtain ⟨short, found⟩ := lookUp_eq_ok_iff.mp looked
    rw [unlinked] at done ⊢
    obtain rfl := Except.ok.inj done
    exact ⟨vacant_remove spotted short,
      .entry (named?_of_spot spotted) (List.cons_ne_nil _ _) found single⟩
  · rw [free.unlink] at done ⊢
    obtain rfl := Except.ok.inj done
    exact ⟨free, .nothing⟩
  · rw [refused, Removal.of_refused other] at done
    nomatch done

theorem pruned_removeFolder {removed : Bool} (named : tree.named? path = some location) :
    let emptied := tree.removeBelow location
    (Removal.of emptied (emptied.removeFolder path)).answer = .ok removed →
      (Removal.of emptied (emptied.removeFolder path)).tree.Vacant path ∧
        tree.Pruned path (Removal.of emptied (emptied.removeFolder path)).tree removed := by
  intro emptied done
  have keeps : emptied.Keeps tree := keeps_removeBelow tree location
  rcases emptied.removeFolder_cases path with
    ⟨folder, name, closed, spotted, looked, -, removes⟩ | free | ⟨errno, other, refused⟩
  · obtain ⟨short, found⟩ := lookUp_eq_ok_iff.mp looked
    -- The folder is the one that the path named before it was emptied.
    have before : tree.spot path = .ok ⟨folder, .name name, closed⟩ := by
      rcases keeps.growsTo.spot path with missing | same
      · nomatch missing.symm.trans spotted
      · exact same.trans spotted
    obtain rfl : name :: folder = location :=
      Option.some.inj ((named?_of_spot before).symm.trans named)
    rw [removes] at done ⊢
    obtain rfl := Except.ok.inj done
    exact ⟨vacant_remove spotted short,
      .folder named (List.cons_ne_nil _ _) (keeps _ _ found)⟩
  · rw [free.removeFolder] at done ⊢
    obtain rfl := Except.ok.inj done
    exact ⟨free, .below named⟩
  · rw [refused, Removal.of_refused other] at done
    nomatch done

theorem pruned_removeBranch {removed : Bool} :
    let removal := tree.removeBranch (Path.normalize written)
    removal.answer = .ok removed →
      removal.tree.Vacant (Path.normalize written) ∧
        tree.Pruned (Path.normalize written) removal.tree removed := by
  intro removal done
  unfold removal at done ⊢
  rcases tree.removeBranch_cases (Path.normalize written) with
    ⟨errno, -, refused⟩ | ⟨location, direct, lands, removes⟩ | unlinks
  · rw [refused] at done
    nomatch done
  · rw [removes] at done ⊢
    exact pruned_removeFolder (named?_of_land direct lands) done
  · rw [unlinks] at done ⊢
    exact pruned_unlink done

variable {after : Tree} {removed : Bool}

theorem Pruned.at?_eq (pruned : tree.Pruned path after removed)
    (outside : ∀ named, tree.named? path = some named → ¬ named <:+ location) :
    after.at? location = tree.at? location := by
  have apart {named : Location} (names : tree.named? path = some named) : location ≠ named :=
    fun same => outside named names (same ▸ List.suffix_rfl)
  have above {named : Location} (names : tree.named? path = some named) :
      ¬ location.isBelow named := fun below => outside named names (Location.isBelow_iff.mp below).1
  cases pruned with
  | nothing => rfl
  | entry names inside => rw [at?_remove _ inside, if_neg (apart names)]
  | folder names inside =>
      rw [at?_remove _ inside, if_neg (apart names), at?_removeBelow, if_neg (above names)]
  | below names => rw [at?_removeBelow, if_neg (above names)]

theorem Pruned.exists_entry (pruned : tree.Pruned path after true) :
    ∃ named entry, tree.named? path = some named ∧ tree.at? named = some entry ∧
      (entry = .folder → ∀ location, named <:+ location → after.at? location = none) ∧
      (entry ≠ .folder → after.at? named = none ∧
        ∀ location, location ≠ named → after.at? location = tree.at? location) := by
  cases pruned with
  | @entry named entry names inside found single =>
      refine ⟨named, entry, names, found, fun folder => absurd folder single, fun _ => ⟨?_, ?_⟩⟩
      · rw [at?_remove _ inside, if_pos rfl]
      · intro location apart
        rw [at?_remove _ inside, if_neg apart]
  | @folder named names inside found =>
      refine ⟨named, .folder, names, found, fun _ location above => ?_,
        fun other => absurd rfl other⟩
      rw [at?_remove _ inside, at?_removeBelow]
      by_cases same : location = named
      · rw [if_pos same]
      · rw [if_neg same, if_pos (Location.isBelow_iff.mpr ⟨above, same⟩)]

end Tree

namespace Operation

variable {path : Text} {tree : Tree} {removed : Bool}

theorem deleteBranch_of_callable (callable : Callable path) (tree : Tree) :
    let removal := tree.removeBranch (Path.normalize path)
    (deleteBranch .none path tree).tree = removal.tree ∧
      ∀ removed,
        (deleteBranch .none path tree).answer = .ok removed ↔ removal.answer = .ok removed := by
  intro removal
  have plain : ¬ (Path.normalize path).contains '\x00' := by
    simpa [nul_normalize_iff] using callable.2
  unfold deleteBranch
  dsimp only
  rw [unlessBlank_of_callable callable, if_neg plain, call, if_neg (by simpa using plain)]
  cases removal.answer with
  | error errno => exact ⟨rfl, by simp [Except.mapError]⟩
  | ok answer => exact ⟨rfl, by simp [Except.mapError]⟩

theorem deleteBranch_of_not_callable (uncallable : ¬ Callable path) (tree : Tree) :
    (deleteBranch .none path tree).tree = tree ∧
      ∃ failure, (deleteBranch .none path tree).answer = .error failure := by
  unfold deleteBranch unlessBlank
  split
  · exact ⟨rfl, _, rfl⟩
  · next written =>
      have nul : '\x00' ∈ Path.normalize path := by
        simpa [Callable, written, nul_normalize_iff] using uncallable
      dsimp only
      rw [if_pos (by simpa using nul)]
      exact ⟨rfl, _, rfl⟩

theorem deleteBranch_answer_iff :
    (deleteBranch .none path tree).answer = .ok removed ↔
      path.isBlank = false ∧ '\x00' ∉ Path.normalize path ∧
        (tree.removeBranch (Path.normalize path)).answer = .ok removed := by
  rw [← and_assoc, nul_normalize_iff]
  by_cases callable : Callable path
  · exact ((deleteBranch_of_callable callable tree).2 removed).trans (and_iff_right callable).symm
  · obtain ⟨-, failure, refused⟩ := deleteBranch_of_not_callable callable tree
    exact iff_of_false (fun done => nomatch refused.symm.trans done) fun done => callable done.1

theorem tree_deleteBranch (done : (deleteBranch .none path tree).answer = .ok removed) :
    (deleteBranch .none path tree).tree = (tree.removeBranch (Path.normalize path)).tree := by
  obtain ⟨written, plain, -⟩ := deleteBranch_answer_iff.mp done
  exact (deleteBranch_of_callable ⟨written, mt nul_normalize_iff.mpr plain⟩ tree).1

/-- Removing a branch leaves nothing at its path, and all that is outside it as it was.  To do
it again is to find nothing. -/
theorem deleteBranch_exact (done : (deleteBranch .none path tree).answer = .ok removed) :
    let normal := Path.normalize path
    let after := (deleteBranch .none path tree).tree
    (after.status normal = .error .noEntry ∧ after.linkStatus normal = .error .noEntry ∧
      ∀ entry, after.status path ≠ .ok entry ∧ after.linkStatus path ≠ .ok entry) ∧
    (∀ location, (∀ named, tree.named? normal = some named → ¬ named <:+ location) →
      after.at? location = tree.at? location) ∧
    (removed = true → ∃ named entry,
      tree.named? normal = some named ∧ tree.at? named = some entry ∧
      (entry = .folder → ∀ location, named <:+ location → after.at? location = none) ∧
      (entry ≠ .folder → after.at? named = none ∧
        ∀ location, location ≠ named → after.at? location = tree.at? location)) ∧
    (deleteBranch .none path after).answer = .ok false ∧
    (deleteBranch .none path after).tree = after := by
  intro normal after
  obtain ⟨written, plain, removes⟩ := deleteBranch_answer_iff.mp done
  have last : after = (tree.removeBranch normal).tree := tree_deleteBranch done
  obtain ⟨free, pruned⟩ := Tree.pruned_removeBranch removes
  rw [← last] at free pruned
  have again : (deleteBranch .none path after).answer = .ok false :=
    deleteBranch_answer_iff.mpr ⟨written, plain, congrArg Tree.Removal.answer free.removeBranch⟩
  refine ⟨⟨free.status, free.linkStatus, free.of_normalize⟩, fun location => pruned.at?_eq,
    ?_, again, ?_⟩
  · rintro rfl
    exact pruned.exists_entry
  · rw [tree_deleteBranch again, free.removeBranch]

/-- A folder with a file, a link to a folder beside it, a link to the folder above it and a link
that leads nowhere. -/
theorem deleteBranch_exact_linked :
    let a := Text.ofString "a"
    let b := Text.ofString "b"
    let d := Text.ofString "d"
    let f := Text.ofString "f"
    let l := Text.ofString "l"
    let o := Text.ofString "o"
    let tree : Tree := ⟨[([d], .folder), ([f, d], .file []), ([a, d], .link (Text.ofString "../o")),
      ([b, d], .link (Text.ofString "..")), ([l, d], .link o), ([o], .folder), ([f, o], .file [])]⟩
    let path := Text.ofString "o/.././d/"
    let after := (deleteBranch .none path tree).tree
    (deleteBranch .none path tree).answer = .ok true ∧
    after.status path ≠ .ok .folder ∧ after.linkStatus path ≠ .ok .folder ∧
    after.at? [l, d] = none ∧ after.at? [o] = some .folder ∧ after.at? [f, o] = some (.file []) ∧
    (deleteBranch .none path after).answer = .ok false ∧
    (deleteBranch .none path after).tree = after := by
  intro a b d f l o tree path after
  have done : (deleteBranch .none path tree).answer = .ok true := by decide +kernel
  have names : tree.named? (Path.normalize path) = some [d] := by decide +kernel
  obtain ⟨⟨-, -, nothing⟩, same, removed, again, unchanged⟩ := deleteBranch_exact done
  have outside {location : Location} (apart : ¬ [d] <:+ location) :
      after.at? location = tree.at? location :=
    same location fun named names' => Option.some.inj (names.symm.trans names') ▸ apart
  obtain ⟨named, entry, names', found, folder, -⟩ := removed rfl
  obtain rfl := Option.some.inj (names.symm.trans names')
  obtain rfl := Option.some.inj found
  exact ⟨done, (nothing .folder).1, (nothing .folder).2, folder rfl [l, d] ⟨[l], rfl⟩,
    (outside (by decide)).trans rfl, (outside (by decide)).trans rfl, again, unchanged⟩

/-- A link goes, however it is written, and what it leads to stays. -/
example :
    let d := Text.ofString "d"
    let f := Text.ofString "f"
    let l := Text.ofString "l"
    let effect := deleteBranch .none (Text.ofString "l/.")
      ⟨[([d], .folder), ([f, d], .file []), ([l], .link d)]⟩
    effect.answer = .ok true ∧ effect.tree = ⟨[([d], .folder), ([f, d], .file [])]⟩ := by
  decide +kernel

end Operation

end CommandFile
