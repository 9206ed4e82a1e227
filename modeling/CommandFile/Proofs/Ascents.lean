import CommandFile.Proofs.Branches

/-!
# Ascents

A folder is made together with the folders above it by a recursion: where something is missing,
the folder above is made first, and then the folder is tried once more.  The recursion ends, since
the way to the root does.  What it leaves behind, whether it was refused or not, is what was there
and new folders.  If it was not refused, the path leads to a folder, and to ask for it again
changes nothing.

The folder is made at the normal form of a path.  A path that is too long for a call can have a
short normal form, and then only the normal form leads to the folder.
-/

namespace CommandFile

theorem Path.parent_eq_self_iff {path : Path} : path.parent = path ↔ path.names = [] := by
  obtain ⟨root, names⟩ := path
  rcases List.eq_nil_or_concat names with rfl | ⟨above, name, rfl⟩
  · simp [parent]
  · rw [List.concat_eq_append, parent_concat]
    simp

namespace Tree

variable {tree after : Tree} {path : Path} {making other : Making} {climbs : Bool}

/-! ## The recursion -/

/-- How making a folder goes, from the tree that it finds to what it leaves.  Where something is
missing, the recursion climbs to the folder above, and when that has been made, the folder is
tried once more without climbing.  A folder that is there already is welcome. -/
inductive Ascent : Bool → Tree → Path → Making → Prop
  | makes {climbs : Bool} {tree after : Tree} {path : Path}
      (made : tree.makeFolder path.text = .ok after) : Ascent climbs tree path ⟨after, none⟩
  | welcomes {climbs : Bool} {tree : Tree} {path : Path} {errno : Errno}
      (refused : tree.makeFolder path.text = .error errno) (known : errno ≠ .noEntry)
      (there : tree.probe path.text = .ok (some .folder)) : Ascent climbs tree path ⟨tree, none⟩
  | refuses {climbs : Bool} {tree : Tree} {path : Path} {errno : Errno} {found : Option Entry}
      (refused : tree.makeFolder path.text = .error errno) (known : errno ≠ .noEntry)
      (probed : tree.probe path.text = .ok found) (unwelcome : found ≠ some .folder) :
      Ascent climbs tree path ⟨tree, some (errno, path.text)⟩
  | fails {climbs : Bool} {tree : Tree} {path : Path} {errno failure : Errno}
      (refused : tree.makeFolder path.text = .error errno) (known : errno ≠ .noEntry)
      (failed : tree.probe path.text = .error failure) :
      Ascent climbs tree path ⟨tree, some (failure, path.text)⟩
  | stops {climbs : Bool} {tree : Tree} {path : Path}
      (missing : tree.makeFolder path.text = .error .noEntry)
      (highest : climbs = false ∨ path.parent = path) :
      Ascent climbs tree path ⟨tree, some (.noEntry, path.text)⟩
  | gives {tree : Tree} {path : Path} {above : Making}
      (missing : tree.makeFolder path.text = .error .noEntry) (lower : path.parent ≠ path)
      (ascent : Ascent true tree path.parent above) (refused : above.refusal? ≠ none) :
      Ascent true tree path above
  | returns {tree : Tree} {path : Path} {above making : Making}
      (missing : tree.makeFolder path.text = .error .noEntry) (lower : path.parent ≠ path)
      (ascent : Ascent true tree path.parent above) (unrefused : above.refusal? = none)
      (again : Ascent false above.tree path making) : Ascent true tree path making

theorem ensureFolder_of_missing {path : Text} (missing : tree.makeFolder path = .error .noEntry) :
    tree.ensureFolder path = ⟨tree, some (.noEntry, path)⟩ := by
  rw [ensureFolder, tryFolder_unbarred, missing, probe, status_of_makeFolder_missing missing]

theorem ascent_ensureFolder
    (once : tree.makeFolder path.text = .error .noEntry → climbs = false ∨ path.parent = path) :
    Ascent climbs tree path (tree.ensureFolder path.text) := by
  match makes : tree.makeFolder path.text with
  | .ok after =>
      rw [ensureFolder, tryFolder_unbarred, makes]
      exact .makes makes
  | .error errno =>
      by_cases missing : errno = .noEntry
      · subst missing
        rw [ensureFolder_of_missing makes]
        exact .stops makes (once makes)
      · rw [ensureFolder, tryFolder_unbarred, makes]
        match probed : tree.probe path.text with
        | .ok (some .folder) => exact .welcomes makes missing probed
        | .ok (some (.file content)) => exact .refuses makes missing probed (by simp)
        | .ok (some (.link target)) => exact .refuses makes missing probed (by simp)
        | .ok none => exact .refuses makes missing probed (by simp)
        | .error failure => exact .fails makes missing probed

theorem ascent_ensureFolders (tree : Tree) (path : Path) :
    Ascent true tree path (tree.ensureFolders path) := by
  induction path using Path.parentInduction with
  | top path top =>
      rw [ensureFolders_of_top top]
      exact ascent_ensureFolder fun _ => .inr (Path.parent_eq_self_iff.mpr top)
  | below path below ih =>
      by_cases missing : tree.makeFolder path.text = .error .noEntry
      · have lower := mt Path.parent_eq_self_iff.mp below
        rw [ensureFolders_of_missing below missing]
        split
        · next unrefused =>
            exact .returns missing lower ih unrefused (ascent_ensureFolder fun _ => .inl rfl)
        · next refused => exact .gives missing lower ih refused
      · rw [ensureFolders_of_tried missing]
        exact ascent_ensureFolder fun missingToo => absurd missingToo missing

theorem Ascent.making_eq (ascent : Ascent climbs tree path making) :
    making = if climbs then tree.ensureFolders path else tree.ensureFolder path.text := by
  have tried {climbs : Bool} {tree : Tree} {path : Path}
      (once : tree.makeFolder path.text ≠ .error .noEntry ∨ climbs = false ∨ path.parent = path) :
      (if climbs then tree.ensureFolders path else tree.ensureFolder path.text) =
        tree.ensureFolder path.text := by
    split
    · next climbing =>
        rcases once with known | still | highest
        · exact ensureFolders_of_tried known
        · nomatch climbing.symm.trans still
        · exact ensureFolders_of_top (Path.parent_eq_self_iff.mp highest) _
    · rfl
  -- All rules but the last two leave what the single attempt leaves.
  induction ascent with
  | makes made => rw [tried (.inl (by simp [made])), ensureFolder,
        tryFolder_unbarred, made]
  | welcomes refused known there =>
      rw [tried (.inl (by simp [refused, known])), ensureFolder,
        tryFolder_unbarred, refused, there]
  | @refuses _ tree path errno found refused known probed unwelcome =>
      rw [tried (.inl (by simp [refused, known])), ensureFolder,
        tryFolder_unbarred, refused, probed]
      match found with
      | some .folder => exact absurd rfl unwelcome
      | some (.file content) => rfl
      | some (.link target) => rfl
      | none => rfl
  | fails refused known failed =>
      rw [tried (.inl (by simp [refused, known])), ensureFolder,
        tryFolder_unbarred, refused, failed]
  | stops missing highest => rw [tried (.inr highest), ensureFolder_of_missing missing]
  | gives missing lower _ refused ih =>
      rw [ih] at refused ⊢
      exact ((ensureFolders_of_missing (mt Path.parent_eq_self_iff.mpr lower) missing).trans
        (if_neg refused)).symm
  | returns missing lower _ unrefused _ ih ihAgain =>
      rw [ih] at unrefused ihAgain
      rw [ihAgain]
      exact ((ensureFolders_of_missing (mt Path.parent_eq_self_iff.mpr lower) missing).trans
        (if_pos unrefused)).symm

theorem ascent_iff : Ascent true tree path making ↔ making = tree.ensureFolders path :=
  ⟨Ascent.making_eq, fun same => same ▸ ascent_ensureFolders tree path⟩

/-! ## What is made -/

theorem status_makeFolder {path : Text} (made : tree.makeFolder path = .ok after) :
    after.status path = .ok .folder := by
  rcases tree.makeFolder_cases path with
    ⟨folder, name, spotted, proper, -, -, same⟩ | ⟨-, refused⟩ | ⟨errno, -, refused⟩
  · have grows := (gainsFolders_makeFolder same).keeps.growsTo
    obtain rfl := Except.ok.inj (made.symm.trans same)
    have found : (tree.put (name :: folder) .folder).at? (name :: folder) = some .folder := by
      rw [at?_put _ (List.cons_ne_nil _ _), if_pos rfl]
    have again : (tree.put (name :: folder) .folder).spot path =
        .ok ⟨folder, .name name, slash path⟩ := by
      rcases grows.spot path with missing | unchanged
      · nomatch missing.symm.trans spotted
      · exact unchanged.trans spotted
    rw [status_eq]
    rcases (tree.put (name :: folder) .folder).spot_cases path with
      ⟨errno, failed, -⟩ | ⟨spot, ended, unnamed, -⟩ | ⟨left, reached, last, -, named, landed⟩
    · nomatch failed.symm.trans again
    · obtain rfl := Except.ok.inj (ended.symm.trans again)
      exact absurd rfl (unnamed name)
    · cases named.symm.trans again
      rw [landed false, walk_enter (opens_false _) proper found, walk_of_idle (idle_of_slash path)]
      rfl
  · nomatch made.symm.trans refused
  · nomatch made.symm.trans refused

theorem status_ensureFolder {path : Text} (unrefused : (tree.ensureFolder path).refusal? = none) :
    (tree.ensureFolder path).tree.status path = .ok .folder := by
  unfold ensureFolder at unrefused ⊢
  split
  · next made => exact status_makeFolder made
  · next refused =>
      rw [refused] at unrefused
      dsimp only at unrefused
      split
      · next there => exact (probe_eq_some_iff tree path .folder).mp there
      · simp_all
      · simp_all

theorem status_ensureFolders (unrefused : (tree.ensureFolders path).refusal? = none) :
    (tree.ensureFolders path).tree.status path.text = .ok .folder := by
  by_cases missing : tree.makeFolder path.text = .error .noEntry
  · by_cases top : path.names = []
    · rw [ensureFolders_of_top top] at unrefused ⊢
      exact status_ensureFolder unrefused
    · rw [ensureFolders_of_missing top missing] at unrefused ⊢
      split at unrefused
      · next made =>
          rw [if_pos made]
          exact status_ensureFolder unrefused
      · next refused => exact absurd unrefused refused
  · rw [ensureFolders_of_tried missing] at unrefused ⊢
    exact status_ensureFolder unrefused

end Tree

/-! ## Slashes behind a path -/

theorem Path.parts_slashes (count : Nat) : parts (List.replicate count '/') = [] := by
  induction count with
  | zero => rfl
  | succ count ih => rw [List.replicate_succ, parts_slash, ih]

theorem Utf8.length_encode_slashes (count : Nat) :
    (encode (List.replicate count '/')).length = count := by
  have single : (encodeChar '/').length = 1 := by decide
  simp [encode, List.length_flatMap, single]

namespace Operation

/-! ## Folders with those above them -/

variable {path : Text} {tree : Tree}

theorem createFolder_of_not_callable (uncallable : ¬ Callable path) (parents : Bool)
    (tree : Tree) :
    (createFolder .none path parents tree).tree = tree ∧
      ∃ failure, (createFolder .none path parents tree).answer = .error failure := by
  unfold createFolder unlessBlank
  dsimp only
  split
  · exact ⟨rfl, _, rfl⟩
  · next written =>
      have named : path.isBlank = false := by simpa using written
      have nul : '\x00' ∈ path := by simpa [Callable, named] using uncallable
      rw [if_neg (by simp [nul]), call_of_nul (nul_normalize_iff.mpr nul)]
      exact ⟨rfl, _, rfl⟩

theorem createFolder_again (callable : Callable path)
    (there : tree.status (Path.normalize path) = .ok .folder) :
    (createFolder .none path true tree).answer = .ok () ∧
      (createFolder .none path true tree).tree = tree := by
  obtain ⟨last, answer⟩ := createFolder_of_callable callable tree
  have found : tree.status (Path.parse path).text ≠ .error .noEntry := by
    rw [show tree.status (Path.parse path).text = .ok .folder from there]
    nofun
  obtain ⟨same, refusal⟩ := Tree.ensureFolders_of_status found
  exact ⟨answer.mpr (refusal.mpr there), last.trans same⟩

/-- Making a folder and the folders above it comes to an end for every path, and what it leaves is
what was there and new folders.  If it was not refused, there is a folder at the path in its normal
form, and at the path as it is written unless that is too long, and to do it again changes
nothing. -/
theorem createFolder_parents (path : Text) (tree : Tree) :
    let effect := createFolder .none path true tree
    let again := createFolder .none path true effect.tree
    (effect.answer = .ok () →
      effect.tree.status (Path.normalize path) = .ok .folder ∧
      (Tree.screen path = .ok () → effect.tree.status path = .ok .folder) ∧
      again.answer = .ok () ∧ again.tree = effect.tree) ∧
    (∀ location entry, tree.at? location = some entry →
      effect.tree.at? location = some entry) ∧
    (∀ location entry, tree.at? location = none → effect.tree.at? location = some entry →
      entry = .folder) ∧
    ∃ making, (∀ other, Tree.Ascent true tree (Path.parse path) other ↔ other = making) ∧
      (Callable path → effect.tree = making.tree ∧
        (effect.answer = .ok () ↔ making.refusal? = none)) := by
  intro effect again
  have gains := gainsFolders_createFolder .none path true tree
  refine ⟨fun done => ?_, gains.keeps, gains.folders, tree.ensureFolders (Path.parse path),
    fun other => Tree.ascent_iff, fun callable => createFolder_of_callable callable tree⟩
  have callable : Callable path := by
    by_contra uncallable
    obtain ⟨-, failure, refused⟩ := createFolder_of_not_callable uncallable true tree
    nomatch refused.symm.trans done
  obtain ⟨last, answer⟩ := createFolder_of_callable callable tree
  have there : effect.tree.status (Path.normalize path) = .ok .folder := by
    rw [show effect.tree = _ from last]
    exact Tree.status_ensureFolders (answer.mp done)
  exact ⟨there, fun screened => (Tree.status_normalize_eq_folder screened).mp there,
    createFolder_again callable there⟩

/-- The way leads through a folder that is made for it and left again. -/
theorem createFolder_parents_climbing :
    let d := Text.ofString "d"
    let f := Text.ofString "f"
    let n := Text.ofString "n"
    let x := Text.ofString "x"
    let tree : Tree := ⟨[([f], .file [120])]⟩
    let path := Text.ofString "n/../d//x/."
    let effect := createFolder .none path true tree
    let again := createFolder .none path true effect.tree
    effect.answer = .ok () ∧ Tree.screen path = .ok () ∧
    effect.tree.status path = .ok .folder ∧ again.answer = .ok () ∧ again.tree = effect.tree ∧
    effect.tree.at? [f] = some (.file [120]) ∧
    tree.at? [n] = none ∧ effect.tree.at? [n] = some .folder ∧ effect.tree.at? [x, d] ≠ none ∧
    ∃ making, Tree.Ascent true tree (Path.parse path) making ∧ making.refusal? = none := by
  intro d f n x tree path effect again
  obtain ⟨returned, kept, new, making, ascends, ties⟩ := createFolder_parents path tree
  have done : effect.answer = .ok () := by decide
  have screened : Tree.screen path = .ok () := by decide
  obtain ⟨-, there, answer, last⟩ := returned done
  have free : tree.at? [n] = none := by decide
  have made : effect.tree.at? [n] ≠ none := by decide
  obtain ⟨entry, found⟩ := Option.ne_none_iff_exists'.mp made
  obtain rfl := new [n] entry free found
  have callable : Callable path := by decide
  exact ⟨done, screened, there screened, answer, last, kept [f] _ (by decide), free, found,
    by decide, making, (ascends making).mpr rfl, (ties callable).2.mp done⟩

/-- Slashes behind a name can make a path too long, and its normal form is the name. -/
theorem createFolder_overlong :
    let path := Text.ofString "a" ++ '/' :: List.replicate Path.tooMany '/'
    let effect := createFolder .none path true .empty
    path.isBlank = false ∧ effect.answer = .ok () ∧
      effect.tree.status (Path.normalize path) = .ok .folder ∧
      effect.tree.status path = .error .nameTooLong := by
  intro path effect
  have parsed : Path.parse path = ⟨[], [Text.ofString "a"]⟩ := by
    have parts : Path.parts path = [Text.ofString "a"] := by
      rw [Path.parts_append, Path.parts_slashes]
      decide
    rw [Path.parse, parts]
    rfl
  have callable : Callable path := by
    have named : '\x00' ∉ Text.ofString "a" := by decide
    exact ⟨rfl, by simp [path, named]⟩
  obtain ⟨last, answer⟩ := createFolder_of_callable callable .empty
  rw [parsed] at last answer
  refine ⟨callable.1, answer.mpr (by decide), ?_, ?_⟩
  · rw [Path.normalize, parsed, show effect.tree = _ from last]
    decide
  · have long : Path.tooMany ≤ (Utf8.encode path).length := by
      have less : (List.replicate Path.tooMany '/').Sublist path :=
        (List.sublist_cons_self _ _).trans (List.sublist_append_right _ _)
      have fewer := (less.flatMap Utf8.encodeChar).length_le
      rwa [show List.flatMap Utf8.encodeChar _ = Utf8.encode _ from rfl,
        Utf8.length_encode_slashes]
        at fewer
    rw [Tree.status_eq, Tree.land_eq, Tree.screen, if_neg (by simp [path]), if_pos long]
    rfl

/-- Where a file is in the way, the folder that was made before it stays. -/
example :
    let e := Text.ofString "e"
    let f := Text.ofString "f"
    let effect := createFolder .none (Text.ofString "e/../f/x") true ⟨[([f], .file [])]⟩
    effect.answer.toOption = none ∧ effect.tree = ⟨[([f], .file []), ([e], .folder)]⟩ := by
  decide

end Operation

end CommandFile
