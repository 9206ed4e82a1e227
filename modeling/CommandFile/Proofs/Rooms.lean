import CommandFile.Proofs.NormalForms

/-!
# Room for files

A file can be written where one is, where a folder has a place for one, and behind folders that
are not there yet: these are made one by one from above, and nothing else is.
-/

namespace CommandFile

namespace Path

variable {root : Text} {names : List Name} {name : Name}

theorem Normal.parts_text {path : Path} (normal : path.Normal) (some : path.names ≠ []) :
    parts path.text = path.names := by
  obtain ⟨written, rooted⟩ := normal.root
  have each : ∀ name ∈ path.names, IsPart name := fun name inside => (normal.names name inside).1
  have shown : path.root ++ Text.join ['/'] path.names ≠ [] := by
    obtain ⟨name, names, whole⟩ := List.exists_cons_of_ne_nil some
    rw [whole] at each ⊢
    simp [join_ne_nil (each name List.mem_cons_self) names]
  rw [text_eq shown, rooted, parts_root, parts_join each]

theorem Normal.steps_text_concat (normal : Normal ⟨root, names ++ [name]⟩) :
    steps (text ⟨root, names ++ [name]⟩) = names ++ [name] := by
  rcases normal.steps_text with ⟨-, same⟩ | ⟨none, -⟩
  · exact same
  · simp at none

end Path

namespace Tree

variable {tree larger : Tree} {names below : List Name} {name : Name} {reached : Location}
  {root : Text}

theorem walk_through {links : Nat} {folder : Location}
    (ends : tree.walk false links folder names = .ok (.present reached .folder)) :
    ∃ left, ∀ creating more, Further creating more →
      tree.walk creating links folder (names ++ more) = tree.walk creating left reached more := by
  have asks := further_of_not_creating (List.cons_ne_nil Name.here [])
  have here : tree.walk false links folder (names ++ [Name.here]) =
      .ok (.present reached .folder) := by
    rw [walk_closed (List.cons_ne_nil _ _) (by simp [Name.Idle]), ends]
    rfl
  rcases tree.walk_append links folder names with ⟨errno, stops⟩ | ⟨left, other, comes⟩
  · rw [stops false _ asks] at here
    cases here
  · rw [comes false _ asks, walk_idle (.inr rfl), walk_nil] at here
    cases here
    exact ⟨left, comes⟩

theorem GrowsTo.walk_folder (grows : tree.GrowsTo larger) {links : Nat} {folder : Location}
    (ends : tree.walk false links folder names = .ok (.present reached .folder)) :
    larger.walk false links folder names = .ok (.present reached .folder) := by
  have walks := grows.walk false links folder names
  rw [ends] at walks
  generalize larger.walk false links folder names = after at walks ⊢
  cases walks with
  | @present _ _ later same =>
      cases later <;> simp_all [Entry.shape]

theorem further_single (creating : Bool) (solid : name.Solid) : Further creating [name] :=
  ⟨List.cons_ne_nil _ _, fun closes => solid.1 (.inl (List.cons.inj closes.2).1)⟩

@[simp] theorem opens_nil (creating : Bool) : Opens creating [] := fun closes => nomatch closes.2

/-! ## Making one folder -/

section Single

variable (normal : Path.Normal ⟨root, names ++ [name]⟩)
  (screened : screen (Path.text ⟨root, names ++ [name]⟩) = .ok ())

include normal screened

theorem spot_of_present (solid : name.Solid) {entry : Entry}
    (ends : tree.walk false linkLimit [] (names ++ [Name.here]) = .ok (.present reached entry)) :
    tree.spot (Path.text ⟨root, names ++ [name]⟩) =
      .ok ⟨reached, .name name, slash (Path.text ⟨root, names ++ [name]⟩)⟩ := by
  have parts := normal.parts_text (by simp)
  rw [spot_eq, screened, parts, List.getLast?_concat, List.dropLast_concat]
  simp only [Except.bind, ends, LastStep.of_solid solid]

theorem spot_of_error {errno : Errno}
    (stuck : tree.walk false linkLimit [] (names ++ [Name.here]) = .error errno) :
    tree.spot (Path.text ⟨root, names ++ [name]⟩) = .error errno := by
  have parts := normal.parts_text (by simp)
  rw [spot_eq, screened, parts, List.getLast?_concat, List.dropLast_concat]
  simp only [Except.bind, stuck]

theorem makeFolder_of_vacant (proper : name.Proper)
    (ends : tree.walk false linkLimit [] names = .ok (.present reached .folder))
    (free : tree.at? (name :: reached) = none) :
    tree.makeFolder (Path.text ⟨root, names ++ [name]⟩) =
      .ok (tree.put (name :: reached) .folder) := by
  obtain ⟨left, through⟩ := walk_through ends
  have here := through false _ (further_of_not_creating (List.cons_ne_nil Name.here []))
  rw [walk_idle (.inr rfl), walk_nil] at here
  unfold makeFolder
  rw [spot_of_present normal screened proper.1 here]
  simp [bind, Except.bind, lookUp, proper.2, free]

theorem makeFolder_of_missing {above : List Name} {first : Name} (proper : first.Proper)
    (whole : names = above ++ first :: below)
    (ends : tree.walk false linkLimit [] above = .ok (.present reached .folder))
    (free : tree.at? (first :: reached) = none) :
    tree.makeFolder (Path.text ⟨root, names ++ [name]⟩) = .error .noEntry := by
  obtain ⟨left, through⟩ := walk_through ends
  have stuck : tree.walk false linkLimit [] (names ++ [Name.here]) = .error .noEntry := by
    rw [whole, List.append_assoc, List.cons_append,
      through false _ (further_of_not_creating (List.cons_ne_nil _ _)),
      walk_missing (opens_false _) proper free, if_neg (by simp)]
  unfold makeFolder
  rw [spot_of_error normal screened stuck]
  rfl

end Single

/-! ## Making the folders above -/

/-- A walk through the names above ends in a folder, and the names below it are at nothing yet,
the last of them first. -/
structure Vacancy (tree : Tree) (above below : List Name) (reached : Location) : Prop where
  ends : tree.walk false linkLimit [] above = .ok (.present reached .folder)
  proper : ∀ name ∈ below, name.Proper
  free : ∀ {ending}, ending ≠ [] → ending <:+ below → tree.at? (ending ++ reached) = none

variable {above : List Name}

theorem Vacancy.tail (vacancy : tree.Vacancy above (name :: below) reached) :
    tree.Vacancy above below reached where
  ends := vacancy.ends
  proper := fun other inside => vacancy.proper other (List.mem_cons_of_mem _ inside)
  free := fun some ending => vacancy.free some (ending.trans (List.suffix_cons name below))

theorem Vacancy.exists_first (vacancy : tree.Vacancy above below reached) (some : below ≠ []) :
    ∃ first rest, below.reverse = first :: rest ∧ first.Proper ∧
      tree.at? (first :: reached) = none := by
  obtain ⟨rest, first, rfl⟩ := (List.eq_nil_or_concat below).resolve_left some
  rw [List.concat_eq_append] at vacancy ⊢
  have single : tree.at? ([first] ++ reached) = none :=
    vacancy.free (List.cons_ne_nil first []) (List.suffix_append rest [first])
  exact ⟨first, rest.reverse, List.reverse_concat .., vacancy.proper first List.mem_concat_self,
    single⟩

section Steps

variable {path : Text} {names : List Name}
  (whole : Path.text ⟨root, (name :: names).reverse⟩ = path)

include whole

theorem ensureUpwards_of_makes {made : Tree} (makes : tree.makeFolder path = .ok made) :
    tree.ensureUpwards root (name :: names) = tree.ensureFolder path := by
  rw [ensureUpwards]
  dsimp only
  rw [whole, tryFolder_unbarred, makes]

theorem ensureUpwards_of_missing (missing : tree.makeFolder path = .error .noEntry)
    (unrefused : (tree.ensureUpwards root names).refusal? = none) :
    tree.ensureUpwards root (name :: names) =
      (tree.ensureUpwards root names).tree.ensureFolder path := by
  rw [ensureUpwards]
  dsimp only
  rw [whole, tryFolder_unbarred, missing]
  dsimp only
  rw [unrefused]

end Steps

theorem ensureUpwards_of_walk (normal : Path.Normal ⟨root, names⟩)
    (screened : screen (Path.text ⟨root, names⟩) = .ok ())
    (ends : tree.walk false linkLimit [] names = .ok (.present reached .folder)) :
    tree.ensureUpwards root names.reverse = ⟨tree, none⟩ := by
  have found : tree.status (Path.text ⟨root, names⟩) = .ok .folder := by
    rw [status_of_screened screened]
    rcases normal.steps_text with ⟨-, same⟩ | ⟨-, stay⟩
    · rw [same, ends]
      rfl
    · rw [walk_of_idle stay]
      rfl
  have there : tree.status (Path.text ⟨root, names⟩) ≠ .error .noEntry := by simp [found]
  obtain ⟨same, unrefused⟩ := ensureFolders_of_status there
  exact congrArg₂ Making.mk same (unrefused.mpr found)

theorem walk_put_folder (proper : name.Proper)
    (ends : tree.walk false linkLimit [] names = .ok (.present reached .folder))
    (free : tree.at? (name :: reached) = none) :
    (tree.put (name :: reached) .folder).walk false linkLimit [] (names ++ [name]) =
      .ok (.present (name :: reached) .folder) := by
  have inside : name :: reached ≠ [] := List.cons_ne_nil name reached
  have grown := (keeps_put inside free .folder).growsTo.walk_folder ends
  obtain ⟨left, through⟩ := walk_through grown
  have made : (tree.put (name :: reached) .folder).at? (name :: reached) = some .folder := by
    rw [at?_put _ inside, if_pos rfl]
  rw [through false _ (further_single false proper.1),
    walk_enter (opens_nil false) proper made, walk_nil]

theorem ensureUpwards_of_vacancy (vacancy : tree.Vacancy above below reached)
    (normal : Path.Normal ⟨root, above ++ below.reverse⟩)
    (screened : screen (Path.text ⟨root, above ++ below.reverse⟩) = .ok ()) :
    let making := tree.ensureUpwards root (below ++ above.reverse)
    making.refusal? = none ∧
      making.tree.walk false linkLimit [] (above ++ below.reverse) =
        .ok (.present (below ++ reached) .folder) ∧
      ∀ location, (below ++ reached).length < location.length →
        making.tree.at? location = tree.at? location := by
  induction below with
  | nil =>
      rw [List.reverse_nil, List.append_nil] at normal screened ⊢
      rw [List.nil_append, ensureUpwards_of_walk normal screened vacancy.ends]
      exact ⟨rfl, vacancy.ends, fun _ _ => rfl⟩
  | cons name below ih =>
      rw [List.reverse_cons, ← List.append_assoc] at normal screened ⊢
      have proper := vacancy.proper name List.mem_cons_self
      have free : tree.at? (name :: (below ++ reached)) = none :=
        vacancy.free (List.cons_ne_nil name below) List.suffix_rfl
      obtain ⟨before, tried, ends, frame⟩ : ∃ before : Tree,
          tree.ensureUpwards root (name :: below ++ above.reverse) =
            before.ensureFolder (Path.text ⟨root, above ++ below.reverse ++ [name]⟩) ∧
          before.walk false linkLimit [] (above ++ below.reverse) =
            .ok (.present (below ++ reached) .folder) ∧
          ∀ location, (below ++ reached).length < location.length →
            before.at? location = tree.at? location := by
        have whole : Path.text ⟨root, (name :: (below ++ above.reverse)).reverse⟩ =
            Path.text ⟨root, above ++ below.reverse ++ [name]⟩ := by simp
        cases below with
        | nil =>
            rw [List.reverse_nil, List.append_nil] at normal screened whole ⊢
            have makes := makeFolder_of_vacant normal screened proper vacancy.ends free
            exact ⟨tree, ensureUpwards_of_makes whole makes, vacancy.ends, fun _ _ => rfl⟩
        | cons next below =>
            have upper := vacancy.tail
            obtain ⟨first, rest, upward, properToo, freeToo⟩ :=
              upper.exists_first (List.cons_ne_nil next below)
            have missing := makeFolder_of_missing normal screened properToo (congrArg _ upward)
              vacancy.ends freeToo
            have shorter := Path.screen_parent screened
            obtain ⟨unrefused, ends, frame⟩ := ih upper (by simpa [Path.parent] using normal.parent)
              (by simpa [Path.parent] using shorter)
            exact ⟨_, ensureUpwards_of_missing whole missing unrefused, ends, frame⟩
      have freeToo : before.at? (name :: (below ++ reached)) = none := by
        rw [frame _ (by simp), free]
      have makes := makeFolder_of_vacant normal screened proper ends freeToo
      rw [tried, ensureFolder, tryFolder_unbarred, makes]
      refine ⟨rfl, walk_put_folder proper ends freeToo, fun location deep => ?_⟩
      have away : location ≠ name :: (below ++ reached) := by
        rintro rfl
        simp at deep
      rw [at?_put _ (List.cons_ne_nil _ _), if_neg away]
      refine frame location ?_
      simp at deep ⊢
      omega

theorem room_of_vacancy {path : Path} (normal : path.Normal) (screened : screen path.text = .ok ())
    (whole : path.names = above ++ below.reverse) (some : below ≠ [])
    (vacancy : tree.Vacancy above below reached) :
    let making := tree.ensureFolders path.parent
    making.refusal? = none ∧ making.tree.goal? path.text ≠ none := by
  obtain ⟨root, names⟩ := path
  obtain ⟨name, below, rfl⟩ := List.exists_cons_of_ne_nil some
  obtain rfl : names = above ++ below.reverse ++ [name] := by simpa using whole
  have proper := vacancy.proper name List.mem_cons_self
  have parent : Path.parent ⟨root, above ++ below.reverse ++ [name]⟩ =
      ⟨root, above ++ below.reverse⟩ := by simp [Path.parent]
  have shorter := Path.screen_parent screened
  have normalToo := normal.parent
  rw [parent] at shorter normalToo ⊢
  obtain ⟨unrefused, ends, frame⟩ := ensureUpwards_of_vacancy vacancy.tail normalToo shorter
  have upwards : (above ++ below.reverse).reverse = below ++ above.reverse := by simp
  rw [ensureFolders, upwards]
  have free : (tree.ensureUpwards root (below ++ above.reverse)).tree.at?
      (name :: (below ++ reached)) = none := by
    rw [frame _ (by simp)]
    exact vacancy.free (List.cons_ne_nil name below) List.suffix_rfl
  obtain ⟨left, through⟩ := walk_through ends
  refine ⟨unrefused, ?_⟩
  rw [goal?, land_of_screened screened, normal.steps_text_concat,
    through true _ (further_single true proper.1), walk_missing (opens_nil true) proper free]
  exact Option.some_ne_none _

/-! ## Room for a file -/

/-- There is a file at a path, whatever it holds, or a place for one, or one behind folders that
can be made. -/
inductive HasRoom (tree : Tree) (path : Path) : Prop
  | file {content : Bytes} (found : tree.status path.text = .ok (.file content))
  | place (placed : tree.goal? path.text ≠ none)
  | vacant {above below : List Name} {reached : Location} (screened : screen path.text = .ok ())
      (whole : path.names = above ++ below.reverse) (some : below ≠ [])
      (vacancy : tree.Vacancy above below reached)

theorem room_of_goal? {path : Path} (normal : path.Normal) (placed : tree.goal? path.text ≠ none) :
    let making := tree.ensureFolders path.parent
    making.refusal? = none ∧ making.tree.goal? path.text ≠ none := by
  have above := status_parent normal placed
  have there : tree.status path.parent.text ≠ .error .noEntry := by simp [above]
  obtain ⟨same, unrefused⟩ := ensureFolders_of_status there
  refine ⟨unrefused.mpr above, ?_⟩
  rw [same]
  exact placed

theorem HasRoom.ensureFolders {path : Path} (room : tree.HasRoom path) (normal : path.Normal) :
    let making := tree.ensureFolders path.parent
    making.refusal? = none ∧ making.tree.goal? path.text ≠ none := by
  cases room with
  | file found => exact room_of_goal? normal (goal?_of_file found)
  | place placed => exact room_of_goal? normal placed
  | vacant screened whole named vacancy => exact room_of_vacancy normal screened whole named vacancy

end Tree

end CommandFile
