import CommandFile.Proofs.Growth
import CommandFile.Tree.Folders
import Mathlib.Data.List.Induction

/-!
# Places

A call that makes an entry has a place for it, which the folders and the links decide.
Nothing is at the path exactly where nothing is at that place.  What such calls make only
adds to the tree.
-/

namespace CommandFile

def LastStep.of (name : Name) : LastStep :=
  if name = Name.here then .here else if name = Name.up then .up else .name name

theorem LastStep.of_solid {name : Name} (solid : name.Solid) : of name = .name name := by
  rw [of, if_neg fun stays => solid.1 (.inr stays), if_neg solid.2]

def Spot.location (spot : Spot) : Location :=
  match spot.last with
  | .name name => name :: spot.folder
  | .here => spot.folder
  | .up => spot.folder.tail
  | .root => []

theorem Path.ne_nil_of_mem_parts {name : Name} {path : Text} (inside : name ∈ parts path) :
    name ≠ [] := by
  simpa using (List.mem_filter.mp inside).2

@[simp] theorem Path.parent_concat (root : Text) (above : List Name) (name : Name) :
    Path.parent ⟨root, above ++ [name]⟩ = ⟨root, above⟩ := by
  simp [parent]

theorem Path.parentInduction {motive : Path → Prop}
    (top : ∀ path : Path, path.names = [] → motive path)
    (below : ∀ path : Path, path.names ≠ [] → motive path.parent → motive path) (path : Path) :
    motive path := by
  obtain ⟨root, names⟩ := path
  induction names using List.reverseRecOn with
  | nil => exact top _ rfl
  | append_singleton above name ih =>
      refine below _ (by simp) ?_
      rw [parent_concat]
      exact ih

def Landing.entry : Landing → Except Errno Entry
  | .absent _ _ => .error .noEntry
  | .present _ entry => .ok entry

namespace Tree

variable {tree larger other : Tree} {path : Text} {location : Location}

/-! ## Landing and stopping before the end -/

theorem land_eq (tree : Tree) (creating : Bool) (path : Text) :
    tree.land creating path =
      (screen path).bind fun _ => tree.walk creating linkLimit [] (Path.steps path) := rfl

theorem status_eq (tree : Tree) (path : Text) :
    tree.status path = (tree.land false path).bind Landing.entry := by
  unfold status
  cases tree.land false path with
  | error errno => rfl
  | ok landing => cases landing <;> rfl

theorem GrowsTo.status (grows : tree.GrowsTo larger) (path : Text) :
    tree.status path = .error .noEntry ∨
      (∃ entry later, tree.status path = .ok entry ∧ larger.status path = .ok later ∧
        later.shape = entry.shape) ∨
      ∃ errno, tree.status path = .error errno ∧ larger.status path = .error errno := by
  rw [status_eq, status_eq, land_eq, land_eq]
  cases screen path with
  | error errno => exact .inr (.inr ⟨errno, rfl, rfl⟩)
  | ok _ =>
      have walks := grows.walk false linkLimit [] (Path.steps path)
      dsimp only [Except.bind]
      generalize tree.walk false linkLimit [] (Path.steps path) = before at walks ⊢
      generalize larger.walk false linkLimit [] (Path.steps path) = after at walks ⊢
      cases walks with
      | missing later => exact .inl rfl
      | absent folder name later => exact .inl rfl
      | present location same => exact .inr (.inl ⟨_, _, rfl, rfl, same⟩)
      | error errno => exact .inr (.inr ⟨errno, rfl, rfl⟩)

def slash (path : Text) : Bool := path.getLast? = some '/'

theorem steps_eq {names : List Name} {name : Name} (parts : Path.parts path = names ++ [name]) :
    Path.steps path = names ++ name :: if slash path then [[]] else [] := by
  unfold Path.steps slash
  split
  · next none =>
      rw [none] at parts
      simp at parts
  · rw [parts]
    by_cases closed : path.getLast? = some '/' <;> simp [closed]

theorem idle_of_slash (path : Text) :
    ∀ step ∈ (if slash path then [[]] else [] : List Name), step.Idle := by
  split <;> simp [Name.Idle]

theorem walk_here {links : Nat} {folder : Location} {names : List Name} {landing : Landing}
    (ends : tree.walk false links folder (names ++ [Name.here]) = .ok landing) :
    ∃ reached, landing = .present reached .folder := by
  have further : Further false [Name.here] := further_of_not_creating (by simp)
  rcases tree.walk_append links folder names with ⟨errno, stops⟩ | ⟨left, reached, comes⟩
  · rw [stops false _ further] at ends
    nomatch ends
  · rw [comes false _ further, walk_idle (.inr rfl), walk_nil] at ends
    exact ⟨reached, (Except.ok.inj ends).symm⟩

theorem spot_eq (tree : Tree) (path : Text) :
    tree.spot path = (screen path).bind fun _ =>
      match (Path.parts path).getLast? with
      | none => .ok ⟨[], .root, slash path⟩
      | some name =>
          (tree.walk false linkLimit [] ((Path.parts path).dropLast ++ [Name.here])).bind
            fun landing =>
              match landing with
              | .absent _ _ => .error .noEntry
              | .present folder _ => .ok ⟨folder, .of name, slash path⟩ := by
  unfold spot
  cases screen path with
  | error errno => rfl
  | ok _ =>
      cases last : (Path.parts path).getLast? with
      | none => simp [bind, Except.bind, last, slash]
      | some name =>
          simp only [bind, Except.bind, last]
          split
          · rfl
          · split
            · rfl
            · simp only [LastStep.of, slash]
              split
              · rfl
              · split <;> rfl

theorem spot_eq_name_iff {folder : Location} {name : Name} {closed : Bool} :
    tree.spot path = .ok ⟨folder, .name name, closed⟩ ↔
      screen path = .ok () ∧ name.Solid ∧ closed = slash path ∧
        ∃ names, Path.parts path = names ++ [name] ∧
          tree.walk false linkLimit [] (names ++ [Name.here]) = .ok (.present folder .folder) := by
  rw [spot_eq]
  constructor
  · intro spotted
    cases screened : screen path with
    | error errno =>
        rw [screened] at spotted
        nomatch spotted
    | ok _ =>
        cases last : (Path.parts path).getLast? with
        | none => simp [screened, last, Except.bind] at spotted
        | some step =>
            obtain ⟨names, parts⟩ := List.getLast?_eq_some_iff.mp last
            have some : step ≠ [] := Path.ne_nil_of_mem_parts (parts ▸ List.mem_concat_self)
            rw [screened, last, parts, List.dropLast_concat] at spotted
            dsimp only [Except.bind] at spotted
            cases ends : tree.walk false linkLimit [] (names ++ [Name.here]) with
            | error errno =>
                rw [ends] at spotted
                nomatch spotted
            | ok landing =>
                obtain ⟨reached, rfl⟩ := walk_here ends
                rw [ends] at spotted
                obtain ⟨rfl, named, rfl⟩ := Spot.mk.inj (Except.ok.inj spotted)
                unfold LastStep.of at named
                split at named
                · nomatch named
                · next moves =>
                    split at named
                    · nomatch named
                    · next descends =>
                        obtain rfl := LastStep.name.inj named
                        exact ⟨rfl, ⟨not_or.mpr ⟨some, moves⟩, descends⟩, rfl, names, parts, ends⟩
  · rintro ⟨screened, solid, rfl, names, parts, ends⟩
    simp [screened, parts, ends, Except.bind, LastStep.of_solid solid]

theorem last_of_spot {spot : Spot} (spotted : tree.spot path = .ok spot) :
    spot.last = (Path.parts path).getLast?.elim .root .of := by
  rw [spot_eq] at spotted
  cases screened : screen path with
  | error errno =>
      rw [screened] at spotted
      nomatch spotted
  | ok _ =>
      rw [screened] at spotted
      dsimp only [Except.bind] at spotted
      cases last : (Path.parts path).getLast? with
      | none =>
          rw [last] at spotted
          obtain rfl := Except.ok.inj spotted
          rfl
      | some name =>
          rw [last] at spotted
          cases ends : tree.walk false linkLimit [] ((Path.parts path).dropLast ++ [Name.here]) with
          | error errno =>
              rw [ends] at spotted
              nomatch spotted
          | ok landing =>
              obtain ⟨reached, rfl⟩ := walk_here ends
              rw [ends] at spotted
              obtain rfl := Except.ok.inj spotted
              rfl

theorem screen_of_land {creating : Bool} {landing : Landing}
    (ends : tree.land creating path = .ok landing) : screen path = .ok () := by
  rw [land_eq] at ends
  cases screened : screen path with
  | error errno =>
      rw [screened] at ends
      nomatch ends
  | ok _ => rfl

theorem land_of_screened (screened : screen path = .ok ()) (creating : Bool) :
    tree.land creating path = tree.walk creating linkLimit [] (Path.steps path) := by
  rw [land_eq, screened]
  rfl

theorem fits_of_land {creating : Bool} {landing : Landing}
    (ends : tree.land creating path = .ok landing) : tree.Fits landing := by
  rw [land_of_screened (screen_of_land ends)] at ends
  exact fits_of_walk _ _ _ ends

theorem status_ne_link (tree : Tree) (path target : Text) :
    tree.status path ≠ .ok (.link target) := by
  rw [status_eq]
  cases ends : tree.land false path with
  | error errno => nofun
  | ok landing =>
      cases landing with
      | absent folder name => nofun
      | present location entry =>
          intro linked
          obtain rfl := Except.ok.inj linked
          exact fits_of_land ends

/-- Before the last step a walk has failed for good, or the last step needs no entry, or
it asks for an entry of the folder that was reached. -/
theorem spot_cases (tree : Tree) (path : Text) :
    (∃ errno, tree.spot path = .error errno ∧ ∀ creating, tree.land creating path = .error errno) ∨
    (∃ spot, tree.spot path = .ok spot ∧ (∀ name, spot.last ≠ .name name) ∧
      tree.land false path = .ok (.present spot.location .folder)) ∨
    ∃ left reached name, name.Solid ∧
      tree.spot path = .ok ⟨reached, .name name, slash path⟩ ∧
      ∀ creating, tree.land creating path =
        tree.walk creating left reached (name :: if slash path then [[]] else []) := by
  rw [spot_eq]
  cases screened : screen path with
  | error errno => exact .inl ⟨errno, rfl, fun creating => by rw [land_eq, screened]; rfl⟩
  | ok _ =>
      simp only [Except.bind, land_of_screened screened]
      cases last : (Path.parts path).getLast? with
      | none =>
          have none : Path.parts path = [] := List.getLast?_eq_none_iff.mp last
          refine .inr (.inl ⟨_, rfl, by simp, ?_⟩)
          rw [Path.steps, none]
          exact walk_nil
      | some name =>
          obtain ⟨names, parts⟩ := List.getLast?_eq_some_iff.mp last
          have named : name ≠ [] := Path.ne_nil_of_mem_parts (parts ▸ List.mem_concat_self)
          have stay := idle_of_slash path
          have further (creating : Bool) :
              Further creating (name :: if slash path then [[]] else []) :=
            ⟨List.cons_ne_nil _ _, fun closes => named (List.cons.inj closes.2).1⟩
          -- The spot asks for a folder in the place of the last step, and the walk comes through
          -- to the same folder whatever comes last.
          simp only [steps_eq parts, parts, List.dropLast_concat]
          rcases tree.walk_append linkLimit [] names with ⟨errno, stops⟩ | ⟨left, reached, comes⟩
          · refine .inl ⟨errno, ?_, fun creating => stops creating _ (further creating)⟩
            rw [stops false _ (further_of_not_creating (by simp))]
          · simp only [comes _ _ (further _), comes false _ (further_of_not_creating
              (List.cons_ne_nil Name.here [])), walk_idle (.inr rfl : Name.here.Idle), walk_nil]
            by_cases stays : name = Name.here
            · refine .inr (.inl ⟨_, rfl, by simp [LastStep.of, stays], ?_⟩)
              rw [walk_idle (.inr stays), walk_of_idle stay, LastStep.of, if_pos stays]
              rfl
            by_cases climbs : name = Name.up
            · have last : LastStep.of name = .up := by rw [LastStep.of, if_neg stays, if_pos climbs]
              refine .inr (.inl ⟨_, rfl, by simp [last], ?_⟩)
              rw [climbs, walk_up, walk_of_idle stay, ← climbs, last]
              rfl
            · have solid : name.Solid := ⟨not_or.mpr ⟨named, stays⟩, climbs⟩
              refine .inr (.inr ⟨left, reached, name, solid, ?_, fun _ => rfl⟩)
              rw [LastStep.of_solid solid]

theorem exists_spot_of_land {creating : Bool} {landing : Landing}
    (lands : tree.land creating path = .ok landing) : ∃ spot, tree.spot path = .ok spot := by
  rcases tree.spot_cases path with
    ⟨errno, -, failed⟩ | ⟨spot, spotted, -⟩ | ⟨left, reached, name, -, spotted, -⟩
  · nomatch (failed creating).symm.trans lands
  · exact ⟨spot, spotted⟩
  · exact ⟨_, spotted⟩

/-! ## The place of a new file -/

/-- Where a file is made at a path, if it can be. -/
def place? (tree : Tree) (path : Text) : Option Location :=
  (tree.spot path).toOption.bind fun spot =>
    match spot with
    | ⟨folder, .name name, false⟩ => if name.tooLong then none else some (name :: folder)
    | _ => none

theorem exists_of_place? (placed : tree.place? path = some location) :
    ∃ left reached name, name.Proper ∧ location = name :: reached ∧
      ∀ creating, tree.land creating path = tree.walk creating left reached [name] := by
  unfold place? at placed
  rcases tree.spot_cases path with
    ⟨errno, failed, -⟩ | ⟨⟨folder, last, closed⟩, ended, unnamed, -⟩ |
    ⟨left, reached, name, solid, named, landed⟩
  · rw [failed] at placed
    nomatch placed
  · rw [ended] at placed
    cases last with
    | name name => exact absurd rfl (unnamed name)
    | _ => nomatch placed
  · rw [named] at placed
    cases closed : slash path with
    | true =>
        rw [closed] at placed
        nomatch placed
    | false =>
        rw [closed] at placed landed
        dsimp [Except.toOption] at placed
        split at placed
        · nomatch placed
        · next short =>
            exact ⟨left, reached, name, ⟨solid, by simpa using short⟩,
              (Option.some.inj placed).symm, landed⟩

theorem status_of_place? (placed : tree.place? path = some location)
    (direct : ∀ target, tree.at? location ≠ some (.link target)) :
    tree.status path = (tree.at? location).elim (.error .noEntry) .ok := by
  obtain ⟨left, reached, name, proper, rfl, landed⟩ := exists_of_place? placed
  rw [status_eq, landed]
  match found : tree.at? (name :: reached) with
  | none =>
      rw [walk_missing (opens_false []) proper found]
      rfl
  | some (.file content) =>
      rw [walk_file (opens_false []) proper found]
      rfl
  | some .folder =>
      rw [walk_enter (opens_false []) proper found, walk_nil]
      rfl
  | some (.link target) => exact absurd found (direct target)

theorem SameFrame.walk_here (same : tree.SameFrame other) (links : Nat) (folder : Location)
    (names : List Name) :
    (tree.walk false links folder (names ++ [Name.here])).toOption =
      (other.walk false links folder (names ++ [Name.here])).toOption := by
  have outline := same.outline_walk false links folder (names ++ [Name.here])
  cases here : tree.walk false links folder (names ++ [Name.here]) with
  | error errno =>
      rw [here, eq_comm] at outline
      exact (Option.map_eq_none_iff.mp outline).symm
  | ok landing =>
      obtain ⟨reached, rfl⟩ := Tree.walk_here here
      rw [here, eq_comm] at outline
      obtain ⟨landing, there, sameOutline⟩ := Option.map_eq_some_iff.mp outline
      cases ends : other.walk false links folder (names ++ [Name.here]) with
      | error errno =>
          rw [ends] at there
          nomatch there
      | ok _ =>
          obtain ⟨reachedToo, rfl⟩ := Tree.walk_here ends
          rw [ends] at there
          obtain rfl := Option.some.inj there
          obtain ⟨rfl, -⟩ := Prod.mk.inj sameOutline
          rfl

theorem SameFrame.spot (same : tree.SameFrame other) (path : Text) :
    (tree.spot path).toOption = (other.spot path).toOption := by
  rw [spot_eq, spot_eq]
  cases screen path with
  | error errno => rfl
  | ok _ =>
      cases (Path.parts path).getLast? with
      | none => rfl
      | some name =>
          have walks := same.walk_here linkLimit [] (Path.parts path).dropLast
          dsimp only [Except.bind]
          revert walks
          cases tree.walk false linkLimit [] ((Path.parts path).dropLast ++ [Name.here]) <;>
            cases other.walk false linkLimit [] ((Path.parts path).dropLast ++ [Name.here]) <;>
            simp +contextual [Except.toOption]

theorem SameFrame.place? (same : tree.SameFrame other) (path : Text) :
    tree.place? path = other.place? path := by
  rw [Tree.place?, Tree.place?, same.spot]

/-! ## Making an entry -/

theorem makeFile_cases (tree : Tree) (path : Text) :
    (∃ location, tree.place? path = some location ∧ location ≠ [] ∧ tree.at? location = none ∧
      tree.makeFile path = .ok (tree.put location (.file []))) ∨
    ((∀ location, tree.place? path = some location → tree.at? location ≠ none) ∧
      ∃ errno, tree.makeFile path = .error errno) := by
  unfold makeFile place?
  match tree.spot path with
  | .error errno => exact .inr ⟨by simp [Except.toOption], errno, rfl⟩
  | .ok ⟨folder, .here, closed⟩ => exact .inr ⟨by simp [Except.toOption], _, rfl⟩
  | .ok ⟨folder, .up, closed⟩ => exact .inr ⟨by simp [Except.toOption], _, rfl⟩
  | .ok ⟨folder, .root, closed⟩ => exact .inr ⟨by simp [Except.toOption], _, rfl⟩
  | .ok ⟨folder, .name name, true⟩ => exact .inr ⟨by simp [Except.toOption], _, rfl⟩
  | .ok ⟨folder, .name name, false⟩ =>
      by_cases long : name.tooLong = true
      · refine .inr ⟨by simp [Except.toOption, long], .nameTooLong, ?_⟩
        simp [bind, Except.bind, lookUp, long]
      · cases found : tree.at? (name :: folder) with
        | none =>
            refine .inl ⟨name :: folder, by simp [Except.toOption, long], by simp, found, ?_⟩
            simp [bind, Except.bind, lookUp, long, found]
        | some entry =>
            refine .inr ⟨by simp [Except.toOption, long, found], .alreadyThere, ?_⟩
            simp [bind, Except.bind, lookUp, long, found]

theorem makeFolder_cases (tree : Tree) (path : Text) :
    (∃ folder name, tree.spot path = .ok ⟨folder, .name name, slash path⟩ ∧ name.Proper ∧
      tree.at? (name :: folder) = none ∧ tree.status path = .error .noEntry ∧
      tree.makeFolder path = .ok (tree.put (name :: folder) .folder)) ∨
    (tree.status path = .error .noEntry ∧ tree.makeFolder path = .error .noEntry) ∨
    ∃ errno, errno ≠ .noEntry ∧ tree.makeFolder path = .error errno := by
  unfold makeFolder
  rw [status_eq]
  rcases tree.spot_cases path with
    ⟨errno, failed, landed⟩ | ⟨⟨folder, last, closed⟩, ended, unnamed, -⟩ |
    ⟨left, reached, name, solid, named, landed⟩
  · rw [failed, landed]
    by_cases missing : errno = .noEntry
    · exact .inr (.inl ⟨by rw [missing]; rfl, by rw [missing]; rfl⟩)
    · exact .inr (.inr ⟨errno, missing, rfl⟩)
  · rw [ended]
    cases last with
    | name name => exact absurd rfl (unnamed name)
    | _ => exact .inr (.inr ⟨.alreadyThere, by decide, rfl⟩)
  · rw [named, landed]
    cases long : name.tooLong with
    | true =>
        refine .inr (.inr ⟨.nameTooLong, by decide, ?_⟩)
        simp [bind, Except.bind, lookUp, long]
    | false =>
        cases found : tree.at? (name :: reached) with
        | none =>
            refine .inl ⟨reached, name, rfl, ⟨solid, long⟩, found, ?_, ?_⟩
            · rw [walk_missing (opens_false _) ⟨solid, long⟩ found]
              split <;> rfl
            · simp [bind, Except.bind, lookUp, long, found]
        | some entry =>
            refine .inr (.inr ⟨.alreadyThere, by decide, ?_⟩)
            simp [bind, Except.bind, lookUp, long, found]

theorem status_of_makeFolder_missing (missing : tree.makeFolder path = .error .noEntry) :
    tree.status path = .error .noEntry := by
  rcases tree.makeFolder_cases path with
    ⟨folder, name, -, -, -, -, made⟩ | ⟨nowhere, -⟩ | ⟨errno, known, refused⟩
  · nomatch missing.symm.trans made
  · exact nowhere
  · exact absurd (Except.error.inj (missing.symm.trans refused)).symm known

theorem gainsFolders_makeFolder {made : Tree} (makes : tree.makeFolder path = .ok made) :
    tree.GainsFolders made := by
  rcases tree.makeFolder_cases path with
    ⟨folder, name, -, -, free, -, same⟩ | ⟨-, refused⟩ | ⟨errno, -, refused⟩
  · obtain rfl := Except.ok.inj (makes.symm.trans same)
    exact gainsFolders_put (List.cons_ne_nil name folder) free
  · nomatch makes.symm.trans refused
  · nomatch makes.symm.trans refused

theorem gainsFolders_tryFolder {bars : Bars} {made : Tree}
    (makes : tryFolder bars tree path = .ok made) : tree.GainsFolders made := by
  unfold tryFolder at makes
  split at makes
  · nomatch makes
  · exact gainsFolders_makeFolder makes

theorem gainsFolders_ensureFolder (bars : Bars) (tree : Tree) (path : Text) :
    tree.GainsFolders (tree.ensureFolder path bars).tree := by
  unfold ensureFolder
  split
  · next made makes => exact gainsFolders_tryFolder makes
  · split <;> exact .refl tree

/-! ## Making the folders above -/

theorem gainsFolders_ensureUpwards (bars : Bars) (tree : Tree) (root : Text) (names : List Name) :
    tree.GainsFolders (tree.ensureUpwards root names bars).tree := by
  induction names with
  | nil => exact gainsFolders_ensureFolder bars tree _
  | cons name above ih =>
      rw [ensureUpwards]
      dsimp only
      split
      · split
        · exact ih.trans (gainsFolders_ensureFolder bars _ _)
        · exact ih
      · exact gainsFolders_ensureFolder bars tree _

theorem gainsFolders_ensureFolders (bars : Bars) (tree : Tree) (path : Path) :
    tree.GainsFolders (tree.ensureFolders path bars).tree :=
  gainsFolders_ensureUpwards bars tree path.root path.names.reverse

theorem ensureFolders_of_top {path : Path} (top : path.names = []) (tree : Tree) :
    tree.ensureFolders path = tree.ensureFolder path.text := by
  obtain ⟨root, names⟩ := path
  obtain rfl : names = [] := top
  rfl

theorem ensureFolders_of_tried {path : Path} (tried : tree.makeFolder path.text ≠ .error .noEntry) :
    tree.ensureFolders path = tree.ensureFolder path.text := by
  obtain ⟨root, names⟩ := path
  rcases List.eq_nil_or_concat names with rfl | ⟨above, name, rfl⟩
  · rfl
  · have whole : (name :: above.reverse).reverse = above ++ [name] := by simp
    rw [List.concat_eq_append] at tried ⊢
    rw [ensureFolders, List.reverse_concat, ensureUpwards, whole, tryFolder_unbarred]
    dsimp only
    split
    · next missing => exact absurd missing tried
    · rfl

theorem ensureFolders_of_missing {path : Path} (below : path.names ≠ [])
    (missing : tree.makeFolder path.text = .error .noEntry) :
    tree.ensureFolders path =
      if (tree.ensureFolders path.parent).refusal? = none then
        (tree.ensureFolders path.parent).tree.ensureFolder path.text
      else tree.ensureFolders path.parent := by
  obtain ⟨root, names⟩ := path
  obtain ⟨above, name, rfl⟩ := (List.eq_nil_or_concat names).resolve_left below
  have whole : (name :: above.reverse).reverse = above ++ [name] := by simp
  rw [List.concat_eq_append] at missing ⊢
  rw [Path.parent_concat, ensureFolders, ensureFolders, List.reverse_concat, ensureUpwards, whole,
    tryFolder_unbarred, missing]
  dsimp only
  split
  · next unrefused => rw [if_pos unrefused]
  · next refused => rw [if_neg (by simp [refused])]

theorem probe_eq_some_iff (tree : Tree) (path : Text) (entry : Entry) :
    tree.probe path = .ok (some entry) ↔ tree.status path = .ok entry := by
  unfold probe
  split <;> simp_all

/-- Where a path leads somewhere, or fails to for another reason than that something is
missing, no folder is made, and only a folder is good enough. -/
theorem ensureFolder_of_status (there : tree.status path ≠ .error .noEntry) :
    (tree.ensureFolder path).tree = tree ∧
      ((tree.ensureFolder path).refusal? = none ↔ tree.status path = .ok .folder) := by
  rw [← probe_eq_some_iff]
  rcases tree.makeFolder_cases path with
    ⟨folder, name, -, -, -, missing, -⟩ | ⟨missing, -⟩ | ⟨errno, -, refused⟩
  · exact absurd missing there
  · exact absurd missing there
  · unfold ensureFolder
    rw [tryFolder_unbarred, refused]
    match tree.probe path with
    | .ok (some .folder) => simp
    | .ok (some (.file content)) => simp
    | .ok (some (.link target)) => simp
    | .ok none => simp
    | .error other => simp

theorem ensureFolders_of_status {path : Path} (there : tree.status path.text ≠ .error .noEntry) :
    (tree.ensureFolders path).tree = tree ∧
      ((tree.ensureFolders path).refusal? = none ↔ tree.status path.text = .ok .folder) := by
  rw [ensureFolders_of_tried (mt status_of_makeFolder_missing there)]
  exact ensureFolder_of_status there

/-! ## Removing an entry -/

def Vacant (tree : Tree) (path : Text) : Prop :=
  tree.spot path = .error .noEntry ∨
    ∃ folder name closed, tree.spot path = .ok ⟨folder, .name name, closed⟩ ∧
      tree.lookUp folder name = .ok none

theorem lookUp_eq_ok_iff {folder : Location} {name : Name} {found : Option Entry} :
    tree.lookUp folder name = .ok found ↔
      name.tooLong = false ∧ tree.at? (name :: folder) = found := by
  cases long : name.tooLong <;> simp [lookUp, long]

theorem Vacant.unlink (free : tree.Vacant path) : tree.unlink path = .error .noEntry := by
  rcases free with failed | ⟨folder, name, closed, spotted, looked⟩
  · simp [Tree.unlink, bind, Except.bind, failed]
  · simp [Tree.unlink, bind, Except.bind, spotted, looked]

theorem Vacant.removeFolder (free : tree.Vacant path) :
    tree.removeFolder path = .error .noEntry := by
  rcases free with failed | ⟨folder, name, closed, spotted, looked⟩
  · simp [Tree.removeFolder, bind, Except.bind, failed]
  · simp [Tree.removeFolder, bind, Except.bind, spotted, looked]

theorem vacant_or (tree : Tree) (path : Text) :
    tree.Vacant path ∨
    (∃ folder name closed entry, tree.spot path = .ok ⟨folder, .name name, closed⟩ ∧
      tree.lookUp folder name = .ok (some entry)) ∨
    ∃ errno other, errno ≠ .noEntry ∧ other ≠ .noEntry ∧
      tree.unlink path = .error errno ∧ tree.removeFolder path = .error other := by
  unfold Tree.unlink Tree.removeFolder Vacant
  match tree.spot path with
  | .error errno =>
      by_cases missing : errno = .noEntry
      · exact .inl (.inl (congrArg _ missing))
      · exact .inr (.inr ⟨errno, errno, missing, missing, rfl, rfl⟩)
  | .ok ⟨folder, .here, closed⟩ =>
      exact .inr (.inr ⟨.isFolder, .invalid, by decide, by decide, rfl, rfl⟩)
  | .ok ⟨folder, .up, closed⟩ =>
      exact .inr (.inr ⟨.isFolder, .notEmpty, by decide, by decide, rfl, rfl⟩)
  | .ok ⟨folder, .root, closed⟩ =>
      exact .inr (.inr ⟨.isFolder, .busy, by decide, by decide, rfl, rfl⟩)
  | .ok ⟨folder, .name name, closed⟩ =>
      cases long : name.tooLong with
      | true =>
          refine .inr (.inr ⟨.nameTooLong, .nameTooLong, by decide, by decide, ?_, ?_⟩) <;>
            simp [bind, Except.bind, lookUp, long]
      | false =>
          cases found : tree.at? (name :: folder) with
          | none => exact .inl (.inr ⟨_, _, _, rfl, lookUp_eq_ok_iff.mpr ⟨long, found⟩⟩)
          | some entry => exact .inr (.inl ⟨_, _, _, _, rfl, lookUp_eq_ok_iff.mpr ⟨long, found⟩⟩)

theorem unlink_cases (tree : Tree) (path : Text) :
    (∃ folder name entry, tree.spot path = .ok ⟨folder, .name name, false⟩ ∧
      tree.lookUp folder name = .ok (some entry) ∧ entry ≠ .folder ∧
      tree.unlink path = .ok (tree.remove (name :: folder))) ∨
    tree.Vacant path ∨ ∃ errno, errno ≠ .noEntry ∧ tree.unlink path = .error errno := by
  rcases tree.vacant_or path with
    free | ⟨folder, name, closed, entry, spotted, looked⟩ | ⟨errno, -, other, -, refused, -⟩
  · exact .inr (.inl free)
  · by_cases isFolder : entry = .folder
    · refine .inr (.inr ⟨.isFolder, by decide, ?_⟩)
      simp [Tree.unlink, bind, Except.bind, spotted, looked, isFolder]
    · cases closed with
      | true =>
          refine .inr (.inr ⟨.notFolder, by decide, ?_⟩)
          simp [Tree.unlink, bind, Except.bind, spotted, looked]
      | false =>
          refine .inl ⟨folder, name, entry, spotted, looked, isFolder, ?_⟩
          simp [Tree.unlink, bind, Except.bind, spotted, looked]
  · exact .inr (.inr ⟨errno, other, refused⟩)

theorem removeFolder_cases (tree : Tree) (path : Text) :
    (∃ folder name closed, tree.spot path = .ok ⟨folder, .name name, closed⟩ ∧
      tree.lookUp folder name = .ok (some .folder) ∧ tree.isEmptyAt (name :: folder) = true ∧
      tree.removeFolder path = .ok (tree.remove (name :: folder))) ∨
    tree.Vacant path ∨ ∃ errno, errno ≠ .noEntry ∧ tree.removeFolder path = .error errno := by
  rcases tree.vacant_or path with
    free | ⟨folder, name, closed, entry, spotted, looked⟩ | ⟨-, errno, -, other, -, refused⟩
  · exact .inr (.inl free)
  · by_cases isFolder : entry = .folder
    · subst isFolder
      cases empty : tree.isEmptyAt (name :: folder) with
      | true =>
          refine .inl ⟨folder, name, closed, spotted, looked, empty, ?_⟩
          simp [Tree.removeFolder, bind, Except.bind, spotted, looked, empty]
      | false =>
          refine .inr (.inr ⟨.notEmpty, by decide, ?_⟩)
          simp [Tree.removeFolder, bind, Except.bind, spotted, looked, empty]
    · refine .inr (.inr ⟨.notFolder, by decide, ?_⟩)
      simp [Tree.removeFolder, bind, Except.bind, spotted, looked]
  · exact .inr (.inr ⟨errno, other, refused⟩)

/-! ## Changing a file -/

def goal? (tree : Tree) (path : Text) : Option Location :=
  (tree.land true path).toOption.bind fun landing =>
    if landing.outline.2 then none else some landing.outline.1

theorem SameFrame.goal? (same : tree.SameFrame other) (path : Text) :
    tree.goal? path = other.goal? path := by
  have outlines : (tree.land true path).toOption.map Landing.outline =
      (other.land true path).toOption.map Landing.outline := by
    rw [land_eq, land_eq]
    cases screen path with
    | error errno => rfl
    | ok _ => exact same.outline_walk true linkLimit [] (Path.steps path)
  have through (tree : Tree) : tree.goal? path =
      ((tree.land true path).toOption.map Landing.outline).bind fun outline =>
        if outline.2 then none else some outline.1 := by
    rw [Option.bind_map]
    rfl
  rw [through, through, outlines]

theorem changeFile_cases (tree : Tree) (path : Text) (change : Bytes → Bytes) :
    (∃ location content, tree.goal? path = some location ∧ location ≠ [] ∧
      (tree.at? location = none ∧ content = [] ∨ tree.at? location = some (.file content)) ∧
      tree.changeFile path change = .ok (tree.put location (.file (change content)))) ∨
    (tree.goal? path = none ∧ ∃ errno, tree.changeFile path change = .error errno) := by
  unfold changeFile goal?
  cases ends : tree.land true path with
  | error errno => exact .inr ⟨rfl, errno, rfl⟩
  | ok landing =>
      match landing, fits_of_land ends with
      | .absent folder name, fits =>
          exact .inl ⟨name :: folder, [], rfl, by simp, .inl ⟨fits.2, rfl⟩, rfl⟩
      | .present location (.file content), fits =>
          exact .inl ⟨location, content, rfl, fits.1, .inr fits.2, rfl⟩
      | .present location .folder, _ => exact .inr ⟨rfl, _, rfl⟩

theorem closed_ne_file (landing : Landing) (content : Bytes) :
    landing.closed ≠ .ok (.present location (.file content)) := by
  cases landing with
  | absent folder name => nofun
  | present reached entry => cases entry <;> nofun

/-- A walk that may create its last name goes where any other goes, unless it is refused for a
slash at the end, and then no file is there. -/
theorem walk_creating_cases (links : Nat) (folder : Location) (steps : List Name) :
    tree.walk true links folder steps = tree.walk false links folder steps ∨
      tree.walk true links folder steps = .error .isFolder ∧
        ∀ location content,
          tree.walk false links folder steps ≠ .ok (.present location (.file content)) := by
  induction links, folder, steps using walkInduction tree true with
  | done links folder =>
      rw [walk_nil, walk_nil]
      exact .inl rfl
  | idle links folder name rest stays ih => rwa [walk_idle stays, walk_idle stays]
  | up links folder rest ih => rwa [walk_up, walk_up]
  | closing links folder name solid creates =>
      have asks : tree.walk false links folder [name, []] =
          (tree.walk false links folder [name]).bind Landing.closed :=
        walk_closed (List.cons_ne_nil [] []) (by simp [Name.Idle]) links folder [name]
      refine .inr ⟨walk_closing solid, fun location content => ?_⟩
      rw [asks]
      cases tree.walk false links folder [name] with
      | error errno => nofun
      | ok landing => exact closed_ne_file landing content
  | refused links folder name rest solid long opens =>
      rw [walk_refused opens solid long, walk_refused (opens_false rest) solid long]
      exact .inl rfl
  | missing links folder name rest proper found opens =>
      rw [walk_missing opens proper found, walk_missing (opens_false rest) proper found]
      exact .inl rfl
  | file links folder name rest content proper found opens =>
      rw [walk_file opens proper found, walk_file (opens_false rest) proper found]
      exact .inl rfl
  | enter links folder name rest proper found opens ih =>
      rwa [walk_enter opens proper found, walk_enter (opens_false rest) proper found]
  | stuck folder name rest target proper found opens =>
      rw [walk_stuck opens proper found, walk_stuck (opens_false rest) proper found]
      exact .inl rfl
  | follow links folder name rest target proper found opens ih =>
      rwa [walk_follow opens proper found, walk_follow (opens_false rest) proper found]

theorem land_creating_cases (tree : Tree) (path : Text) :
    tree.land true path = tree.land false path ∨
      tree.land true path = .error .isFolder ∧
        ∀ location content, tree.land false path ≠ .ok (.present location (.file content)) := by
  rw [land_eq, land_eq]
  cases screen path with
  | error errno => exact .inl rfl
  | ok _ => exact walk_creating_cases linkLimit [] (Path.steps path)

theorem land_of_creating {landing : Landing} (ends : tree.land true path = .ok landing) :
    tree.land false path = .ok landing := by
  rcases tree.land_creating_cases path with same | ⟨refused, -⟩
  · exact same.symm.trans ends
  · nomatch refused.symm.trans ends

theorem goal?_of_file {content : Bytes} (found : tree.status path = .ok (.file content)) :
    tree.goal? path ≠ none := by
  rw [status_eq] at found
  cases ends : tree.land false path with
  | error errno =>
      rw [ends] at found
      nomatch found
  | ok landing =>
      rw [ends] at found
      match landing, found with
      | .present location _, rfl =>
          rcases tree.land_creating_cases path with same | ⟨-, nofile⟩
          · rw [goal?, same, ends]
            nofun
          · exact absurd ends (nofile location content)

theorem status_of_goal? (reached : tree.goal? path = some location) :
    tree.status path = (tree.at? location).elim (.error .noEntry) .ok := by
  rw [goal?] at reached
  cases ends : tree.land true path with
  | error errno =>
      rw [ends] at reached
      nomatch reached
  | ok landing =>
      rw [ends] at reached
      rw [status_eq, land_of_creating ends]
      match landing, fits_of_land ends, reached with
      | .absent folder name, fits, reached =>
          obtain rfl : name :: folder = location := Option.some.inj reached
          rw [fits.2]
          rfl
      | .present place (.file content), fits, reached =>
          obtain rfl : place = location := Option.some.inj reached
          rw [fits.2]
          rfl
      | .present _ .folder, _, reached => nomatch reached

theorem status_changeFile {after : Tree} {change : Bytes → Bytes}
    (changes : tree.changeFile path change = .ok after) :
    ∃ old, (tree.status path = .error .noEntry ∧ old = [] ∨ tree.status path = .ok (.file old)) ∧
      after.status path = .ok (.file (change old)) := by
  rcases tree.changeFile_cases path change with
    ⟨location, old, reached, inside, before, changed⟩ | ⟨-, errno, refused⟩
  · obtain rfl := Except.ok.inj (changed.symm.trans changes)
    have free : tree.frame? location = none :=
      frame?_eq_none_iff.mpr (before.imp And.left fun file => ⟨old, file⟩)
    have again := (sameFrame_put_file inside free (change old)).goal? path
    refine ⟨old, ?_, ?_⟩
    · rw [status_of_goal? reached]
      exact before.imp (And.imp_left fun missing => by rw [missing]; rfl)
        fun file => by rw [file]; rfl
    · rw [status_of_goal? (again.symm.trans reached), at?_put _ inside, if_pos rfl]
      rfl
  · nomatch refused.symm.trans changes

theorem status_overwrite {after : Tree} {content : Bytes}
    (writes : tree.overwrite path content = .ok after) :
    after.status path = .ok (.file content) := by
  obtain ⟨-, -, found⟩ := status_changeFile writes
  exact found

end Tree

end CommandFile
