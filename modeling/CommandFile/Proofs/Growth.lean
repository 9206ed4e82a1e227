import CommandFile.Proofs.Walks

/-!
# Growing trees

Creating and writing take nothing away from a tree.  In a tree that has grown, a walk has
the verdict that it had before, unless something was missing then.  Where walks lead is
decided by the folders and the links alone.
-/

namespace CommandFile

def Entry.shape : Entry → Entry
  | .file _ => .file []
  | entry => entry

def Landing.outline : Landing → Location × Bool
  | .absent folder name => (name :: folder, false)
  | .present location (.file _) => (location, false)
  | .present location _ => (location, true)

namespace Tree

variable {tree larger other : Tree} {creating : Bool} {links : Nat} {folder : Location}
  {name : Name} {rest : List Name}

/-! ## More entries -/

/-- Every entry is still there; a file may have another content. -/
def GrowsTo (tree larger : Tree) : Prop :=
  ∀ location entry, tree.at? location = some entry →
    ∃ later, larger.at? location = some later ∧ later.shape = entry.shape

theorem GrowsTo.refl (tree : Tree) : tree.GrowsTo tree :=
  fun _ entry found => ⟨entry, found, rfl⟩

theorem GrowsTo.trans (grows : tree.GrowsTo larger) {largest : Tree}
    (growsOn : larger.GrowsTo largest) : tree.GrowsTo largest := by
  intro location entry found
  obtain ⟨later, there, same⟩ := grows location entry found
  obtain ⟨last, thereToo, sameToo⟩ := growsOn location later there
  exact ⟨last, thereToo, sameToo.trans same⟩

theorem GrowsTo.at?_folder (grows : tree.GrowsTo larger) {location : Location}
    (found : tree.at? location = some .folder) : larger.at? location = some .folder := by
  obtain ⟨later, there, same⟩ := grows location _ found
  cases later <;> simp_all [Entry.shape]

theorem GrowsTo.at?_link (grows : tree.GrowsTo larger) {location : Location} {target : Text}
    (found : tree.at? location = some (.link target)) :
    larger.at? location = some (.link target) := by
  obtain ⟨later, there, same⟩ := grows location _ found
  cases later <;> simp_all [Entry.shape]

theorem GrowsTo.at?_file (grows : tree.GrowsTo larger) {location : Location} {content : Bytes}
    (found : tree.at? location = some (.file content)) :
    ∃ bytes, larger.at? location = some (.file bytes) := by
  obtain ⟨later, there, same⟩ := grows location _ found
  cases later <;> simp_all [Entry.shape]

theorem GrowsTo.at?_eq_none (grows : tree.GrowsTo larger) {location : Location}
    (free : larger.at? location = none) : tree.at? location = none := by
  rw [Option.eq_none_iff_forall_ne_some]
  intro entry found
  obtain ⟨later, there, -⟩ := grows location entry found
  nomatch free.symm.trans there

def Keeps (tree larger : Tree) : Prop :=
  ∀ location entry, tree.at? location = some entry → larger.at? location = some entry

theorem Keeps.refl (tree : Tree) : tree.Keeps tree := fun _ _ found => found

theorem Keeps.trans (keeps : tree.Keeps larger) {largest : Tree}
    (keepsOn : larger.Keeps largest) : tree.Keeps largest :=
  fun location entry found => keepsOn location entry (keeps location entry found)

theorem Keeps.growsTo (keeps : tree.Keeps larger) : tree.GrowsTo larger :=
  fun location entry found => ⟨entry, keeps location entry found, rfl⟩

theorem keeps_put {location : Location} (inside : location ≠ [])
    (free : tree.at? location = none) (entry : Entry) : tree.Keeps (tree.put location entry) := by
  intro place old found
  have away : place ≠ location := by
    rintro rfl
    nomatch free.symm.trans found
  rw [at?_put _ inside, if_neg away]
  exact found

structure GainsFolders (tree larger : Tree) : Prop where
  keeps : tree.Keeps larger
  folders : ∀ location entry, tree.at? location = none → larger.at? location = some entry →
    entry = .folder

theorem GainsFolders.refl (tree : Tree) : tree.GainsFolders tree where
  keeps := .refl tree
  folders := fun _ _ free found => nomatch free.symm.trans found

theorem GainsFolders.trans (gains : tree.GainsFolders larger) {largest : Tree}
    (gainsOn : larger.GainsFolders largest) : tree.GainsFolders largest where
  keeps := gains.keeps.trans gainsOn.keeps
  folders := by
    intro location entry free found
    cases between : larger.at? location with
    | none => exact gainsOn.folders location entry between found
    | some earlier =>
        obtain rfl := gains.folders location earlier free between
        exact (Option.some.inj ((gainsOn.keeps location _ between).symm.trans found)).symm

theorem gainsFolders_put {location : Location} (inside : location ≠ [])
    (free : tree.at? location = none) : tree.GainsFolders (tree.put location .folder) where
  keeps := keeps_put inside free .folder
  folders := by
    intro place entry missing found
    rw [at?_put _ inside] at found
    split at found
    · exact (Option.some.inj found).symm
    · nomatch missing.symm.trans found

theorem growsTo_put {location : Location} (inside : location ≠ []) {entry : Entry}
    (fits : ∀ old, tree.at? location = some old → entry.shape = old.shape) :
    tree.GrowsTo (tree.put location entry) := by
  intro place old found
  rw [at?_put _ inside]
  by_cases here : place = location
  · subst here
    exact ⟨entry, if_pos rfl, fits old found⟩
  · exact ⟨old, by rw [if_neg here, found], rfl⟩

inductive Persists : Except Errno Landing → Except Errno Landing → Prop
  | missing (later : Except Errno Landing) : Persists (.error .noEntry) later
  | absent (folder : Location) (name : Name) (later : Except Errno Landing) :
      Persists (.ok (.absent folder name)) later
  | present (location : Location) {entry later : Entry} (same : later.shape = entry.shape) :
      Persists (.ok (.present location entry)) (.ok (.present location later))
  | error (errno : Errno) : Persists (.error errno) (.error errno)

theorem GrowsTo.walk (grows : tree.GrowsTo larger) (creating : Bool) (links : Nat)
    (folder : Location) (steps : List Name) :
    Persists (tree.walk creating links folder steps) (larger.walk creating links folder steps) := by
  induction links, folder, steps using walkInduction tree creating with
  | done links folder =>
      rw [walk_nil, walk_nil]
      exact .present folder rfl
  | idle links folder name rest stays ih =>
      rw [walk_idle stays, walk_idle stays]
      exact ih
  | up links folder rest ih =>
      rw [walk_up, walk_up]
      exact ih
  | closing links folder name solid creates =>
      subst creates
      rw [walk_closing solid, walk_closing solid]
      exact .error _
  | refused links folder name rest solid long opens =>
      rw [walk_refused opens solid long, walk_refused opens solid long]
      exact .error _
  | missing links folder name rest proper found opens =>
      rw [walk_missing opens proper found]
      split
      · exact .absent _ _ _
      · exact .missing _
  | file links folder name rest content proper found opens =>
      obtain ⟨bytes, there⟩ := grows.at?_file found
      rw [walk_file opens proper found, walk_file opens proper there]
      split
      · exact .present _ rfl
      · exact .error _
  | enter links folder name rest proper found opens ih =>
      rw [walk_enter opens proper found, walk_enter opens proper (grows.at?_folder found)]
      exact ih
  | stuck folder name rest target proper found opens =>
      rw [walk_stuck opens proper found, walk_stuck opens proper (grows.at?_link found)]
      exact .error _
  | follow links folder name rest target proper found opens ih =>
      rw [walk_follow opens proper found, walk_follow opens proper (grows.at?_link found)]
      exact ih

/-! ## The same folders and links -/

/-- The folder or the link at a location. -/
def frame? (tree : Tree) (location : Location) : Option Entry :=
  match tree.at? location with
  | some (.file _) => none
  | found => found

def SameFrame (tree other : Tree) : Prop := ∀ location, tree.frame? location = other.frame? location

theorem SameFrame.refl (tree : Tree) : tree.SameFrame tree := fun _ => rfl

theorem SameFrame.trans (same : tree.SameFrame other) {another : Tree}
    (sameToo : other.SameFrame another) : tree.SameFrame another :=
  fun location => (same location).trans (sameToo location)

theorem frame?_eq_none_iff {location : Location} :
    tree.frame? location = none ↔
      tree.at? location = none ∨ ∃ content, tree.at? location = some (.file content) := by
  unfold frame?
  match tree.at? location with
  | none => simp
  | some (.file content) => simp
  | some .folder => simp
  | some (.link target) => simp

theorem frame?_eq_some_iff {location : Location} {entry : Entry}
    (solid : ∀ content, entry ≠ .file content) :
    tree.frame? location = some entry ↔ tree.at? location = some entry := by
  unfold frame?
  match tree.at? location with
  | some (.file content) => simpa using (solid content).symm
  | none => rfl
  | some .folder => rfl
  | some (.link target) => rfl

theorem SameFrame.at?_folder (same : tree.SameFrame other) {location : Location}
    (found : tree.at? location = some .folder) : other.at? location = some .folder := by
  rw [← frame?_eq_some_iff (by simp)] at found ⊢
  exact same location ▸ found

theorem SameFrame.at?_link (same : tree.SameFrame other) {location : Location} {target : Text}
    (found : tree.at? location = some (.link target)) :
    other.at? location = some (.link target) := by
  rw [← frame?_eq_some_iff (by simp)] at found ⊢
  exact same location ▸ found

theorem sameFrame_put_file {location : Location} (inside : location ≠ [])
    (free : tree.frame? location = none) (content : Bytes) :
    tree.SameFrame (tree.put location (.file content)) := by
  intro place
  by_cases here : place = location
  · subst here
    rw [free, eq_comm, frame?_eq_none_iff, at?_put _ inside, if_pos rfl]
    exact .inr ⟨content, rfl⟩
  · rw [frame?, frame?, at?_put _ inside, if_neg here]

theorem outline_walk_of_free (opens : Opens creating rest) (proper : name.Proper)
    (free : tree.frame? (name :: folder) = none) :
    (tree.walk creating links folder (name :: rest)).toOption.map Landing.outline =
      if rest = [] then some (name :: folder, false) else none := by
  rcases frame?_eq_none_iff.mp free with found | ⟨content, found⟩
  · rw [walk_missing opens proper found]
    split <;> rfl
  · rw [walk_file opens proper found]
    split <;> rfl

theorem SameFrame.outline_walk (same : tree.SameFrame other) (creating : Bool) (links : Nat)
    (folder : Location) (steps : List Name) :
    (tree.walk creating links folder steps).toOption.map Landing.outline =
      (other.walk creating links folder steps).toOption.map Landing.outline := by
  induction links, folder, steps using walkInduction tree creating with
  | done links folder => rw [walk_nil, walk_nil]
  | idle links folder name rest stays ih =>
      rw [walk_idle stays, walk_idle stays]
      exact ih
  | up links folder rest ih =>
      rw [walk_up, walk_up]
      exact ih
  | closing links folder name solid creates =>
      subst creates
      rw [walk_closing solid, walk_closing solid]
  | refused links folder name rest solid long opens =>
      rw [walk_refused opens solid long, walk_refused opens solid long]
  | missing links folder name rest proper found opens =>
      have free := frame?_eq_none_iff.mpr (.inl found)
      rw [outline_walk_of_free opens proper free,
        outline_walk_of_free opens proper (same _ ▸ free)]
  | file links folder name rest content proper found opens =>
      have free := frame?_eq_none_iff.mpr (.inr ⟨content, found⟩)
      rw [outline_walk_of_free opens proper free,
        outline_walk_of_free opens proper (same _ ▸ free)]
  | enter links folder name rest proper found opens ih =>
      rw [walk_enter opens proper found, walk_enter opens proper (same.at?_folder found)]
      exact ih
  | stuck folder name rest target proper found opens =>
      rw [walk_stuck opens proper found, walk_stuck opens proper (same.at?_link found)]
  | follow links folder name rest target proper found opens ih =>
      rw [walk_follow opens proper found, walk_follow opens proper (same.at?_link found)]
      exact ih

end Tree

end CommandFile
