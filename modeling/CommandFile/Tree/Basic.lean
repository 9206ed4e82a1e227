import CommandFile.Text.Utf8

/-!
# File trees

A tree maps locations to entries.  The root is always a folder, and it is the working
directory.  `at?` is the view of a tree: every change is described by what it does to
`at?`.
-/

namespace CommandFile

abbrev Name := Text

/-- The names from an entry up to the root, the entry's own name first.  The root is
the empty location, and the folder that holds an entry is the tail. -/
abbrev Location := List Name

inductive Entry
  | folder
  | file (content : Bytes)
  | link (target : Text)
deriving DecidableEq, Repr

structure Tree where
  entries : List (Location × Entry)
deriving DecidableEq, Repr

namespace Location

def isBelow (location folder : Location) : Bool :=
  folder.isSuffixOf location && location.length ≠ folder.length

theorem isBelow_iff {location folder : Location} :
    location.isBelow folder ↔ folder <:+ location ∧ location ≠ folder := by
  rw [isBelow, Bool.and_eq_true, List.isSuffixOf_iff_suffix, decide_eq_true_eq]
  refine and_congr_right fun above => not_congr ⟨fun same => ?_, congrArg List.length⟩
  exact (above.eq_of_length same.symm).symm

def pathText (location : Location) : Text := Text.join ['/'] location.reverse

end Location

namespace Tree

def empty : Tree := ⟨[]⟩

def at? (tree : Tree) : Location → Option Entry
  | [] => some .folder
  | name :: folder => tree.entries.lookup (name :: folder)

def put (tree : Tree) (location : Location) (entry : Entry) : Tree :=
  match tree.entries.lookup location with
  | some _ =>
      ⟨tree.entries.map fun item =>
        if item.1 = location then (location, entry) else item⟩
  | none => ⟨tree.entries ++ [(location, entry)]⟩

def remove (tree : Tree) (location : Location) : Tree :=
  ⟨tree.entries.filter fun item => item.1 ≠ location⟩

/-- Takes away everything below a folder; the folder stays. -/
def removeBelow (tree : Tree) (folder : Location) : Tree :=
  ⟨tree.entries.filter fun item => !Location.isBelow item.1 folder⟩

def isEmptyAt (tree : Tree) (folder : Location) : Bool :=
  !tree.entries.any fun item => Location.isBelow item.1 folder

/-- Takes an entry and all that is below it to a free location. -/
def move (tree : Tree) (source destination : Location) : Tree :=
  ⟨tree.entries.map fun item =>
    if source.isSuffixOf item.1 then
      (item.1.take (item.1.length - source.length) ++ destination, item.2)
    else item⟩

def listing (tree : Tree) : List (Text × Entry) :=
  (tree.entries.map fun item => (item.1.pathText, item.2)).mergeSort fun left right =>
    Text.le left.1 right.1

@[simp] theorem at?_root (tree : Tree) : tree.at? [] = some .folder := rfl

theorem at?_eq_lookup (tree : Tree) {location : Location} (inside : location ≠ []) :
    tree.at? location = tree.entries.lookup location := by
  cases location with
  | nil => contradiction
  | cons name folder => rfl

theorem lookup_cons_eq (key : Location) (value : Entry) (rest : List (Location × Entry))
    (location : Location) :
    ((key, value) :: rest).lookup location =
      if location = key then some value else rest.lookup location := by
  by_cases same : location = key
  · subst same
    simp
  · have different : (location == key) = false := by simpa using same
    simp only [List.lookup_cons, different, if_neg same]

theorem lookup_map_replace (location other : Location) (entry : Entry) :
    ∀ entries : List (Location × Entry),
      (entries.map fun item => if item.1 = location then (location, entry) else item).lookup
          other =
        if other = location then (entries.lookup location).map fun _ => entry
        else entries.lookup other
  | [] => by simp
  | (key, value) :: rest => by
      have ih := lookup_map_replace location other entry rest
      simp only [List.map_cons, lookup_cons_eq]
      by_cases same : key = location
      · subst same
        by_cases here : other = key <;> simp [lookup_cons_eq, here, ih]
      · by_cases here : other = location
        · subst here
          have different : ¬ other = key := fun equal => same equal.symm
          simp [lookup_cons_eq, same, different, ih]
        · simp [lookup_cons_eq, same, here, ih]

theorem lookup_filter (keep : Location → Bool) (location : Location) :
    ∀ entries : List (Location × Entry),
      (entries.filter fun item => keep item.1).lookup location =
        if keep location then entries.lookup location else none
  | [] => by simp
  | (key, value) :: rest => by
      have ih := lookup_filter keep location rest
      cases kept : keep key with
      | false =>
          rw [List.filter_cons_of_neg (by simp [kept]), ih, lookup_cons_eq]
          by_cases here : location = key <;> simp [here, kept]
      | true =>
          rw [List.filter_cons_of_pos (by simp [kept]), lookup_cons_eq, ih, lookup_cons_eq]
          by_cases here : location = key <;> simp [here, kept]

theorem lookup_append_single (location other : Location) (entry : Entry) :
    ∀ entries : List (Location × Entry), entries.lookup location = none →
      (entries ++ [(location, entry)]).lookup other =
        if other = location then some entry else entries.lookup other
  | [], _ => by simp [lookup_cons_eq]
  | (key, value) :: rest, free => by
      rw [lookup_cons_eq] at free
      by_cases same : location = key
      · simp [same] at free
      · rw [if_neg same] at free
        rw [List.cons_append, lookup_cons_eq, lookup_cons_eq,
          lookup_append_single location other entry rest free]
        by_cases here : other = location
        · subst here
          simp [same]
        · simp [here]

theorem at?_put (tree : Tree) {location : Location} (inside : location ≠ [])
    (entry : Entry) (other : Location) :
    (tree.put location entry).at? other =
      if other = location then some entry else tree.at? other := by
  by_cases root : other = []
  · subst root
    have away : ¬ ([] : Location) = location := fun equal => inside equal.symm
    simp [away]
  · rw [at?_eq_lookup _ root, at?_eq_lookup _ root, put]
    split
    · next present => simp [lookup_map_replace, present]
    · next free => rw [lookup_append_single _ _ _ _ free]

theorem at?_remove (tree : Tree) {location : Location} (inside : location ≠ [])
    (other : Location) :
    (tree.remove location).at? other =
      if other = location then none else tree.at? other := by
  by_cases root : other = []
  · subst root
    have away : ¬ ([] : Location) = location := fun equal => inside equal.symm
    simp [away]
  · have kept := lookup_filter (fun place => decide (place ≠ location)) other tree.entries
    rw [at?_eq_lookup _ root, at?_eq_lookup _ root, remove, kept]
    by_cases here : other = location <;> simp [here]

theorem at?_removeBelow (tree : Tree) (folder other : Location) :
    (tree.removeBelow folder).at? other =
      if other.isBelow folder then none else tree.at? other := by
  by_cases root : other = []
  · subst root
    have outside : ¬ Location.isBelow [] folder := fun below =>
      have ⟨above, apart⟩ := Location.isBelow_iff.mp below
      apart (List.suffix_nil.mp above).symm
    rw [if_neg outside, at?_root, at?_root]
  · have kept := lookup_filter (fun place => !place.isBelow folder) other tree.entries
    rw [at?_eq_lookup _ root, at?_eq_lookup _ root, removeBelow, kept]
    cases other.isBelow folder <;> rfl

end Tree

end CommandFile
