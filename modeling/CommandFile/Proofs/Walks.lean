import CommandFile.Tree.Calls

/-!
# Walks

A walk takes the steps of a path one at a time.  Each kind of step has its equation, and
an induction on walks has one case for each kind.  A walk along joined steps stops among
the first ones, or it comes through them to a folder and goes on from there.
-/

namespace CommandFile

namespace Name

def Idle (name : Name) : Prop := name = [] ∨ name = here

instance (name : Name) : Decidable name.Idle := inferInstanceAs (Decidable (_ ∨ _))

def Solid (name : Name) : Prop := ¬ name.Idle ∧ name ≠ up

def Proper (name : Name) : Prop := name.Solid ∧ name.tooLong = false

end Name

/-- The rest of the steps is no mere slash behind a name that may be created. -/
def Opens (creating : Bool) (rest : List Name) : Prop := ¬ (creating = true ∧ rest = [[]])

theorem opens_false (rest : List Name) : Opens false rest := fun closes => nomatch closes.1

/-- What a slash behind the path makes of a landing. -/
def Landing.closed : Landing → Except Errno Landing
  | .absent _ _ => .error .noEntry
  | .present location .folder => .ok (.present location .folder)
  | .present _ _ => .error .notFolder

namespace Tree

variable {tree : Tree} {creating : Bool} {links : Nat} {folder : Location} {name : Name}
  {rest : List Name}

/-! ## Single steps -/

@[simp] theorem walk_nil : tree.walk creating links folder [] = .ok (.present folder .folder) := by
  rw [walk]
  rfl

theorem walk_idle (idle : name.Idle) (rest : List Name) :
    tree.walk creating links folder (name :: rest) = tree.walk creating links folder rest := by
  have skips : tree.descend creating folder (name :: rest) = tree.descend creating folder rest := by
    cases rest with
    | nil => simp [descend, show name = [] ∨ name = Name.here from idle]
    | cons next rest => simp [descend, show name = [] ∨ name = Name.here from idle]
  rw [walk, walk, skips]

theorem walk_up (rest : List Name) :
    tree.walk creating links folder (Name.up :: rest) =
      tree.walk creating links folder.tail rest := by
  have climbs : tree.descend creating folder (Name.up :: rest) =
      tree.descend creating folder.tail rest := by
    cases rest <;> simp [descend, Name.up, Name.here]
  rw [walk, walk, climbs]

theorem walk_closing (solid : name.Solid) :
    tree.walk true links folder [name, []] = .error .isFolder := by
  have other : ¬ (name = [] ∨ name = Name.here) := solid.1
  rw [walk]
  simp [descend, other, solid.2]

theorem walk_solid (solid : name.Solid) (opens : Opens creating rest) :
    tree.walk creating links folder (name :: rest) =
      if name.tooLong then .error .nameTooLong
      else
        match tree.at? (name :: folder) with
        | none => if rest = [] then .ok (.absent folder name) else .error .noEntry
        | some (.file content) =>
            if rest = [] then .ok (.present (name :: folder) (.file content))
            else .error .notFolder
        | some .folder => tree.walk creating links (name :: folder) rest
        | some (.link target) =>
            match links with
            | 0 => .error .tooManyLinks
            | links + 1 =>
                tree.walk creating links (startOf folder target) (Path.steps target ++ rest) := by
  have other : ¬ (name = [] ∨ name = Name.here) := solid.1
  conv => lhs; rw [walk]
  cases rest with
  | nil =>
      simp only [descend, Bool.or_eq_true, decide_eq_true_eq, other, if_false, solid.2, lookUp]
      by_cases long : name.tooLong = true
      · simp [long]
      · simp only [long]
        cases found : tree.at? (name :: folder) with
        | none => rfl
        | some entry =>
            cases entry with
            | folder => simp [walk_nil]
            | file content => rfl
            | link target => cases links <;> simp
  | cons next rest =>
      have inside : ¬ (creating && decide (next = []) && decide (rest = [])) = true := by
        intro closes
        simp only [Bool.and_eq_true, decide_eq_true_eq] at closes
        exact opens ⟨closes.1.1, by rw [closes.1.2, closes.2]⟩
      simp only [descend, Bool.or_eq_true, decide_eq_true_eq, other, if_false, solid.2, lookUp,
        inside]
      by_cases long : name.tooLong = true
      · simp [long]
      · simp only [long]
        cases found : tree.at? (name :: folder) with
        | none => rfl
        | some entry =>
            cases entry with
            | folder =>
                simp only [Bool.false_eq_true, if_false]
                rw [walk]
            | file content => rfl
            | link target => rfl

section Equations

variable (opens : Opens creating rest)
include opens

theorem walk_refused (solid : name.Solid) (long : name.tooLong = true) :
    tree.walk creating links folder (name :: rest) = .error .nameTooLong := by
  rw [walk_solid solid opens, if_pos long]

theorem walk_missing (proper : name.Proper) (missing : tree.at? (name :: folder) = none) :
    tree.walk creating links folder (name :: rest) =
      if rest = [] then .ok (.absent folder name) else .error .noEntry := by
  simp [walk_solid proper.1 opens, proper.2, missing]

theorem walk_file (proper : name.Proper) {content : Bytes}
    (found : tree.at? (name :: folder) = some (.file content)) :
    tree.walk creating links folder (name :: rest) =
      if rest = [] then .ok (.present (name :: folder) (.file content))
      else .error .notFolder := by
  simp [walk_solid proper.1 opens, proper.2, found]

theorem walk_enter (proper : name.Proper) (found : tree.at? (name :: folder) = some .folder) :
    tree.walk creating links folder (name :: rest) =
      tree.walk creating links (name :: folder) rest := by
  simp [walk_solid proper.1 opens, proper.2, found]

theorem walk_stuck (proper : name.Proper) {target : Text}
    (found : tree.at? (name :: folder) = some (.link target)) :
    tree.walk creating 0 folder (name :: rest) = .error .tooManyLinks := by
  simp [walk_solid proper.1 opens, proper.2, found]

theorem walk_follow (proper : name.Proper) {target : Text}
    (found : tree.at? (name :: folder) = some (.link target)) :
    tree.walk creating (links + 1) folder (name :: rest) =
      tree.walk creating links (startOf folder target) (Path.steps target ++ rest) := by
  simp [walk_solid proper.1 opens, proper.2, found]

end Equations

/-- Induction along a walk, with one case for each kind of step. -/
theorem walkInduction (tree : Tree) (creating : Bool) {motive : Nat → Location → List Name → Prop}
    (done : ∀ links folder, motive links folder [])
    (idle : ∀ links folder name rest, name.Idle → motive links folder rest →
      motive links folder (name :: rest))
    (up : ∀ links folder rest, motive links folder.tail rest →
      motive links folder (Name.up :: rest))
    (closing : ∀ links folder name, name.Solid → creating = true →
      motive links folder [name, []])
    (refused : ∀ links folder name rest, name.Solid → name.tooLong = true →
      Opens creating rest → motive links folder (name :: rest))
    (missing : ∀ links folder name rest, name.Proper → tree.at? (name :: folder) = none →
      Opens creating rest → motive links folder (name :: rest))
    (file : ∀ links folder name rest content, name.Proper →
      tree.at? (name :: folder) = some (.file content) → Opens creating rest →
      motive links folder (name :: rest))
    (enter : ∀ links folder name rest, name.Proper → tree.at? (name :: folder) = some .folder →
      Opens creating rest → motive links (name :: folder) rest →
      motive links folder (name :: rest))
    (stuck : ∀ folder name rest target, name.Proper →
      tree.at? (name :: folder) = some (.link target) → Opens creating rest →
      motive 0 folder (name :: rest))
    (follow : ∀ links folder name rest target, name.Proper →
      tree.at? (name :: folder) = some (.link target) → Opens creating rest →
      motive links (startOf folder target) (Path.steps target ++ rest) →
      motive (links + 1) folder (name :: rest))
    (links : Nat) (folder : Location) (steps : List Name) : motive links folder steps := by
  -- Between two links the steps get fewer; behind a link they can get more, but the links
  -- that may still be followed get fewer.
  have between (links : Nat)
      (jump : ∀ folder name rest target, name.Proper →
        tree.at? (name :: folder) = some (.link target) → Opens creating rest →
        motive links folder (name :: rest))
      (steps : List Name) (folder : Location) : motive links folder steps := by
    induction steps generalizing folder with
    | nil => exact done links folder
    | cons name rest ih =>
        by_cases stays : name.Idle
        · exact idle links folder name rest stays (ih folder)
        by_cases climbs : name = Name.up
        · subst climbs
          exact up links folder rest (ih folder.tail)
        have solid : name.Solid := ⟨stays, climbs⟩
        by_cases closes : creating = true ∧ rest = [[]]
        · obtain ⟨creates, rfl⟩ := closes
          exact closing links folder name solid creates
        cases long : name.tooLong with
        | true => exact refused links folder name rest solid long closes
        | false =>
            have proper : name.Proper := ⟨solid, long⟩
            match found : tree.at? (name :: folder) with
            | none => exact missing links folder name rest proper found closes
            | some (.file content) => exact file links folder name rest content proper found closes
            | some .folder => exact enter links folder name rest proper found closes (ih _)
            | some (.link target) => exact jump folder name rest target proper found closes
  induction links generalizing folder steps with
  | zero => exact between 0 stuck steps folder
  | succ links ih =>
      exact between (links + 1)
        (fun folder name rest target proper found opens =>
          follow links folder name rest target proper found opens (ih _ _))
        steps folder

/-! ## Joined steps -/

def Further (creating : Bool) (more : List Name) : Prop :=
  more ≠ [] ∧ Opens creating more

theorem Further.ne_nil {more : List Name} (further : Further creating more) (rest : List Name) :
    rest ++ more ≠ [] :=
  List.append_ne_nil_of_right_ne_nil rest further.1

theorem Further.opens {more : List Name} (further : Further creating more) (rest : List Name) :
    Opens creating (rest ++ more) := by
  rintro ⟨creates, single⟩
  rcases List.append_eq_singleton_iff.mp single with ⟨-, last⟩ | ⟨-, none⟩
  · exact further.2 ⟨creates, last⟩
  · exact further.1 none

theorem further_of_not_creating {more : List Name} (some : more ≠ []) : Further false more :=
  ⟨some, opens_false more⟩

/-- A walk stops among its first steps, or it comes through them to a folder.  Which of
them it is depends neither on the further steps nor on whether it may create. -/
theorem walk_append (tree : Tree) (links : Nat) (folder : Location) (names : List Name) :
    (∃ errno, ∀ creating more, Further creating more →
      tree.walk creating links folder (names ++ more) = .error errno) ∨
    ∃ left reached, ∀ creating more, Further creating more →
      tree.walk creating links folder (names ++ more) = tree.walk creating left reached more := by
  induction links, folder, names using walkInduction tree false with
  | done links folder => exact .inr ⟨links, folder, fun _ _ _ => rfl⟩
  | idle links folder name rest stays ih => simpa only [List.cons_append, walk_idle stays] using ih
  | up links folder rest ih => simpa only [List.cons_append, walk_up] using ih
  | closing links folder name solid creates => nomatch creates
  | refused links folder name rest solid long opens =>
      exact .inl ⟨_, fun creating more further => walk_refused (further.opens rest) solid long⟩
  | missing links folder name rest proper found opens =>
      refine .inl ⟨.noEntry, fun creating more further => ?_⟩
      rw [List.cons_append, walk_missing (further.opens rest) proper found,
        if_neg (further.ne_nil rest)]
  | file links folder name rest content proper found opens =>
      refine .inl ⟨.notFolder, fun creating more further => ?_⟩
      rw [List.cons_append, walk_file (further.opens rest) proper found,
        if_neg (further.ne_nil rest)]
  | enter links folder name rest proper found opens ih =>
      refine ih.imp ?_ ?_
      · rintro ⟨errno, stops⟩
        refine ⟨errno, fun creating more further => ?_⟩
        rw [List.cons_append, walk_enter (further.opens rest) proper found]
        exact stops creating more further
      · rintro ⟨left, reached, comes⟩
        refine ⟨left, reached, fun creating more further => ?_⟩
        rw [List.cons_append, walk_enter (further.opens rest) proper found]
        exact comes creating more further
  | stuck folder name rest target proper found opens =>
      exact .inl ⟨_, fun creating more further =>
        walk_stuck (further.opens rest) proper found⟩
  | follow links folder name rest target proper found opens ih =>
      refine ih.imp ?_ ?_
      · rintro ⟨errno, stops⟩
        refine ⟨errno, fun creating more further => ?_⟩
        rw [List.cons_append, walk_follow (further.opens rest) proper found,
          ← List.append_assoc]
        exact stops creating more further
      · rintro ⟨left, reached, comes⟩
        refine ⟨left, reached, fun creating more further => ?_⟩
        rw [List.cons_append, walk_follow (further.opens rest) proper found,
          ← List.append_assoc]
        exact comes creating more further

theorem walk_idles {idles : List Name} (stay : ∀ name ∈ idles, name.Idle) (more : List Name) :
    tree.walk creating links folder (idles ++ more) = tree.walk creating links folder more := by
  induction idles with
  | nil => rfl
  | cons name idles ih =>
      obtain ⟨here, later⟩ := List.forall_mem_cons.mp stay
      rw [List.cons_append, walk_idle here, ih later]

theorem walk_of_idle {idles : List Name} (stay : ∀ name ∈ idles, name.Idle) :
    tree.walk creating links folder idles = .ok (.present folder .folder) := by
  rw [← List.append_nil idles, walk_idles stay, walk_nil]

/-- Idle steps at the end ask for a folder. -/
theorem walk_closed {idles : List Name} (some : idles ≠ []) (stay : ∀ name ∈ idles, name.Idle)
    (links : Nat) (folder : Location) (names : List Name) :
    tree.walk false links folder (names ++ idles) =
      (tree.walk false links folder names).bind Landing.closed := by
  have further := further_of_not_creating some
  induction links, folder, names using walkInduction tree false with
  | done links folder =>
      rw [List.nil_append, walk_of_idle stay, walk_nil]
      rfl
  | idle links folder name rest stays ih => simpa only [List.cons_append, walk_idle stays] using ih
  | up links folder rest ih => simpa only [List.cons_append, walk_up] using ih
  | closing links folder name solid creates => nomatch creates
  | refused links folder name rest solid long opens =>
      rw [List.cons_append, walk_refused (further.opens rest) solid long,
        walk_refused opens solid long]
      rfl
  | missing links folder name rest proper found opens =>
      rw [List.cons_append, walk_missing (further.opens rest) proper found,
        walk_missing opens proper found, if_neg (further.ne_nil rest)]
      split <;> rfl
  | file links folder name rest content proper found opens =>
      rw [List.cons_append, walk_file (further.opens rest) proper found,
        walk_file opens proper found, if_neg (further.ne_nil rest)]
      split <;> rfl
  | enter links folder name rest proper found opens ih =>
      rw [List.cons_append, walk_enter (further.opens rest) proper found,
        walk_enter opens proper found]
      exact ih
  | stuck folder name rest target proper found opens =>
      rw [List.cons_append, walk_stuck (further.opens rest) proper found,
        walk_stuck opens proper found]
      rfl
  | follow links folder name rest target proper found opens ih =>
      rw [List.cons_append, walk_follow (further.opens rest) proper found,
        walk_follow opens proper found, ← List.append_assoc]
      exact ih

def telling (names : List Name) : List Name := names.filter fun name => ¬ name.Idle

theorem exists_of_telling_eq_cons {others later : List Name}
    (told : telling others = name :: later) :
    ∃ idles rest, others = idles ++ name :: rest ∧ (∀ idle ∈ idles, idle.Idle) ∧
      telling rest = later := by
  obtain ⟨idles, rest, rfl, stay, -, same⟩ := List.filter_eq_cons_iff.mp told
  exact ⟨idles, rest, rfl, fun idle inside => by simpa using stay idle inside, same⟩

@[simp] theorem telling_append (names others : List Name) :
    telling (names ++ others) = telling names ++ telling others :=
  List.filter_append names others

theorem walk_of_telling {more : List Name} (further : Further creating more)
    (links : Nat) (folder : Location) (names : List Name) {others : List Name}
    (same : telling others = telling names) :
    tree.walk creating links folder (others ++ more) =
      tree.walk creating links folder (names ++ more) := by
  have skip {name : Name} {rest others : List Name} (moves : ¬ name.Idle)
      (same : telling others = telling (name :: rest)) :
      ∃ later, telling later = telling rest ∧ ∀ links folder,
        tree.walk creating links folder (others ++ more) =
          tree.walk creating links folder (name :: (later ++ more)) := by
    rw [telling, telling, List.filter_cons_of_pos (by simpa using moves)] at same
    obtain ⟨idles, later, rfl, stay, told⟩ := exists_of_telling_eq_cons same
    refine ⟨later, told, fun links folder => ?_⟩
    rw [List.append_assoc, walk_idles stay, List.cons_append]
  induction links, folder, names using walkInduction tree false generalizing others with
  | done links folder =>
      have stay : ∀ name ∈ others, name.Idle := by
        simpa [telling, List.filter_eq_nil_iff] using same
      exact walk_idles stay more
  | idle links folder name rest stays ih =>
      rw [List.cons_append, walk_idle stays]
      exact ih (same.trans (List.filter_cons_of_neg (by simpa using stays)))
  | up links folder rest ih =>
      obtain ⟨later, told, moved⟩ := skip (by decide) same
      rw [moved, List.cons_append, walk_up, walk_up]
      exact ih told
  | closing links folder name solid creates => nomatch creates
  | refused links folder name rest solid long opens =>
      obtain ⟨later, -, moved⟩ := skip solid.1 same
      rw [moved, List.cons_append, walk_refused (further.opens later) solid long,
        walk_refused (further.opens rest) solid long]
  | missing links folder name rest proper found opens =>
      obtain ⟨later, -, moved⟩ := skip proper.1.1 same
      rw [moved, List.cons_append, walk_missing (further.opens later) proper found,
        walk_missing (further.opens rest) proper found, if_neg (further.ne_nil later),
        if_neg (further.ne_nil rest)]
  | file links folder name rest content proper found opens =>
      obtain ⟨later, -, moved⟩ := skip proper.1.1 same
      rw [moved, List.cons_append, walk_file (further.opens later) proper found,
        walk_file (further.opens rest) proper found, if_neg (further.ne_nil later),
        if_neg (further.ne_nil rest)]
  | enter links folder name rest proper found opens ih =>
      obtain ⟨later, told, moved⟩ := skip proper.1.1 same
      rw [moved, List.cons_append, walk_enter (further.opens later) proper found,
        walk_enter (further.opens rest) proper found]
      exact ih told
  | stuck folder name rest target proper found opens =>
      obtain ⟨later, -, moved⟩ := skip proper.1.1 same
      rw [moved, List.cons_append, walk_stuck (further.opens later) proper found,
        walk_stuck (further.opens rest) proper found]
  | follow links folder name rest target proper found opens ih =>
      obtain ⟨later, told, moved⟩ := skip proper.1.1 same
      rw [moved, List.cons_append, walk_follow (further.opens later) proper found,
        walk_follow (further.opens rest) proper found, ← List.append_assoc, ← List.append_assoc]
      exact ih (by rw [telling_append, told, telling_append])

/-! ## Where walks end -/

/-- What a walk says of the tree when it ends at a landing. -/
def Fits (tree : Tree) : Landing → Prop
  | .absent folder name => name.Proper ∧ tree.at? (name :: folder) = none
  | .present _ .folder => True
  | .present location (.file content) =>
      location ≠ [] ∧ tree.at? location = some (.file content)
  | .present _ (.link _) => False

theorem fits_of_walk (links : Nat) (folder : Location) (steps : List Name) {landing : Landing}
    (ends : tree.walk creating links folder steps = .ok landing) : tree.Fits landing := by
  induction links, folder, steps using walkInduction tree creating with
  | done links folder =>
      rw [walk_nil] at ends
      obtain rfl := Except.ok.inj ends
      trivial
  | idle links folder name rest stays ih => exact ih (walk_idle stays rest ▸ ends)
  | up links folder rest ih => exact ih (walk_up rest ▸ ends)
  | closing links folder name solid creates =>
      subst creates
      rw [walk_closing solid] at ends
      nomatch ends
  | refused links folder name rest solid long opens =>
      rw [walk_refused opens solid long] at ends
      nomatch ends
  | missing links folder name rest proper found opens =>
      rw [walk_missing opens proper found] at ends
      split at ends
      · obtain rfl := Except.ok.inj ends
        exact ⟨proper, found⟩
      · nomatch ends
  | file links folder name rest content proper found opens =>
      rw [walk_file opens proper found] at ends
      split at ends
      · obtain rfl := Except.ok.inj ends
        exact ⟨List.cons_ne_nil _ _, found⟩
      · nomatch ends
  | enter links folder name rest proper found opens ih =>
      exact ih (walk_enter opens proper found ▸ ends)
  | stuck folder name rest target proper found opens =>
      rw [walk_stuck opens proper found] at ends
      nomatch ends
  | follow links folder name rest target proper found opens ih =>
      exact ih (walk_follow opens proper found ▸ ends)

end Tree

end CommandFile
