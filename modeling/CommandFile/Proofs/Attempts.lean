import CommandFile.Operation
import CommandFile.Proofs.NormalForms

/-!
# Attempts

A path that is blank or holds a null character is refused before any call is made.  With
any other path an operation does what its call does.  What a check says is final, unless
it says that something is missing.
-/

namespace CommandFile.Operation

def Callable (path : Text) : Prop := path.isBlank = false ∧ '\x00' ∉ path

instance (path : Text) : Decidable (Callable path) := inferInstanceAs (Decidable (_ ∧ _))

variable {path : Text} {tree larger : Tree}

theorem call_of_callable {α : Type} (callable : Callable path) (result : Except Errno α) :
    call [path] result = result.mapError fun errno => .system (.ofErrno errno [path]) := by
  rw [call, if_neg (by simpa using callable.2)]

theorem eq_ok_of_call {α : Type} {paths : List Text} {result : Except Errno α} {value : α}
    (called : call paths result = .ok value) : result = .ok value := by
  unfold call at called
  split at called
  · nomatch called
  · cases result with
    | ok other => exact congrArg Except.ok (Except.ok.inj called)
    | error errno => nomatch called

theorem eq_ok_of_callUnder {α : Type} {faults : Faults} {kind : Call} {path : Text}
    {others : List Text} {result : Except Errno α} {value : α}
    (called : callUnder faults kind path others result = .ok value) : result = .ok value := by
  unfold callUnder at called
  split at called
  · nomatch called
  · nomatch called
  · exact eq_ok_of_call called

theorem call_of_nul {α : Type} (nul : '\x00' ∈ path) (result : Except Errno α) :
    call [path] result = .error .nulInPath := by
  rw [call, if_pos (by simpa using nul)]

theorem unlessBlank_of_callable {α : Type} (callable : Callable path) (action : String)
    (tree : Tree) (effect : Effect α) : unlessBlank action path tree effect = effect := by
  rw [unlessBlank, if_neg (by simp [callable.1])]

/-! ## Checks -/

@[simp] theorem callUnder_none {α : Type} (kind : Call) (path : Text) (result : Except Errno α) :
    callUnder .none kind path [] result = call [path] result := rfl

theorem checkAccess_of_callable (callable : Callable path) (tree : Tree) :
    (checkAccess .none path tree).answer =
      match tree.status path with
      | .ok _ => .ok true
      | .error errno =>
          if (SystemError.ofErrno errno [path]).isMissing then .ok false
          else .error (.refused "access" path (.ofErrno errno [path])) := by
  rw [checkAccess, unlessBlank_of_callable callable, callUnder_none, call_of_callable callable]
  cases tree.status path with
  | ok entry => rfl
  | error errno =>
      simp only [Except.mapError]
      split <;> rfl

theorem checkAccess_of_not_callable (uncallable : ¬ Callable path) :
    ∃ failure, ∀ tree, (checkAccess .none path tree).answer = .error failure := by
  unfold checkAccess unlessBlank
  cases blank : path.isBlank with
  | true => exact ⟨_, fun tree => rfl⟩
  | false =>
      have nul : '\x00' ∈ path := by simpa [Callable, blank] using uncallable
      refine ⟨.nulInPath, fun tree => ?_⟩
      simp [callUnder_none, call_of_nul nul]

theorem callable_of_checkAccess {present : Bool}
    (checked : (checkAccess .none path tree).answer = .ok present) : Callable path := by
  by_contra uncallable
  obtain ⟨failure, fails⟩ := checkAccess_of_not_callable uncallable
  nomatch (fails tree).symm.trans checked

theorem checkAccess_eq_true_iff (callable : Callable path) :
    (checkAccess .none path tree).answer = .ok true ↔ ∃ entry, tree.status path = .ok entry := by
  rw [checkAccess_of_callable callable]
  cases tree.status path with
  | ok entry => simp
  | error errno =>
      dsimp only
      split <;> simp

theorem checkAccess_of_missing (callable : Callable path)
    (missing : tree.status path = .error .noEntry) :
    (checkAccess .none path tree).answer = .ok false := by
  rw [checkAccess_of_callable callable, missing]
  rfl

theorem screen_of_checkAccess (checked : (checkAccess .none path tree).answer = .ok false) :
    Tree.screen path = .ok () := by
  have callable := callable_of_checkAccess checked
  have named : path ≠ [] := fun none => Bool.false_ne_true (none ▸ callable.1).symm
  by_cases long : Path.tooMany ≤ (Utf8.encode path).length
  · have refused : tree.status path = .error .nameTooLong := by
      rw [Tree.status_eq, Tree.land_eq, Tree.screen, if_neg named, if_pos long]
      rfl
    rw [checkAccess_of_callable callable, refused] at checked
    exact absurd checked (by simp [SystemError.isMissing, SystemError.ofErrno, Errno.number])
  · rw [Tree.screen, if_neg named, if_neg long]

theorem checkAccess_of_growsTo (grows : tree.GrowsTo larger) (path : Text) :
    (checkAccess .none path tree).answer = .ok false ∨
      (checkAccess .none path larger).answer = (checkAccess .none path tree).answer := by
  by_cases callable : Callable path
  · rw [checkAccess_of_callable callable, checkAccess_of_callable callable]
    rcases grows.status path with
      missing | ⟨entry, later, before, after, -⟩ | ⟨errno, before, after⟩
    · rw [missing]
      exact .inl rfl
    · rw [before, after]
      exact .inr rfl
    · rw [before, after]
      exact .inr rfl
  · obtain ⟨failure, fails⟩ := checkAccess_of_not_callable callable
    exact .inr ((fails larger).trans (fails tree).symm)

/-! ## Changes -/

/-- An effect that is due to one call on a path, if that call can be made. -/
def IsAttempt (path : Text) (tree : Tree) (result : Except Errno Tree) (effect : Effect Unit) :
    Prop :=
  (Callable path ∧ result = .ok effect.tree ∧ effect.answer = .ok ()) ∨
    ((Callable path → ∃ errno, result = .error errno) ∧ effect.tree = tree ∧
      ∃ failure, effect.answer = .error failure)

theorem isAttempt_change (action : String) (wording : Wording) (path : Text) (tree : Tree)
    (result : Except Errno Tree) :
    IsAttempt path tree result
      (unlessBlank action path tree (change wording path tree (call [path] result))) := by
  by_cases callable : Callable path
  · rw [unlessBlank_of_callable callable, call_of_callable callable]
    cases result with
    | ok after => exact .inl ⟨callable, rfl, rfl⟩
    | error errno => exact .inr ⟨fun _ => ⟨errno, rfl⟩, rfl, _, rfl⟩
  · refine .inr ⟨fun here => absurd here callable, ?_⟩
    unfold unlessBlank
    split
    · exact ⟨rfl, _, rfl⟩
    · next named =>
        have some : path.isBlank = false := by simpa using named
        have nul : '\x00' ∈ path := by simpa [Callable, some] using callable
        rw [call_of_nul nul]
        exact ⟨rfl, _, rfl⟩

theorem isAttempt_createFile (path : Text) (tree : Tree) :
    IsAttempt path tree (tree.makeFile path) (createFile .none path tree) :=
  isAttempt_change _ _ _ _ _

def written (append : Bool) (old new : Bytes) : Bytes := if append then old ++ new else new

theorem isAttempt_writeFile (path content : Text) (append : Bool) (tree : Tree) :
    IsAttempt path tree
      (tree.changeFile path fun old => written append old (Utf8.encode content))
      (writeFile .none path content append tree) := by
  cases append <;> exact isAttempt_change _ _ _ _ _

theorem createFile_cases (path : Text) (tree : Tree) :
    let effect := createFile .none path tree
    (∃ location, Callable path ∧ tree.place? path = some location ∧ location ≠ [] ∧
      tree.at? location = none ∧ effect.tree = tree.put location (.file []) ∧
      effect.answer = .ok ()) ∨
    ((Callable path → ∀ location, tree.place? path = some location → tree.at? location ≠ none) ∧
      effect.tree = tree ∧ ∃ failure, effect.answer = .error failure) := by
  intro effect
  rcases isAttempt_createFile path tree with ⟨callable, makes, answer⟩ | ⟨refused, last, fails⟩
  · rcases tree.makeFile_cases path with
      ⟨location, placed, inside, free, made⟩ | ⟨-, errno, refused⟩
    · exact .inl ⟨location, callable, placed, inside, free,
        Except.ok.inj (makes.symm.trans made), answer⟩
    · nomatch makes.symm.trans refused
  · refine .inr ⟨fun callable location placed free => ?_, last, fails⟩
    obtain ⟨errno, refusal⟩ := refused callable
    rcases tree.makeFile_cases path with ⟨_, _, _, _, made⟩ | ⟨taken, -⟩
    · nomatch refusal.symm.trans made
    · exact taken location placed free

theorem writeFile_cases (path content : Text) (append : Bool) (tree : Tree) :
    let effect := writeFile .none path content append tree
    (∃ location old, Callable path ∧ tree.goal? path = some location ∧ location ≠ [] ∧
      (tree.at? location = none ∧ old = [] ∨ tree.at? location = some (.file old)) ∧
      effect.tree = tree.put location (.file (written append old (Utf8.encode content))) ∧
      effect.answer = .ok ()) ∨
    ((Callable path → tree.goal? path = none) ∧ effect.tree = tree ∧
      ∃ failure, effect.answer = .error failure) := by
  intro effect
  rcases isAttempt_writeFile path content append tree with
    ⟨callable, writes, answer⟩ | ⟨refused, last, fails⟩
  · rcases tree.changeFile_cases path fun old => written append old (Utf8.encode content) with
      ⟨location, old, goal, inside, before, changed⟩ | ⟨-, errno, refused⟩
    · exact .inl ⟨location, old, callable, goal, inside, before,
        Except.ok.inj (writes.symm.trans changed), answer⟩
    · nomatch writes.symm.trans refused
  · refine .inr ⟨fun callable => ?_, last, fails⟩
    obtain ⟨errno, refusal⟩ := refused callable
    rcases tree.changeFile_cases path fun old => written append old (Utf8.encode content) with
      ⟨_, _, _, _, _, changed⟩ | ⟨nowhere, -⟩
    · nomatch refusal.symm.trans changed
    · exact nowhere

/-! ## Reading -/

theorem nul_normalize_iff : '\x00' ∈ Path.normalize path ↔ '\x00' ∈ path := by
  refine ⟨fun inside => ?_, fun inside => Path.mem_normalize inside (by decide) (by decide)⟩
  rcases Path.normalize_cases path with dot | ⟨-, less⟩
  · rw [dot] at inside
    exact absurd inside (by decide)
  · exact less.subset inside

theorem documentAt_of_file {charset : Text} {document : Document} {bytes : Bytes}
    (named : '\x00' ∉ path) (spelled : '\x00' ∉ charset)
    (found : tree.status path = .ok (.file bytes))
    (read : Charset.read charset bytes = .ok document) :
    documentAt (Path.normalize path) charset tree = .ok document.unifyLineBreaks := by
  have content : tree.contentAt (Path.normalize path) = .ok bytes := by
    rw [Tree.contentAt, Tree.status_normalize_of_file found]
    rfl
  have called : call [Path.normalize path] (tree.contentAt (Path.normalize path)) = .ok bytes := by
    rw [call, if_neg (by simpa [nul_normalize_iff] using named), content]
    rfl
  rw [documentAt, if_neg (by simpa using spelled), called]
  simp only [read]

/-! ## What operations keep -/

theorem change_cases (wording : Wording) (path : Text) (tree : Tree)
    (result : Except Failure Tree) :
    let effect := change wording path tree result
    (effect.answer = .ok () ∧ result = .ok effect.tree) ∨
      ((∃ failure, effect.answer = .error failure) ∧ effect.tree = tree) := by
  cases result with
  | ok after => exact .inl ⟨rfl, rfl⟩
  | error failure => exact .inr ⟨⟨_, rfl⟩, rfl⟩

theorem createFile_cases_of_faults (faults : Faults) (path : Text) (tree : Tree) :
    let effect := createFile faults path tree
    (effect.answer = .ok () ∧ tree.makeFile path = .ok effect.tree) ∨
      ((∃ failure, effect.answer = .error failure) ∧ effect.tree = tree) := by
  unfold createFile unlessBlank
  split
  · exact .inr ⟨⟨_, rfl⟩, rfl⟩
  · exact (change_cases _ _ _ _).imp_left fun ⟨answer, made⟩ => ⟨answer, eq_ok_of_callUnder made⟩

theorem changeFile_of_putInto {faults : Faults} {append : Bool} {bytes : Bytes} {left : Tree}
    (opened : putInto faults path append tree bytes = .ok left) :
    tree.changeFile path (fun old => written append old bytes) = .ok left := by
  cases append <;> exact eq_ok_of_callUnder opened

/-- A write or an append is carried out, or it changes nothing, or it is broken off when the
file has been opened. -/
theorem writeFile_cases_of_faults (faults : Faults) (path content : Text) (append : Bool)
    (tree : Tree) :
    let effect := writeFile faults path content append tree
    let bytes := Utf8.encode content
    (effect.answer = .ok () ∧
      tree.changeFile path (fun old => written append old bytes) = .ok effect.tree) ∨
    ((∃ failure, effect.answer = .error failure) ∧
      (effect.tree = tree ∨ ∃ count failure,
        faults.shortfall? path content = some (count, failure) ∧
        tree.changeFile path (fun old => written append old (bytes.take count)) =
          .ok effect.tree)) := by
  intro effect bytes
  unfold effect writeFile
  dsimp only
  by_cases blank : path.isBlank = true
  · rw [unlessBlank, if_pos blank]
    exact .inr ⟨⟨_, rfl⟩, .inl rfl⟩
  rw [unlessBlank, if_neg blank]
  cases short : faults.shortfall? path content with
  | none =>
      rcases change_cases _ path tree (putInto faults path append tree bytes) with
        ⟨answer, done⟩ | ⟨fails, same⟩
      · exact .inl ⟨answer, changeFile_of_putInto done⟩
      · exact .inr ⟨fails, .inl same⟩
  | some shortfall =>
      obtain ⟨count, failure⟩ := shortfall
      cases opened : putInto faults path append tree ((Utf8.encode content).take count) with
      | error refusal =>
          simp only [opened]
          exact .inr ⟨⟨_, rfl⟩, .inl rfl⟩
      | ok left =>
          simp only [opened]
          exact .inr ⟨⟨_, rfl⟩, .inr ⟨count, failure, rfl, changeFile_of_putInto opened⟩⟩

theorem keeps_createFile (faults : Faults) (path : Text) (tree : Tree) :
    tree.Keeps (createFile faults path tree).tree := by
  rcases createFile_cases_of_faults faults path tree with ⟨-, made⟩ | ⟨-, same⟩
  · rcases tree.makeFile_cases path with ⟨location, -, inside, free, makes⟩ | ⟨-, errno, refused⟩
    · rw [← Except.ok.inj (makes.symm.trans made)]
      exact Tree.keeps_put inside free _
    · nomatch made.symm.trans refused
  · rw [same]
    exact .refl tree

theorem createFolder_of_callable (callable : Callable path) (tree : Tree) :
    let effect := createFolder .none path true tree
    let making := tree.ensureFolders (Path.parse path)
    effect.tree = making.tree ∧ (effect.answer = .ok () ↔ making.refusal? = none) := by
  intro effect making
  have plain : !path.contains '\x00' := by simpa using callable.2
  unfold effect making createFolder
  dsimp only
  rw [unlessBlank_of_callable callable, Bool.true_and, if_pos plain, Faults.bars_none]
  cases refusal : (tree.ensureFolders (Path.parse path)).refusal? with
  | none => simp [change, Faults.none]
  | some refused => simp [change, Faults.none]

theorem gainsFolders_change {before : Tree} {result : Except Failure Tree} (wording : Wording)
    (path : Text) (gains : before.GainsFolders tree)
    (made : ∀ after, result = .ok after → before.GainsFolders after) :
    before.GainsFolders (change wording path tree result).tree := by
  cases result with
  | ok after => exact made after rfl
  | error failure => exact gains

theorem gainsFolders_createFolder (faults : Faults) (path : Text) (parents : Bool) (tree : Tree) :
    tree.GainsFolders (createFolder faults path parents tree).tree := by
  have ensures := Tree.gainsFolders_ensureFolders faults.bars tree (Path.parse path)
  unfold createFolder unlessBlank
  dsimp only
  split
  · exact .refl tree
  split
  · exact gainsFolders_change _ _ (.refl tree) nofun
  split
  · apply gainsFolders_change _ _ ensures
    intro after made
    split at made
    · obtain rfl := Except.ok.inj made
      exact ensures
    · nomatch made
  · apply gainsFolders_change _ _ (.refl tree)
    exact fun after made => Tree.gainsFolders_tryFolder (eq_ok_of_call made)

end CommandFile.Operation
