import CommandFile.Proofs.Attempts
import CommandFile.Proofs.Settling

/-!
# Failed statements

An operation that fails has changed nothing, but for the two that work through several
places in turn and for a writing that is broken off: to open the file has emptied or made
it.  So the other failed statements of a batch could as well not be in the document.  A blank
path is refused before anything else is looked at.
-/

namespace CommandFile

def Effect.Harmless {α : Type} (tree : Tree) (effect : Effect α) : Prop :=
  ∀ failure, effect.answer = .error failure → effect.tree = tree

/-! ## Operations -/

namespace Operation

variable {tree : Tree}

theorem unlessBlank_of_blank {α : Type} {path : Text} (blank : path.isBlank = true)
    (action : String) (tree : Tree) (effect : Effect α) :
    unlessBlank action path tree effect = ⟨.error (.blankPath action path), tree, []⟩ :=
  if_pos blank

theorem harmless_unlessBlank {α : Type} (action : String) (path : Text) {effect : Effect α}
    (harmless : effect.Harmless tree) :
    (unlessBlank action path tree effect).Harmless tree := by
  unfold unlessBlank
  split
  · exact fun _ _ => rfl
  · exact harmless

theorem harmless_change (wording : Wording) (path : Text) (result : Except Failure Tree) :
    (change wording path tree result).Harmless tree := by
  intro failure answer
  cases result with
  | ok after => nomatch answer
  | error refusal => rfl

theorem harmless_createFile (faults : Faults) (path : Text) :
    (createFile faults path tree).Harmless tree :=
  harmless_unlessBlank _ _ (harmless_change _ _ _)

theorem harmless_deleteFile (faults : Faults) (path : Text) :
    (deleteFile faults path tree).Harmless tree :=
  harmless_unlessBlank _ _ (harmless_change _ _ _)

theorem harmless_deleteFolder (faults : Faults) (path : Text) :
    (deleteFolder faults path tree).Harmless tree :=
  harmless_unlessBlank _ _ (harmless_change _ _ _)

/-- What a writing leaves that has been broken off: so many bytes of the content, in the place
of what was in the file or behind it, and nothing else. -/
def BrokenOff (faults : Faults) (path content : Text) (append : Bool) (tree left : Tree) : Prop :=
  ∃ count failure location old, faults.shortfall? path content = some (count, failure) ∧
    tree.goal? path = some location ∧
    (tree.at? location = none ∧ old = [] ∨ tree.at? location = some (.file old)) ∧
    left = tree.put location (.file (written append old ((Utf8.encode content).take count)))

theorem writeFile_of_failure {faults : Faults} {path content : Text} {append : Bool}
    {failure : Failure}
    (fails : (writeFile faults path content append tree).answer = .error failure) :
    let left := (writeFile faults path content append tree).tree
    left = tree ∨ BrokenOff faults path content append tree left := by
  intro left
  rcases writeFile_cases_of_faults faults path content append tree with
    ⟨done, -⟩ | ⟨-, same | ⟨count, reason, short, opened⟩⟩
  · nomatch fails.symm.trans done
  · exact .inl same
  · rcases tree.changeFile_cases path fun old =>
        written append old ((Utf8.encode content).take count) with
      ⟨location, old, goal, -, before, changed⟩ | ⟨-, errno, refused⟩
    · exact .inr ⟨count, reason, location, old, short, goal, before,
        Except.ok.inj (opened.symm.trans changed)⟩
    · nomatch opened.symm.trans refused

theorem harmless_rename (faults : Faults) (path newPath : Text) :
    (rename faults path newPath tree).Harmless tree :=
  harmless_unlessBlank _ _ (harmless_unlessBlank _ _ (harmless_change _ _ _))

theorem checkAccess_of_blank {path : Text} (blank : path.isBlank = true) (faults : Faults)
    (tree : Tree) : (checkAccess faults path tree).answer = .error (.blankPath "access" path) := by
  rw [checkAccess, unlessBlank_of_blank blank]

end Operation

@[simp] theorem Failure.failedTo_ne_empty (action : String) (path : Text) (reason : String) :
    failedTo action path reason ≠ "" := by
  simp [failedTo, ToString.toString]

theorem Failure.cause_blankPath (action : String) (path : Text) :
    (blankPath action path).cause = failedTo action path "Empty path" :=
  if_neg (failedTo_ne_empty action path "Empty path")

/-! ## Steps of a batch -/

namespace Batch

inductive Steps (faults : Faults) (start : Tree) : Tree → List (Command × Outcome) → Tree → Prop
  | done (tree : Tree) : Steps faults start tree [] tree
  | next {command : Command} {tree last : Tree} {others : List (Command × Outcome)}
      (later : Steps faults start (step faults start command tree).tree others last) :
      Steps faults start tree
        ((command, settle command (step faults start command tree).answer) :: others) last

def fallsShort (faults : Faults) (command : Command) : Bool :=
  match command.kind, command.args with
  | .write, [path, body] => (faults.shortfall? path body).isSome
  | .append, [path, body] => (faults.shortfall? path body).isSome
  | _, _ => false

/-- Whether a statement may leave something: it has not failed, or only when it had opened its
file. -/
def leavesTrace (faults : Faults) (item : Command × Outcome) : Bool :=
  !item.2.isFailed || fallsShort faults item.1

def accomplished (faults : Faults) (commands : List Command) (outcomes : List Outcome) :
    List Command :=
  ((commands.zip outcomes).filter (leavesTrace faults)).map Prod.fst

variable {faults : Faults}

theorem error_of_isFailed {command : Command} {answer : Except Failure Outcome}
    (settles : Settles command answer) (failed : (settle command answer).isFailed = true) :
    ∃ failure, answer = .error failure := by
  cases answer with
  | error failure => exact ⟨failure, rfl⟩
  | ok outcome => exact absurd (of_decide_eq_true failed) (settles.2 outcome rfl).2.2

theorem steps_oneByOne (start : Tree) (commands : List Command) (tree : Tree) :
    Steps faults start tree
      (commands.zip (List.zipWith settle commands
        (oneByOne (step faults start) commands tree).answers))
      (oneByOne (step faults start) commands tree).tree := by
  induction commands generalizing tree with
  | nil => exact .done tree
  | cons command commands ih => exact .next (ih _)

theorem oneByOne_accomplished {start : Tree} {commands : List Command}
    (harmless : ∀ command ∈ commands, ∀ tree,
      leavesTrace faults (command, settle command (step faults start command tree).answer) = false →
        (step faults start command tree).tree = tree) (tree : Tree) :
    let settled := oneByOne (step faults start) commands tree
    let outcomes := List.zipWith settle commands settled.answers
    let others := oneByOne (step faults start) (accomplished faults commands outcomes) tree
    others.tree = settled.tree ∧
      List.zipWith settle (accomplished faults commands outcomes) others.answers =
        ((commands.zip outcomes).filter (leavesTrace faults)).map Prod.snd := by
  induction commands generalizing tree with
  | nil => exact ⟨rfl, rfl⟩
  | cons command commands ih =>
      have later := ih fun other inside => harmless other (List.mem_cons_of_mem _ inside)
      simp only [oneByOne, List.zipWith_cons_cons, accomplished, List.zip_cons_cons,
        List.filter_cons] at later ⊢
      cases traced : leavesTrace faults
          (command, settle command (step faults start command tree).answer) with
      | false =>
          have same := harmless command List.mem_cons_self tree traced
          simpa [same] using later tree
      | true => simpa [oneByOne] using later (step faults start command tree).tree

/-! ## Steps that fail -/

section Harmless

variable {tree : Tree}

theorem harmless_giveUp (failure : Failure) : (giveUp failure tree).Harmless tree :=
  fun _ _ => rfl

theorem harmless_conclude {α : Type} (kind : Kind) (targets : List Text) {effect : Effect α}
    (harmless : effect.Harmless tree) : (conclude kind targets effect).Harmless tree := by
  intro failure answer
  cases own : effect.answer with
  | error refusal => exact harmless refusal own
  | ok value =>
      rw [conclude, own] at answer
      nomatch answer

theorem harmless_withPath (command : Command) {step : Text → Effect Outcome}
    (harmless : ∀ path, (step path).Harmless tree) :
    (withPath command tree step).Harmless tree := by
  unfold withPath
  split
  · exact harmless_giveUp _
  · exact harmless _

theorem harmless_withTwo (command : Command) {step : Text → Text → Effect Outcome}
    (harmless : ∀ first second, (step first second).Harmless tree) :
    (withTwo command tree step).Harmless tree := by
  unfold withTwo
  split
  · exact harmless _ _
  · exact harmless_giveUp _

theorem harmless_create {operation : Text → Tree → Effect Unit}
    (harmless : ∀ path, (operation path tree).Harmless tree)
    (item : Command × Except Failure Bool) : (create operation item tree).Harmless tree := by
  obtain ⟨command, found⟩ := item
  unfold create
  dsimp only
  split
  · exact harmless_giveUp _
  · exact harmless_withPath _ fun path failure answer => by nomatch answer
  · exact harmless_withPath _ fun path => harmless_conclude _ _ (harmless path)

theorem harmless_step {command : Command}
    (single : command.kind ∈ [.createFile, .deleteFile, .deleteFolder, .rename]) (start : Tree) :
    (step faults start command tree).Harmless tree := by
  obtain ⟨kind, args⟩ := command
  cases kind with
  | createFile => exact harmless_create (Operation.harmless_createFile faults) _
  | rename =>
      exact harmless_withTwo _ fun path newPath =>
        harmless_conclude _ _ (Operation.harmless_rename faults path newPath)
  | deleteFile =>
      exact harmless_withPath _ fun path =>
        harmless_conclude _ _ (Operation.harmless_deleteFile faults path)
  | deleteFolder =>
      exact harmless_withPath _ fun path =>
        harmless_conclude _ _ (Operation.harmless_deleteFolder faults path)
  | _ => simp at single

theorem error_of_conclude {α : Type} {kind : Kind} {targets : List Text} {effect : Effect α}
    {failure : Failure} (fails : (conclude kind targets effect).answer = .error failure) :
    effect.answer = .error failure := by
  cases own : effect.answer with
  | error refusal =>
      rw [conclude, own] at fails
      exact congrArg Except.error (Except.error.inj fails)
  | ok value =>
      rw [conclude, own] at fails
      nomatch fails

theorem step_of_failure (append : Bool) {path body : Text} {start : Tree} {failure : Failure}
    (fails : (step faults start ⟨if append then .append else .write, [path, body]⟩ tree).answer =
      .error failure) :
    let left := (step faults start ⟨if append then .append else .write, [path, body]⟩ tree).tree
    left = tree ∨ Operation.BrokenOff faults path body append tree left := by
  cases append with
  | true => exact Operation.writeFile_of_failure (error_of_conclude fails)
  | false => exact Operation.writeFile_of_failure (error_of_conclude fails)

end Harmless

/-! ## Blank paths -/

theorem create_of_blank {path : Text} (blank : path.isBlank = true) (kind : Kind)
    (others : List Text) (operation : Text → Tree → Effect Unit) (start tree : Tree) :
    create operation (⟨kind, path :: others⟩, found faults start ⟨kind, path :: others⟩) tree =
      giveUp (.blankPath "access" path) tree := by
  have refused : found faults start ⟨kind, path :: others⟩ = .error (.blankPath "access" path) :=
    Operation.checkAccess_of_blank blank faults start
  rw [refused]
  rfl

theorem conclude_of_blank {α : Type} {path : Text} (blank : path.isBlank = true) (kind : Kind)
    (targets : List Text) (action : String) (tree : Tree) (effect : Effect α) :
    conclude kind targets (Operation.unlessBlank action path tree effect) =
      giveUp (.blankPath action path) tree := by
  rw [Operation.unlessBlank_of_blank blank]
  rfl

theorem step_of_blank_rename {path newPath : Text}
    (blank : path.isBlank = true ∨ newPath.isBlank = true) (start tree : Tree) :
    ∃ empty ∈ [path, newPath], empty.isBlank = true ∧
      step faults start ⟨.rename, [path, newPath]⟩ tree =
        giveUp (.blankPath "rename" empty) tree := by
  by_cases blankOld : path.isBlank = true
  · exact ⟨path, by simp, blankOld, conclude_of_blank blankOld _ _ _ _ _⟩
  · have blankNew := blank.resolve_left blankOld
    refine ⟨newPath, by simp, blankNew, ?_⟩
    have solid : Operation.rename faults path newPath tree = Operation.unlessBlank _ _ _ _ :=
      if_neg blankOld
    change conclude _ _ (Operation.rename faults path newPath tree) = _
    rw [solid]
    exact conclude_of_blank blankNew _ _ _ _ _

theorem step_of_blank {kind : Kind} {args : List Text}
    (arity : args.length = (Form.ofKind kind).slots.length) {path : Text}
    (target : path ∈ (Command.mk kind args).targets) (blank : path.isBlank = true)
    (faults : Faults) (start tree : Tree) :
    ∃ action, ∃ empty ∈ (Command.mk kind args).targets, empty.isBlank = true ∧
      step faults start ⟨kind, args⟩ tree = giveUp (.blankPath action empty) tree := by
  by_cases rename : kind = .rename
  · subst rename
    obtain ⟨oldPath, newPath, rfl⟩ := List.length_eq_two.mp arity
    have either : oldPath.isBlank = true ∨ newPath.isBlank = true := by
      rcases List.mem_pair.mp target with rfl | rfl
      · exact .inl blank
      · exact .inr blank
    exact ⟨"rename", step_of_blank_rename either start tree⟩
  · obtain ⟨first, others, rfl⟩ := List.exists_cons_of_length_pos (arity ▸
      List.length_pos_iff.mpr (Form.slots_ne_nil kind))
    rw [← targets_of_args rename rfl] at target ⊢
    obtain rfl := List.mem_singleton.mp target
    suffices refused : ∃ action, step faults start ⟨kind, path :: others⟩ tree =
        giveUp (.blankPath action path) tree by
      obtain ⟨action, same⟩ := refused
      exact ⟨action, path, target, blank, same⟩
    have concluded {α : Type} (action : String) (effect : Effect α) :=
      conclude_of_blank blank kind [path] action tree effect
    cases kind with
    | rename => exact absurd rfl rename
    | createFolder => exact ⟨_, create_of_blank blank _ others _ start tree⟩
    | createFile => exact ⟨_, create_of_blank blank _ others _ start tree⟩
    | write =>
        obtain ⟨body, rfl⟩ := List.length_eq_one_iff.mp (Nat.succ.inj arity)
        exact ⟨_, concluded _ _⟩
    | append =>
        obtain ⟨body, rfl⟩ := List.length_eq_one_iff.mp (Nat.succ.inj arity)
        exact ⟨_, concluded _ _⟩
    | deleteFile => exact ⟨_, concluded _ _⟩
    | deleteFolder => exact ⟨_, concluded _ _⟩
    | deleteForce => exact ⟨_, concluded _ _⟩

/-! ## Batches -/

/-- What a failed statement leaves: nothing, or a file that it has opened and not written to the
end. -/
def Leaves (faults : Faults) (command : Command) (tree left : Tree) : Prop :=
  left = tree ∨ ∃ append path body,
    command = ⟨if append then .append else .write, [path, body]⟩ ∧
      Operation.BrokenOff faults path body append tree left

theorem leaves_of_failure {kind : Kind}
    (whole : kind ∈ [.createFile, .deleteFile, .deleteFolder, .write, .append, .rename])
    {document : Text} {command : Command} (inside : command ∈ kind.commands document)
    {start tree : Tree} {failure : Failure}
    (fails : (step faults start command tree).answer = .error failure) :
    Leaves faults command tree (step faults start command tree).tree := by
  obtain ⟨args, rfl, arity⟩ := kind_of_mem_commands inside
  cases kind with
  | write =>
      obtain ⟨path, body, rfl⟩ := List.length_eq_two.mp arity
      exact (step_of_failure false fails).imp_right fun broken =>
        ⟨false, path, body, rfl, broken⟩
  | append =>
      obtain ⟨path, body, rfl⟩ := List.length_eq_two.mp arity
      exact (step_of_failure true fails).imp_right fun broken =>
        ⟨true, path, body, rfl, broken⟩
  | createFolder => simp at whole
  | deleteForce => simp at whole
  | _ => exact .inl (harmless_step (by simp) start failure fails)

theorem Leaves.eq_of_fallsShort {command : Command} {tree left : Tree}
    (leaves : Leaves faults command tree left) (reaches : fallsShort faults command = false) :
    left = tree := by
  rcases leaves with same | ⟨append, path, body, rfl, count, failure, -, -, short, -⟩
  · exact same
  · cases append <;> simp [fallsShort, short] at reaches

/-- Failed statements leave no trace, but for a write or an append that has opened its file and
does not get to the end of its content: that file is left with what was written, and nothing else
is changed.  So the batch ends where the others would have brought it.  A blank path makes a
statement of any kind fail, and the tree stays as it is. -/
theorem handle_failures (faults : Faults) (calm : faults.Calm) (kind : Kind) (document : Text)
    (tree : Tree) :
    ∃ commands batch, (Pattern.ofKind kind).commands document = .ok commands ∧
      (handle faults (Pattern.ofKind kind) document tree).answer = .ok batch ∧
      batch.outcomes.length = commands.length ∧
      Steps faults tree tree (commands.zip batch.outcomes)
        (handle faults (Pattern.ofKind kind) document tree).tree ∧
      (kind ∈ [.createFile, .deleteFile, .deleteFolder, .write, .append, .rename] →
        (∀ command ∈ commands, ∀ reached,
          (settle command (step faults tree command reached).answer).isFailed = true →
            Leaves faults command reached (step faults tree command reached).tree) ∧
        let others := schedule faults (accomplished faults commands batch.outcomes) tree
        others.tree = (handle faults (Pattern.ofKind kind) document tree).tree ∧
          List.zipWith settle (accomplished faults commands batch.outcomes) others.answers =
            ((commands.zip batch.outcomes).filter (leavesTrace faults)).map Prod.snd) ∧
      ∀ command ∈ commands, ∀ path ∈ command.targets, path.isBlank = true → ∀ reached,
        (step faults tree command reached).tree = reached ∧
        ∃ action, ∃ empty ∈ command.targets, empty.isBlank = true ∧
          settle command (step faults tree command reached).answer =
            ⟨kind, .failed, command.targets,
              some (Failure.failedTo action empty "Empty path")⟩ := by
  obtain ⟨last, answers, messages, answer, -⟩ := handle_eq_oneByOne calm kind document tree
  refine ⟨kind.commands document, _, Pattern.commands_ofKind kind document, answer,
    answers.length_eq.symm, ?_, fun whole => ?_, ?_⟩
  · rw [last]
    exact steps_oneByOne tree _ tree
  · have leaves : ∀ command ∈ kind.commands document, ∀ reached,
        (settle command (step faults tree command reached).answer).isFailed = true →
          Leaves faults command reached (step faults tree command reached).tree := by
      intro command inside reached failed
      obtain ⟨failure, refused⟩ := error_of_isFailed
        (settles_carryOut calm command (look_ne_cancelled calm tree command) reached) failed
      exact leaves_of_failure whole inside refused
    refine ⟨leaves, ?_⟩
    simp only [schedule_eq_oneByOne, last]
    refine oneByOne_accomplished (fun command inside reached traceless => ?_) tree
    obtain ⟨failed, reaches⟩ : (settle command (step faults tree command reached).answer).isFailed =
        true ∧ fallsShort faults command = false := by
      simpa [leavesTrace] using traceless
    exact (leaves command inside reached failed).eq_of_fallsShort reaches
  · intro command inside path target blank reached
    obtain ⟨args, rfl, arity⟩ := kind_of_mem_commands inside
    obtain ⟨action, empty, isTarget, isBlank, same⟩ :=
      step_of_blank arity target blank faults tree reached
    rw [same]
    refine ⟨rfl, action, empty, isTarget, isBlank, ?_⟩
    rw [← Failure.cause_blankPath]
    rfl

/-- A surrogate is no content.  The write fails when it has opened the file, and what was in it is
gone. -/
theorem handle_failures_unencodable :
    let document := Document.ofEscapes
      (Utf8.encode (Text.ofString "WRITE TO a THIS CONTENT: \"\\ud800\";"))
    let faults := Faults.ofDocument document
    let tree : Tree := ⟨[([Text.ofString "a"], .file (Utf8.encode (Text.ofString "x")))]⟩
    let batch := handle faults (Pattern.ofKind .write) document.text tree
    faults.Calm ∧ (batch.answer.map fun batch => batch.outcomes.map (·.status)) = .ok [.failed] ∧
    batch.tree.at? [Text.ofString "a"] = some (.file []) ∧
    batch.tree ≠ (schedule faults [] tree).tree ∧
    ∃ command, (Pattern.ofKind .write).commands document.text = .ok [command] ∧
      (settle command (step faults tree command tree).answer).isFailed = true ∧
      (step faults tree command tree).tree ≠ tree := by
  intro document faults tree batch
  let command : Command := ⟨.write, [Text.ofString "a", [Char.ofNat 0xF0000]]⟩
  have facts : (batch.answer.map fun batch => batch.outcomes.map (·.status)) = .ok [.failed] ∧
      batch.tree.at? [Text.ofString "a"] = some (.file []) := by decide +kernel
  have single : (Pattern.ofKind .write).commands document.text = .ok [command] ∧
      (settle command (step faults tree command tree).answer).isFailed = true ∧
      (step faults tree command tree).tree.at? [Text.ofString "a"] = some (.file []) := by
    decide +kernel
  have changes {last : Tree} (emptied : last.at? [Text.ofString "a"] = some (.file [])) :
      last ≠ tree := by
    rintro rfl
    exact absurd emptied (by decide)
  refine ⟨Faults.calm_ofDocument document, facts.1, facts.2, ?_, command, single.1, single.2.1,
    changes single.2.2⟩
  rw [schedule_nil]
  exact changes facts.2

/-- Of two creations of one file, behind a third one without a path, the first counts. -/
theorem handle_failures_create :
    let document := Text.ofString "CREATE FILE  ;CREATE FILE b;CREATE FILE b;"
    let whole := handle .none (Pattern.ofKind .createFile) document .empty
    let nameless : Command := ⟨.createFile, [[]]⟩
    let named : Command := ⟨.createFile, [Text.ofString "b"]⟩
    Faults.none.Calm ∧
    (Pattern.ofKind .createFile).commands document = .ok [nameless, named, named] ∧
    (schedule .none [named] .empty).tree = whole.tree ∧
    [] ∈ nameless.targets ∧ Text.isBlank [] = true ∧
    (step .none .empty nameless whole.tree).tree = whole.tree := by
  intro document whole nameless named
  obtain ⟨commands, batch, extracted, answer, -, -, failures, blanks⟩ :=
    handle_failures .none Faults.calm_none .createFile document .empty
  have three : (Pattern.ofKind .createFile).commands document =
      .ok [nameless, named, named] := by decide
  obtain rfl := Except.ok.inj (three.symm.trans extracted)
  have kept : whole.answer.map (fun batch =>
      accomplished .none [nameless, named, named] batch.outcomes) = .ok [named] := by decide
  rw [show whole.answer = .ok batch from answer] at kept
  have single : accomplished .none [nameless, named, named] batch.outcomes = [named] :=
    Except.ok.inj kept
  obtain ⟨-, sameTree, -⟩ := failures (by decide)
  rw [single] at sameTree
  have target : [] ∈ nameless.targets := by decide
  have unchanged := blanks nameless List.mem_cons_self [] target rfl whole.tree
  exact ⟨Faults.calm_none, three, sameTree, target, rfl, unchanged.1⟩

end Batch

end CommandFile
