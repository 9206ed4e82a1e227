import CommandFile.Pass
import CommandFile.Proofs.Extraction
import CommandFile.Proofs.Turns
import Mathlib.Data.List.Forall2

/-!
# Settled batches

Every way in which a statement can fail ends in an outcome.  Only a cancellation from
outside gets through to the caller, and without one a batch answers each statement of its
kind with one outcome and each outcome with one line.
-/

namespace CommandFile

/-- No call is cancelled. -/
def Faults.Calm (faults : Faults) : Prop :=
  ∀ call path, faults call path ≠ some (.raise .cancelled)

@[simp] theorem Faults.calm_none : Faults.none.Calm := by
  intro call path
  simp [Faults.none]

theorem Faults.calm_ofDocument (document : Document) : (ofDocument document).Calm := by
  intro call text
  unfold ofDocument
  cases StandIn.unencodable? document.standIns text <;> simp

/-! ## Operations -/

/-- The answer is a value or a failure that can become an outcome. -/
def Effect.Unbroken {α : Type} (effect : Effect α) : Prop := effect.answer ≠ .error .cancelled

namespace Operation

theorem call_ne_cancelled {α : Type} (paths : List Text) (result : Except Errno α) :
    call paths result ≠ .error .cancelled := by
  rw [call]
  split
  · simp
  · cases result <;> simp [Except.mapError]

theorem failure?_ne_cancelled {faults : Faults} (calm : faults.Calm) (kind : Call)
    (path : Text) : faults.failure? kind path ≠ some .cancelled := by
  have notCancelled := calm kind path
  unfold Faults.failure?
  split <;> simp_all

theorem break?_ne_cancelled {faults : Faults} (calm : faults.Calm) (kind : Call) (path : Text)
    (count : Nat) : faults.break? kind path ≠ some (count, .cancelled) := by
  have uncancelled := failure?_ne_cancelled calm kind path
  unfold Faults.break?
  split <;> cases failed : faults.failure? kind path <;> simp_all

theorem shortfall?_ne_cancelled {faults : Faults} (calm : faults.Calm) (path content : Text)
    (count : Nat) : faults.shortfall? path content ≠ some (count, .cancelled) := by
  have uncancelled := failure?_ne_cancelled calm .encoding content
  unfold Faults.shortfall?
  split
  · simp_all
  · exact break?_ne_cancelled calm _ _ _

theorem callUnder_ne_cancelled {α : Type} {faults : Faults} (calm : faults.Calm) (kind : Call)
    (path : Text) (others : List Text) (result : Except Errno α) :
    callUnder faults kind path others result ≠ .error .cancelled := by
  unfold callUnder
  split
  · next failure faulty =>
      intro same
      obtain rfl := Except.error.inj same
      exact failure?_ne_cancelled calm kind path faulty
  · next failure _ faulty =>
      intro same
      obtain rfl := Except.error.inj same
      obtain ⟨other, -, fails⟩ := List.exists_of_findSome?_eq_some faulty
      exact failure?_ne_cancelled calm .target other fails
  · exact call_ne_cancelled _ _

theorem blame_eq_cancelled {action : String} {path : Text} {failure : Failure}
    (cancelled : blame action path failure = .cancelled) : failure = .cancelled := by
  unfold blame at cancelled
  split at cancelled
  · simp at cancelled
  · exact cancelled

theorem unbroken_unlessBlank {α : Type} (action : String) (path : Text) (tree : Tree)
    {effect : Effect α} (unbroken : effect.Unbroken) :
    (unlessBlank action path tree effect).Unbroken := by
  unfold unlessBlank
  split
  · simp [Effect.Unbroken]
  · exact unbroken

theorem unbroken_change (wording : Wording) (path : Text) (tree : Tree)
    {result : Except Failure Tree} (uncancelled : result ≠ .error .cancelled) :
    (change wording path tree result).Unbroken := by
  unfold change
  split
  · simp [Effect.Unbroken]
  · next failure =>
      intro same
      exact uncancelled (congrArg _ (blame_eq_cancelled (Except.error.inj same)))

variable {faults : Faults}

theorem unbroken_checkAccess (calm : faults.Calm) (path : Text) (tree : Tree) :
    (checkAccess faults path tree).Unbroken := by
  refine unbroken_unlessBlank _ _ _ ?_
  have status := callUnder_ne_cancelled calm .stat path [] (tree.status path)
  have access := failure?_ne_cancelled calm .access path
  unfold Effect.Unbroken
  split
  · split <;> simp
  · next failure _ answer => simpa [answer] using status
  · split
    · simp
    · next failure faulty _ => simpa [faulty] using access
    · simp

theorem unbroken_createFile (calm : faults.Calm) (path : Text) (tree : Tree) :
    (createFile faults path tree).Unbroken :=
  unbroken_unlessBlank _ _ _ (unbroken_change _ _ _ (callUnder_ne_cancelled calm _ _ _ _))

theorem unbroken_createFolder (calm : faults.Calm) (path : Text) (parents : Bool) (tree : Tree) :
    (createFolder faults path parents tree).Unbroken := by
  refine unbroken_unlessBlank _ _ _ ?_
  have uncancelled := calm .mkdir (Path.normalize path)
  split
  · exact unbroken_change _ _ _ (by simp_all)
  · split
    · refine unbroken_change _ _ _ ?_
      split <;> simp
    · exact unbroken_change _ _ _ (call_ne_cancelled _ _)

theorem unbroken_deleteFile (calm : faults.Calm) (path : Text) (tree : Tree) :
    (deleteFile faults path tree).Unbroken :=
  unbroken_unlessBlank _ _ _ (unbroken_change _ _ _ (callUnder_ne_cancelled calm _ _ _ _))

theorem unbroken_deleteFolder (calm : faults.Calm) (path : Text) (tree : Tree) :
    (deleteFolder faults path tree).Unbroken :=
  unbroken_unlessBlank _ _ _ (unbroken_change _ _ _ (callUnder_ne_cancelled calm _ _ _ _))

theorem unbroken_deleteBranch (calm : faults.Calm) (path : Text) (tree : Tree) :
    (deleteBranch faults path tree).Unbroken := by
  refine unbroken_unlessBlank _ _ _ ?_
  have removal := call_ne_cancelled [Path.normalize path]
    (tree.removeBranch (Path.normalize path)).answer
  have uncancelled := break?_ne_cancelled calm .clearing (Path.normalize path)
  unfold Effect.Unbroken
  dsimp only
  split
  · simp
  split
  · next count failure broken =>
      intro same
      obtain rfl := blame_eq_cancelled (Except.error.inj same)
      exact uncancelled count broken
  split
  · simp
  · next failure answer =>
      intro same
      exact removal (answer.trans (congrArg _ (blame_eq_cancelled (Except.error.inj same))))

theorem unbroken_writeFile (calm : faults.Calm) (path content : Text) (append : Bool)
    (tree : Tree) : (writeFile faults path content append tree).Unbroken := by
  refine unbroken_unlessBlank _ _ _ ?_
  have opened (bytes : Bytes) := callUnder_ne_cancelled calm .opening path []
    (if append then tree.extend path bytes else tree.overwrite path bytes)
  have uncancelled := shortfall?_ne_cancelled calm path content
  split
  · exact unbroken_change _ _ _ (opened _)
  · next count failure broken =>
      split
      · next refusal refused => exact unbroken_change _ _ _ (refused ▸ opened _)
      · refine unbroken_change _ _ _ fun same => ?_
        obtain rfl := Except.error.inj same
        exact uncancelled count broken

theorem unbroken_rename (calm : faults.Calm) (path newPath : Text) (tree : Tree) :
    (rename faults path newPath tree).Unbroken :=
  unbroken_unlessBlank _ _ _ (unbroken_unlessBlank _ _ _
    (unbroken_change _ _ _ (callUnder_ne_cancelled calm _ _ _ _)))

end Operation

/-! ## Outcomes of statements -/

namespace Batch

/-- What performing a statement may answer: an outcome under the statement's own kind and
targets, or a failure that `settle` turns into one. -/
def Settles (command : Command) (answer : Except Failure Outcome) : Prop :=
  answer ≠ .error .cancelled ∧
    ∀ outcome, answer = .ok outcome →
      outcome.kind = command.kind ∧ outcome.targets = command.targets ∧
        outcome.status ≠ .failed

theorem settles_error {command : Command} {failure : Failure}
    (uncancelled : failure ≠ .cancelled) : Settles command (.error failure) :=
  ⟨by simpa using uncancelled, by simp⟩

theorem settles_conclude {α : Type} {command : Command} {targets : List Text}
    {effect : Effect α} (unbroken : effect.Unbroken) (same : targets = command.targets) :
    Settles command (conclude command.kind targets effect).answer := by
  unfold Effect.Unbroken at unbroken
  unfold Settles conclude
  cases answer : effect.answer with
  | error failure =>
      rw [answer] at unbroken
      exact ⟨by simpa [Except.map] using unbroken, by simp [Except.map]⟩
  | ok value => simp [Except.map, Outcome.succeeded, same]

theorem settles_withPath {command : Command} {tree : Tree} {step : Text → Effect Outcome}
    (settles : ∀ path others, command.args = path :: others →
      Settles command (step path).answer) :
    Settles command (withPath command tree step).answer := by
  unfold withPath
  split
  · exact settles_error (by simp)
  · next path others args => exact settles path others args

theorem settles_withTwo {command : Command} {tree : Tree}
    {step : Text → Text → Effect Outcome}
    (settles : ∀ first second, command.args = [first, second] →
      Settles command (step first second).answer) :
    Settles command (withTwo command tree step).answer := by
  unfold withTwo
  split
  · next first second args => exact settles first second args
  · exact settles_error (by simp)

theorem targets_of_args {command : Command} (single : command.kind ≠ .rename) {path : Text}
    {others : List Text} (args : command.args = path :: others) :
    [path] = command.targets := by
  simp [Command.targets, single, args]

theorem targets_of_rename {command : Command} (rename : command.kind = .rename)
    {path newPath : Text} (args : command.args = [path, newPath]) :
    [path, newPath] = command.targets := by
  simp [Command.targets, rename, args]

theorem settles_create {operation : Text → Tree → Effect Unit}
    (unbroken : ∀ path tree, (operation path tree).Unbroken) {command : Command}
    (single : command.kind ≠ .rename) {found : Except Failure Bool}
    (uncancelled : found ≠ .error .cancelled) (tree : Tree) :
    Settles command (create operation (command, found) tree).answer := by
  unfold create
  cases found with
  | error failure => exact settles_error (by simpa using uncancelled)
  | ok present =>
      cases present with
      | true =>
          refine settles_withPath fun path others args => ?_
          have targets := targets_of_args single args
          simp [Settles, Outcome.alreadyExists, targets]
      | false =>
          refine settles_withPath fun path others args => ?_
          exact settles_conclude (unbroken path tree) (targets_of_args single args)

variable {faults : Faults}

theorem found_ne_cancelled (calm : faults.Calm) (tree : Tree) (command : Command) :
    found faults tree command ≠ .error .cancelled := by
  unfold found
  split
  · simp
  · exact Operation.unbroken_checkAccess calm _ _

theorem settles_perform (calm : faults.Calm) (command : Command) (tree : Tree) :
    Settles command (perform faults command tree).answer := by
  obtain ⟨kind, args⟩ := command
  cases kind with
  | createFolder =>
      exact settles_create (fun path tree => Operation.unbroken_createFolder calm path true tree)
        (by simp) (found_ne_cancelled calm tree _) tree
  | createFile =>
      exact settles_create (Operation.unbroken_createFile calm) (by simp)
        (found_ne_cancelled calm tree _) tree
  | write =>
      refine settles_withTwo fun path body args => ?_
      exact settles_conclude (Operation.unbroken_writeFile calm _ _ _ _)
        (targets_of_args (by simp) args)
  | append =>
      refine settles_withTwo fun path body args => ?_
      exact settles_conclude (Operation.unbroken_writeFile calm _ _ _ _)
        (targets_of_args (by simp) args)
  | rename =>
      refine settles_withTwo fun path newPath args => ?_
      exact settles_conclude (Operation.unbroken_rename calm _ _ _) (targets_of_rename rfl args)
  | deleteFile =>
      refine settles_withPath fun path others args => ?_
      exact settles_conclude (Operation.unbroken_deleteFile calm _ _)
        (targets_of_args (by simp) args)
  | deleteFolder =>
      refine settles_withPath fun path others args => ?_
      exact settles_conclude (Operation.unbroken_deleteFolder calm _ _)
        (targets_of_args (by simp) args)
  | deleteForce =>
      refine settles_withPath fun path others args => ?_
      exact settles_conclude (Operation.unbroken_deleteBranch calm _ _)
        (targets_of_args (by simp) args)

theorem settles_carryOut (calm : faults.Calm) (command : Command) {found : Except Failure Bool}
    (uncancelled : found ≠ .error .cancelled) (tree : Tree) :
    Settles command (carryOut faults command found tree).answer := by
  obtain ⟨kind, args⟩ := command
  cases kind with
  | createFolder =>
      exact settles_create (fun path tree => Operation.unbroken_createFolder calm path true tree)
        (by simp) uncancelled tree
  | createFile =>
      exact settles_create (Operation.unbroken_createFile calm) (by simp) uncancelled tree
  | _ => exact settles_perform calm _ tree

theorem look_ne_cancelled (calm : faults.Calm) (tree : Tree) (command : Command) :
    look faults tree command ≠ .error .cancelled := by
  unfold look
  split
  · exact found_ne_cancelled calm tree command
  · simp

def Sound (command : Command) : Progress → Prop
  | .waiting => True
  | .checked found => found ≠ .error .cancelled
  | .settled answer => Settles command answer

theorem preserved_sound (calm : faults.Calm) :
    Preserved faults fun tasks _ => ∀ task ∈ tasks, Sound task.command task.progress where
  looking := by
    intro before command after tree sound
    rw [List.forall_mem_append, List.forall_mem_cons] at sound ⊢
    exact ⟨sound.1, look_ne_cancelled calm tree command, sound.2.2⟩
  carrying := by
    intro before command found after tree sound
    rw [List.forall_mem_append, List.forall_mem_cons] at sound ⊢
    exact ⟨sound.1, settles_carryOut calm command sound.2.1 tree, sound.2.2⟩

theorem settles_schedule (calm : faults.Calm) (commands : List Command) (tree : Tree)
    (turns : List Nat) :
    List.Forall₂ Settles commands (schedule faults commands tree turns).answers := by
  have sound := (preserved_sound calm).schedule commands tree (by simp [Sound]) turns
  exact forall₂_of_settled (length_schedule faults commands tree turns) sound

end Batch

/-! ## Lines -/

namespace Outcome

theorem fill_ok {words : List String} {targets : List Text}
    (enough : words.length ≤ targets.length + 1) (index : Nat) :
    ∃ text, fill index words targets = .ok text := by
  induction words generalizing index targets with
  | nil => exact ⟨_, rfl⟩
  | cons first words ih =>
      cases words with
      | nil => exact ⟨_, rfl⟩
      | cons second words =>
          cases targets with
          | nil => simp at enough
          | cons target targets =>
              obtain ⟨text, filled⟩ := ih (by simpa using enough) (index + 1)
              exact ⟨_, by rw [fill, filled]⟩

theorem message_ok {outcome : Outcome}
    (enough : outcome.kind.phrase.length ≤ outcome.targets.length + 1) :
    ∃ message, outcome.message = .ok message ∧
      (message.category = .error ↔ outcome.status = .failed) := by
  obtain ⟨kind, status, targets, cause⟩ := outcome
  cases targets with
  | nil => cases kind <;> simp [Kind.phrase] at enough
  | cons target targets =>
      cases status with
      | succeeded =>
          obtain ⟨text, filled⟩ := fill_ok enough 0
          exact ⟨⟨.success, text⟩, by simp [message, filled, Except.map], by simp⟩
      | alreadyExists => exact ⟨_, rfl, by simp⟩
      | failed => exact ⟨_, rfl, by simp⟩

end Outcome

theorem forall₂_mapM {α β ε : Type} {read : α → Except ε β} {good : α → β → Prop}
    {items : List α} (each : ∀ item ∈ items, ∃ value, read item = .ok value ∧ good item value) :
    ∃ values, items.mapM read = .ok values ∧
      List.Forall₂ (fun item value => read item = .ok value ∧ good item value) items values := by
  induction items with
  | nil => exact ⟨[], rfl, .nil⟩
  | cons item items ih =>
      obtain ⟨value, here, isGood⟩ := each item List.mem_cons_self
      obtain ⟨values, rest, areGood⟩ :=
        ih fun other inside => each other (List.mem_cons_of_mem _ inside)
      refine ⟨value :: values, ?_, .cons ⟨here, isGood⟩ areGood⟩
      rw [List.mapM_cons, here, rest]
      rfl

namespace Batch

/-- The outcome of a statement has its kind and names its path, or both paths of a
renaming. -/
def Answers (kind : Kind) (command : Command) (outcome : Outcome) : Prop :=
  outcome.kind = kind ∧
    ((kind ≠ .rename ∧ ∃ path others, command.args = path :: others ∧ outcome.targets = [path]) ∨
      (kind = .rename ∧ ∃ path newPath, command.args = [path, newPath] ∧
        outcome.targets = [path, newPath]))

def Tells (outcome : Outcome) (message : Message) : Prop :=
  outcome.message = .ok message ∧ (message.category = .error ↔ outcome.status = .failed)

theorem answers_of_targets {kind : Kind} {args : List Text}
    (arity : args.length = (Form.ofKind kind).slots.length) {outcome : Outcome}
    (sameKind : outcome.kind = kind)
    (sameTargets : outcome.targets = (Command.mk kind args).targets) :
    Answers kind ⟨kind, args⟩ outcome := by
  refine ⟨sameKind, ?_⟩
  by_cases rename : kind = .rename
  · subst rename
    obtain ⟨path, newPath, rfl⟩ := List.length_eq_two.mp arity
    exact .inr ⟨rfl, path, newPath, rfl, sameTargets⟩
  · refine .inl ⟨rename, ?_⟩
    cases args with
    | nil => exact absurd (List.length_eq_zero_iff.mp arity.symm) (Form.slots_ne_nil kind)
    | cons path others =>
        exact ⟨path, others, rfl, by rw [sameTargets, ← targets_of_args rename rfl]⟩

theorem Answers.message_ok {kind : Kind} {command : Command} {outcome : Outcome}
    (answers : Answers kind command outcome) : ∃ message, Tells outcome message := by
  obtain ⟨rfl, ⟨single, path, others, -, targets⟩ | ⟨rename, path, newPath, -, targets⟩⟩ :=
    answers
  · refine Outcome.message_ok ?_
    rw [targets]
    cases same : outcome.kind <;> simp_all [Kind.phrase]
  · refine Outcome.message_ok ?_
    rw [targets, rename]
    simp [Kind.phrase]

/-! ## Batches -/

theorem report_ok {outcomes : List Outcome}
    (each : ∀ outcome ∈ outcomes, ∃ message, Tells outcome message) (kind : Kind) (tree : Tree)
    (log : Log) :
    ∃ messages, (report kind outcomes tree log).answer = .ok ⟨outcomes, messages⟩ ∧
      (report kind outcomes tree log).tree = tree ∧ List.Forall₂ Tells outcomes messages := by
  obtain ⟨messages, told, tells⟩ := forall₂_mapM each
  refine ⟨messages, ?_, ?_, tells⟩
  · simp [report, Report.ofOutcomes, told]
  · simp [report, Report.ofOutcomes, told]

theorem settle_answers {kind : Kind} {args : List Text}
    (arity : args.length = (Form.ofKind kind).slots.length) {answer : Except Failure Outcome}
    (settles : Settles ⟨kind, args⟩ answer) :
    Answers kind ⟨kind, args⟩ (settle ⟨kind, args⟩ answer) := by
  cases answer with
  | error failure => exact answers_of_targets arity rfl rfl
  | ok outcome =>
      obtain ⟨sameKind, sameTargets, -⟩ := settles.2 outcome rfl
      exact answers_of_targets arity sameKind sameTargets

theorem uncancelled_of_settles {commands : List Command} {answers : List (Except Failure Outcome)}
    (settles : List.Forall₂ Settles commands answers) : .error .cancelled ∉ answers := by
  induction settles with
  | nil => simp
  | cons here _ ih =>
      rw [List.mem_cons, not_or]
      exact ⟨fun same => here.1 same.symm, ih⟩

theorem forall₂_settle {kind : Kind} {commands : List Command}
    (each : ∀ command ∈ commands,
      ∃ args, command = ⟨kind, args⟩ ∧ args.length = (Form.ofKind kind).slots.length)
    {answers : List (Except Failure Outcome)} (settles : List.Forall₂ Settles commands answers) :
    List.Forall₂ (Answers kind) commands (List.zipWith settle commands answers) := by
  induction settles with
  | nil => exact .nil
  | cons here _ ih =>
      obtain ⟨args, rfl, arity⟩ := each _ List.mem_cons_self
      exact .cons (settle_answers arity here)
        (ih fun other inside => each other (List.mem_cons_of_mem _ inside))

theorem tells_of_answers {kind : Kind} {commands : List Command} {outcomes : List Outcome}
    (answers : List.Forall₂ (Answers kind) commands outcomes) :
    ∀ outcome ∈ outcomes, ∃ message, Tells outcome message := by
  induction answers with
  | nil => simp
  | cons here _ ih =>
      rw [List.forall_mem_cons]
      exact ⟨here.message_ok, ih⟩

theorem handle_eq_report {kind : Kind} {document : Text} {tree : Tree} {turns : List Nat}
    (settles : List.Forall₂ Settles (kind.commands document)
      (schedule faults (kind.commands document) tree turns).answers) :
    let settled := schedule faults (kind.commands document) tree turns
    ∃ log, handle faults (Pattern.ofKind kind) document tree turns =
      report kind (List.zipWith settle (kind.commands document) settled.answers) settled.tree
        log := by
  apply Exists.intro
  unfold handle
  rw [Pattern.commands_ofKind]
  dsimp only
  split
  · next cancelled =>
      obtain ⟨answer, inside, broken⟩ := List.any_eq_true.mp cancelled
      split at broken
      · exact absurd inside (uncancelled_of_settles settles)
      · simp at broken
  · rfl

theorem kind_of_mem_commands {kind : Kind} {document : Text} {command : Command}
    (inside : command ∈ kind.commands document) :
    ∃ args, command = ⟨kind, args⟩ ∧ args.length = (Form.ofKind kind).slots.length := by
  obtain ⟨row, member, rfl⟩ := List.mem_map.mp inside
  exact ⟨row, rfl, kind.length_of_mem_rows member⟩

theorem exists_pair_of_mem_commands {kind : Kind} (two : (Form.ofKind kind).slots.length = 2)
    {document : Text} {command : Command} (inside : command ∈ kind.commands document) :
    ∃ path other, command = ⟨kind, [path, other]⟩ := by
  obtain ⟨args, rfl, arity⟩ := kind_of_mem_commands inside
  obtain ⟨path, other, rfl⟩ := List.length_eq_two.mp (arity.trans two)
  exact ⟨path, other, rfl⟩

/-- A batch of a built-in kind answers every statement, and tells every answer. -/
theorem handle_eq_schedule (calm : faults.Calm) (kind : Kind) (document : Text) (tree : Tree)
    (turns : List Nat) :
    let settled := schedule faults (kind.commands document) tree turns
    let outcomes := List.zipWith settle (kind.commands document) settled.answers
    (handle faults (Pattern.ofKind kind) document tree turns).tree = settled.tree ∧
      List.Forall₂ (Answers kind) (kind.commands document) outcomes ∧
      ∃ messages,
        (handle faults (Pattern.ofKind kind) document tree turns).answer =
          .ok ⟨outcomes, messages⟩ ∧
        List.Forall₂ Tells outcomes messages := by
  intro settled outcomes
  have settles := settles_schedule calm (kind.commands document) tree turns
  have answers := forall₂_settle (fun _ => kind_of_mem_commands) settles
  obtain ⟨log, reported⟩ := handle_eq_report settles
  obtain ⟨messages, told, last, tells⟩ := report_ok (tells_of_answers answers) kind
    settled.tree log
  rw [reported]
  exact ⟨last, answers, messages, told, tells⟩

/-- As its calls are submitted, a batch goes through its statements one by one. -/
theorem handle_eq_oneByOne (calm : faults.Calm) (kind : Kind) (document : Text) (tree : Tree) :
    let settled := oneByOne (step faults tree) (kind.commands document) tree
    let outcomes := List.zipWith settle (kind.commands document) settled.answers
    (handle faults (Pattern.ofKind kind) document tree).tree = settled.tree ∧
      List.Forall₂ (Answers kind) (kind.commands document) outcomes ∧
      ∃ messages,
        (handle faults (Pattern.ofKind kind) document tree).answer = .ok ⟨outcomes, messages⟩ ∧
        List.Forall₂ Tells outcomes messages := by
  rw [← schedule_eq_oneByOne]
  exact handle_eq_schedule calm kind document tree []

theorem handle_ok (calm : faults.Calm) (kind : Kind) (document : Text) (tree : Tree)
    (turns : List Nat) :
    ∃ batch, (handle faults (Pattern.ofKind kind) document tree turns).answer = .ok batch ∧
      List.Forall₂ (Answers kind) (kind.commands document) batch.outcomes ∧
      List.Forall₂ Tells batch.outcomes batch.messages := by
  obtain ⟨-, answers, messages, answer, tells⟩ :=
    handle_eq_schedule calm kind document tree turns
  exact ⟨_, answer, answers, tells⟩

theorem handle_of_no_rows {kind : Kind} {document : Text} (none : kind.rows document = [])
    (faults : Faults) (tree : Tree) (turns : List Nat) :
    (handle faults (Pattern.ofKind kind) document tree turns).answer = .ok ⟨[], []⟩ ∧
      (handle faults (Pattern.ofKind kind) document tree turns).tree = tree := by
  unfold handle
  rw [Pattern.commands_ofKind, Kind.commands, none]
  simp only [Pattern.kind_ofKind, List.map_nil, schedule_nil, List.any_nil, Bool.false_eq_true,
    if_false, List.zipWith_nil_left]
  exact ⟨rfl, rfl⟩

end Batch

end CommandFile
