import CommandFile.Batch
import Mathlib.Data.List.Forall2

/-!
# Calls in any order

A batch consists of single calls, by which a statement looks for its target or is carried
out.  What every call preserves holds of the settled batch, in whatever order the calls have
come.  As they are submitted, the statements are carried out one by one.
-/

namespace CommandFile

theorem oneByOne_map {α β γ : Type} (step : β → Tree → Effect α) (label : γ → β) (items : List γ)
    (tree : Tree) :
    oneByOne step (items.map label) tree = oneByOne (fun item => step (label item)) items tree := by
  induction items generalizing tree with
  | nil => rfl
  | cons item items ih => simp only [List.map_cons, oneByOne, ih]

theorem oneByOne_congr {α β : Type} {step other : β → Tree → Effect α} {items : List β}
    (same : ∀ item ∈ items, step item = other item) (tree : Tree) :
    oneByOne step items tree = oneByOne other items tree := by
  induction items generalizing tree with
  | nil => rfl
  | cons item items ih =>
      rw [oneByOne, oneByOne, same item List.mem_cons_self,
        ih fun later inside => same later (List.mem_cons_of_mem _ inside)]

@[simp] theorem length_oneByOne {α β : Type} (step : β → Tree → Effect α) (items : List β)
    (tree : Tree) : (oneByOne step items tree).answers.length = items.length := by
  induction items generalizing tree with
  | nil => rfl
  | cons item items ih => simp [oneByOne, ih]

theorem oneByOne_append {α β : Type} (step : β → Tree → Effect α) (items others : List β)
    (tree : Tree) :
    let first := oneByOne step items tree
    let second := oneByOne step others first.tree
    oneByOne step (items ++ others) tree =
      ⟨first.answers ++ second.answers, second.tree, first.log ++ second.log⟩ := by
  induction items generalizing tree with
  | nil => rfl
  | cons item items ih => simp [oneByOne, ih]

namespace Batch

variable {faults : Faults} {tree : Tree}

theorem perform_eq_carryOut (faults : Faults) (command : Command) (tree : Tree) :
    perform faults command tree = carryOut faults command (look faults tree command) tree := by
  obtain ⟨kind, args⟩ := command
  cases kind <;> rfl

@[simp] theorem command_first (commands : List Command) (tree : Tree) :
    (Stage.first commands tree).tasks.map (·.command) = commands := by
  simp [Stage.first, Function.comp_def]

/-! ## Single calls -/

/-- What holds of the statements of a batch and of the tree goes on holding with every call. -/
structure Preserved (faults : Faults) (Good : List Task → Tree → Prop) : Prop where
  looking : ∀ before command after tree, Good (before ++ ⟨command, .waiting⟩ :: after) tree →
    Good (before ++ ⟨command, .checked (look faults tree command)⟩ :: after) tree
  carrying : ∀ before command found after tree,
    Good (before ++ ⟨command, .checked found⟩ :: after) tree →
      let effect := carryOut faults command found tree
      Good (before ++ ⟨command, .settled effect.answer⟩ :: after) effect.tree

namespace Preserved

variable {Good Also : List Task → Tree → Prop}

theorem and (good : Preserved faults Good) (also : Preserved faults Also) :
    Preserved faults fun tasks tree => Good tasks tree ∧ Also tasks tree where
  looking := fun before command after tree ⟨here, too⟩ =>
    ⟨good.looking before command after tree here, also.looking before command after tree too⟩
  carrying := fun before command found after tree ⟨here, too⟩ =>
    ⟨good.carrying before command found after tree here,
      also.carrying before command found after tree too⟩

theorem same (faults : Faults) (commands : List Command) :
    Preserved faults fun tasks _ => tasks.map (·.command) = commands where
  looking := fun _ _ _ _ same => by simpa using same
  carrying := fun _ _ _ _ _ same => by simpa using same

theorem check (good : Preserved faults Good) (before : List Task) {tasks : List Task}
    (here : Good (before ++ tasks) tree) :
    Good (before ++ tasks.map (Task.check faults tree)) tree := by
  induction tasks generalizing before with
  | nil => exact here
  | cons task tasks ih =>
      obtain ⟨command, progress⟩ := task
      have checked : Good (before ++ Task.check faults tree ⟨command, progress⟩ :: tasks) tree := by
        cases progress with
        | waiting => exact good.looking before command tasks tree here
        | checked found => exact here
        | settled answer => exact here
      have later := ih (before ++ [Task.check faults tree ⟨command, progress⟩])
        (by simpa using checked)
      simpa using later

theorem finish (good : Preserved faults Good) (before : List Task) (task : Task)
    (after : List Task) (here : Good (before ++ task :: after) tree) :
    let effect := task.finish faults tree
    Good (before ++ ⟨task.command, .settled effect.answer⟩ :: after) effect.tree := by
  obtain ⟨command, progress⟩ := task
  cases progress with
  | waiting =>
      have looked := good.looking before command after tree here
      have carried := good.carrying before command _ after tree looked
      rwa [← perform_eq_carryOut] at carried
  | checked found => exact good.carrying before command found after tree here
  | settled answer => exact here

theorem turn (good : Preserved faults Good) {stage : Stage} (here : Good stage.tasks stage.tree)
    (place : Nat) :
    Good (turn faults stage place).tasks (turn faults stage place).tree := by
  unfold Batch.turn
  split
  · exact here
  next task found =>
    obtain ⟨inside, rfl⟩ := List.getElem?_eq_some_iff.mp found
    split
    · next waits =>
        obtain ⟨before, after, same, -, set⟩ :=
          @List.exists_of_set _ _ (stage.tasks[place].check faults stage.tree) _ inside
        simp only
        rw [set]
        rw [same] at here
        generalize stage.tasks[place] = task at here waits
        obtain ⟨command, progress⟩ := task
        obtain rfl : progress = .waiting := waits
        exact good.looking before command after stage.tree here
    · obtain ⟨before, after, same, -, set⟩ := @List.exists_of_set _ _
        ⟨stage.tasks[place].command,
          .settled (stage.tasks[place].finish faults stage.tree).answer⟩ _ inside
      simp only
      rw [set]
      rw [same] at here
      exact good.finish before _ after here

theorem turns (good : Preserved faults Good) (turns : List Nat) (stage : Stage)
    (here : Good stage.tasks stage.tree) :
    Good (turns.foldl (Batch.turn faults) stage).tasks
      (turns.foldl (Batch.turn faults) stage).tree := by
  induction turns generalizing stage with
  | nil => exact here
  | cons place turns ih => exact ih _ (good.turn here place)

theorem oneByOne (good : Preserved faults Good) (before : List Task) {tasks : List Task}
    (here : Good (before ++ tasks) tree) :
    let settled := oneByOne (Task.finish faults) tasks tree
    Good (before ++ List.zipWith (fun task answer => ⟨task.command, .settled answer⟩) tasks
      settled.answers) settled.tree := by
  induction tasks generalizing before tree with
  | nil => exact here
  | cons task tasks ih =>
      have later := ih (before ++ [⟨task.command, .settled (task.finish faults tree).answer⟩])
        (by simpa using good.finish before task tasks here)
      simpa [CommandFile.oneByOne] using later

theorem settled (good : Preserved faults Good) {commands : List Command} {stage : Stage}
    (same : stage.tasks.map (·.command) = commands) (here : Good stage.tasks stage.tree)
    (turns : List Nat) :
    let settled := (turns.foldl (Batch.turn faults) stage).finish faults
    Good (List.zipWith (fun command answer => ⟨command, .settled answer⟩) commands settled.answers)
      settled.tree := by
  have both := (good.and (.same faults commands)).turns turns stage ⟨here, same⟩
  generalize turns.foldl (Batch.turn faults) stage = early at both
  have checked := (good.and (.same faults commands)).check [] both
  rw [List.nil_append] at checked
  have last := good.oneByOne [] checked.1
  intro settled
  rw [← checked.2, List.zipWith_map_left]
  exact last

theorem schedule (good : Preserved faults Good) (commands : List Command) (tree : Tree)
    (start : Good (commands.map (Task.mk · .waiting)) tree) (turns : List Nat) :
    let settled := schedule faults commands tree turns
    Good (List.zipWith (fun command answer => ⟨command, .settled answer⟩) commands
      settled.answers) settled.tree :=
  good.settled (command_first commands tree) start turns

end Preserved

@[simp] theorem length_schedule (faults : Faults) (commands : List Command) (tree : Tree)
    (turns : List Nat) :
    (schedule faults commands tree turns).answers.length = commands.length := by
  have same := (Preserved.same faults commands).turns turns (.first commands tree)
    (command_first commands tree)
  rw [schedule, Stage.finish, length_oneByOne, List.length_map, ← List.length_map (·.command), same]

theorem forall₂_of_settled {good : Command → Progress → Prop} {commands : List Command}
    {answers : List (Except Failure Outcome)} (same : answers.length = commands.length)
    (each : ∀ task ∈ List.zipWith (fun command answer => Task.mk command (.settled answer)) commands
      answers, good task.command task.progress) :
    List.Forall₂ (fun command answer => good command (.settled answer)) commands answers := by
  refine List.forall₂_iff_zip.mpr ⟨same.symm, fun {command answer} together => ?_⟩
  rw [← List.map_uncurry_zip_eq_zipWith] at each
  exact each _ (List.mem_map_of_mem together)

@[simp] theorem schedule_nil (faults : Faults) (tree : Tree) (turns : List Nat) :
    schedule faults [] tree turns = ⟨[], tree, []⟩ := by
  have idle : turns.foldl (turn faults) (.first [] tree) = .first [] tree := by
    induction turns with
    | nil => rfl
    | cons place turns ih => exact ih
  rw [schedule, idle]
  rfl

/-! ## Calls as they are submitted -/

/-- What one statement of a batch does to the tree that the ones before it left.  Whether
the target of a creation is there already has been found out at the start of the batch. -/
def step (faults : Faults) (start : Tree) (command : Command) (tree : Tree) : Effect Outcome :=
  carryOut faults command (look faults start command) tree

theorem schedule_eq_oneByOne (faults : Faults) (commands : List Command) (tree : Tree) :
    schedule faults commands tree = oneByOne (step faults tree) commands tree := by
  simp only [schedule, Stage.finish, Stage.first, List.foldl_nil, List.map_map, oneByOne_map,
    List.nil_append]
  rfl

end Batch

end CommandFile
