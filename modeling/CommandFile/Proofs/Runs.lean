import CommandFile.Proofs.Moves
import Mathlib.Data.List.Nodup

/-!
# Runs

Every run has a number of its own.  It is started once, stays in flight until its time is up,
and ends once.  So the runs in flight and those that have ended are together those that have
been started.
-/

namespace CommandFile

def Event.started? : Event → Option Nat
  | .started number => some number
  | _ => none

def Event.ended? : Event → Option Nat
  | .ended number => some number
  | .failed number => some number
  | _ => none

theorem Run.started?_ending (run : Run) : run.ending.started? = none := by
  unfold ending
  split <;> rfl

theorem Run.ended?_ending (run : Run) : run.ending.ended? = some run.number := by
  unfold ending
  split <;> rfl

namespace Debouncer

open Relation

variable {World : Type} {work : Work World} {debouncer last : Debouncer World}

def startedRuns (debouncer : Debouncer World) : List Nat :=
  debouncer.history.filterMap fun item => item.1.started?

def endedRuns (debouncer : Debouncer World) : List Nat :=
  debouncer.history.filterMap fun item => item.1.ended?

def activeRuns (debouncer : Debouncer World) : List Nat := debouncer.active.map Run.number

/-! ## Numbers -/

/-- Runs are numbered in the order of their starts, and each one either is in flight or has
ended. -/
structure Numbered (debouncer : Debouncer World) : Prop where
  counted : debouncer.startedRuns = (List.range debouncer.started).reverse
  accounted : (debouncer.activeRuns ++ debouncer.endedRuns).Perm debouncer.startedRuns

theorem numbered_new (delay : Delay) (callNow : Bool) (world : World) :
    (new delay callNow world).Numbered :=
  ⟨rfl, .nil⟩

theorem Numbered.nodup (numbered : debouncer.Numbered) : debouncer.startedRuns.Nodup := by
  rw [numbered.counted]
  exact (List.reverse_perm _).nodup_iff.mpr List.nodup_range

theorem Numbered.nodup_append (numbered : debouncer.Numbered) :
    (debouncer.activeRuns ++ debouncer.endedRuns).Nodup :=
  numbered.accounted.nodup_iff.mpr numbered.nodup

theorem Numbered.serve (numbered : debouncer.Numbered) (work : Work World) :
    (debouncer.serve work).Numbered where
  counted := by
    have started : (debouncer.serve work).startedRuns =
        debouncer.started :: debouncer.startedRuns := rfl
    have count : (debouncer.serve work).started = debouncer.started + 1 := rfl
    rw [started, count, numbered.counted, List.range_succ, List.reverse_append]
    rfl
  accounted := by
    have active : (debouncer.serve work).activeRuns =
        debouncer.activeRuns ++ [debouncer.started] := List.map_append
    have ended : (debouncer.serve work).endedRuns = debouncer.endedRuns := rfl
    have started : (debouncer.serve work).startedRuns =
        debouncer.started :: debouncer.startedRuns := rfl
    rw [active, ended, started, List.append_assoc]
    exact List.perm_middle.trans (numbered.accounted.cons _)

theorem activeRuns_filter (single : debouncer.activeRuns.Nodup) (number : Nat) :
    (debouncer.active.filter (·.number ≠ number)).map Run.number =
      debouncer.activeRuns.erase number := by
  rw [single.erase_eq_filter, activeRuns, List.filter_map]
  refine congrArg (List.map Run.number) (List.filter_congr fun run _ => ?_)
  simp [bne, beq_eq_decide]

theorem Numbered.finishRun (numbered : debouncer.Numbered) {run : Run}
    (inside : run ∈ debouncer.active) : (finishRun run debouncer).Numbered := by
  have single : debouncer.activeRuns.Nodup := (List.nodup_append.mp numbered.nodup_append).1
  have rest := activeRuns_filter single run.number
  have started : startedRuns (debouncer.note run.ending) = debouncer.startedRuns := by
    simp [startedRuns, note, run.started?_ending]
  have ended : endedRuns (debouncer.note run.ending) = run.number :: debouncer.endedRuns := by
    simp [endedRuns, note, run.ended?_ending]
  rw [finishRun_eq]
  refine ⟨started.trans numbered.counted, ?_⟩
  change ((debouncer.active.filter (·.number ≠ run.number)).map Run.number ++
    endedRuns (debouncer.note run.ending)).Perm (startedRuns (debouncer.note run.ending))
  rw [rest, ended, started]
  have taken : debouncer.activeRuns.Perm (run.number :: debouncer.activeRuns.erase run.number) :=
    List.perm_cons_erase (List.mem_map_of_mem inside)
  exact List.perm_middle.trans ((taken.symm.append_right _).trans numbered.accounted)

theorem Numbered.trigger (numbered : debouncer.Numbered) (sound : debouncer.Sound)
    (work : Work World) : (debouncer.trigger work).Numbered := by
  have noted : (debouncer.note .triggered).Numbered := ⟨numbered.counted, numbered.accounted⟩
  rw [sound.trigger_eq]
  split
  · exact noted.serve work
  · exact ⟨noted.counted, noted.accounted⟩

theorem Numbered.happens (numbered : debouncer.Numbered) (sound : debouncer.Sound)
    (happens : Happens work debouncer last) : last.Numbered := by
  have moved (time : Rat) : (debouncer.moveTo time).Numbered :=
    ⟨numbered.counted, numbered.accounted⟩
  rcases sound.happens_cases happens with ⟨run, inside, -, rfl⟩ | ⟨due, -, rfl⟩
  · exact (moved run.finish).finishRun inside
  · unfold closeAt
    split
    · exact (moved due).serve work
    · exact ⟨numbered.counted, numbered.accounted⟩

theorem Numbered.step (numbered : debouncer.Numbered) (sound : debouncer.Sound)
    (step : Step work debouncer last) : last.Numbered := by
  cases step with
  | trigger => exact numbered.trigger sound work
  | cancel =>
      rw [sound.cancel_eq]
      exact ⟨numbered.counted, numbered.accounted⟩
  | setDelay delay => exact ⟨numbered.counted, numbered.accounted⟩
  | setCallNow callNow => exact ⟨numbered.counted, numbered.accounted⟩
  | happens happens => exact numbered.happens sound happens
  | wait quiet => exact ⟨numbered.counted, numbered.accounted⟩

theorem Numbered.reaches (numbered : debouncer.Numbered) (sound : debouncer.Sound)
    (reaches : Reaches work debouncer last) : last.Numbered := by
  induction reaches with
  | refl => exact numbered
  | tail reaches step ih => exact ih.step (sound.reaches reaches) step

/-! ## Runs in flight -/

def Lasts (run : Run) (debouncer : Debouncer World) : Prop :=
  run ∈ debouncer.active ∨ ∃ time, run.finish ≤ time ∧ (run.ending, time) ∈ debouncer.history

theorem Lasts.mono {run : Run} (lasts : Lasts run debouncer)
    (active : run ∈ debouncer.active → run ∈ last.active)
    (history : ∀ item ∈ debouncer.history, item ∈ last.history) : Lasts run last := by
  rcases lasts with inside | ⟨time, late, noted⟩
  · exact .inl (active inside)
  · exact .inr ⟨time, late, history _ noted⟩

theorem Numbered.eq_of_number (numbered : debouncer.Numbered) {run other : Run}
    (inside : run ∈ debouncer.active) (insideToo : other ∈ debouncer.active)
    (same : run.number = other.number) : run = other :=
  List.inj_on_of_nodup_map (List.nodup_append.mp numbered.nodup_append).1 inside insideToo same

theorem Numbered.mem_finishRun (numbered : debouncer.Numbered) {run other : Run}
    (inside : run ∈ debouncer.active) (insideToo : other ∈ debouncer.active)
    (different : other ≠ run) : other ∈ (Debouncer.finishRun run debouncer).active := by
  have number : other.number ≠ run.number :=
    fun same => different (numbered.eq_of_number insideToo inside same)
  rw [finishRun_eq]
  exact List.mem_filter.mpr ⟨insideToo, by simpa using number⟩

theorem lasts_serve {run : Run} (lasts : Lasts run debouncer) (work : Work World) :
    Lasts run (debouncer.serve work) :=
  lasts.mono (List.mem_append_left _) fun _ inside => List.mem_cons_of_mem _ inside

theorem lasts_note {run : Run} (lasts : Lasts run debouncer) (event : Event) :
    Lasts run (debouncer.note event) :=
  lasts.mono id fun _ inside => List.mem_cons_of_mem _ inside

theorem Numbered.lasts_finishRun (numbered : debouncer.Numbered) {run other : Run}
    (inside : run ∈ debouncer.active) (due : run.finish ≤ debouncer.now)
    (lasts : Lasts other debouncer) : Lasts other (Debouncer.finishRun run debouncer) := by
  have noted : (Debouncer.finishRun run debouncer).history =
      (run.ending, debouncer.now) :: debouncer.history := by
    rw [finishRun_eq]
    rfl
  by_cases same : other = run
  · subst same
    exact .inr ⟨debouncer.now, due, noted ▸ List.mem_cons_self⟩
  · refine lasts.mono (fun insideToo => numbered.mem_finishRun inside insideToo same) ?_
    exact fun item past => noted ▸ List.mem_cons_of_mem _ past

theorem Numbered.lasts_step (numbered : debouncer.Numbered) (sound : debouncer.Sound)
    (step : Step work debouncer last) {run : Run} (lasts : Lasts run debouncer) :
    Lasts run last := by
  cases step with
  | trigger =>
      rw [sound.trigger_eq]
      split
      · exact lasts_serve (lasts_note lasts _) work
      · exact lasts_note lasts .triggered
  | cancel =>
      rw [sound.cancel_eq]
      exact lasts_note lasts .cancelled
  | setDelay delay => exact lasts
  | setCallNow callNow => exact lasts
  | happens happens =>
      have moved (time : Rat) : (debouncer.moveTo time).Numbered :=
        ⟨numbered.counted, numbered.accounted⟩
      have lastsThen (time : Rat) : Lasts run (debouncer.moveTo time) := lasts
      rcases sound.happens_cases happens with ⟨ending, inside, -, rfl⟩ | ⟨due, -, rfl⟩
      · exact (moved ending.finish).lasts_finishRun inside (le_now_moveTo_self debouncer _)
          (lastsThen _)
      · unfold closeAt
        split
        · exact lasts_serve (lastsThen due) work
        · exact lastsThen due
  | wait quiet => exact lasts

theorem Numbered.lasts_reaches (numbered : debouncer.Numbered) (sound : debouncer.Sound)
    (reaches : Reaches work debouncer last) {run : Run} (lasts : Lasts run debouncer) :
    Lasts run last := by
  induction reaches with
  | refl => exact lasts
  | tail reaches step ih =>
      exact (numbered.reaches sound reaches).lasts_step (sound.reaches reaches) step ih

end Debouncer

end CommandFile
