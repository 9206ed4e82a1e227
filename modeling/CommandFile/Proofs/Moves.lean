import CommandFile.Proofs.Bursts
import CommandFile.Proofs.Pasts

/-!
# Moves

A debouncer has no timer but that of its window.  So whatever it does is put together from a few
moves: an event is noted, the window goes away, a trigger is held back for a new window, or it is
served by a run with a window of its own.
-/

namespace CommandFile

namespace Run

def ending (run : Run) : Event :=
  match run.failure? with
  | none => .ended run.number
  | some _ => .failed run.number

def report (run : Run) : Log :=
  match run.failure? with
  | none => []
  | some failure => Debouncer.complaints failure

theorem isStart_ending (run : Run) : run.ending.isStart = false := by
  unfold ending
  split <;> rfl

end Run

namespace Debouncer

open Relation

variable {World : Type} {work : Work World} {debouncer last : Debouncer World} {time : Rat}

def disarm (debouncer : Debouncer World) : Debouncer World :=
  { debouncer with window? := none, timers := [] }

def hold (debouncer : Debouncer World) : Debouncer World :=
  openWindow { debouncer.disarm with pending := true }

def drop (debouncer : Debouncer World) : Debouncer World :=
  { debouncer.disarm with pending := false }

def serve (work : Work World) (debouncer : Debouncer World) : Debouncer World :=
  openWindow (debouncer.drop.startRun work)

def closeAt (work : Work World) (due : Rat) (debouncer : Debouncer World) : Debouncer World :=
  if debouncer.pending then (debouncer.moveTo due).serve work else (debouncer.moveTo due).disarm

@[simp] theorem timers_disarm (debouncer : Debouncer World) : debouncer.disarm.timers = [] := rfl

@[simp] theorem timers_hold (debouncer : Debouncer World) :
    debouncer.hold.timers = [⟨debouncer.opened, debouncer.delay.after debouncer.now⟩] := rfl

@[simp] theorem timers_serve (work : Work World) (debouncer : Debouncer World) :
    (debouncer.serve work).timers =
      [⟨debouncer.opened, debouncer.delay.after debouncer.now⟩] := rfl

@[simp] theorem startTimes_serve (work : Work World) (debouncer : Debouncer World) :
    (debouncer.serve work).startTimes = debouncer.startTimes ++ [debouncer.now] :=
  timesOf_cons Event.isStart (.started debouncer.started) debouncer.now debouncer.history

theorem startTimes_note (debouncer : Debouncer World) {event : Event}
    (other : event.isStart = false) :
    (debouncer.note event).startTimes = debouncer.startTimes := by
  simp [startTimes, note, timesOf_cons, other]

theorem finishRun_eq (run : Run) (debouncer : Debouncer World) :
    finishRun run debouncer =
      { debouncer.note run.ending with
        active := debouncer.active.filter (·.number ≠ run.number)
        log := debouncer.log ++ run.report } := by
  unfold finishRun Run.ending Run.report
  cases run.failure? with
  | none => simp [note]
  | some failure => rfl

theorem startTimes_finishRun (run : Run) (debouncer : Debouncer World) :
    (finishRun run debouncer).startTimes = debouncer.startTimes := by
  rw [finishRun_eq]
  exact startTimes_note debouncer run.isStart_ending

/-! ## Orders -/

theorem Sound.idle_iff (sound : debouncer.Sound) :
    debouncer.idle = true ↔ debouncer.timers = [] := by
  rw [← sound.closed_iff, idle, Option.isNone_iff_eq_none]

theorem Sound.quiet_of_closed (sound : debouncer.Sound) (closed : debouncer.window? = none) :
    debouncer.pending = false :=
  Bool.eq_false_iff.mpr fun pending => sound.window pending closed

theorem Sound.drop_note (sound : debouncer.Sound) (closed : debouncer.window? = none)
    (event : Event) : (debouncer.note event).drop = debouncer.note event := by
  have quiet := sound.quiet_of_closed closed
  have unarmed := sound.timers_of_closed closed
  simp only [drop, disarm, note, ← closed, ← quiet, ← unarmed]

theorem Sound.trigger_eq (sound : debouncer.Sound) (work : Work World) :
    debouncer.trigger work =
      if debouncer.idle && debouncer.callNow then (debouncer.note .triggered).serve work
      else (debouncer.note .triggered).hold := by
  cases opened : debouncer.window? with
  | some id =>
      obtain ⟨timer, single, rfl⟩ := sound.timers_of_open opened
      have stopped := stopTimer_of_single single
      rw [trigger_of_open opened, if_neg (by simp [idle, opened])]
      simp [hold, disarm, openWindow, stopTimer, note, single]
  | none =>
      have unarmed := sound.timers_of_closed opened
      cases calls : debouncer.callNow with
      | true =>
          rw [trigger_of_calls opened calls, if_pos (by simp [idle, opened]), serve,
            sound.drop_note opened]
      | false =>
          rw [trigger_of_waits opened calls, if_neg (by simp)]
          simp only [hold, disarm, note, ← opened, ← unarmed]

theorem Sound.cancel_eq (sound : debouncer.Sound) :
    debouncer.cancel = (debouncer.note .cancelled).drop := by
  cases opened : debouncer.window? with
  | some id =>
      obtain ⟨timer, single, rfl⟩ := sound.timers_of_open opened
      simp [Debouncer.cancel, drop, disarm, stopTimer, note, opened, single]
  | none =>
      rw [sound.drop_note opened, Debouncer.cancel]
      simp only [note, opened]
      simp only [← sound.quiet_of_closed opened, ← opened]

/-! ## What falls due -/

theorem closeWindow_disarm (work : Work World) (debouncer : Debouncer World) :
    debouncer.disarm.closeWindow work =
      if debouncer.pending then debouncer.serve work else debouncer.disarm := rfl

theorem time_of_next? {run : Run} (next : debouncer.next? = some (time, .finish run)) :
    run.finish = time := by
  have same {run other : Run} (next : some (run.finish, Due.finish run) =
      some (time, .finish other)) : other.finish = time := by
    obtain ⟨rfl, same⟩ := Prod.mk.inj (Option.some.inj next)
    rw [Due.finish.inj same]
  unfold next? at next
  split at next
  · nomatch next
  · exact same next
  · nomatch next
  · split at next
    · nomatch next
    · exact same next

theorem Sound.happen_cases (sound : debouncer.Sound) {due : Due}
    (next : debouncer.next? = some (time, due)) (work : Work World) :
    (∃ run ∈ debouncer.active, run.finish = time ∧
      (∀ due, debouncer.OpenUntil due → time ≤ due) ∧
      debouncer.happen work time due = Debouncer.finishRun run (debouncer.moveTo time)) ∨
    debouncer.OpenUntil time ∧ (∀ run ∈ debouncer.active, time < run.finish) ∧
      debouncer.happen work time due = debouncer.closeAt work time := by
  rcases next?_cases next with ⟨run, inside, rfl, early⟩ | ⟨timer, first, rfl, soon⟩
  · refine .inl ⟨run, inside, time_of_next? next, fun due opened => ?_, rfl⟩
    obtain ⟨timer, first⟩ := opened.earliest?
    exact early _ first
  · have single := sound.eq_of_mem (Timer.mem_of_earliest? first)
    have opened : debouncer.OpenUntil time := by
      rw [single] at first
      exact ⟨timer.id, single.trans (congrArg (· :: []) (earliest?_single first))⟩
    have stopped : ((debouncer.moveTo time).stopTimer timer.id).timers = [] :=
      stopTimer_of_single single
    have closed : closeWindow work ((debouncer.moveTo time).stopTimer timer.id) =
        closeWindow work (debouncer.moveTo time).disarm :=
      congrArg (fun timers => closeWindow work { debouncer.moveTo time with timers := timers })
        stopped
    exact .inr ⟨opened, soon, closed.trans (closeWindow_disarm work _)⟩

theorem Sound.happens_cases (sound : debouncer.Sound) (happens : Happens work debouncer last) :
    (∃ run ∈ debouncer.active, (∀ due, debouncer.OpenUntil due → run.finish ≤ due) ∧
      last = Debouncer.finishRun run (debouncer.moveTo run.finish)) ∨
    ∃ due, debouncer.OpenUntil due ∧ last = debouncer.closeAt work due := by
  obtain ⟨next⟩ := happens
  rcases sound.happen_cases next work with ⟨run, inside, rfl, early, same⟩ | ⟨opened, -, same⟩
  · exact .inl ⟨run, inside, early, same⟩
  · exact .inr ⟨_, opened, same⟩

theorem passes_finish {run : Run} (early : ∀ due, debouncer.OpenUntil due → run.finish ≤ due) :
    debouncer.Passes (finishRun run (debouncer.moveTo run.finish)) :=
  (passes_moveTo early).finishRun run

/-- By the time at which a window closes, the runs that have ended have not put the clock off. -/
theorem Passes.max_now (passes : debouncer.Passes last) {due : Rat}
    (opened : debouncer.OpenUntil due) : max last.now due = max debouncer.now due :=
  le_antisymm (max_le (passes.inTime due opened) (le_max_right _ _))
    (max_le_max passes.now (le_refl _))

/-! ## Debouncers without a window -/

structure Calm (debouncer : Debouncer World) : Prop where
  closed : debouncer.window? = none
  quiet : debouncer.pending = false
  unarmed : debouncer.timers = []

theorem Sound.calm_cancel (sound : debouncer.Sound) : debouncer.cancel.Calm := by
  rw [sound.cancel_eq]
  exact ⟨rfl, rfl, rfl⟩

theorem Calm.exists_run (calm : debouncer.Calm) (happens : Happens work debouncer last) :
    ∃ run time, last = Debouncer.finishRun run (debouncer.moveTo time) := by
  obtain ⟨next⟩ := happens
  rcases next?_cases next with ⟨run, -, rfl, -⟩ | ⟨timer, first, -⟩
  · exact ⟨run, _, rfl⟩
  · have inside := Timer.mem_of_earliest? first
    rw [calm.unarmed] at inside
    cases inside

theorem Calm.happens (calm : debouncer.Calm) (happens : Happens work debouncer last) :
    last.Calm := by
  obtain ⟨run, time, rfl⟩ := calm.exists_run happens
  rw [finishRun_eq]
  exact ⟨calm.closed, calm.quiet, calm.unarmed⟩

theorem Calm.happensOn (calm : debouncer.Calm)
    (happens : ReflTransGen (Happens work) debouncer last) : last.Calm := by
  induction happens with
  | refl => exact calm
  | tail _ happens ih => exact ih.happens happens

end Debouncer

end CommandFile
