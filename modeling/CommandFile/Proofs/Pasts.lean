import CommandFile.Proofs.Mirrors
import Mathlib.Data.List.Basic

/-!
# Debouncers with a past

The numbers of timers and runs, the history and the rows grow as long as a debouncer lives,
but nothing is ever decided by them.  So a debouncer with a past does what one without it
does, and the same holds of a world that remembers, as long as the work goes on in it as in
one that does not.
-/

namespace CommandFile

/-- What a debouncer has behind it: how many timers it has set and runs it has started, its
history, its rows, and what the world remembers. -/
structure Past (World : Type) where
  opened : Nat
  started : Nat
  history : List (Event × Rat)
  log : Log
  memory : World → World

def Timer.renumber (opened : Nat) (timer : Timer) : Timer := { timer with id := timer.id + opened }

def Run.renumber (started : Nat) (run : Run) : Run := { run with number := run.number + started }

def Event.renumber (started : Nat) : Event → Event
  | .started number => .started (number + started)
  | .ended number => .ended (number + started)
  | .failed number => .failed (number + started)
  | .triggered => .triggered
  | .cancelled => .cancelled

def Due.renumber (opened started : Nat) : Due → Due
  | .finish run => .finish (run.renumber started)
  | .timer found => .timer (found.renumber opened)

@[simp] theorem Timer.renumber_zero : Timer.renumber 0 = fun timer => timer := rfl

@[simp] theorem Run.renumber_zero : Run.renumber 0 = fun run => run := rfl

@[simp] theorem Event.renumber_zero (event : Event) : event.renumber 0 = event := by
  cases event <;> rfl

namespace Debouncer

variable {World : Type}

def after (past : Past World) (debouncer : Debouncer World) : Debouncer World :=
  { debouncer with
    window? := debouncer.window?.map (· + past.opened)
    timers := debouncer.timers.map (Timer.renumber past.opened)
    opened := debouncer.opened + past.opened
    active := debouncer.active.map (Run.renumber past.started)
    started := debouncer.started + past.started
    history :=
      debouncer.history.map (fun item => (item.1.renumber past.started, item.2)) ++ past.history
    world := past.memory debouncer.world
    log := past.log ++ debouncer.log }

end Debouncer

namespace Past

variable {World : Type}

def Carries (past : Past World) (work later : Work World) : Prop :=
  ∀ number time world,
    later (number + past.started) time (past.memory world) =
      { work number time world with world := past.memory (work number time world).world }

end Past

namespace Debouncer

variable {World : Type} {past : Past World} {work later : Work World}

/-! ## Single steps -/

@[simp] theorem window?_after (debouncer : Debouncer World) :
    (debouncer.after past).window? = debouncer.window?.map (· + past.opened) := rfl

theorem note_after (debouncer : Debouncer World) {event : Event}
    (same : event.renumber past.started = event) :
    (debouncer.after past).note event = (debouncer.note event).after past := by
  simp [note, after, same]

@[simp] theorem stopTimer_after (debouncer : Debouncer World) (id : Nat) :
    (debouncer.after past).stopTimer (id + past.opened) = (debouncer.stopTimer id).after past := by
  simp [stopTimer, after, List.filter_map, Function.comp_def, Timer.renumber]

theorem openWindow_after (debouncer : Debouncer World) :
    (debouncer.after past).openWindow = debouncer.openWindow.after past := by
  simp only [openWindow, after, Option.map_some, List.map_append, List.map_cons, List.map_nil,
    Timer.renumber, Nat.add_right_comm]

theorem startRun_after (carries : past.Carries work later) (debouncer : Debouncer World) :
    (debouncer.after past).startRun later = (debouncer.startRun work).after past := by
  have doing := carries debouncer.started debouncer.now debouncer.world
  simp [startRun, after, doing, Run.renumber, Event.renumber, Nat.add_right_comm]

theorem finishRun_after (run : Run) (debouncer : Debouncer World) :
    finishRun (run.renumber past.started) (debouncer.after past) =
      (finishRun run debouncer).after past := by
  have rest : (debouncer.active.map (Run.renumber past.started)).filter
        (·.number ≠ run.number + past.started) =
      (debouncer.active.filter (·.number ≠ run.number)).map (Run.renumber past.started) := by
    simp [List.filter_map, Function.comp_def, Run.renumber]
  cases failed : run.failure? <;>
    simp only [finishRun, Run.renumber, failed] <;>
    simp only [note, after, rest, List.map_cons, Event.renumber, List.cons_append,
      List.append_assoc]

theorem trigger_of_open {debouncer : Debouncer World} {id : Nat}
    (opened : debouncer.window? = some id) (work : Work World) :
    debouncer.trigger work =
      openWindow { (debouncer.note .triggered).stopTimer id with pending := true } := by
  simp only [trigger, note, opened]

theorem trigger_of_calls {debouncer : Debouncer World} (closed : debouncer.window? = none)
    (calls : debouncer.callNow = true) (work : Work World) :
    debouncer.trigger work = openWindow ((debouncer.note .triggered).startRun work) := by
  simp only [trigger, note, closed, calls, if_true]

theorem trigger_of_waits {debouncer : Debouncer World} (closed : debouncer.window? = none)
    (waits : debouncer.callNow = false) (work : Work World) :
    debouncer.trigger work = openWindow { debouncer.note .triggered with pending := true } := by
  simp only [trigger, note, closed, waits, Bool.false_eq_true, if_false]

theorem trigger_after (carries : past.Carries work later) (debouncer : Debouncer World) :
    (debouncer.after past).trigger later = (debouncer.trigger work).after past := by
  have noted : (debouncer.after past).note .triggered = (debouncer.note .triggered).after past :=
    note_after debouncer rfl
  have window : (debouncer.after past).window? = _ := window?_after debouncer
  cases opened : debouncer.window? with
  | some id =>
      rw [opened] at window
      rw [trigger_of_open opened, trigger_of_open window, noted, stopTimer_after]
      exact openWindow_after { (debouncer.note .triggered).stopTimer id with pending := true }
  | none =>
      rw [opened] at window
      cases calls : debouncer.callNow with
      | true =>
          rw [trigger_of_calls opened calls, trigger_of_calls window calls, noted,
            startRun_after carries, openWindow_after]
      | false =>
          rw [trigger_of_waits opened calls, trigger_of_waits window calls, noted]
          exact openWindow_after { debouncer.note .triggered with pending := true }

theorem cancel_after (debouncer : Debouncer World) :
    (debouncer.after past).cancel = debouncer.cancel.after past := by
  unfold cancel
  rw [note_after debouncer rfl]
  cases opened : (debouncer.note .cancelled).window? with
  | some id =>
      simp only [window?_after, opened, Option.map_some]
      rw [stopTimer_after]
      rfl
  | none =>
      simp only [window?_after, opened, Option.map_none]
      simp [after, opened]

theorem closeWindow_of_pending {debouncer : Debouncer World} (pending : debouncer.pending = true)
    (work : Work World) :
    debouncer.closeWindow work =
      openWindow (startRun work { debouncer with window? := none, pending := false }) := by
  simp only [closeWindow, pending, if_true]

theorem closeWindow_of_quiet {debouncer : Debouncer World} (quiet : debouncer.pending = false)
    (work : Work World) : debouncer.closeWindow work = { debouncer with window? := none } := by
  simp only [closeWindow, quiet, Bool.false_eq_true, if_false]

theorem closeWindow_after (carries : past.Carries work later) (debouncer : Debouncer World) :
    (debouncer.after past).closeWindow later = (debouncer.closeWindow work).after past := by
  have sames : (debouncer.after past).pending = debouncer.pending := rfl
  cases pending : debouncer.pending with
  | true =>
      have begun := startRun_after carries { debouncer with window? := none, pending := false }
      rw [closeWindow_of_pending (sames.trans pending), closeWindow_of_pending pending,
        ← openWindow_after, ← begun]
      rfl
  | false =>
      rw [closeWindow_of_quiet (sames.trans pending), closeWindow_of_quiet pending]
      rfl

/-! ## The clock -/

theorem next?_after (debouncer : Debouncer World) :
    (debouncer.after past).next? =
      debouncer.next?.map fun next => (next.1, next.2.renumber past.opened past.started) := by
  have renumbered (due : Due) :
      due.map (Run.renumber past.started) (Timer.renumber past.opened) =
        due.renumber past.opened past.started := by
    cases due <;> rfl
  simp only [← renumbered]
  exact next?_map (fun _ => rfl) (fun _ => rfl) rfl rfl

theorem weight_after (debouncer : Debouncer World) :
    (debouncer.after past).weight = debouncer.weight := by
  simp only [weight, after, List.length_map]
  rfl

theorem happen_after (carries : past.Carries work later) (debouncer : Debouncer World)
    (time : Rat) (due : Due) :
    (debouncer.after past).happen later time (due.renumber past.opened past.started) =
      (debouncer.happen work time due).after past := by
  cases due with
  | finish run => exact finishRun_after run (debouncer.moveTo time)
  | timer timer =>
      have stopped : ((debouncer.moveTo time).after past).stopTimer (timer.id + past.opened) = _ :=
        stopTimer_after (debouncer.moveTo time) timer.id
      exact (congrArg (closeWindow later) stopped).trans (closeWindow_after carries _)

theorem mirrors_after (carries : past.Carries work later) :
    Mirrors work later (after past) (Due.renumber past.opened past.started) where
  now := fun _ => rfl
  weight := weight_after
  active := fun _ => List.map_eq_nil_iff
  next := next?_after
  moveTo := fun _ _ => rfl
  happen := happen_after carries
  trigger := trigger_after carries
  cancel := cancel_after
  setDelay := fun _ _ => rfl
  setCallNow := fun _ _ => rfl

theorem obey_after (carries : past.Carries work later) (debouncer : Debouncer World)
    (order : Order) :
    (debouncer.after past).obey later order = (debouncer.obey work order).after past :=
  (mirrors_after carries).obey debouncer order

end Debouncer

end CommandFile
