import CommandFile.Proofs.Dues
import Mathlib.Tactic.Linarith

/-!
# Windows

A debouncer has one timer while its window is open and none otherwise.  A trigger that is
suppressed waits for the window to close, and the run that is started then answers every
trigger before it.  So no trigger is lost: an idle debouncer has answered all of them.
-/

namespace CommandFile.Debouncer

variable {World : Type} {work : Work World} {debouncer last : Debouncer World} {time : Rat}
  {history : List (Event × Rat)}

/-! ## Answers to triggers -/

/-- Every trigger has been followed by a cancellation, or by a run that was started no
earlier. -/
def Answered (history : List (Event × Rat)) : Prop :=
  ∀ later time earlier, history = later ++ (.triggered, time) :: earlier →
    ∃ item ∈ later, item.1 = .cancelled ∨ ∃ number, item.1 = .started number ∧ time ≤ item.2

@[simp] theorem answered_nil : Answered [] := by
  intro later time earlier same
  simp at same

theorem exists_of_cons_eq {event : Event} (other : event ≠ .triggered)
    {later earlier : List (Event × Rat)} {instant : Rat}
    (same : (event, time) :: history = later ++ (.triggered, instant) :: earlier) :
    ∃ others, later = (event, time) :: others ∧
      history = others ++ (.triggered, instant) :: earlier := by
  rcases List.cons_eq_append_iff.mp same with ⟨rfl, here⟩ | ⟨others, rfl, rest⟩
  · simp [other.symm] at here
  · exact ⟨others, rfl, rest⟩

theorem Answered.cons (answered : Answered history) {event : Event} (other : event ≠ .triggered)
    (time : Rat) : Answered ((event, time) :: history) := by
  intro later instant earlier same
  obtain ⟨others, rfl, rest⟩ := exists_of_cons_eq other same
  obtain ⟨item, inside, answers⟩ := answered others instant earlier rest
  exact ⟨item, List.mem_cons_of_mem _ inside, answers⟩

theorem answered_cancelled (time : Rat) (history : List (Event × Rat)) :
    Answered ((.cancelled, time) :: history) := by
  intro later instant earlier same
  obtain ⟨others, rfl, -⟩ := exists_of_cons_eq (by simp) same
  exact ⟨_, List.mem_cons_self, .inl rfl⟩

theorem answered_started (number : Nat) (past : ∀ item ∈ history, item.2 ≤ time) :
    Answered ((.started number, time) :: history) := by
  intro later instant earlier same
  obtain ⟨others, rfl, rest⟩ := exists_of_cons_eq (by simp) same
  have before : instant ≤ time := past (.triggered, instant) (by simp [rest])
  exact ⟨_, List.mem_cons_self, .inr ⟨number, rfl, before⟩⟩

/-! ## The window and its timer -/

structure Sound (debouncer : Debouncer World) : Prop where
  timers : debouncer.timers.map Timer.id = debouncer.window?.toList
  window : debouncer.pending = true → debouncer.window? ≠ none
  past : ∀ item ∈ debouncer.history, item.2 ≤ debouncer.now
  answered : debouncer.pending = false → Answered debouncer.history

theorem Sound.timers_of_closed (sound : debouncer.Sound) (closed : debouncer.window? = none) :
    debouncer.timers = [] := by
  simpa [closed] using sound.timers

theorem Sound.timers_of_open (sound : debouncer.Sound) {id : Nat}
    (opened : debouncer.window? = some id) :
    ∃ timer, debouncer.timers = [timer] ∧ timer.id = id := by
  have timers := sound.timers
  rw [opened] at timers
  simpa [List.map_eq_singleton_iff] using timers

theorem stopTimer_of_single {timer : Timer} (single : debouncer.timers = [timer]) :
    (debouncer.stopTimer timer.id).timers = [] := by
  simp [stopTimer, single]

theorem sound_new (delay : Delay) (callNow : Bool) (world : World) :
    (new delay callNow world).Sound where
  timers := rfl
  window := by simp [new]
  past := by simp [new]
  answered := fun _ => answered_nil

theorem sound_openWindow (unarmed : debouncer.timers = [])
    (past : ∀ item ∈ debouncer.history, item.2 ≤ debouncer.now)
    (answered : debouncer.pending = false → Answered debouncer.history) :
    debouncer.openWindow.Sound where
  timers := by simp [openWindow, unarmed]
  window := by simp [openWindow]
  past := past
  answered := answered

theorem past_cons (past : ∀ item ∈ history, item.2 ≤ time) (event : Event) :
    ∀ item ∈ (event, time) :: history, item.2 ≤ time :=
  List.forall_mem_cons.mpr ⟨le_refl time, past⟩

theorem sound_openWindow_startRun (work : Work World) (unarmed : debouncer.timers = [])
    (past : ∀ item ∈ debouncer.history, item.2 ≤ debouncer.now) :
    (openWindow (debouncer.startRun work)).Sound := by
  apply sound_openWindow
  · exact unarmed
  · exact past_cons past _
  · exact fun _ => answered_started _ past

theorem Sound.trigger (sound : debouncer.Sound) (work : Work World) :
    (debouncer.trigger work).Sound := by
  have past := past_cons sound.past .triggered
  cases opened : debouncer.window? with
  | some id =>
      obtain ⟨timer, single, rfl⟩ := sound.timers_of_open opened
      simp only [Debouncer.trigger, note, opened]
      apply sound_openWindow
      · exact stopTimer_of_single single
      · exact past
      · intro quiet
        cases quiet
  | none =>
      have unarmed := sound.timers_of_closed opened
      simp only [Debouncer.trigger, note, opened]
      split
      · exact sound_openWindow_startRun work unarmed past
      · apply sound_openWindow
        · exact unarmed
        · exact past
        · intro quiet
          cases quiet

theorem Sound.cancel (sound : debouncer.Sound) : debouncer.cancel.Sound := by
  have past := past_cons sound.past .cancelled
  have answered : Answered debouncer.cancel.history := by
    cases opened : debouncer.window? <;>
      simpa [Debouncer.cancel, note, stopTimer, opened] using answered_cancelled _ _
  cases opened : debouncer.window? with
  | some id =>
      obtain ⟨timer, single, rfl⟩ := sound.timers_of_open opened
      simp only [Debouncer.cancel, note, opened] at answered ⊢
      exact ⟨by simp [stopTimer, single], by simp, past, fun _ => answered⟩
  | none =>
      have unarmed := sound.timers_of_closed opened
      simp only [Debouncer.cancel, note, opened] at answered ⊢
      exact ⟨by simp [unarmed], by simp, past, fun _ => answered⟩

theorem sound_closeWindow (work : Work World) (unarmed : debouncer.timers = [])
    (past : ∀ item ∈ debouncer.history, item.2 ≤ debouncer.now)
    (answered : debouncer.pending = false → Answered debouncer.history) :
    (debouncer.closeWindow work).Sound := by
  unfold closeWindow
  dsimp only
  split
  · exact sound_openWindow_startRun work unarmed past
  · next quiet => exact ⟨by simp [unarmed], fun pending => absurd pending quiet, past, answered⟩

theorem now_moveTo (debouncer : Debouncer World) (time : Rat) :
    (debouncer.moveTo time).now = max debouncer.now time := by
  unfold moveTo
  dsimp only
  split
  · next later => exact (max_eq_right later.le).symm
  · next past => exact (max_eq_left (not_lt.mp past)).symm

theorem moveTo_of_le (past : time ≤ debouncer.now) : debouncer.moveTo time = debouncer := by
  unfold moveTo
  rw [if_neg (not_lt.mpr past)]

theorem le_now_moveTo (debouncer : Debouncer World) (time : Rat) :
    debouncer.now ≤ (debouncer.moveTo time).now :=
  (le_max_left _ _).trans_eq (now_moveTo debouncer time).symm

theorem Sound.moveTo (sound : debouncer.Sound) (time : Rat) : (debouncer.moveTo time).Sound where
  timers := sound.timers
  window := sound.window
  past := fun item inside => (sound.past item inside).trans (le_now_moveTo debouncer time)
  answered := sound.answered

theorem Sound.finishRun (sound : debouncer.Sound) (run : Run) :
    (finishRun run debouncer).Sound := by
  unfold Debouncer.finishRun
  dsimp only
  split
  · exact ⟨sound.timers, sound.window, past_cons sound.past _,
      fun quiet => (sound.answered quiet).cons (by simp) _⟩
  · exact ⟨sound.timers, sound.window, past_cons sound.past _,
      fun quiet => (sound.answered quiet).cons (by simp) _⟩

theorem Sound.eq_of_mem (sound : debouncer.Sound) {timer : Timer}
    (inside : timer ∈ debouncer.timers) : debouncer.timers = [timer] := by
  cases opened : debouncer.window? with
  | none => simp [sound.timers_of_closed opened] at inside
  | some id =>
      obtain ⟨single, timers, -⟩ := sound.timers_of_open opened
      rw [timers, List.mem_singleton] at inside
      rw [timers, inside]

theorem Sound.happens (sound : debouncer.Sound) (happens : Happens work debouncer last) :
    last.Sound := by
  obtain ⟨next⟩ := happens
  rename_i time due
  have moved := sound.moveTo time
  rcases next?_cases next with ⟨run, -, rfl, -⟩ | ⟨timer, first, rfl, -⟩
  · exact moved.finishRun run
  · -- The timer that goes off is the only one, so none is left when the window closes.
    apply sound_closeWindow
    · exact stopTimer_of_single (moved.eq_of_mem (Timer.mem_of_earliest? first))
    · exact moved.past
    · exact moved.answered

theorem Sound.step (sound : debouncer.Sound) (step : Step work debouncer last) : last.Sound := by
  cases step with
  | trigger => exact sound.trigger work
  | cancel => exact sound.cancel
  | setDelay delay => exact ⟨sound.timers, sound.window, sound.past, sound.answered⟩
  | setCallNow callNow => exact ⟨sound.timers, sound.window, sound.past, sound.answered⟩
  | happens happens => exact sound.happens happens
  | wait quiet => exact sound.moveTo _

theorem Sound.reaches (sound : debouncer.Sound) (reaches : Reaches work debouncer last) :
    last.Sound := by
  induction reaches with
  | refl => exact sound
  | tail _ step ih => exact ih.step step

theorem Sound.act (sound : debouncer.Sound) (work : Work World) (order : Order) :
    (debouncer.act work order).Sound := by
  have acts : ReachesBy work (fun _ => true) debouncer (debouncer.act work order) :=
    reachesBy_act work debouncer rfl
  exact sound.reaches acts.reaches

/-- No trigger is lost.  Whatever orders are given and however the runs go, a suppressed
trigger waits for the one timer that there is, that of the open window, and a debouncer
without an open window has answered all triggers. -/
theorem keeps_triggers (work : Work World) (delay : Delay) (callNow : Bool) (world : World) :
    (∀ orders, Reaches work (new delay callNow world)
      (obeyAll work (new delay callNow world) orders)) ∧
    ∀ debouncer, Reaches work (new delay callNow world) debouncer →
      (debouncer.pending = true →
        ∃ timer, debouncer.timers = [timer] ∧ debouncer.window? = some timer.id) ∧
      debouncer.timers.map Timer.id = debouncer.window?.toList ∧
      (debouncer.idle = true → debouncer.pending = false ∧ Answered debouncer.history) := by
  refine ⟨reaches_obeyAll work _, fun debouncer reaches => ?_⟩
  have sound := (sound_new delay callNow world).reaches reaches
  refine ⟨fun pending => ?_, sound.timers, fun idle => ?_⟩
  · obtain ⟨id, opened⟩ := Option.ne_none_iff_exists'.mp (sound.window pending)
    obtain ⟨timer, single, rfl⟩ := sound.timers_of_open opened
    exact ⟨timer, single, opened⟩
  · have closed : debouncer.window? = none := by simpa [Debouncer.idle] using idle
    have quiet : debouncer.pending = false :=
      Bool.eq_false_iff.mpr fun pending => sound.window pending closed
    exact ⟨quiet, sound.answered quiet⟩

/-- Three triggers, one of them in the window behind a run that fails, and a delay that grows
meanwhile. -/
theorem keeps_triggers_slowed :
    let work : Work Unit := fun _ _ _ => ⟨(), [], 1 / 2, some .noPath⟩
    let start : Debouncer Unit := new (.finite 1) true ()
    let last := obeyAll work start
      [.trigger 2, .setDelay (.finite 3), .advance 2, .trigger 1, .advance 10]
    Reaches work start last ∧ last.idle = true ∧ last.started = 3 ∧ Answered last.history := by
  intro work start last
  obtain ⟨reaches, keeps⟩ := keeps_triggers work (.finite 1) true ()
  have idle : last.idle = true := by decide +kernel
  exact ⟨reaches _, idle, by decide +kernel, ((keeps last (reaches _)).2.2 idle).2⟩

end CommandFile.Debouncer
