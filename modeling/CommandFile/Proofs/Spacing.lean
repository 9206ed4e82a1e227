import CommandFile.Proofs.Moves

/-!
# Spacing

A run is started where no window is open, or where the open one closes, and it opens the next
window.  As long as the delay stays the same and nothing is cancelled, a window is never closed
before the delay behind the last start is over.  So the starts keep that distance.
-/

namespace CommandFile

namespace Delay

variable {delay : Delay} {seconds start time instant : Rat}

def IsOver (delay : Delay) (start time : Rat) : Prop :=
  ∃ due, delay.after start = some due ∧ due ≤ time

@[simp] theorem isOver_finite : (finite seconds).IsOver start time ↔ start + seconds ≤ time := by
  simp [IsOver, after]

theorem IsOver.mono (elapsed : delay.IsOver start time) (later : time ≤ instant) :
    delay.IsOver start instant := by
  obtain ⟨due, ends, past⟩ := elapsed
  exact ⟨due, ends, past.trans later⟩

theorem isOver_of_after {due : Rat} (before : start ≤ time) (ends : delay.after time = some due) :
    delay.IsOver start due := by
  cases delay with
  | finite seconds =>
      obtain rfl := Option.some.inj ends
      exact isOver_finite.mpr (by linarith)
  | endless => nomatch ends

end Delay

namespace Debouncer

variable {World : Type} {work : Work World} {debouncer last : Debouncer World} {delay : Delay}

/-- The orders that neither cancel anything nor change the delay. -/
def Order.keepsPace : Order → Bool
  | .cancel => false
  | .setDelay _ => false
  | _ => true

theorem Sound.le_now_of_mem_startTimes (sound : debouncer.Sound) {start : Rat}
    (inside : start ∈ debouncer.startTimes) : start ≤ debouncer.now := by
  obtain ⟨item, kept, rfl⟩ := List.mem_map.mp (List.mem_reverse.mp inside)
  exact sound.past item (List.mem_of_mem_filter kept)

/-- The starts keep their distance, and the window is not to be closed before the next one may
be. -/
structure Spaced (delay : Delay) (debouncer : Debouncer World) : Prop where
  sound : debouncer.Sound
  constant : debouncer.delay = delay
  apart : debouncer.startTimes.Pairwise delay.IsOver
  closed : debouncer.timers = [] → ∀ start ∈ debouncer.startTimes, delay.IsOver start debouncer.now
  opened : ∀ due, debouncer.OpenUntil due →
    ∀ start ∈ debouncer.startTimes, delay.IsOver start due

theorem spaced_new (delay : Delay) (callNow : Bool) (world : World) :
    Spaced delay (new delay callNow world) where
  sound := sound_new _ _ _
  constant := rfl
  apart := .nil
  closed := by simp [startTimes, timesOf, new]
  opened := by simp [startTimes, timesOf, new]

theorem spaced_of_armed (sound : debouncer.Sound) (constant : debouncer.delay = delay)
    (apart : debouncer.startTimes.Pairwise delay.IsOver) {id : Nat}
    (armed : debouncer.timers = [⟨id, debouncer.delay.after debouncer.now⟩]) :
    Spaced delay debouncer where
  sound := sound
  constant := constant
  apart := apart
  closed := by simp [armed]
  opened := by
    rintro due ⟨other, single⟩ start inside
    obtain ⟨-, ends⟩ : id = other ∧ debouncer.delay.after debouncer.now = some due := by
      simpa [armed] using single
    rw [constant] at ends
    exact Delay.isOver_of_after (sound.le_now_of_mem_startTimes inside) ends

theorem spaced_finishRun (spaced : Spaced delay debouncer) (run : Run) :
    Spaced delay (finishRun run debouncer) := by
  have sound := spaced.sound.finishRun run
  have same := startTimes_finishRun run debouncer
  rw [finishRun_eq] at sound same ⊢
  exact ⟨sound, spaced.constant, same ▸ spaced.apart, fun closed => same ▸ spaced.closed closed,
    fun due opened => same ▸ spaced.opened due opened⟩

theorem apart_serve (apart : debouncer.startTimes.Pairwise delay.IsOver)
    (elapsed : ∀ start ∈ debouncer.startTimes, delay.IsOver start debouncer.now)
    (work : Work World) : (debouncer.serve work).startTimes.Pairwise delay.IsOver := by
  rw [startTimes_serve, List.pairwise_append]
  refine ⟨apart, List.pairwise_singleton _ _, fun start inside now single => ?_⟩
  rw [List.mem_singleton.mp single]
  exact elapsed start inside

theorem Spaced.trigger (spaced : Spaced delay debouncer) (work : Work World) :
    Spaced delay (debouncer.trigger work) := by
  have sound := spaced.sound.trigger work
  have noted : (debouncer.note .triggered).startTimes = debouncer.startTimes :=
    startTimes_note debouncer rfl
  rw [spaced.sound.trigger_eq work] at sound ⊢
  split at sound
  · next leads =>
      have closed : debouncer.window? = none := by
        simpa [idle] using (Bool.and_eq_true_iff.mp leads).1
      have elapsed := spaced.closed (spaced.sound.timers_of_closed closed)
      rw [if_pos leads]
      refine spaced_of_armed sound spaced.constant (apart_serve ?_ ?_ work) (timers_serve _ _)
      · exact noted ▸ spaced.apart
      · exact noted ▸ elapsed
  · next waits =>
      rw [if_neg waits]
      exact spaced_of_armed sound spaced.constant (noted ▸ spaced.apart) (timers_hold _)

theorem Spaced.wait (spaced : Spaced delay debouncer) (time : Rat) :
    Spaced delay (debouncer.moveTo time) where
  sound := spaced.sound.moveTo time
  constant := spaced.constant
  apart := spaced.apart
  closed := fun closed start inside =>
    (spaced.closed closed start inside).mono (le_now_moveTo debouncer time)
  opened := spaced.opened

theorem Spaced.happens (spaced : Spaced delay debouncer) (happens : Happens work debouncer last) :
    Spaced delay last := by
  have sound := spaced.sound.happens happens
  rcases spaced.sound.happens_cases happens with ⟨run, -, -, rfl⟩ | ⟨due, opened, rfl⟩
  · exact spaced_finishRun (spaced.wait run.finish) run
  · have moved := spaced.wait due
    have elapsed : ∀ start ∈ (debouncer.moveTo due).startTimes,
        delay.IsOver start (debouncer.moveTo due).now := fun start inside =>
      (moved.opened due opened start inside).mono (le_now_moveTo_self debouncer due)
    unfold closeAt at sound ⊢
    split at sound
    · next pending =>
        rw [if_pos pending]
        exact spaced_of_armed sound moved.constant (apart_serve moved.apart elapsed work)
          (timers_serve _ _)
    · next quiet =>
        rw [if_neg quiet]
        exact ⟨sound, moved.constant, moved.apart, fun _ => elapsed, by simp [OpenUntil]⟩

theorem Spaced.step (spaced : Spaced delay debouncer)
    (step : StepBy work Order.keepsPace debouncer last) : Spaced delay last := by
  cases step with
  | trigger may => exact spaced.trigger work
  | cancel may => nomatch may
  | setDelay may => nomatch may
  | setCallNow may =>
      have told : StepBy work Order.keepsPace debouncer _ := .setCallNow may debouncer
      have sound := spaced.sound.step told.step
      exact ⟨sound, spaced.constant, spaced.apart, spaced.closed, spaced.opened⟩
  | happens happens => exact spaced.happens happens
  | wait _ quiet => exact spaced.wait _

theorem Spaced.reaches (spaced : Spaced delay debouncer)
    (reaches : ReachesBy work Order.keepsPace debouncer last) : Spaced delay last := by
  induction reaches with
  | refl => exact spaced
  | tail _ step ih => exact ih.step step

/-- Runs are never started too close together.  As long as nothing is cancelled and the delay
stays the same, it is over between any two starts, and until it is over behind a start the window
is open.  How long the runs take, whether they fail and when the debouncer is told to call at
once or not does not matter; and an instant is any one at which waiting may stop. -/
theorem starts_spaced (work : Work World) (delay : Delay) (callNow : Bool) (world : World) :
    let start := new delay callNow world
    (∀ orders : List Order, (∀ order ∈ orders, order.keepsPace = true) →
      ReachesBy work Order.keepsPace start (obeyAll work start orders)) ∧
    ∀ debouncer, ReachesBy work Order.keepsPace start debouncer →
      debouncer.startTimes.Pairwise delay.IsOver ∧
      ∀ begun ∈ debouncer.startTimes, ¬ delay.IsOver begun debouncer.now →
        debouncer.idle = false := by
  refine ⟨fun orders may => reachesBy_obeyAll work _ may, fun debouncer reaches => ?_⟩
  have spaced := (spaced_new delay callNow world).reaches reaches
  refine ⟨spaced.apart, fun begun inside early => Bool.eq_false_iff.mpr fun idle => early ?_⟩
  exact spaced.closed (spaced.sound.idle_iff.mp idle) begun inside

/-- Runs that overlap and fail, and a debouncer that is told in the window behind the first one not
to call at once, and in the window behind the second one to do so. -/
theorem starts_spaced_overlapping :
    let work : Work Unit := fun _ _ _ => ⟨(), [], 3, some .noPath⟩
    let start : Debouncer Unit := new (.finite 1) true ()
    let orders : List Order := [.trigger 1, .advance (1 / 2), .setCallNow false, .trigger 2,
      .advance (5 / 4), .setCallNow true, .advance 1, .trigger 1, .advance (3 / 4)]
    let last := obeyAll work start orders
    last.startTimes = [0, 3 / 2, 11 / 4] ∧ last.running = 2 ∧
      last.startTimes.Pairwise (Delay.finite 1).IsOver ∧
      ¬ (Delay.finite 1).IsOver (11 / 4) last.now ∧ last.idle = false := by
  intro work start orders last
  have facts : last.startTimes = [0, 3 / 2, 11 / 4] ∧ last.running = 2 ∧ last.now = 7 / 2 := by
    decide +kernel
  obtain ⟨starts, running, now⟩ := facts
  obtain ⟨reaches, spaced⟩ := starts_spaced work (.finite 1) true ()
  obtain ⟨apart, opened⟩ := spaced last (reaches orders (by decide))
  have early : ¬ (Delay.finite 1).IsOver (11 / 4) last.now := by
    rw [now, Delay.isOver_finite]
    norm_num
  exact ⟨starts, running, apart, early, opened (11 / 4) (by simp [starts]) early⟩

end Debouncer

end CommandFile
