import CommandFile.Proofs.Runs
import CommandFile.Proofs.Spacing

/-!
# Drains

To wait for the runs in flight takes until none is left, and windows are closed meanwhile.  One
that closes behind a waiting trigger adds a run to those that are waited for.  But a waiting trigger
is served once, and none comes while the debouncer waits, so there is at most one such run.
-/

namespace CommandFile.Debouncer

variable {World : Type} {work : Work World} {debouncer last other : Debouncer World} {due : Rat}

/-! ## Waiting -/

inductive Waits (work : Work World) : Debouncer World → Debouncer World → Prop
  | done {debouncer : Debouncer World} (none : debouncer.active = []) :
      Waits work debouncer debouncer
  | next {debouncer last : Debouncer World} {time : Rat} {due : Due}
      (busy : debouncer.active ≠ []) (next : debouncer.next? = some (time, due))
      (rest : Waits work (debouncer.happen work time due) last) : Waits work debouncer last

theorem waits_happenWhileActive (work : Work World) {fuel : Nat}
    (enough : debouncer.weight ≤ fuel) :
    Waits work debouncer (happenWhileActive work fuel debouncer) := by
  induction fuel generalizing debouncer with
  | zero => exact .done (active_happenWhileActive work enough)
  | succ fuel ih =>
      unfold happenWhileActive
      split
      · next none => exact .done none
      · next busy =>
          split
          · next none => exact absurd none (next?_ne_none busy)
          · next time due next =>
              have lower := weight_happen_lt work next
              exact .next busy next (ih (by omega))

theorem Waits.unique (waits : Waits work debouncer last) (waitsToo : Waits work debouncer other) :
    other = last := by
  induction waits with
  | done none =>
      cases waitsToo with
      | done => rfl
      | next busy => exact absurd none busy
  | next busy next rest ih =>
      cases waitsToo with
      | done none => exact absurd none busy
      | next _ nextToo restToo =>
          obtain ⟨rfl, rfl⟩ := Prod.mk.inj (Option.some.inj (next.symm.trans nextToo))
          exact ih restToo

theorem Waits.le_now (waits : Waits work debouncer last) : debouncer.now ≤ last.now := by
  induction waits with
  | done none => exact le_refl _
  | next busy next rest ih => exact (le_now_of_happensOn (.single (.next next))).trans ih

/-! ## Windows that close meanwhile -/

def ClosesFirst (debouncer : Debouncer World) (due : Rat) : Prop :=
  debouncer.OpenUntil due ∧ ∃ run ∈ debouncer.active, due < run.finish

theorem closesFirst_of_finishRun {run : Run} {time : Rat}
    (closes : (finishRun run (debouncer.moveTo time)).ClosesFirst due) :
    debouncer.ClosesFirst due := by
  obtain ⟨opened, other, inside, late⟩ := closes
  rw [finishRun_eq] at opened inside
  exact ⟨opened, other, List.mem_of_mem_filter inside, late⟩

theorem ClosesFirst.finishRun (closes : debouncer.ClosesFirst due) (numbered : debouncer.Numbered)
    {run : Run} (inside : run ∈ debouncer.active)
    (early : ∀ due, debouncer.OpenUntil due → run.finish ≤ due) :
    (finishRun run (debouncer.moveTo run.finish)).ClosesFirst due := by
  obtain ⟨opened, other, insideToo, late⟩ := closes
  have different : other ≠ run := by
    rintro rfl
    exact absurd (early due opened) (not_le_of_gt late)
  have moved : (debouncer.moveTo run.finish).Numbered := ⟨numbered.counted, numbered.accounted⟩
  exact ⟨(passes_finish early).openUntil_iff.mpr opened, other,
    moved.mem_finishRun inside insideToo different, late⟩

theorem Waits.passes (waits : Waits work debouncer last) (sound : debouncer.Sound)
    (late : ∀ due, ¬ debouncer.ClosesFirst due) : debouncer.Passes last := by
  induction waits with
  | done none => exact .refl _
  | next busy next rest ih =>
      have happens : Happens work _ _ := .next next
      have soundThen := sound.happens happens
      rcases sound.happen_cases next work with
        ⟨run, -, rfl, early, same⟩ | ⟨opened, soon, -⟩
      · rw [same] at ih soundThen
        exact (passes_finish early).trans
          (ih soundThen fun due closes => late due (closesFirst_of_finishRun closes))
      · -- The timer comes before every run, and some run is in flight.
        obtain ⟨run, inside⟩ := List.exists_mem_of_ne_nil _ busy
        exact absurd ⟨opened, run, inside, soon run inside⟩ (late _)

theorem le_now_closeAt (work : Work World) (debouncer : Debouncer World) (due : Rat) :
    due ≤ (debouncer.closeAt work due).now := by
  unfold closeAt
  split <;> exact le_now_moveTo_self debouncer due

/-- Where the window closes first, some runs end before that and the others are waited for after
that. -/
theorem Waits.closes (waits : Waits work debouncer last) (sound : debouncer.Sound)
    (numbered : debouncer.Numbered) (closes : debouncer.ClosesFirst due) :
    ∃ later, debouncer.Passes later ∧ (later.closeAt work due).Sound ∧
      (later.closeAt work due).Numbered ∧ Waits work (later.closeAt work due) last := by
  induction waits with
  | done none =>
      obtain ⟨-, run, inside, -⟩ := closes
      rw [none] at inside
      cases inside
  | next busy next rest ih =>
      have happens : Happens work _ _ := .next next
      have soundThen := sound.happens happens
      have numberedThen := numbered.happens sound happens
      rcases sound.happen_cases next work with
        ⟨run, inside, rfl, early, same⟩ | ⟨opened, -, same⟩
      · rw [same] at ih soundThen numberedThen
        obtain ⟨later, passes, goesOn⟩ :=
          ih soundThen numberedThen (closes.finishRun numbered inside early)
        exact ⟨later, (passes_finish early).trans passes, goesOn⟩
      · obtain rfl := closes.1.unique opened
        rw [same] at rest soundThen numberedThen
        exact ⟨_, .refl _, soundThen, numberedThen, rest⟩

theorem Waits.quiet (waits : Waits work debouncer last) (sound : debouncer.Sound)
    (numbered : debouncer.Numbered) (quiet : debouncer.pending = false) :
    last.startTimes = debouncer.startTimes ∧ last.pending = false ∧
      (last.timers = debouncer.timers ∨ ∃ due, debouncer.OpenUntil due ∧ due ≤ last.now) := by
  by_cases closes : ∃ due, debouncer.ClosesFirst due
  · -- The window closes for good, so nothing but ends of runs is left behind it.
    obtain ⟨due, closes⟩ := closes
    obtain ⟨later, passes, soundThen, -, rest⟩ := waits.closes sound numbered closes
    have closed : later.closeAt work due = (later.moveTo due).disarm := by
      rw [closeAt, if_neg (by simp [passes.pending, quiet])]
    rw [closed] at rest soundThen
    have still := rest.passes soundThen fun other closes => closes.1.ne_nil rfl
    refine ⟨still.startTimes.trans passes.startTimes,
      still.pending.trans (passes.pending.trans quiet), .inr ⟨due, closes.1, ?_⟩⟩
    exact (le_now_moveTo_self later due).trans still.now
  · have passes := waits.passes sound (not_exists.mp closes)
    exact ⟨passes.startTimes, passes.pending.trans quiet, .inl passes.timers⟩

/-- A waiting trigger whose window closes first is served by one run, which is waited for, too. -/
theorem Waits.serves (waits : Waits work debouncer last) (sound : debouncer.Sound)
    (numbered : debouncer.Numbered) (pending : debouncer.pending = true)
    (closes : debouncer.ClosesFirst due) :
    last.startTimes = debouncer.startTimes ++ [max debouncer.now due] ∧ last.pending = false ∧
      (last.timers.map Timer.due? = [debouncer.delay.after (max debouncer.now due)] ∨
        debouncer.delay.IsOver (max debouncer.now due) last.now) := by
  obtain ⟨later, passes, soundThen, numberedThen, rest⟩ := waits.closes sound numbered closes
  have served : later.closeAt work due = (later.moveTo due).serve work := by
    rw [closeAt, if_pos (passes.pending.trans pending)]
  have begun : (later.moveTo due).now = max debouncer.now due :=
    (now_moveTo later due).trans (passes.max_now closes.1)
  have starts : ((later.moveTo due).serve work).startTimes =
      debouncer.startTimes ++ [max debouncer.now due] := by
    rw [startTimes_serve, begun]
    exact congrArg (· ++ _) passes.startTimes
  have armed : ((later.moveTo due).serve work).timers =
      [⟨later.opened, debouncer.delay.after (max debouncer.now due)⟩] := by
    rw [timers_serve, begun, ← passes.delay]
    rfl
  rw [served] at rest soundThen numberedThen
  obtain ⟨sameStarts, quiet, window⟩ := rest.quiet soundThen numberedThen rfl
  refine ⟨sameStarts.trans starts, quiet, ?_⟩
  rcases window with kept | ⟨close, ⟨id, single⟩, past⟩
  · exact .inl (by rw [kept, armed]; rfl)
  · rw [armed] at single
    obtain ⟨-, ends⟩ := Timer.mk.inj (List.cons.inj single).1
    exact .inr ⟨close, ends, past⟩

theorem Waits.keeps (waits : Waits work debouncer last) (sound : debouncer.Sound)
    (numbered : debouncer.Numbered)
    (late : debouncer.pending = true → ∀ due, ¬ debouncer.ClosesFirst due) :
    last.startTimes = debouncer.startTimes ∧ last.pending = debouncer.pending ∧
      (debouncer.pending = true → last.timers = debouncer.timers) := by
  cases pending : debouncer.pending with
  | true =>
      have passes := waits.passes sound (late pending)
      exact ⟨passes.startTimes, passes.pending.trans pending, fun _ => passes.timers⟩
  | false =>
      obtain ⟨starts, quiet, -⟩ := waits.quiet sound numbered pending
      exact ⟨starts, quiet, nofun⟩

theorem Waits.timers_eq (waits : Waits work debouncer last) (sound : debouncer.Sound)
    (numbered : debouncer.Numbered) (early : ∀ due, debouncer.OpenUntil due → last.now < due) :
    last.timers = debouncer.timers := by
  refine (waits.passes sound fun due closes => ?_).timers
  obtain ⟨later, -, -, -, rest⟩ := waits.closes sound numbered closes
  exact absurd ((le_now_closeAt work later due).trans rest.le_now)
    (not_le_of_gt (early due closes.1))

theorem Sound.window?_eq (sound : debouncer.Sound) (soundToo : last.Sound)
    (timers : last.timers = debouncer.timers) : last.window? = debouncer.window? := by
  have same : last.window?.toList = debouncer.window?.toList := by
    rw [← sound.timers, ← soundToo.timers, timers]
  simpa using congrArg List.head? same

/-! ## Draining -/

/-- To drain a debouncer comes to an end, and then no run is in flight.  One further run has been
started if a trigger was waiting and its window closes before the runs in flight have ended, and
none otherwise.  A waiting trigger that has not been served still waits for the same window, and no
window has been dropped before its time, neither the one that was open nor that of the further
run. -/
theorem drain_ends (work : Work World) (delay : Delay) (callNow : Bool) (world : World) :
    let start := new delay callNow world
    (∀ orders, Reaches work start (obeyAll work start orders)) ∧
    ∀ debouncer, Reaches work start debouncer →
      let last := debouncer.drain work
      (Waits work debouncer last ∧ (∀ other, Waits work debouncer other → other = last) ∧
        last.running = 0) ∧
      (∀ due, debouncer.pending = true → debouncer.ClosesFirst due →
        let begun := max debouncer.now due
        last.startTimes = debouncer.startTimes ++ [begun] ∧ last.pending = false ∧
          (last.timers.map Timer.due? = [debouncer.delay.after begun] ∨
            debouncer.delay.IsOver begun last.now)) ∧
      ((debouncer.pending = true → ∀ due, ¬ debouncer.ClosesFirst due) →
        last.startTimes = debouncer.startTimes ∧ last.pending = debouncer.pending ∧
          (debouncer.pending = true → last.timers = debouncer.timers)) ∧
      ((∀ due, debouncer.OpenUntil due → last.now < due) →
        last.window? = debouncer.window? ∧ last.timers = debouncer.timers) := by
  refine ⟨reaches_obeyAll work _, fun debouncer reaches => ?_⟩
  have fresh : (new delay callNow world).Sound := sound_new _ _ _
  have sound := fresh.reaches reaches
  have numbered := (numbered_new delay callNow world).reaches fresh reaches
  have waits : Waits work debouncer (debouncer.drain work) :=
    waits_happenWhileActive work (le_refl debouncer.weight)
  have ended : (debouncer.drain work).active = [] := active_happenWhileActive work (le_refl _)
  refine ⟨⟨waits, fun other waitsToo => waits.unique waitsToo, ?_⟩, ?_, ?_, fun early => ?_⟩
  · simp [running, ended]
  · exact fun due pending closes => waits.serves sound numbered pending closes
  · exact waits.keeps sound numbered
  · have timers := waits.timers_eq sound numbered early
    exact ⟨sound.window?_eq (sound.act work .drain) timers, timers⟩

/-- A run is in flight until 3, and a trigger waits.  Where its window closes at 1, it is served
meanwhile by a run whose own window is still open in the end; where it closes at 5, the trigger
still waits for that. -/
theorem drain_ends_overlapping :
    let work : Work Unit := fun _ _ _ => ⟨(), [], 3, some .noPath⟩
    let start (seconds : Rat) : Debouncer Unit := new (.finite seconds) true ()
    let hasty := obeyAll work (start 1) [.trigger 2, .setDelay (.finite 5), .advance (1 / 2)]
    let patient := obeyAll work (start 5) [.trigger 2, .advance (1 / 2)]
    (hasty.ClosesFirst 1 ∧ (hasty.drain work).running = 0 ∧
      (hasty.drain work).startTimes = [0, 1] ∧
      (hasty.drain work).timers.map Timer.due? = [some 6]) ∧
    (patient.drain work).running = 0 ∧ (patient.drain work).startTimes = [0] ∧
      (patient.drain work).pending = true ∧ (patient.drain work).timers = [⟨1, some 5⟩] := by
  intro work start hasty patient
  obtain ⟨reaches, drains⟩ := drain_ends work (.finite 1) true ()
  obtain ⟨reachesToo, drainsToo⟩ := drain_ends work (.finite 5) true ()
  obtain ⟨⟨-, -, ended⟩, serves, -⟩ := drains hasty (reaches _)
  obtain ⟨⟨-, -, endedToo⟩, -, keeps, -⟩ := drainsToo patient (reachesToo _)
  refine ⟨?_, endedToo, ?_⟩
  · have facts : hasty.timers = [⟨1, some 1⟩] ∧ hasty.active = [⟨0, 3, some .noPath⟩] ∧
        hasty.pending = true ∧ hasty.startTimes = [0] ∧ max hasty.now 1 = 1 ∧
        hasty.delay = .finite 5 ∧ (hasty.drain work).now = 4 := by
      decide +kernel
    obtain ⟨single, active, pending, before, begun, delay, now⟩ := facts
    have closes : hasty.ClosesFirst 1 := by
      refine ⟨⟨1, single⟩, ⟨0, 3, some .noPath⟩, ?_, by norm_num⟩
      rw [active]
      exact List.mem_singleton_self _
    obtain ⟨starts, -, window⟩ := serves 1 pending closes
    rw [begun, delay] at window
    have early : ¬ (Delay.finite 5).IsOver 1 (hasty.drain work).now := by
      rw [now, Delay.isOver_finite]
      norm_num
    refine ⟨closes, ended, ?_, ?_⟩
    · rw [starts, before, begun]
      rfl
    · rw [window.resolve_right early, Delay.after]
      norm_num
  · have facts : patient.timers = [⟨1, some 5⟩] ∧ patient.active = [⟨0, 3, some .noPath⟩] ∧
        patient.pending = true ∧ patient.startTimes = [0] := by
      decide +kernel
    obtain ⟨single, active, pending, before⟩ := facts
    have late : ∀ due, ¬ patient.ClosesFirst due := by
      rintro due ⟨opened, run, inside, late⟩
      obtain rfl := opened.unique ⟨1, single⟩
      rw [active, List.mem_singleton] at inside
      rw [inside] at late
      norm_num at late
    obtain ⟨starts, still, window⟩ := keeps fun _ => late
    exact ⟨starts.trans before, still.trans pending, (window pending).trans single⟩

end CommandFile.Debouncer
