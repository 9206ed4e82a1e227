import CommandFile.Proofs.Moves

/-!
# Schedules

When windows are opened and closed and when runs are started is not up to the runs: how long they
take, whether they fail and what they do to the world is never asked.  So two debouncers that are
given the same orders, whatever their work is, keep the same schedule.  Only to wait for the runs
takes as long as they do.
-/

namespace CommandFile.Debouncer

variable {World Other : Type} {work : Work World} {another : Work Other}
  {debouncer last : Debouncer World} {other : Debouncer Other} {limit : Rat}

/-- What can be seen of two debouncers besides their clocks and their runs is the same. -/
structure Alike (debouncer : Debouncer World) (other : Debouncer Other) : Prop where
  delay : debouncer.delay = other.delay
  callNow : debouncer.callNow = other.callNow
  pending : debouncer.pending = other.pending
  dues : debouncer.timers.map Timer.due? = other.timers.map Timer.due?
  startTimes : debouncer.startTimes = other.startTimes

structure Abreast (debouncer : Debouncer World) (other : Debouncer Other) : Prop
    extends Alike debouncer other where
  now : debouncer.now = other.now

/-! ## Moves -/

theorem Abreast.note (abreast : Abreast debouncer other) {event : Event}
    (unseen : event.isStart = false) : Abreast (debouncer.note event) (other.note event) := by
  refine ⟨⟨abreast.delay, abreast.callNow, abreast.pending, abreast.dues, ?_⟩, abreast.now⟩
  rw [startTimes_note debouncer unseen, startTimes_note other unseen, abreast.startTimes]

theorem Abreast.hold (abreast : Abreast debouncer other) :
    Abreast debouncer.hold other.hold := by
  refine ⟨⟨abreast.delay, abreast.callNow, rfl, ?_, abreast.startTimes⟩, abreast.now⟩
  simp [abreast.delay, abreast.now]

theorem Abreast.serve (abreast : Abreast debouncer other) (work : Work World)
    (another : Work Other) : Abreast (debouncer.serve work) (other.serve another) := by
  refine ⟨⟨abreast.delay, abreast.callNow, rfl, ?_, ?_⟩, abreast.now⟩
  · simp [abreast.delay, abreast.now]
  · rw [startTimes_serve, startTimes_serve, abreast.startTimes, abreast.now]

theorem Abreast.drop (abreast : Abreast debouncer other) :
    Abreast debouncer.drop other.drop :=
  ⟨⟨abreast.delay, abreast.callNow, rfl, rfl, abreast.startTimes⟩, abreast.now⟩

theorem Alike.moveTo (alike : Alike debouncer other) {time instant : Rat}
    (now : max debouncer.now time = max other.now instant) :
    Abreast (debouncer.moveTo time) (other.moveTo instant) := by
  refine ⟨⟨alike.delay, alike.callNow, alike.pending, alike.dues, alike.startTimes⟩, ?_⟩
  rw [now_moveTo, now_moveTo, now]

theorem Alike.closeAt (alike : Alike debouncer other) (work : Work World)
    (another : Work Other) {due : Rat} (now : max debouncer.now due = max other.now due) :
    Abreast (debouncer.closeAt work due) (other.closeAt another due) := by
  have moved := alike.moveTo now
  unfold Debouncer.closeAt
  rw [alike.pending]
  split
  · exact moved.serve work another
  · exact ⟨⟨moved.delay, moved.callNow, moved.pending, rfl, moved.startTimes⟩, moved.now⟩

theorem Alike.passes (alike : Alike debouncer other) (passes : debouncer.Passes last) :
    Alike last other where
  delay := passes.delay.trans alike.delay
  callNow := passes.callNow.trans alike.callNow
  pending := passes.pending.trans alike.pending
  dues := passes.timers ▸ alike.dues
  startTimes := passes.startTimes.trans alike.startTimes

theorem Alike.symm (alike : Alike debouncer other) : Alike other debouncer :=
  ⟨alike.delay.symm, alike.callNow.symm, alike.pending.symm, alike.dues.symm,
    alike.startTimes.symm⟩

theorem Alike.openUntil (alike : Alike debouncer other) {due : Rat}
    (opened : debouncer.OpenUntil due) : other.OpenUntil due := by
  obtain ⟨id, single⟩ := opened
  have dues := alike.dues
  rw [single, List.map_singleton] at dues
  obtain ⟨⟨otherId, due?⟩, single, rfl⟩ := List.map_eq_singleton_iff.mp dues.symm
  exact ⟨otherId, single⟩

/-! ## The clock -/

theorem Sound.happenUntil_cases (sound : debouncer.Sound) (work : Work World) (limit : Rat)
    {fuel : Nat} (enough : debouncer.weight ≤ fuel) :
    (debouncer.Passes (happenUntil work limit fuel debouncer) ∧
      ∀ due, debouncer.OpenUntil due → limit < due) ∨
    ∃ later due less, debouncer.Passes later ∧ debouncer.OpenUntil due ∧ due ≤ limit ∧
      (later.closeAt work due).Sound ∧ less < fuel ∧ (later.closeAt work due).weight ≤ less ∧
      happenUntil work limit fuel debouncer =
        happenUntil work limit less (later.closeAt work due) := by
  induction fuel generalizing debouncer with
  | zero =>
      have quiet : debouncer.Quiet limit := quiet_happenUntil work limit enough
      exact .inl ⟨.refl _, fun due opened => quiet.lt_of_openUntil opened⟩
  | succ fuel ih =>
      by_cases quiet : debouncer.Quiet limit
      · rw [happenUntil_of_quiet quiet]
        exact .inl ⟨.refl _, fun due opened => quiet.lt_of_openUntil opened⟩
      · obtain ⟨time, thing, next, soon⟩ :
            ∃ time thing, debouncer.next? = some (time, thing) ∧ time ≤ limit := by
          simpa [Quiet] using quiet
        have lower := weight_happen_lt work next
        have happens : Happens work debouncer _ := .next next
        have soundThen := sound.happens happens
        rw [happenUntil_of_next next soon]
        rcases sound.happen_cases next work with ⟨run, -, rfl, early, same⟩ | ⟨opened, -, same⟩
        · have passes := passes_finish early
          rw [← same] at passes
          rcases ih soundThen (by omega) with ⟨rest, beyond⟩ |
            ⟨later, due, less, rest, opened, inTime, closed, fewer, light, goesOn⟩
          · exact .inl ⟨passes.trans rest,
              fun due opened => beyond due (passes.openUntil_iff.mpr opened)⟩
          · exact .inr ⟨later, due, less, passes.trans rest, passes.openUntil_iff.mp opened, inTime,
              closed, by omega, light, goesOn⟩
        · rw [same] at lower soundThen ⊢
          exact .inr ⟨debouncer, time, fuel, .refl _, opened, soon, soundThen, by omega, by omega,
            rfl⟩

theorem Abreast.happenUntil (abreast : Abreast debouncer other) (sound : debouncer.Sound)
    (soundToo : other.Sound) (work : Work World) (another : Work Other) (limit : Rat)
    {fuel fuelToo : Nat} (enough : debouncer.weight ≤ fuel) (enoughToo : other.weight ≤ fuelToo) :
    Abreast ((happenUntil work limit fuel debouncer).moveTo limit)
      ((Debouncer.happenUntil another limit fuelToo other).moveTo limit) := by
  -- Each round goes up to the next window that closes; it takes the two debouncers different fuel
  -- to get there, since their runs end at different times.
  induction fuel using Nat.strong_induction_on generalizing debouncer other fuelToo with
  | _ fuel ih =>
      have alike := abreast.toAlike
      rcases sound.happenUntil_cases work limit enough with ⟨passes, beyond⟩ |
        ⟨later, due, less, passes, opened, inTime, soundThen, fewer, light, goesOn⟩ <;>
      rcases soundToo.happenUntil_cases another limit enoughToo with ⟨passesToo, beyondToo⟩ |
        ⟨laterToo, dueToo, lessToo, passesToo, openedToo, inTimeToo, soundThenToo, -, lightToo,
          goesOnToo⟩
      · apply ((alike.passes passes).symm.passes passesToo).symm.moveTo
        rw [max_now_happenUntil, max_now_happenUntil, abreast.now]
      · exact absurd inTimeToo (not_le_of_gt (beyond dueToo (alike.symm.openUntil openedToo)))
      · exact absurd inTime (not_le_of_gt (beyondToo due (alike.openUntil opened)))
      · obtain rfl := (alike.openUntil opened).unique openedToo
        have closed : Abreast (later.closeAt work due) (laterToo.closeAt another due) := by
          apply ((alike.passes passes).symm.passes passesToo).symm.closeAt
          rw [passes.max_now opened, passesToo.max_now openedToo, abreast.now]
        rw [goesOn, goesOnToo]
        exact ih less fewer closed soundThen soundThenToo light lightToo

/-! ## Orders -/

theorem Alike.idle_eq (alike : Alike debouncer other) (sound : debouncer.Sound)
    (soundToo : other.Sound) : debouncer.idle = other.idle := by
  have unarmed : debouncer.timers = [] ↔ other.timers = [] := by
    rw [← List.map_eq_nil_iff (f := Timer.due?), alike.dues, List.map_eq_nil_iff]
  rw [Bool.eq_iff_iff, sound.idle_iff, soundToo.idle_iff, unarmed]

theorem Abreast.trigger (abreast : Abreast debouncer other) (sound : debouncer.Sound)
    (soundToo : other.Sound) (work : Work World) (another : Work Other) :
    Abreast (debouncer.trigger work) (other.trigger another) := by
  have noted : Abreast (debouncer.note .triggered) (other.note .triggered) := abreast.note rfl
  rw [sound.trigger_eq, soundToo.trigger_eq, abreast.toAlike.idle_eq sound soundToo,
    abreast.callNow]
  split
  · exact noted.serve work another
  · exact noted.hold

theorem Abreast.triggers (abreast : Abreast debouncer other) (sound : debouncer.Sound)
    (soundToo : other.Sound) (work : Work World) (another : Work Other) (count : Nat) :
    Abreast (debouncer.triggers work count) (other.triggers another count) := by
  induction count generalizing debouncer other with
  | zero => exact abreast
  | succ count ih =>
      exact ih (abreast.trigger sound soundToo work another) (sound.trigger work)
        (soundToo.trigger another)

theorem Abreast.settle (abreast : Abreast debouncer other) (sound : debouncer.Sound)
    (soundToo : other.Sound) (work : Work World) (another : Work Other) :
    Abreast (debouncer.settle work) (other.settle another) := by
  have settled := abreast.happenUntil sound soundToo work another debouncer.now
    (le_refl debouncer.weight) (le_refl other.weight)
  have past := le_now_of_happensOn
    (happens_happenUntil work debouncer.now debouncer.weight debouncer)
  have pastToo := le_now_of_happensOn (happens_happenUntil another debouncer.now other.weight other)
  rw [← abreast.now] at pastToo
  rw [moveTo_of_le past, moveTo_of_le pastToo] at settled
  unfold Debouncer.settle
  rwa [← abreast.now]

theorem Abreast.advance (abreast : Abreast debouncer other) (sound : debouncer.Sound)
    (soundToo : other.Sound) (work : Work World) (another : Work Other) (seconds : Rat) :
    Abreast (debouncer.advance work seconds) (other.advance another seconds) := by
  unfold Debouncer.advance
  rw [← abreast.now]
  exact abreast.happenUntil sound soundToo work another _ (le_refl _) (le_refl _)

theorem Abreast.obey (abreast : Abreast debouncer other) (sound : debouncer.Sound)
    (soundToo : other.Sound) (work : Work World) (another : Work Other) {order : Order}
    (waitless : order ≠ .drain) :
    Abreast (debouncer.obey work order) (other.obey another order) := by
  refine settle ?_ (sound.act work order) (soundToo.act another order) work another
  cases order with
  | trigger count => exact abreast.triggers sound soundToo work another count
  | advance seconds => exact abreast.advance sound soundToo work another seconds
  | cancel =>
      simp only [act, sound.cancel_eq, soundToo.cancel_eq]
      exact (abreast.note rfl).drop
  | drain => exact absurd rfl waitless
  | setDelay delay =>
      exact ⟨⟨rfl, abreast.callNow, abreast.pending, abreast.dues, abreast.startTimes⟩, abreast.now⟩
  | setCallNow callNow =>
      exact ⟨⟨abreast.delay, rfl, abreast.pending, abreast.dues, abreast.startTimes⟩, abreast.now⟩

theorem Abreast.obeyAll (abreast : Abreast debouncer other) (sound : debouncer.Sound)
    (soundToo : other.Sound) (work : Work World) (another : Work Other) {orders : List Order}
    (waitless : ∀ order ∈ orders, order ≠ .drain) :
    Abreast (obeyAll work debouncer orders) (Debouncer.obeyAll another other orders) := by
  induction orders generalizing debouncer other with
  | nil => exact abreast
  | cons order orders ih =>
      obtain ⟨here, later⟩ := List.forall_mem_cons.mp waitless
      exact ih (abreast.obey sound soundToo work another here)
        (sound.reaches (reaches_obeyAll work debouncer [order]))
        (soundToo.reaches (reaches_obeyAll another other [order])) later

end CommandFile.Debouncer
