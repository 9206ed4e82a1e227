import CommandFile.Proofs.Bursts

/-!
# Starts of runs

As long as the delay stays the same and nothing is cancelled, a debouncer that is given
orders does what its triggers ask for.  So the times of the triggers decide when the runs
are started.
-/

namespace CommandFile.Debouncer

open Relation

variable {World : Type} {work : Work World} {debouncer last : Debouncer World} {time : Rat}
  {delay : Rat} {callNow : Bool} {seen : List Trigger}

/-! ## Orders -/

/-- The orders that neither cancel anything nor change the debouncer itself. -/
def Order.isUndisturbing : Order → Bool
  | .trigger _ => true
  | .advance _ => true
  | .drain => true
  | _ => false

theorem resting_settle (work : Work World) (debouncer : Debouncer World) :
    (debouncer.settle work).Resting := by
  intro time opened
  have quiet : (debouncer.settle work).Quiet debouncer.now :=
    quiet_happenUntil work _ (le_refl _)
  exact (now_happenUntil_le work _ (le_refl _)).trans_lt (quiet.lt_of_openUntil opened)

theorem Follows.settle (follows : Follows delay callNow debouncer) (positive : 0 < delay)
    (work : Work World) : Follows delay callNow (debouncer.settle work) :=
  follows.happensOn positive (happens_happenUntil work _ _ _)

theorem Follows.advance (follows : Follows delay callNow debouncer) (positive : 0 < delay)
    (work : Work World) (seconds : Rat) :
    Follows delay callNow (debouncer.advance work seconds) := by
  have happened := follows.happensOn positive
    (happens_happenUntil work (debouncer.now + seconds) debouncer.weight debouncer)
  have quiet := quiet_happenUntil work (debouncer.now + seconds) (le_refl debouncer.weight)
  apply happened.passes
  · apply passes_moveTo
    exact fun due opened => (quiet.lt_of_openUntil opened).le
  · exact happened.sound.moveTo _
  · rfl

theorem Follows.triggers (follows : Follows delay callNow debouncer) (positive : 0 < delay)
    (resting : debouncer.Resting) (work : Work World) (count : Nat) :
    Follows delay callNow (debouncer.triggers work count) := by
  induction count generalizing debouncer with
  | zero => exact follows
  | succ count ih =>
      apply ih (follows.trigger positive resting work)
      intro time opened
      obtain ⟨-, -, sameNow, openedNow, -⟩ := trigger_cases follows.sound follows.constant work
      rw [sameNow, opened.unique openedNow]
      linarith

theorem Follows.obeyAll (follows : Follows delay callNow debouncer) (positive : 0 < delay)
    (resting : debouncer.Resting) (work : Work World) {orders : List Order}
    (undisturbed : ∀ order ∈ orders, order.isUndisturbing = true) :
    Follows delay callNow (obeyAll work debouncer orders) ∧
      (Debouncer.obeyAll work debouncer orders).Resting := by
  induction orders generalizing debouncer with
  | nil => exact ⟨follows, resting⟩
  | cons order orders ih =>
      obtain ⟨here, later⟩ := List.forall_mem_cons.mp undisturbed
      have acted : Follows delay callNow (debouncer.act work order) := by
        cases order with
        | trigger count => exact follows.triggers positive resting work count
        | advance seconds => exact follows.advance positive work seconds
        | drain => exact follows.happensOn positive (happens_happenWhileActive work _ _)
        | cancel => nomatch here
        | setDelay delay => nomatch here
        | setCallNow callNow => nomatch here
      exact ih (acted.settle positive work) (resting_settle work _) later

/-! ## Triggers at given times -/

/-- The orders that trigger at some times and then let the clock reach a horizon. -/
def visiting (now horizon : Rat) : List Rat → List Order
  | [] => [.advance (horizon - now)]
  | time :: later => .advance (time - now) :: .trigger 1 :: visiting time horizon later

theorem triggerTimes_of_happensOn (happens : ReflTransGen (Happens work) debouncer last) :
    last.triggerTimes = debouncer.triggerTimes := by
  induction happens with
  | refl => rfl
  | tail _ happens ih => exact (triggerTimes_of_happens happens).trans ih

theorem settle_same (work : Work World) (debouncer : Debouncer World) :
    (debouncer.settle work).triggerTimes = debouncer.triggerTimes ∧
      (debouncer.settle work).now = debouncer.now := by
  have happens := happens_happenUntil work debouncer.now debouncer.weight debouncer
  constructor
  · exact triggerTimes_of_happensOn happens
  · exact le_antisymm (now_happenUntil_le work _ (le_refl _)) (le_now_of_happensOn happens)

theorem obey_advance (work : Work World) (debouncer : Debouncer World) (seconds : Rat) :
    let last := debouncer.obey work (.advance seconds)
    last.triggerTimes = debouncer.triggerTimes ∧ debouncer.now + seconds ≤ last.now ∧
      (0 ≤ seconds → last.now = debouncer.now + seconds) := by
  obtain ⟨sameTimes, sameNow⟩ := settle_same work (debouncer.advance work seconds)
  have happened := triggerTimes_of_happensOn
    (happens_happenUntil work (debouncer.now + seconds) debouncer.weight debouncer)
  refine ⟨sameTimes.trans happened, (le_now_moveTo_self _ _).trans_eq sameNow.symm, fun later => ?_⟩
  apply sameNow.trans
  apply now_moveTo_of_le
  apply now_happenUntil_le
  linarith

theorem now_trigger (work : Work World) (debouncer : Debouncer World) :
    (debouncer.trigger work).now = debouncer.now := by
  unfold trigger
  dsimp only
  split
  · rfl
  · split <;> rfl

theorem obey_trigger (work : Work World) (debouncer : Debouncer World) :
    let last := debouncer.obey work (.trigger 1)
    last.triggerTimes = debouncer.triggerTimes ++ [debouncer.now] ∧ last.now = debouncer.now := by
  obtain ⟨sameTimes, sameNow⟩ := settle_same work (debouncer.trigger work)
  constructor
  · exact sameTimes.trans (triggerTimes_trigger work debouncer)
  · exact sameNow.trans (now_trigger work debouncer)

theorem obeyAll_visiting (work : Work World) (debouncer : Debouncer World) (horizon : Rat)
    {times : List Rat} (sorted : (debouncer.now :: times).Pairwise (· ≤ ·)) :
    let last := obeyAll work debouncer (visiting debouncer.now horizon times)
    last.triggerTimes = debouncer.triggerTimes ++ times ∧ horizon ≤ last.now := by
  induction times generalizing debouncer with
  | nil =>
      obtain ⟨sameTimes, reached, -⟩ := obey_advance work debouncer (horizon - debouncer.now)
      rw [add_sub_cancel] at reached
      rw [List.append_nil]
      exact ⟨sameTimes, reached⟩
  | cons time times ih =>
      obtain ⟨first, later⟩ := List.pairwise_cons.mp sorted
      have ahead := first time List.mem_cons_self
      obtain ⟨sameTimes, -, reached⟩ := obey_advance work debouncer (time - debouncer.now)
      obtain ⟨triggered, stays⟩ :=
        obey_trigger work (debouncer.obey work (.advance (time - debouncer.now)))
      have arrived := reached (by linarith)
      rw [add_sub_cancel] at arrived
      have now := stays.trans arrived
      rw [← now] at later
      obtain ⟨timesAll, nowAll⟩ := ih _ later
      rw [now] at timesAll nowAll
      refine ⟨timesAll.trans ?_, nowAll⟩
      rw [triggered, sameTimes, arrived, List.append_assoc, List.singleton_append]

theorem isUndisturbing_of_mem_visiting {now horizon : Rat} {times : List Rat} :
    ∀ order ∈ visiting now horizon times, order.isUndisturbing = true := by
  induction times generalizing now with
  | nil => simp [visiting, Order.isUndisturbing]
  | cons time times ih =>
      simp only [visiting, List.mem_cons, forall_eq_or_imp]
      exact ⟨rfl, rfl, ih⟩

/-! ## Starts -/

theorem Stage.startTimes_eq (stage : Stage delay debouncer seen) (resting : debouncer.Resting)
    (past : ∀ trigger ∈ seen.getLast?, trigger.time + delay ≤ debouncer.now) :
    debouncer.startTimes = Trigger.starts delay seen := by
  cases stage with
  | fresh closed none => exact none
  | @waiting before trigger follows pending opened early starts =>
      have passed := past trigger (by simp)
      have soon := resting _ opened
      rw [Trigger.start, if_neg (by simp [follows])] at soon
      linarith
  | served quiet begun window starts => exact starts

theorem Follows.startTimes_eq (follows : Follows delay callNow debouncer)
    (resting : debouncer.Resting)
    (past : ∀ time ∈ debouncer.triggerTimes.getLast?, time + delay ≤ debouncer.now) :
    debouncer.startTimes =
      Trigger.starts delay (Trigger.sequence delay callNow none debouncer.triggerTimes) := by
  apply follows.stage.startTimes_eq resting
  intro trigger lastOne
  apply past
  rw [← Trigger.map_time_sequence none debouncer.triggerTimes, List.getLast?_map]
  exact Option.mem_map_of_mem Trigger.time lastOne

theorem startTimes_obeyAll (work : Work World) (positive : 0 < delay) {world : World}
    {orders : List Order} (undisturbed : ∀ order ∈ orders, order.isUndisturbing = true) :
    let last := obeyAll work (new (.finite delay) callNow world) orders
    (∀ time ∈ last.triggerTimes.getLast?, time + delay ≤ last.now) →
      last.startTimes =
        Trigger.starts delay (Trigger.sequence delay callNow none last.triggerTimes) := by
  intro last past
  have resting : (new (.finite delay) callNow world).Resting :=
    fun time opened => absurd rfl opened.ne_nil
  obtain ⟨follows, rests⟩ :=
    (follows_new delay callNow world).obeyAll positive resting work undisturbed
  exact follows.startTimes_eq rests past

/-- The triggers decide when runs are started.  However the clock is advanced and whatever the
runs do, each trigger that leads has a run started at once, and each other one after the
delay, unless a further trigger comes before. -/
theorem starts_intended (work : Work World) {delay : Rat} (positive : 0 < delay) (callNow : Bool)
    (world : World) :
    let start := new (.finite delay) callNow world
    (∀ orders : List Order, (∀ order ∈ orders, order.isUndisturbing = true) →
      let last := obeyAll work start orders
      (∀ time ∈ last.triggerTimes.getLast?, time + delay ≤ last.now) →
      last.startTimes =
        Trigger.starts delay (Trigger.sequence delay callNow none last.triggerTimes)) ∧
    ∀ (times : List Rat) (horizon : Rat), times.Pairwise (· ≤ ·) → (∀ time ∈ times, 0 ≤ time) →
      (∀ time ∈ times.getLast?, time + 2 * delay < horizon) →
      let last := obeyAll work start (visiting 0 horizon times)
      last.triggerTimes = times ∧ horizon ≤ last.now ∧
        last.startTimes = Trigger.starts delay (Trigger.sequence delay callNow none times) := by
  intro start
  refine ⟨fun orders undisturbed past => startTimes_obeyAll work positive undisturbed past,
    fun times horizon sorted future ends => ?_⟩
  let last := obeyAll work start (visiting 0 horizon times)
  obtain ⟨sameTimes, reached⟩ : last.triggerTimes = times ∧ horizon ≤ last.now :=
    obeyAll_visiting work start horizon (List.pairwise_cons.mpr ⟨future, sorted⟩)
  refine ⟨sameTimes, reached, ?_⟩
  have past : ∀ time ∈ last.triggerTimes.getLast?, time + delay ≤ last.now := by
    intro time lastOne
    have soon := ends time (sameTimes ▸ lastOne)
    linarith
  have started := startTimes_obeyAll work positive isUndisturbing_of_mem_visiting past
  rwa [sameTimes] at started

/-- A trigger in the window of a run, two that share the next window, the first of them at the
instant at which it opens, and one at the instant at which the last window closes. -/
theorem starts_intended_bursts :
    let work : Work Unit := fun _ _ _ => ⟨(), [], 1 / 4, none⟩
    let times : List Rat := [0, 1 / 2, 3 / 2, 2, 4]
    let last := obeyAll work (new (.finite 1) true ()) (visiting 0 7 times)
    last.triggerTimes = times ∧ last.startTimes = [0, 3 / 2, 3, 4] := by
  intro work times last
  have positive : (0 : Rat) < 1 := by decide
  obtain ⟨sameTimes, -, started⟩ := (starts_intended work positive true ()).2 times 7
    (by decide +kernel) (by decide +kernel) (by decide +kernel)
  refine ⟨sameTimes, started.trans ?_⟩
  decide +kernel

end CommandFile.Debouncer
