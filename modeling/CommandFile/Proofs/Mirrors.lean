import CommandFile.Proofs.Dues

/-!
# Mirrors

A debouncer can be looked at as if it were another one, with a past or with work that never fails.
Such a view mirrors the debouncer if it goes along with the single moves, and if the clock and the
next thing look the same in it.  Then it goes along with every order.
-/

namespace CommandFile

def Due.map (otherRun : Run → Run) (otherTimer : Timer → Timer) : Due → Due
  | .finish run => .finish (otherRun run)
  | .timer found => .timer (otherTimer found)

theorem Run.earliest?_map {otherRun : Run → Run}
    (same : ∀ run, (otherRun run).finish = run.finish) (runs : List Run) :
    earliest? (runs.map otherRun) = (earliest? runs).map otherRun := by
  induction runs with
  | nil => rfl
  | cons run runs ih =>
      simp only [List.map_cons, earliest?, ih]
      cases earliest? runs with
      | none => rfl
      | some other => by_cases sooner : other.finish < run.finish <;> simp [same, sooner]

theorem Timer.earliest?_map {otherTimer : Timer → Timer}
    (same : ∀ timer, (otherTimer timer).due? = timer.due?) (timers : List Timer) :
    earliest? (timers.map otherTimer) =
      (earliest? timers).map fun found => (found.1, otherTimer found.2) := by
  induction timers with
  | nil => rfl
  | cons timer timers ih =>
      simp only [List.map_cons, earliest?, same, ih]
      cases timer.due? with
      | none => rfl
      | some due =>
          cases earliest? timers with
          | none => rfl
          | some found => by_cases sooner : found.1 < due <;> simp [sooner]

namespace Debouncer

variable {World Other : Type} {work : Work World} {another : Work Other}
  {view : Debouncer World → Debouncer Other} {image : Due → Due}

theorem next?_map {debouncer : Debouncer World} {other : Debouncer Other} {otherRun : Run → Run}
    {otherTimer : Timer → Timer} (sameFinish : ∀ run, (otherRun run).finish = run.finish)
    (sameDue : ∀ timer, (otherTimer timer).due? = timer.due?)
    (active : other.active = debouncer.active.map otherRun)
    (timers : other.timers = debouncer.timers.map otherTimer) :
    other.next? = debouncer.next?.map fun next => (next.1, next.2.map otherRun otherTimer) := by
  simp only [next?, active, timers, Run.earliest?_map sameFinish, Timer.earliest?_map sameDue]
  cases Run.earliest? debouncer.active with
  | none => cases Timer.earliest? debouncer.timers <;> rfl
  | some run =>
      cases Timer.earliest? debouncer.timers with
      | none => simp [sameFinish, Due.map]
      | some found =>
          by_cases sooner : found.1 < run.finish <;> simp [sameFinish, Due.map, sooner]

/-! ## Views -/

/-- What is seen in the view does with other work what the debouncer does with its own. -/
structure Mirrors (work : Work World) (another : Work Other)
    (view : Debouncer World → Debouncer Other) (image : Due → Due) : Prop where
  now : ∀ debouncer, (view debouncer).now = debouncer.now
  weight : ∀ debouncer, (view debouncer).weight = debouncer.weight
  active : ∀ debouncer, (view debouncer).active = [] ↔ debouncer.active = []
  next : ∀ debouncer,
    (view debouncer).next? = debouncer.next?.map fun next => (next.1, image next.2)
  moveTo : ∀ debouncer time, (view debouncer).moveTo time = view (debouncer.moveTo time)
  happen : ∀ debouncer time due,
    (view debouncer).happen another time (image due) = view (debouncer.happen work time due)
  trigger : ∀ debouncer, (view debouncer).trigger another = view (debouncer.trigger work)
  cancel : ∀ debouncer, (view debouncer).cancel = view debouncer.cancel
  setDelay : ∀ debouncer delay,
    { view debouncer with delay := delay } = view { debouncer with delay := delay }
  setCallNow : ∀ debouncer callNow,
    { view debouncer with callNow := callNow } = view { debouncer with callNow := callNow }

namespace Mirrors

theorem happenUntil (mirrors : Mirrors work another view image) (limit : Rat) (fuel : Nat)
    (debouncer : Debouncer World) :
    Debouncer.happenUntil another limit fuel (view debouncer) =
      view (Debouncer.happenUntil work limit fuel debouncer) := by
  induction fuel generalizing debouncer with
  | zero => rfl
  | succ fuel ih =>
      simp only [Debouncer.happenUntil, mirrors.next]
      cases debouncer.next? with
      | none => rfl
      | some next =>
          obtain ⟨time, due⟩ := next
          simp only [Option.map_some]
          by_cases soon : time ≤ limit
          · rw [if_pos soon, if_pos soon, mirrors.happen, ih]
          · rw [if_neg soon, if_neg soon]

theorem happenWhileActive (mirrors : Mirrors work another view image) (fuel : Nat)
    (debouncer : Debouncer World) :
    Debouncer.happenWhileActive another fuel (view debouncer) =
      view (Debouncer.happenWhileActive work fuel debouncer) := by
  induction fuel generalizing debouncer with
  | zero => rfl
  | succ fuel ih =>
      simp only [Debouncer.happenWhileActive, mirrors.next, mirrors.active]
      by_cases none : debouncer.active = []
      · rw [if_pos none, if_pos none]
      · rw [if_neg none, if_neg none]
        cases debouncer.next? with
        | none => rfl
        | some next =>
            simp only [Option.map_some]
            rw [mirrors.happen, ih]

theorem settle (mirrors : Mirrors work another view image) (debouncer : Debouncer World) :
    (view debouncer).settle another = view (debouncer.settle work) := by
  unfold Debouncer.settle
  rw [mirrors.weight, mirrors.now]
  exact mirrors.happenUntil _ _ _

theorem triggers (mirrors : Mirrors work another view image) (count : Nat)
    (debouncer : Debouncer World) :
    (view debouncer).triggers another count = view (debouncer.triggers work count) := by
  induction count generalizing debouncer with
  | zero => rfl
  | succ count ih => rw [Debouncer.triggers, Debouncer.triggers, mirrors.trigger, ih]

theorem advance (mirrors : Mirrors work another view image) (seconds : Rat)
    (debouncer : Debouncer World) :
    (view debouncer).advance another seconds = view (debouncer.advance work seconds) := by
  simp only [Debouncer.advance, mirrors.weight, mirrors.now, mirrors.happenUntil, mirrors.moveTo]

theorem act (mirrors : Mirrors work another view image) (debouncer : Debouncer World)
    (order : Order) :
    (view debouncer).act another order = view (debouncer.act work order) := by
  cases order with
  | trigger count => exact mirrors.triggers count debouncer
  | advance seconds => exact mirrors.advance seconds debouncer
  | cancel => exact mirrors.cancel debouncer
  | drain =>
      simp only [Debouncer.act, drain, mirrors.weight]
      exact mirrors.happenWhileActive _ _
  | setDelay delay => exact mirrors.setDelay debouncer delay
  | setCallNow callNow => exact mirrors.setCallNow debouncer callNow

theorem obey (mirrors : Mirrors work another view image) (debouncer : Debouncer World)
    (order : Order) :
    (view debouncer).obey another order = view (debouncer.obey work order) := by
  unfold Debouncer.obey
  rw [mirrors.act, mirrors.settle]

theorem obeyAll (mirrors : Mirrors work another view image) (debouncer : Debouncer World)
    (orders : List Order) :
    Debouncer.obeyAll another (view debouncer) orders =
      view (Debouncer.obeyAll work debouncer orders) := by
  induction orders generalizing debouncer with
  | nil => rfl
  | cons order orders ih =>
      simp only [Debouncer.obeyAll, List.foldl_cons] at ih ⊢
      rw [mirrors.obey, ih]

end Mirrors

end Debouncer

end CommandFile
