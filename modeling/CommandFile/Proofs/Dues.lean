import CommandFile.Debounce.Clock
import Mathlib.Algebra.Order.Ring.Unbundled.Rat
import Mathlib.Logic.Relation

/-!
# What falls due

The clock of a debouncer goes from one due thing to the next.  Whatever happens lowers the
weight, so the fuel that is given for letting things happen always lasts, and nothing is
due any more when the clock moves on.  Every order is a row of single steps.
-/

namespace CommandFile

open Relation

theorem Run.mem_of_earliest? {runs : List Run} {run : Run} (first : earliest? runs = some run) :
    run ∈ runs := by
  induction runs generalizing run with
  | nil => nomatch first
  | cons head others ih =>
      simp only [earliest?] at first
      cases later : earliest? others with
      | none => simp_all
      | some other =>
          have inside := ih later
          simp only [later] at first
          split at first <;> simp_all

theorem Run.eq_nil_of_earliest? {runs : List Run} (none : earliest? runs = none) : runs = [] := by
  cases runs with
  | nil => rfl
  | cons run others =>
      simp only [earliest?] at none
      split at none
      · nomatch none
      · split at none <;> nomatch none

theorem Run.finish_le_of_earliest? {runs : List Run} {run other : Run}
    (first : earliest? runs = some run) (inside : other ∈ runs) : run.finish ≤ other.finish := by
  induction runs generalizing run with
  | nil => nomatch first
  | cons head others ih =>
      simp only [earliest?] at first
      cases later : earliest? others with
      | none =>
          have alone := eq_nil_of_earliest? later
          simp_all
      | some found =>
          rw [later] at first
          rcases List.mem_cons.mp inside with rfl | behind
          · dsimp only at first
            split at first
            · next sooner => exact Option.some.inj first ▸ sooner.le
            · exact (congrArg finish (Option.some.inj first)).ge
          · dsimp only at first
            split at first
            · exact Option.some.inj first ▸ ih later behind
            · next late => exact Option.some.inj first ▸ (le_of_not_gt late).trans (ih later behind)

theorem Timer.mem_of_earliest? {timers : List Timer} {time : Rat} {timer : Timer}
    (first : earliest? timers = some (time, timer)) : timer ∈ timers := by
  induction timers generalizing time timer with
  | nil => nomatch first
  | cons head others ih =>
      simp only [earliest?] at first
      split at first
      · exact List.mem_cons_of_mem _ (ih first)
      · simp_all
      · next found _ later =>
          have inside := ih later
          split at first <;> simp_all

namespace Debouncer

variable {World : Type} {work : Work World} {debouncer last : Debouncer World} {time limit : Rat}
  {due : Due}

/-! ## The next thing -/

theorem next?_cases (next : debouncer.next? = some (time, due)) :
    (∃ run ∈ debouncer.active, due = .finish run ∧
      ∀ found, Timer.earliest? debouncer.timers = some found → time ≤ found.1) ∨
    ∃ timer, Timer.earliest? debouncer.timers = some (time, timer) ∧ due = .timer timer ∧
      ∀ run ∈ debouncer.active, time < run.finish := by
  unfold next? at next
  split at next
  · nomatch next
  · next run first none =>
      obtain ⟨rfl, rfl⟩ := Prod.mk.inj (Option.some.inj next)
      exact .inl ⟨run, Run.mem_of_earliest? first, rfl, by simp [none]⟩
  · next found timer none first =>
      obtain ⟨rfl, rfl⟩ := Prod.mk.inj (Option.some.inj next)
      exact .inr ⟨timer, first, rfl, by simp [Run.eq_nil_of_earliest? none]⟩
  · next run found timer firstRun first =>
      split at next
      · next soon =>
          obtain ⟨rfl, rfl⟩ := Prod.mk.inj (Option.some.inj next)
          refine .inr ⟨timer, first, rfl, fun other inside => ?_⟩
          exact soon.trans_le (Run.finish_le_of_earliest? firstRun inside)
      · next late =>
          obtain ⟨rfl, rfl⟩ := Prod.mk.inj (Option.some.inj next)
          refine .inl ⟨run, Run.mem_of_earliest? firstRun, rfl, fun other same => ?_⟩
          obtain rfl := Option.some.inj (first.symm.trans same)
          exact le_of_not_gt late

theorem exists_next?_le {found : Rat × Timer}
    (first : Timer.earliest? debouncer.timers = some found) :
    ∃ time due, debouncer.next? = some (time, due) ∧ time ≤ found.1 := by
  unfold next?
  rw [first]
  cases Run.earliest? debouncer.active with
  | none => exact ⟨_, _, rfl, le_refl _⟩
  | some run =>
      dsimp only
      split
      · exact ⟨_, _, rfl, le_refl _⟩
      · next late => exact ⟨_, _, rfl, le_of_not_gt late⟩

theorem next?_ne_none (some : debouncer.active ≠ []) : debouncer.next? ≠ none := by
  obtain ⟨run, first⟩ := Option.ne_none_iff_exists'.mp (mt Run.eq_nil_of_earliest? some)
  unfold next?
  rw [first]
  cases Timer.earliest? debouncer.timers with
  | none => simp
  | some found => dsimp only; split <;> simp

/-! ## Weight -/

theorem length_filter_lt {α : Type} {items : List α} {item : α} {keep : α → Bool}
    (inside : item ∈ items) (dropped : keep item = false) :
    (items.filter keep).length < items.length := by
  rw [List.length_filter_lt_length_iff_exists]
  exact ⟨item, inside, by simp [dropped]⟩

theorem weight_lt_of_fewer {later : Debouncer World} (same : later.pending = debouncer.pending)
    (fewer : later.active.length + later.timers.length <
      debouncer.active.length + debouncer.timers.length) :
    later.weight < debouncer.weight := by
  simp only [weight, same]
  omega

theorem weight_finishRun_lt (debouncer : Debouncer World) {run : Run}
    (inside : run ∈ debouncer.active) :
    (finishRun run debouncer).weight < debouncer.weight := by
  have fewer : (debouncer.active.filter (·.number ≠ run.number)).length < debouncer.active.length :=
    length_filter_lt inside (by simp)
  unfold finishRun
  split <;> exact weight_lt_of_fewer rfl (by simp only [note]; omega)

theorem weight_closeWindow_le (work : Work World) (debouncer : Debouncer World) :
    (debouncer.closeWindow work).weight ≤ debouncer.weight := by
  unfold closeWindow
  dsimp only
  split
  · next pending => simp [weight, openWindow, startRun, pending]; omega
  · next pending => simp [weight, pending]

theorem weight_stopTimer_lt (debouncer : Debouncer World) {timer : Timer}
    (inside : timer ∈ debouncer.timers) :
    (debouncer.stopTimer timer.id).weight < debouncer.weight := by
  have fewer : (debouncer.timers.filter (·.id ≠ timer.id)).length < debouncer.timers.length :=
    length_filter_lt inside (by simp)
  exact weight_lt_of_fewer rfl (by simp only [stopTimer]; omega)

theorem weight_happen_lt (work : Work World) (next : debouncer.next? = some (time, due)) :
    (debouncer.happen work time due).weight < debouncer.weight := by
  rcases next?_cases next with ⟨run, inside, rfl, -⟩ | ⟨timer, first, rfl, -⟩
  · exact weight_finishRun_lt (debouncer.moveTo time) inside
  · apply lt_of_le_of_lt (weight_closeWindow_le work _)
    exact weight_stopTimer_lt (debouncer.moveTo time) (Timer.mem_of_earliest? first)

/-! ## Single steps -/

inductive Happens (work : Work World) : Debouncer World → Debouncer World → Prop
  | next {debouncer : Debouncer World} {time : Rat} {due : Due}
      (next : debouncer.next? = some (time, due)) :
      Happens work debouncer (debouncer.happen work time due)

def Quiet (debouncer : Debouncer World) (limit : Rat) : Prop :=
  ∀ time due, debouncer.next? = some (time, due) → limit < time

inductive Step (work : Work World) : Debouncer World → Debouncer World → Prop
  | trigger (debouncer : Debouncer World) : Step work debouncer (debouncer.trigger work)
  | cancel (debouncer : Debouncer World) : Step work debouncer debouncer.cancel
  | setDelay (debouncer : Debouncer World) (delay : Delay) :
      Step work debouncer { debouncer with delay := delay }
  | setCallNow (debouncer : Debouncer World) (callNow : Bool) :
      Step work debouncer { debouncer with callNow := callNow }
  | happens {debouncer later : Debouncer World} (happens : Happens work debouncer later) :
      Step work debouncer later
  | wait (debouncer : Debouncer World) {time : Rat} (quiet : debouncer.Quiet time) :
      Step work debouncer (debouncer.moveTo time)

def Reaches (work : Work World) : Debouncer World → Debouncer World → Prop :=
  ReflTransGen (Step work)

/-! ## Fuel -/

theorem happens_happenUntil (work : Work World) (limit : Rat) (fuel : Nat)
    (debouncer : Debouncer World) :
    ReflTransGen (Happens work) debouncer (happenUntil work limit fuel debouncer) := by
  induction fuel generalizing debouncer with
  | zero => exact .refl
  | succ fuel ih =>
      unfold happenUntil
      split
      · exact .refl
      · next time due next =>
          split
          · exact .head (.next next) (ih _)
          · exact .refl

theorem happenUntil_of_quiet (quiet : debouncer.Quiet limit) (work : Work World) (fuel : Nat) :
    happenUntil work limit fuel debouncer = debouncer := by
  cases fuel with
  | zero => rfl
  | succ fuel =>
      unfold happenUntil
      split
      · rfl
      · next time due next => rw [if_neg (not_le_of_gt (quiet time due next))]

theorem happenUntil_of_next (next : debouncer.next? = some (time, due)) (soon : time ≤ limit)
    (work : Work World) (fuel : Nat) :
    happenUntil work limit (fuel + 1) debouncer =
      happenUntil work limit fuel (debouncer.happen work time due) := by
  simp only [happenUntil, next, soon, if_true]

/-- Nothing is due by the limit when the loop ends, since its fuel lasts. -/
theorem quiet_happenUntil (work : Work World) (limit : Rat) {fuel : Nat}
    (enough : debouncer.weight ≤ fuel) : (happenUntil work limit fuel debouncer).Quiet limit := by
  induction fuel generalizing debouncer with
  | zero =>
      intro time due next
      have lower := weight_happen_lt work next
      simp only [happenUntil] at lower
      omega
  | succ fuel ih =>
      unfold happenUntil
      split
      · next none =>
          intro time due next
          nomatch none.symm.trans next
      · next time due next =>
          have lower := weight_happen_lt work next
          split
          · exact ih (by omega)
          · next late =>
              intro first other same
              obtain ⟨rfl, rfl⟩ := Prod.mk.inj (Option.some.inj (next.symm.trans same))
              exact lt_of_not_ge late

theorem happens_happenWhileActive (work : Work World) (fuel : Nat) (debouncer : Debouncer World) :
    ReflTransGen (Happens work) debouncer (happenWhileActive work fuel debouncer) := by
  induction fuel generalizing debouncer with
  | zero => exact .refl
  | succ fuel ih =>
      unfold happenWhileActive
      split
      · exact .refl
      · split
        · exact .refl
        · next time due next => exact .head (.next next) (ih _)

theorem active_happenWhileActive (work : Work World) {fuel : Nat}
    (enough : debouncer.weight ≤ fuel) :
    (happenWhileActive work fuel debouncer).active = [] := by
  induction fuel generalizing debouncer with
  | zero =>
      simp only [weight] at enough
      simp only [happenWhileActive]
      exact List.length_eq_zero_iff.mp (by omega)
  | succ fuel ih =>
      unfold happenWhileActive
      split
      · next none => exact none
      · next some =>
          split
          · next none => exact absurd none (next?_ne_none some)
          · next time due next =>
              have lower := weight_happen_lt work next
              exact ih (by omega)

/-! ## Orders -/

/-- A single step on orders that are allowed.  Time passes whatever is allowed. -/
inductive StepBy (work : Work World) (allowed : Order → Bool) :
    Debouncer World → Debouncer World → Prop
  | trigger {count : Nat} (may : allowed (.trigger count) = true) (debouncer : Debouncer World) :
      StepBy work allowed debouncer (debouncer.trigger work)
  | cancel (may : allowed .cancel = true) (debouncer : Debouncer World) :
      StepBy work allowed debouncer debouncer.cancel
  | setDelay {delay : Delay} (may : allowed (.setDelay delay) = true)
      (debouncer : Debouncer World) :
      StepBy work allowed debouncer { debouncer with delay := delay }
  | setCallNow {callNow : Bool} (may : allowed (.setCallNow callNow) = true)
      (debouncer : Debouncer World) :
      StepBy work allowed debouncer { debouncer with callNow := callNow }
  | happens {debouncer later : Debouncer World} (happens : Happens work debouncer later) :
      StepBy work allowed debouncer later
  | wait (debouncer : Debouncer World) {time : Rat} (quiet : debouncer.Quiet time) :
      StepBy work allowed debouncer (debouncer.moveTo time)

def ReachesBy (work : Work World) (allowed : Order → Bool) :
    Debouncer World → Debouncer World → Prop :=
  ReflTransGen (StepBy work allowed)

variable {allowed : Order → Bool}

theorem StepBy.step (step : StepBy work allowed debouncer last) : Step work debouncer last := by
  cases step with
  | trigger may => exact .trigger debouncer
  | cancel may => exact .cancel debouncer
  | @setDelay delay may => exact .setDelay debouncer delay
  | @setCallNow callNow may => exact .setCallNow debouncer callNow
  | happens happens => exact .happens happens
  | wait debouncer quiet => exact .wait debouncer quiet

theorem ReachesBy.reaches (reaches : ReachesBy work allowed debouncer last) :
    Reaches work debouncer last :=
  ReflTransGen.mono (fun _ _ => StepBy.step) _ _ reaches

theorem ReachesBy.of_happens (happens : ReflTransGen (Happens work) debouncer last) :
    ReachesBy work allowed debouncer last :=
  ReflTransGen.mono (fun _ _ => StepBy.happens) _ _ happens

theorem reachesBy_triggers (work : Work World) {total : Nat}
    (may : allowed (.trigger total) = true) (count : Nat) (debouncer : Debouncer World) :
    ReachesBy work allowed debouncer (triggers work count debouncer) := by
  induction count generalizing debouncer with
  | zero => exact .refl
  | succ count ih => exact .head (.trigger may debouncer) (ih _)

theorem reachesBy_advance (work : Work World) (seconds : Rat) (debouncer : Debouncer World) :
    ReachesBy work allowed debouncer (debouncer.advance work seconds) := by
  apply ReflTransGen.tail (ReachesBy.of_happens (happens_happenUntil work _ _ _))
  exact .wait _ (quiet_happenUntil work _ (le_refl _))

theorem reachesBy_act (work : Work World) (debouncer : Debouncer World) {order : Order}
    (may : allowed order = true) : ReachesBy work allowed debouncer (debouncer.act work order) := by
  cases order with
  | trigger count => exact reachesBy_triggers work may count debouncer
  | advance seconds => exact reachesBy_advance work seconds debouncer
  | cancel => exact .single (.cancel may debouncer)
  | drain => exact .of_happens (happens_happenWhileActive work _ _)
  | setDelay delay => exact .single (.setDelay may debouncer)
  | setCallNow callNow => exact .single (.setCallNow may debouncer)

theorem reachesBy_obey (work : Work World) (debouncer : Debouncer World) {order : Order}
    (may : allowed order = true) : ReachesBy work allowed debouncer (debouncer.obey work order) :=
  ReflTransGen.trans (reachesBy_act work debouncer may)
    (ReachesBy.of_happens (happens_happenUntil work _ _ _))

def obeyAll (work : Work World) (debouncer : Debouncer World) (orders : List Order) :
    Debouncer World :=
  orders.foldl (obey work) debouncer

theorem reachesBy_obeyAll (work : Work World) (debouncer : Debouncer World) {orders : List Order}
    (may : ∀ order ∈ orders, allowed order = true) :
    ReachesBy work allowed debouncer (obeyAll work debouncer orders) := by
  induction orders generalizing debouncer with
  | nil => exact .refl
  | cons order orders ih =>
      obtain ⟨here, later⟩ := List.forall_mem_cons.mp may
      exact (reachesBy_obey work debouncer here).trans (ih _ later)

theorem reaches_obeyAll (work : Work World) (debouncer : Debouncer World) (orders : List Order) :
    Reaches work debouncer (obeyAll work debouncer orders) := by
  have obeys : ReachesBy work (fun _ => true) debouncer (obeyAll work debouncer orders) :=
    reachesBy_obeyAll work debouncer fun _ _ => rfl
  exact obeys.reaches

end Debouncer

end CommandFile
