import CommandFile.Proofs.Windows

/-!
# Bursts of triggers

A trigger leads a burst when it comes after the quiet time of the one before, and the work
has to be called at once.  Any other trigger has to wait, and it gets a run unless a further
one comes within the delay.  A debouncer whose delay stays the same follows its triggers:
it has seen none, or it keeps the last one waiting, or it has served it.
-/

namespace CommandFile

structure Trigger where
  time : Rat
  leads : Bool
deriving DecidableEq, Repr

namespace Trigger

variable {delay : Rat} {callNow : Bool}

def start (delay : Rat) (trigger : Trigger) : Rat :=
  if trigger.leads then trigger.time else trigger.time + delay

/-- When a further trigger can lead.  The run of a trigger that waited has a window of its
own. -/
def quietEnd (delay : Rat) (trigger : Trigger) : Rat :=
  if trigger.leads then trigger.time + delay else trigger.time + 2 * delay

def sequence (delay : Rat) (callNow : Bool) (before? : Option Trigger) : List Rat → List Trigger
  | [] => []
  | time :: later =>
      let trigger : Trigger :=
        ⟨time, callNow && before?.all fun before => before.quietEnd delay ≤ time⟩
      trigger :: sequence delay callNow (some trigger) later

def starts (delay : Rat) : List Trigger → List Rat
  | [] => []
  | [trigger] => [trigger.start delay]
  | trigger :: next :: later =>
      let others := starts delay (next :: later)
      if trigger.leads = true ∨ trigger.start delay ≤ next.time then
        trigger.start delay :: others
      else
        others

theorem quietEnd_eq (delay : Rat) (trigger : Trigger) :
    trigger.quietEnd delay = trigger.start delay + delay := by
  unfold quietEnd start
  split
  · rfl
  · linarith

theorem map_time_sequence (before? : Option Trigger) (times : List Rat) :
    (sequence delay callNow before? times).map time = times := by
  induction times generalizing before? with
  | nil => rfl
  | cons first times ih => simp [sequence, ih]

theorem sequence_concat (before? : Option Trigger) (times : List Rat) (time : Rat) :
    sequence delay callNow before? (times ++ [time]) =
      sequence delay callNow before? times ++
        [⟨time, callNow && ((sequence delay callNow before? times).getLast?.or before?).all
          fun before => before.quietEnd delay ≤ time⟩] := by
  induction times generalizing before? with
  | nil => simp [sequence]
  | cons first times ih =>
      simp only [List.cons_append, sequence, ih, List.getLast?_cons]
      cases (sequence delay callNow _ times).getLast? <;> rfl

theorem starts_cons (delay : Rat) (trigger : Trigger) {next : Trigger} {later : List Trigger}
    {triggers : List Trigger} (follows : triggers = next :: later) :
    starts delay (trigger :: triggers) =
      if trigger.leads = true ∨ trigger.start delay ≤ next.time then
        trigger.start delay :: starts delay triggers
      else
        starts delay triggers := by
  rw [follows, starts]

/-- The last trigger has a run started, so far; the next one decides whether it will. -/
theorem exists_starts_concat (delay : Rat) (triggers : List Trigger) (trigger : Trigger) :
    ∃ early, starts delay (triggers ++ [trigger]) = early ++ [trigger.start delay] ∧
      ∀ next : Trigger, starts delay (triggers ++ [trigger] ++ [next]) =
        early ++ (if trigger.leads = true ∨ trigger.start delay ≤ next.time then
          [trigger.start delay] else []) ++ [next.start delay] := by
  induction triggers with
  | nil =>
      refine ⟨[], rfl, fun next => ?_⟩
      simp only [List.nil_append, List.singleton_append, starts]
      split <;> rfl
  | cons first triggers ih =>
      -- Whether `first` gets a run is up to the trigger behind it, which is there already.
      obtain ⟨early, here, later⟩ := ih
      obtain ⟨second, rest, behind⟩ : ∃ second rest, triggers ++ [trigger] = second :: rest :=
        List.exists_cons_of_ne_nil (by simp)
      have behindToo (next : Trigger) :
          triggers ++ [trigger] ++ [next] = second :: (rest ++ [next]) := by simp [behind]
      simp only [List.cons_append, starts_cons delay first behind,
        starts_cons delay first (behindToo _), here, later]
      split
      · exact ⟨first.start delay :: early, rfl, fun next => rfl⟩
      · exact ⟨early, rfl, fun next => rfl⟩

end Trigger

def Event.isTrigger : Event → Bool
  | .triggered => true
  | _ => false

def Event.isStart : Event → Bool
  | .started _ => true
  | _ => false

namespace Debouncer

open Relation

variable {World : Type} {work : Work World} {debouncer last : Debouncer World} {time : Rat}
  {delay : Rat} {callNow : Bool} {seen : List Trigger}

/-! ## Times in the history -/

/-- The times of some events, the earliest first. -/
def timesOf (isWanted : Event → Bool) (history : List (Event × Rat)) : List Rat :=
  ((history.filter fun item => isWanted item.1).map Prod.snd).reverse

def triggerTimes (debouncer : Debouncer World) : List Rat :=
  timesOf Event.isTrigger debouncer.history

def startTimes (debouncer : Debouncer World) : List Rat :=
  timesOf Event.isStart debouncer.history

theorem timesOf_cons (isWanted : Event → Bool) (event : Event) (time : Rat)
    (history : List (Event × Rat)) :
    timesOf isWanted ((event, time) :: history) =
      timesOf isWanted history ++ if isWanted event then [time] else [] := by
  unfold timesOf
  cases wanted : isWanted event <;> simp [wanted]

theorem triggerTimes_trigger (work : Work World) (debouncer : Debouncer World) :
    (debouncer.trigger work).triggerTimes = debouncer.triggerTimes ++ [debouncer.now] := by
  unfold trigger triggerTimes
  dsimp only
  split
  · simp [openWindow, stopTimer, note, timesOf_cons, Event.isTrigger]
  · split <;> simp [openWindow, startRun, note, timesOf_cons, Event.isTrigger]

/-! ## What the steps do -/

def OpenUntil (debouncer : Debouncer World) (time : Rat) : Prop :=
  ∃ id, debouncer.timers = [⟨id, some time⟩]

theorem OpenUntil.earliest? (opened : debouncer.OpenUntil time) :
    ∃ timer, Timer.earliest? debouncer.timers = some (time, timer) := by
  obtain ⟨id, single⟩ := opened
  rw [single]
  exact ⟨_, rfl⟩

theorem Quiet.lt_of_openUntil {limit : Rat} (quiet : debouncer.Quiet limit)
    (opened : debouncer.OpenUntil time) : limit < time := by
  obtain ⟨timer, first⟩ := opened.earliest?
  obtain ⟨instant, due, next, before⟩ := exists_next?_le first
  exact (quiet instant due next).trans_le before

theorem openUntil_openWindow (unarmed : debouncer.timers = [])
    (constant : debouncer.delay = .finite delay) :
    debouncer.openWindow.OpenUntil (debouncer.now + delay) := by
  simp [OpenUntil, openWindow, unarmed, constant, Delay.after]

theorem Sound.closed_iff (sound : debouncer.Sound) :
    debouncer.window? = none ↔ debouncer.timers = [] := by
  rw [← List.map_eq_nil_iff (f := Timer.id), sound.timers]
  cases debouncer.window? <;> simp

theorem trigger_cases (sound : debouncer.Sound) (constant : debouncer.delay = .finite delay)
    (work : Work World) :
    let later := debouncer.trigger work
    later.delay = debouncer.delay ∧ later.callNow = debouncer.callNow ∧
      later.now = debouncer.now ∧ later.OpenUntil (debouncer.now + delay) ∧
      ((debouncer.timers = [] ∧ debouncer.callNow = true ∧ later.pending = false ∧
          later.history = (.started debouncer.started, debouncer.now) ::
            (.triggered, debouncer.now) :: debouncer.history) ∨
        (¬ (debouncer.timers = [] ∧ debouncer.callNow = true) ∧ later.pending = true ∧
          later.history = (.triggered, debouncer.now) :: debouncer.history)) := by
  rw [← sound.closed_iff]
  cases opened : debouncer.window? with
  | some id =>
      obtain ⟨timer, single, rfl⟩ := sound.timers_of_open opened
      simp only [trigger, note, opened]
      exact ⟨rfl, rfl, rfl, openUntil_openWindow (stopTimer_of_single single) constant,
        .inr ⟨by simp, rfl, rfl⟩⟩
  | none =>
      have unarmed := sound.timers_of_closed opened
      have quiet : debouncer.pending = false :=
        Bool.eq_false_iff.mpr fun pending => sound.window pending opened
      simp only [trigger, note, opened]
      split
      · next calls =>
          exact ⟨rfl, rfl, rfl, openUntil_openWindow unarmed constant,
            .inl ⟨trivial, calls, quiet, rfl⟩⟩
      · next waits =>
          exact ⟨rfl, rfl, rfl, openUntil_openWindow unarmed constant,
            .inr ⟨by simp [waits], rfl, rfl⟩⟩

theorem closeWindow_cases (unarmed : debouncer.timers = [])
    (constant : debouncer.delay = .finite delay) (work : Work World) :
    let later := debouncer.closeWindow work
    later.delay = debouncer.delay ∧ later.callNow = debouncer.callNow ∧
      later.now = debouncer.now ∧ later.pending = false ∧
      ((debouncer.pending = true ∧ later.OpenUntil (debouncer.now + delay) ∧
          later.history = (.started debouncer.started, debouncer.now) :: debouncer.history) ∨
        (debouncer.pending = false ∧ later.timers = [] ∧
          later.history = debouncer.history)) := by
  unfold closeWindow
  dsimp only
  split
  · next pending =>
      exact ⟨rfl, rfl, rfl, rfl, .inl ⟨pending, openUntil_openWindow unarmed constant, rfl⟩⟩
  · next quiet =>
      have quiet := Bool.eq_false_iff.mpr quiet
      exact ⟨rfl, rfl, rfl, quiet, .inr ⟨quiet, unarmed, rfl⟩⟩

theorem now_moveTo_of_le (soon : debouncer.now ≤ time) : (debouncer.moveTo time).now = time :=
  (now_moveTo debouncer time).trans (max_eq_right soon)

theorem le_now_moveTo_self (debouncer : Debouncer World) (time : Rat) :
    time ≤ (debouncer.moveTo time).now :=
  (le_max_right _ _).trans_eq (now_moveTo debouncer time).symm

theorem now_happen (work : Work World) (debouncer : Debouncer World) (time : Rat) (due : Due) :
    (debouncer.happen work time due).now = (debouncer.moveTo time).now := by
  cases due with
  | finish run =>
      simp only [happen, finishRun]
      split <;> rfl
  | timer timer =>
      simp only [happen, closeWindow]
      split <;> rfl

theorem le_now_of_happensOn (happens : ReflTransGen (Happens work) debouncer last) :
    debouncer.now ≤ last.now := by
  induction happens with
  | refl => exact le_refl _
  | tail _ happens ih =>
      obtain ⟨next⟩ := happens
      rw [now_happen]
      exact ih.trans (le_now_moveTo _ _)

theorem max_now_happenUntil (work : Work World) (debouncer : Debouncer World) (limit : Rat)
    (fuel : Nat) :
    max (happenUntil work limit fuel debouncer).now limit = max debouncer.now limit := by
  induction fuel generalizing debouncer with
  | zero => rfl
  | succ fuel ih =>
      unfold happenUntil
      split
      · rfl
      · next time due next =>
          split
          · next soon => rw [ih, now_happen, now_moveTo, max_assoc, max_eq_right soon]
          · rfl

theorem now_happenUntil_le (work : Work World) {limit : Rat} (fuel : Nat)
    (now : debouncer.now ≤ limit) : (happenUntil work limit fuel debouncer).now ≤ limit :=
  (le_max_left _ _).trans_eq ((max_now_happenUntil work _ _ _).trans (max_eq_right now))

/-- The clock is moved on without anything to be seen of it. -/
structure Passes (debouncer later : Debouncer World) : Prop where
  delay : later.delay = debouncer.delay
  callNow : later.callNow = debouncer.callNow
  timers : later.timers = debouncer.timers
  pending : later.pending = debouncer.pending
  startTimes : later.startTimes = debouncer.startTimes
  now : debouncer.now ≤ later.now
  inTime : ∀ time, debouncer.OpenUntil time → later.now ≤ max debouncer.now time

theorem Passes.refl (debouncer : Debouncer World) : debouncer.Passes debouncer :=
  ⟨rfl, rfl, rfl, rfl, rfl, le_refl _, fun _ _ => le_max_left _ _⟩

theorem Passes.openUntil_iff (passes : debouncer.Passes last) :
    last.OpenUntil time ↔ debouncer.OpenUntil time := by
  rw [OpenUntil, OpenUntil, passes.timers]

theorem Passes.trans {later : Debouncer World} (first : debouncer.Passes later)
    (second : later.Passes last) : debouncer.Passes last where
  delay := second.delay.trans first.delay
  callNow := second.callNow.trans first.callNow
  timers := second.timers.trans first.timers
  pending := second.pending.trans first.pending
  startTimes := second.startTimes.trans first.startTimes
  now := first.now.trans second.now
  inTime := fun due opened =>
    (second.inTime due (first.openUntil_iff.mpr opened)).trans
      (max_le (first.inTime due opened) (le_max_right _ _))

theorem passes_moveTo (early : ∀ due, debouncer.OpenUntil due → time ≤ due) :
    debouncer.Passes (debouncer.moveTo time) where
  delay := rfl
  callNow := rfl
  timers := rfl
  pending := rfl
  startTimes := rfl
  now := le_now_moveTo debouncer time
  inTime := fun due opened =>
    (now_moveTo debouncer time).trans_le (max_le_max (le_refl _) (early due opened))

theorem Passes.finishRun (passes : debouncer.Passes last) (run : Run) :
    debouncer.Passes (Debouncer.finishRun run last) := by
  obtain ⟨delay, callNow, timers, pending, started, now, inTime⟩ := passes
  unfold Debouncer.finishRun
  dsimp only
  split
  · refine ⟨delay, callNow, timers, pending, ?_, now, inTime⟩
    simpa [startTimes, note, timesOf_cons, Event.isStart]
  · refine ⟨delay, callNow, timers, pending, ?_, now, inTime⟩
    simpa [startTimes, note, timesOf_cons, Event.isStart]

theorem earliest?_single {timer found : Timer} {instant : Rat}
    (first : Timer.earliest? [timer] = some (instant, found)) :
    timer = ⟨timer.id, some instant⟩ := by
  obtain ⟨id, due?⟩ := timer
  cases due? with
  | none => nomatch first
  | some due =>
      obtain ⟨rfl, -⟩ := Prod.mk.inj (Option.some.inj first)
      rfl

theorem happens_cases (sound : debouncer.Sound) (happens : Happens work debouncer last) :
    debouncer.Passes last ∨
      ∃ time timer, debouncer.OpenUntil time ∧ debouncer.timers = [timer] ∧
        last = closeWindow work ((debouncer.moveTo time).stopTimer timer.id) := by
  obtain ⟨next⟩ := happens
  rename_i time due
  rcases next?_cases next with ⟨run, -, rfl, early⟩ | ⟨timer, first, rfl, -⟩
  · refine .inl ((passes_moveTo fun due opened => ?_).finishRun run)
    obtain ⟨timer, first⟩ := opened.earliest?
    exact early _ first
  · have single := sound.eq_of_mem (Timer.mem_of_earliest? first)
    refine .inr ⟨time, timer, ⟨timer.id, ?_⟩, single, rfl⟩
    rw [single] at first ⊢
    rw [← earliest?_single first]

/-! ## Stages of a burst -/

/-- Where a debouncer stands with its triggers: it has seen none, or it keeps the last one
waiting, or it has started the run of the last one. -/
inductive Stage (delay : Rat) (debouncer : Debouncer World) : List Trigger → Prop
  | fresh (closed : debouncer.timers = []) (none : debouncer.startTimes = []) :
      Stage delay debouncer []
  | waiting {before : List Trigger} {trigger : Trigger} (follows : trigger.leads = false)
      (pending : debouncer.pending = true)
      (opened : debouncer.OpenUntil (trigger.start delay))
      (early : debouncer.now ≤ trigger.start delay)
      (starts : debouncer.startTimes ++ [trigger.start delay] =
        Trigger.starts delay (before ++ [trigger])) :
      Stage delay debouncer (before ++ [trigger])
  | served {before : List Trigger} {trigger : Trigger} (quiet : debouncer.pending = false)
      (begun : trigger.start delay ≤ debouncer.now)
      (window : debouncer.OpenUntil (trigger.quietEnd delay) ∧
          debouncer.now ≤ trigger.quietEnd delay ∨
        debouncer.timers = [] ∧ trigger.quietEnd delay ≤ debouncer.now)
      (starts : debouncer.startTimes = Trigger.starts delay (before ++ [trigger])) :
      Stage delay debouncer (before ++ [trigger])

def Resting (debouncer : Debouncer World) : Prop :=
  ∀ time, debouncer.OpenUntil time → debouncer.now < time

theorem OpenUntil.ne_nil (opened : debouncer.OpenUntil time) : debouncer.timers ≠ [] := by
  obtain ⟨id, single⟩ := opened
  simp [single]

theorem Stage.passes (stage : Stage delay debouncer seen) (passes : debouncer.Passes last) :
    Stage delay last seen := by
  cases stage with
  | fresh closed none => exact .fresh (passes.timers.trans closed) (passes.startTimes.trans none)
  | waiting follows pending opened early starts =>
      exact .waiting follows (passes.pending.trans pending) (passes.openUntil_iff.mpr opened)
        ((passes.inTime _ opened).trans (max_le early (le_refl _))) (passes.startTimes ▸ starts)
  | served quiet begun window starts =>
      apply Stage.served
      · exact passes.pending.trans quiet
      · exact begun.trans passes.now
      · rcases window with ⟨opened, early⟩ | ⟨closed, late⟩
        · exact .inl ⟨passes.openUntil_iff.mpr opened,
            (passes.inTime _ opened).trans (max_le early (le_refl _))⟩
        · exact .inr ⟨passes.timers.trans closed, late.trans passes.now⟩
      · exact passes.startTimes.trans starts

theorem Stage.quiet_iff (stage : Stage delay debouncer seen) (positive : 0 < delay)
    (resting : debouncer.Resting) :
    (seen.getLast?.all fun trigger => trigger.quietEnd delay ≤ debouncer.now) = true ↔
      debouncer.timers = [] := by
  cases stage with
  | fresh closed none => simp [closed]
  | @waiting before trigger follows pending opened early starts =>
      have soon := resting _ opened
      have later := trigger.quietEnd_eq delay
      have still : ¬ trigger.quietEnd delay ≤ debouncer.now := by linarith
      simp [still, opened.ne_nil]
  | @served before trigger quiet begun window starts =>
      rcases window with ⟨opened, early⟩ | ⟨closed, late⟩
      · simp [not_le_of_gt (resting _ opened), opened.ne_nil]
      · simp [late, closed]

/-- When a further trigger comes, the runs started so far are all that the triggers before
it get. -/
theorem Stage.starts_concat (stage : Stage delay debouncer seen) (resting : debouncer.Resting)
    {next : Trigger} (now : next.time = debouncer.now) :
    Trigger.starts delay (seen ++ [next]) = debouncer.startTimes ++ [next.start delay] := by
  cases stage with
  | fresh closed none =>
      rw [none]
      rfl
  | @waiting before trigger follows pending opened early starts =>
      obtain ⟨earlier, here, later⟩ := Trigger.exists_starts_concat delay before trigger
      have soon := resting _ opened
      have cut : ¬ (trigger.leads = true ∨ trigger.start delay ≤ next.time) := by
        rw [follows, now]
        simp [soon]
      rw [here] at starts
      rw [later, if_neg cut, List.append_nil, List.append_cancel_right starts]
  | @served before trigger quiet begun window starts =>
      obtain ⟨earlier, here, later⟩ := Trigger.exists_starts_concat delay before trigger
      rw [later, if_pos (.inr (now ▸ begun)), starts, here]

/-! ## Following the triggers -/

structure Follows (delay : Rat) (callNow : Bool) (debouncer : Debouncer World) : Prop where
  sound : debouncer.Sound
  constant : debouncer.delay = .finite delay
  calls : debouncer.callNow = callNow
  stage : Stage delay debouncer (Trigger.sequence delay callNow none debouncer.triggerTimes)

theorem follows_new (delay : Rat) (callNow : Bool) (world : World) :
    Follows delay callNow (new (.finite delay) callNow world) where
  sound := sound_new _ _ _
  constant := rfl
  calls := rfl
  stage := .fresh rfl rfl

theorem Follows.passes (follows : Follows delay callNow debouncer) (passes : debouncer.Passes last)
    (sound : last.Sound) (same : last.triggerTimes = debouncer.triggerTimes) :
    Follows delay callNow last where
  sound := sound
  constant := passes.delay.trans follows.constant
  calls := passes.callNow.trans follows.calls
  stage := same ▸ follows.stage.passes passes

theorem Follows.leads_iff (follows : Follows delay callNow debouncer) (positive : 0 < delay)
    (resting : debouncer.Resting) :
    (callNow && ((Trigger.sequence delay callNow none debouncer.triggerTimes).getLast?).all
      fun before => before.quietEnd delay ≤ debouncer.now) = true ↔
      debouncer.timers = [] ∧ debouncer.callNow = true := by
  rw [Bool.and_eq_true, follows.stage.quiet_iff positive resting, follows.calls, and_comm]

theorem Follows.trigger (follows : Follows delay callNow debouncer) (positive : 0 < delay)
    (resting : debouncer.Resting) (work : Work World) :
    Follows delay callNow (debouncer.trigger work) := by
  obtain ⟨sameDelay, sameCallNow, sameNow, opened, cases⟩ :=
    trigger_cases follows.sound follows.constant work
  refine ⟨follows.sound.trigger work, sameDelay.trans follows.constant,
    sameCallNow.trans follows.calls, ?_⟩
  have leads := follows.leads_iff positive resting
  rw [triggerTimes_trigger, Trigger.sequence_concat, Option.or_none]
  generalize debouncer.trigger work = later at *
  rcases cases with ⟨closed, calls, served, history⟩ | ⟨held, pending, history⟩
  · have started : later.startTimes = debouncer.startTimes ++ [debouncer.now] := by
      simp [startTimes, history, timesOf_cons, Event.isStart]
    rw [leads.mpr ⟨closed, calls⟩]
    apply Stage.served
    · exact served
    · exact sameNow.ge
    · exact .inl ⟨opened, sameNow.trans_le (by simp [Trigger.quietEnd]; linarith)⟩
    · rw [started, follows.stage.starts_concat resting rfl]
      rfl
  · have started : later.startTimes = debouncer.startTimes := by
      simp [startTimes, history, timesOf_cons, Event.isStart]
    rw [Bool.eq_false_iff.mpr (mt leads.mp held)]
    apply Stage.waiting
    · rfl
    · exact pending
    · exact opened
    · exact sameNow.trans_le (by simp [Trigger.start]; linarith)
    · rw [started, follows.stage.starts_concat resting rfl]

theorem OpenUntil.unique {other : Rat} (opened : debouncer.OpenUntil time)
    (openedToo : debouncer.OpenUntil other) : time = other := by
  obtain ⟨id, single⟩ := opened
  obtain ⟨idToo, singleToo⟩ := openedToo
  simp only [single, List.cons.injEq, Timer.mk.injEq, Option.some.injEq] at singleToo
  exact singleToo.1.2

theorem Stage.closeWindow (stage : Stage delay debouncer seen) (positive : 0 < delay)
    (constant : debouncer.delay = .finite delay) (opened : debouncer.OpenUntil time)
    {timer : Timer} (single : debouncer.timers = [timer]) (work : Work World) :
    Stage delay (closeWindow work ((debouncer.moveTo time).stopTimer timer.id)) seen := by
  have unarmed : ((debouncer.moveTo time).stopTimer timer.id).timers = [] :=
    stopTimer_of_single single
  obtain ⟨-, -, sameNow, quietNow, cases⟩ := closeWindow_cases unarmed constant work
  have instant (soon : debouncer.now ≤ time) :
      ((debouncer.moveTo time).stopTimer timer.id).now = time := now_moveTo_of_le soon
  generalize Debouncer.closeWindow work ((debouncer.moveTo time).stopTimer timer.id) = later at *
  cases stage with
  | fresh closed none => exact absurd closed opened.ne_nil
  | @waiting before trigger follows pending openedThen early starts =>
      obtain rfl := openedThen.unique opened
      rw [instant early] at sameNow cases
      rcases cases with ⟨-, openedNow, history⟩ | ⟨quiet, -, -⟩
      · have started : later.startTimes = debouncer.startTimes ++ [trigger.start delay] := by
          simp [startTimes, history, timesOf_cons, Event.isStart]
          rfl
        rw [← trigger.quietEnd_eq] at openedNow
        apply Stage.served
        · exact quietNow
        · exact sameNow.ge
        · exact .inl ⟨openedNow, by rw [sameNow, trigger.quietEnd_eq]; linarith⟩
        · exact started.trans starts
      · nomatch pending.symm.trans quiet
  | @served before trigger quiet begun window starts =>
      rcases window with ⟨openedThen, early⟩ | ⟨closed, -⟩
      · obtain rfl := openedThen.unique opened
        rw [instant early] at sameNow cases
        rcases cases with ⟨pending, -, -⟩ | ⟨-, closedNow, history⟩
        · nomatch pending.symm.trans quiet
        · have started : later.startTimes = debouncer.startTimes := by
            rw [startTimes, history]
            rfl
          apply Stage.served
          · exact quietNow
          · rw [sameNow, trigger.quietEnd_eq]
            linarith
          · exact .inr ⟨closedNow, sameNow.ge⟩
          · exact started.trans starts
      · exact absurd closed opened.ne_nil

theorem triggerTimes_of_happens (happens : Happens work debouncer last) :
    last.triggerTimes = debouncer.triggerTimes := by
  obtain ⟨next⟩ := happens
  rename_i time due
  cases due with
  | finish run =>
      simp only [happen, finishRun]
      split <;> simp [triggerTimes, note, moveTo, timesOf_cons, Event.isTrigger]
  | timer timer =>
      simp only [happen, closeWindow]
      split
      · simp [triggerTimes, openWindow, startRun, stopTimer, moveTo, timesOf_cons, Event.isTrigger]
      · rfl

theorem Follows.happens (follows : Follows delay callNow debouncer) (positive : 0 < delay)
    (happens : Happens work debouncer last) : Follows delay callNow last := by
  have sound := follows.sound.happens happens
  have same := triggerTimes_of_happens happens
  rcases happens_cases follows.sound happens with
    passes | ⟨time, timer, opened, single, rfl⟩
  · exact follows.passes passes sound same
  · have unarmed : ((debouncer.moveTo time).stopTimer timer.id).timers = [] :=
      stopTimer_of_single single
    obtain ⟨sameDelay, sameCallNow, -⟩ := closeWindow_cases unarmed follows.constant work
    refine ⟨sound, sameDelay.trans follows.constant, sameCallNow.trans follows.calls, ?_⟩
    rw [same]
    exact follows.stage.closeWindow positive follows.constant opened single work

theorem Follows.happensOn (follows : Follows delay callNow debouncer) (positive : 0 < delay)
    (happens : ReflTransGen (Happens work) debouncer last) : Follows delay callNow last := by
  induction happens with
  | refl => exact follows
  | tail _ happens ih => exact ih.happens positive happens

end Debouncer

end CommandFile
