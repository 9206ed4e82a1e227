import CommandFile.Proofs.Moves
import CommandFile.Proofs.Resumptions

/-!
# Stops

To stop, a watcher drops its window and waits for its runs.  Nothing can fall due after
that, so however much time passes nothing happens until the watcher is started again; and
then it goes on like a watcher that has never watched.
-/

namespace CommandFile

namespace Debouncer

open Relation

variable {World : Type} {work : Work World} {debouncer last : Debouncer World}

/-! ## Debouncers at rest -/

structure Still (debouncer : Debouncer World) : Prop extends debouncer.Calm where
  resting : debouncer.active = []

theorem still_new (delay : Delay) (callNow : Bool) (world : World) :
    (new delay callNow world).Still :=
  ⟨⟨rfl, rfl, rfl⟩, rfl⟩

theorem Still.next?_eq_none (still : debouncer.Still) : debouncer.next? = none := by
  simp only [next?, still.resting, still.unarmed, Run.earliest?, Timer.earliest?]

theorem Still.happenUntil_eq (still : debouncer.Still) (work : Work World) (limit : Rat)
    (fuel : Nat) : happenUntil work limit fuel debouncer = debouncer := by
  cases fuel with
  | zero => rfl
  | succ fuel => rw [happenUntil, still.next?_eq_none]

theorem Still.settle_eq (still : debouncer.Still) (work : Work World) :
    debouncer.settle work = debouncer :=
  still.happenUntil_eq work _ _

/-- A debouncer at rest is a new one with a past. -/
theorem Still.eq_after (still : debouncer.Still) {memory : World → World} {origin : World}
    (recalls : memory origin = debouncer.world) :
    debouncer =
      ({ new debouncer.delay debouncer.callNow origin with now := debouncer.now } :
        Debouncer World).after
        ⟨debouncer.opened, debouncer.started, debouncer.history, debouncer.log, memory⟩ := by
  obtain ⟨⟨closed, quiet, unarmed⟩, resting⟩ := still
  have bare : debouncer =
      { debouncer with window? := none, pending := false, timers := [], active := [] } := by
    rw [← closed, ← quiet, ← unarmed, ← resting]
  refine bare.trans ?_
  simp only [after, new, recalls, List.map_nil, Option.map_none, List.nil_append, List.append_nil,
    Nat.zero_add]

theorem Still.moveTo (still : debouncer.Still) (time : Rat) : (debouncer.moveTo time).Still :=
  ⟨⟨still.closed, still.quiet, still.unarmed⟩, still.resting⟩

theorem Still.obey_advance (still : debouncer.Still) (work : Work World) (seconds : Rat) :
    debouncer.obey work (.advance seconds) = debouncer.moveTo (debouncer.now + seconds) := by
  have moved := still.moveTo (debouncer.now + seconds)
  simp only [obey, act, advance, still.happenUntil_eq, moved.settle_eq]

theorem Calm.still_drain (calm : debouncer.Calm) (work : Work World) :
    (debouncer.obey work .drain).Still := by
  have drained : (debouncer.drain work).Still :=
    ⟨calm.happensOn (happens_happenWhileActive work _ _),
      active_happenWhileActive work (le_refl _)⟩
  have settled : debouncer.obey work .drain = debouncer.drain work := drained.settle_eq work
  rw [settled]
  exact drained

end Debouncer

namespace Watcher

variable {watcher : Watcher}

/-! ## Stopped watchers -/

/-- The watcher does not watch, nothing will fall due, and no run has anything left to do. -/
structure Stopped (watcher : Watcher) : Prop where
  still : watcher.debouncer.Still
  idle : watcher.watching = false
  read : watcher.debouncer.world.unread = 0
  handed : watcher.debouncer.world.unhanded = []

theorem Stopped.closed (stopped : watcher.Stopped) : watcher.debouncer.idle = true :=
  Option.isNone_iff_eq_none.mpr stopped.still.closed

theorem Stopped.running (stopped : watcher.Stopped) : watcher.debouncer.running = 0 :=
  congrArg List.length stopped.still.resting

theorem stopped_stop (sound : watcher.debouncer.Sound) (watching : watcher.watching = true) :
    watcher.stop.Stopped := by
  -- Before the runs are waited for, the window is gone; they can open no other one.
  have calm : (watcher.order .cancel).debouncer.Calm :=
    sound.calm_cancel.happensOn (Debouncer.happens_happenUntil watcher.plan.work _ _ _)
  have still := calm.still_drain watcher.plan.work
  rw [stop, if_pos watching]
  have gets := getsOn_finish ((watcher.order .cancel).order .drain)
  obtain ⟨read, handed⟩ := finish_finished ((watcher.order .cancel).order .drain)
  generalize ((watcher.order .cancel).order .drain).finish = finished at gets read handed
  obtain ⟨world, rows, rfl⟩ := gets
  exact ⟨⟨⟨still.closed, still.quiet, still.unarmed⟩, still.resting⟩, rfl, read, handed⟩

def Order.wakes : Order → Bool
  | .start => true
  | .handle _ => true
  | .process => true
  | _ => false

structure SameDeeds (watcher later : Watcher) : Prop where
  started : later.debouncer.started = watcher.debouncer.started
  readings : later.debouncer.world.readings = watcher.debouncer.world.readings
  dispatches : later.debouncer.world.dispatches = watcher.debouncer.world.dispatches
  messages : later.debouncer.world.messages = watcher.debouncer.world.messages

theorem SameDeeds.refl (watcher : Watcher) : SameDeeds watcher watcher := ⟨rfl, rfl, rfl, rfl⟩

theorem SameDeeds.trans {later last : Watcher} (same : SameDeeds watcher later)
    (sameThen : SameDeeds later last) : SameDeeds watcher last :=
  ⟨sameThen.started.trans same.started, sameThen.readings.trans same.readings,
    sameThen.dispatches.trans same.dispatches, sameThen.messages.trans same.messages⟩

theorem Stopped.obey (stopped : watcher.Stopped) {order : Order} (sleeps : order.wakes = false) :
    (watcher.obey order).Stopped ∧ SameDeeds watcher (watcher.obey order) := by
  obtain ⟨still, idle, read, handed⟩ := id stopped
  cases order with
  | put tree =>
      exact ⟨⟨⟨⟨still.closed, still.quiet, still.unarmed⟩, still.resting⟩, idle, read, handed⟩,
        rfl, rfl, rfl, rfl⟩
  | feed changes =>
      rw [Watcher.obey, feed_of_idle idle]
      exact ⟨stopped, .refl _⟩
  | advance seconds =>
      have moved := still.obey_advance watcher.plan.work seconds
      have same : watcher.obey (.advance seconds) = { watcher with debouncer := _ } :=
        congrArg (Watcher.mk watcher.plan · watcher.watching) moved
      rw [same]
      exact ⟨⟨still.moveTo _, idle, read, handed⟩, rfl, rfl, rfl, rfl⟩
  | read =>
      have nothing : watcher.plan.readNext watcher.debouncer.now watcher.debouncer.world =
          ⟨.ok none, [], watcher.debouncer.world⟩ := by
        rw [WatchPlan.readNext, read]
      have same : watcher.obey .read = watcher.log [] := congrArg watcher.getOn nothing
      rw [same]
      exact ⟨⟨⟨⟨still.closed, still.quiet, still.unarmed⟩, still.resting⟩, idle, read, handed⟩,
        rfl, rfl, rfl, rfl⟩
  | hand place =>
      have nothing : watcher.plan.handNext place watcher.debouncer.world =
          ⟨.ok (), [], watcher.debouncer.world⟩ := by
        rw [WatchPlan.handNext, handed, List.getElem?_nil]
      have same : watcher.obey (.hand place) = watcher.log [] := congrArg watcher.getOn nothing
      rw [same]
      exact ⟨⟨⟨⟨still.closed, still.quiet, still.unarmed⟩, still.resting⟩, idle, read, handed⟩,
        rfl, rfl, rfl, rfl⟩
  | stop =>
      have stays : watcher.obey .stop = watcher := by
        simp only [Watcher.obey, stop, idle, Bool.false_eq_true, if_false]
      rw [stays]
      exact ⟨stopped, .refl _⟩
  | start => cases sleeps
  | handle kinds => cases sleeps
  | process => cases sleeps

theorem Stopped.obeyAll (stopped : watcher.Stopped) {orders : List Order}
    (sleeps : ∀ order ∈ orders, order.wakes = false) :
    (watcher.obeyAll orders).Stopped ∧ SameDeeds watcher (watcher.obeyAll orders) := by
  induction orders generalizing watcher with
  | nil => exact ⟨stopped, .refl _⟩
  | cons order orders ih =>
      obtain ⟨here, later⟩ := List.forall_mem_cons.mp sleeps
      obtain ⟨still, same⟩ := stopped.obey here
      obtain ⟨last, sameThen⟩ := ih still later
      exact ⟨last, same.trans sameThen⟩

/-! ## Watching anew -/

/-- A watcher whose past is that of one watcher, and which has since done what another one has. -/
structure GoesOn (before anew later : Watcher) : Prop where
  tree : later.tree = anew.tree
  watching : later.watching = anew.watching
  idle : later.debouncer.idle = anew.debouncer.idle
  pending : later.debouncer.pending = anew.debouncer.pending
  running : later.debouncer.running = anew.debouncer.running
  now : later.debouncer.now = anew.debouncer.now
  started : later.debouncer.started = anew.debouncer.started + before.debouncer.started
  readings : later.debouncer.world.readings =
    anew.debouncer.world.readings ++ before.debouncer.world.readings
  dispatches : later.debouncer.world.dispatches =
    anew.debouncer.world.dispatches ++ before.debouncer.world.dispatches
  messages : later.debouncer.world.messages =
    before.debouncer.world.messages ++ anew.debouncer.world.messages
  unread : later.debouncer.world.unread = anew.debouncer.world.unread
  unhanded : later.debouncer.world.unhanded = anew.debouncer.world.unhanded
  log : later.debouncer.log = before.debouncer.log ++ anew.debouncer.log

def past (watcher : Watcher) : Past WatchWorld where
  opened := watcher.debouncer.opened
  started := watcher.debouncer.started
  history := watcher.debouncer.history
  log := watcher.debouncer.log
  memory := .remember watcher.debouncer.world

theorem goesOn_after (before anew : Watcher) (pace : Nat → Rat) :
    GoesOn before anew (anew.after before.past pace) where
  tree := rfl
  watching := rfl
  idle := Option.isNone_map
  pending := rfl
  running := List.length_map _
  now := rfl
  started := rfl
  readings := rfl
  dispatches := rfl
  messages := rfl
  unread := rfl
  unhanded := rfl
  log := rfl

/-- A watcher that has never watched, on the files and at the time at which another one is.  Its
runs take as long as the next runs of the other one. -/
def anew (plan : WatchPlan) (delay : Delay) (callNow : Bool) (before : Watcher) : Watcher :=
  (fresh { plan with pace := fun number => plan.pace (number + before.debouncer.started) }
    delay callNow before.tree).advance before.debouncer.now

theorem debouncer_anew (plan : WatchPlan) (delay : Delay) (callNow : Bool)
    (now : 0 ≤ watcher.debouncer.now) :
    (anew plan delay callNow watcher).debouncer =
      { Debouncer.new delay callNow (.first watcher.tree) with now := watcher.debouncer.now } := by
  have still := Debouncer.still_new delay callNow (WatchWorld.first watcher.tree)
  have moved : (if 0 < watcher.debouncer.now then watcher.debouncer.now else 0) =
      watcher.debouncer.now := by
    split
    · rfl
    · next past => exact le_antisymm now (not_lt.mp past)
  refine (still.obey_advance _ _).trans ?_
  simp only [Debouncer.moveTo, Debouncer.new, zero_add, moved]

theorem Stopped.eq_after {delay : Delay} {callNow : Bool} (stopped : watcher.Stopped)
    (follows : watcher.Follows delay callNow) :
    watcher = (anew watcher.plan delay callNow watcher).after watcher.past watcher.plan.pace := by
  have recalls : watcher.past.memory (.first watcher.tree) = watcher.debouncer.world := by
    simp only [Watcher.past, WatchWorld.remember, WatchWorld.first, List.nil_append,
      List.append_nil, ← stopped.read, ← stopped.handed]
    rfl
  have same := stopped.still.eq_after recalls
  rw [follows.delay, follows.callNow, ← debouncer_anew watcher.plan _ _ follows.now] at same
  obtain ⟨plan, debouncer, watching⟩ := watcher
  obtain rfl : watching = false := stopped.idle
  exact congrArg (Watcher.mk plan · false) same

theorem Stopped.goesOn {delay : Delay} {callNow : Bool} (stopped : watcher.Stopped)
    (follows : watcher.Follows delay callNow) (later : List Order) :
    GoesOn watcher ((anew watcher.plan delay callNow watcher).obeyAll later)
      (watcher.obeyAll later) := by
  have paced : (anew watcher.plan delay callNow watcher).Paced watcher.past watcher.plan.pace :=
    fun _ => rfl
  have resumed := obeyAll_after rfl paced later
  rw [← stopped.eq_after follows] at resumed
  rw [resumed]
  exact goesOn_after watcher _ _

def Arises (plan : WatchPlan) (delay : Delay) (callNow : Bool) (watcher : Watcher) : Prop :=
  ∃ tree orders, watcher = (fresh plan delay callNow tree).obeyAll orders

/-- Stopping is final.  A watcher that has been watching and stops has no run in flight, no
window open and no trigger waiting; whatever is written or told and however much time passes,
it starts, reads and tells nothing until it is started again or handed a change.  From there on
it goes on as a watcher does that has never watched. -/
theorem stopping_is_final {plan : WatchPlan} {delay : Delay} {callNow : Bool} {current : Watcher}
    (arises : current.Arises plan delay callNow) (watching : current.watching = true) :
    (current.stop.watching = false ∧ current.stop.debouncer.running = 0 ∧
      current.stop.debouncer.idle = true ∧ current.stop.debouncer.pending = false ∧
      current.stop.debouncer.timers = [] ∧ current.stop.debouncer.world.unread = 0 ∧
      current.stop.debouncer.world.unhanded = []) ∧
    (∀ later, (∀ order ∈ later, order.wakes = false) →
      let last := current.stop.obeyAll later
      SameDeeds current.stop last ∧ last.debouncer.running = 0 ∧ last.debouncer.idle = true ∧
        last.debouncer.pending = false) ∧
    ∀ later, GoesOn current.stop ((anew plan delay callNow current.stop).obeyAll later)
      (current.stop.obeyAll later) := by
  obtain ⟨tree, earlier, rfl⟩ := arises
  have before :=
    (kept_follows delay callNow).obeyAll (follows_fresh plan delay callNow tree) earlier
  have samePlan : ((fresh plan delay callNow tree).obeyAll earlier).stop.plan = plan :=
    (plan_obey _ .stop).trans (plan_obeyAll (fresh plan delay callNow tree) earlier)
  have rests := stopped_stop before.sound watching
  refine ⟨⟨rests.idle, rests.running, rests.closed, rests.still.quiet, rests.still.unarmed,
      rests.read, rests.handed⟩, fun later sleeps => ?_, fun later => ?_⟩
  · obtain ⟨last, same⟩ := rests.obeyAll sleeps
    exact ⟨same, last.running, last.closed, last.still.quiet⟩
  · have resumed := rests.goesOn ((kept_follows delay callNow).stop before) later
    rwa [samePlan] at resumed

/-- The watcher stops while a run that will fail is under way and a trigger waits.  Then it is
told of a change in vain, and the next run is one of the new watch. -/
theorem stopping_is_final_unserved :
    let holding (content : Bytes) : Tree := ⟨[([['c']], .file content)]⟩
    let plan : WatchPlan :=
      ⟨.parse ['c'], Text.ofString "utf-8", [['c']], .fails .noPath, fun _ => 1 / 2, true⟩
    let change : Order := .feed [(.modified, ['c'])]
    let current := (fresh plan (.finite 1) true (holding [0x61])).obeyAll
      [.start, change, .put (holding [0x62]), .advance (1 / 4), change]
    let vain : List Order := [change, .advance 100]
    let restarted := vain ++ [.start, change]
    current.watching = true ∧ current.debouncer.running = 1 ∧ current.debouncer.pending = true ∧
      current.stop.debouncer.running = 0 ∧ current.stop.debouncer.idle = true ∧
      SameDeeds current.stop (current.stop.obeyAll vain) ∧
      ((anew plan (.finite 1) true current.stop).obeyAll restarted).debouncer.world.dispatched =
        [.plain ['b']] ∧
      (current.stop.obeyAll restarted).debouncer.world.dispatched =
        [.plain ['b'], .plain ['a']] := by
  intro holding plan change current vain restarted
  have facts : (current.watching = true ∧ current.debouncer.running = 1 ∧
      current.debouncer.pending = true) ∧
      ((anew plan (.finite 1) true current.stop).obeyAll restarted).debouncer.world.dispatched =
        [.plain ['b']] ∧
      current.stop.debouncer.world.dispatched = [.plain ['a']] := by
    decide +kernel
  obtain ⟨⟨watching, running, pending⟩, again, once⟩ := facts
  have arises : current.Arises plan (.finite 1) true := ⟨_, _, rfl⟩
  obtain ⟨⟨-, ended, idle, -⟩, quiet, resumes⟩ := stopping_is_final arises watching
  refine ⟨watching, running, pending, ended, idle, (quiet vain (by decide)).1, again, ?_⟩
  rw [WatchWorld.dispatched, (resumes restarted).dispatches, List.map_append]
  exact congrArg₂ (· ++ ·) again once

end Watcher

end CommandFile
