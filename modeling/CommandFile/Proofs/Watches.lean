import CommandFile.Proofs.Pasts
import CommandFile.Proofs.Starts
import CommandFile.Watch.Watcher

/-!
# Watches

The life of a watcher is a row of orders.  Files change, changes are told of and time
passes; the watcher is started and stopped, and now and then somebody hands in a change or
has the file read.  Through all of this a watcher keeps its plan and the rules of its
debouncer.
-/

namespace CommandFile

namespace Debouncer

open Relation

variable {World : Type} {work : Work World} {debouncer last : Debouncer World}

/-! ## Rules and clock of a debouncer -/

structure Steady (debouncer later : Debouncer World) : Prop where
  delay : later.delay = debouncer.delay
  callNow : later.callNow = debouncer.callNow
  now : debouncer.now ≤ later.now

theorem Steady.refl (debouncer : Debouncer World) : debouncer.Steady debouncer :=
  ⟨rfl, rfl, le_refl _⟩

theorem Steady.trans {later : Debouncer World} (first : debouncer.Steady later)
    (second : later.Steady last) : debouncer.Steady last :=
  ⟨second.delay.trans first.delay, second.callNow.trans first.callNow, first.now.trans second.now⟩

theorem steady_moveTo (debouncer : Debouncer World) (time : Rat) :
    debouncer.Steady (debouncer.moveTo time) :=
  ⟨rfl, rfl, le_now_moveTo debouncer time⟩

theorem steady_happens (happens : Happens work debouncer last) : debouncer.Steady last := by
  obtain ⟨next⟩ := happens
  rename_i time due
  have moved := steady_moveTo debouncer time
  cases due with
  | finish run =>
      refine moved.trans ?_
      simp only [happen, finishRun]
      split <;> exact ⟨rfl, rfl, le_refl _⟩
  | timer timer =>
      refine moved.trans ?_
      simp only [happen, closeWindow]
      split <;> exact ⟨rfl, rfl, le_refl _⟩

theorem steady_happensOn (happens : ReflTransGen (Happens work) debouncer last) :
    debouncer.Steady last := by
  induction happens with
  | refl => exact .refl debouncer
  | tail _ happens ih => exact ih.trans (steady_happens happens)

theorem steady_trigger (work : Work World) (debouncer : Debouncer World) :
    debouncer.Steady (debouncer.trigger work) := by
  unfold trigger
  dsimp only
  split
  · exact ⟨rfl, rfl, le_refl _⟩
  · split <;> exact ⟨rfl, rfl, le_refl _⟩

theorem steady_triggers (work : Work World) (count : Nat) (debouncer : Debouncer World) :
    debouncer.Steady (debouncer.triggers work count) := by
  induction count generalizing debouncer with
  | zero => exact .refl debouncer
  | succ count ih => exact (steady_trigger work debouncer).trans (ih _)

theorem steady_cancel (debouncer : Debouncer World) : debouncer.Steady debouncer.cancel := by
  unfold cancel
  dsimp only
  split <;> exact ⟨rfl, rfl, le_refl _⟩

theorem steady_advance (work : Work World) (seconds : Rat) (debouncer : Debouncer World) :
    debouncer.Steady (debouncer.advance work seconds) :=
  (steady_happensOn (happens_happenUntil work _ _ _)).trans (steady_moveTo _ _)

theorem steady_settle (work : Work World) (debouncer : Debouncer World) :
    debouncer.Steady (debouncer.settle work) :=
  steady_happensOn (happens_happenUntil work _ _ _)

/-- The orders that do not change the debouncer itself. -/
def Order.keepsRules : Order → Bool
  | .setDelay _ => false
  | .setCallNow _ => false
  | _ => true

theorem steady_obey (work : Work World) (debouncer : Debouncer World) {order : Order}
    (keeps : order.keepsRules = true) : debouncer.Steady (debouncer.obey work order) := by
  suffices acts : debouncer.Steady (debouncer.act work order) from
    acts.trans (steady_settle work _)
  cases order with
  | trigger count => exact steady_triggers work count debouncer
  | advance seconds => exact steady_advance work seconds debouncer
  | cancel => exact steady_cancel debouncer
  | drain => exact steady_happensOn (happens_happenWhileActive work _ _)
  | setDelay delay => nomatch keeps
  | setCallNow callNow => nomatch keeps

theorem Sound.obey (sound : debouncer.Sound) (work : Work World) (order : Order) :
    (debouncer.obey work order).Sound :=
  sound.reaches (reaches_obeyAll work debouncer [order])

end Debouncer

namespace WatchPlan

def documentIn (plan : WatchPlan) (tree : Tree) : Except Failure Document :=
  Operation.readDocument plan.path.text plan.encoding tree

@[simp] theorem world_read (plan : WatchPlan) (time : Rat) (world : WatchWorld) :
    (plan.read time world).world =
      { world with readings := ⟨time, plan.documentIn world.tree⟩ :: world.readings } := by
  unfold read documentIn
  dsimp only
  split
  · next found => rw [found]
  · next failed => rw [failed]; split <;> rfl

@[simp] theorem unread_hand (plan : WatchPlan) (document : Document) (world : WatchWorld) :
    (plan.hand document world).world.unread = world.unread := rfl

@[simp] theorem unhanded_hand (plan : WatchPlan) (document : Document) (world : WatchWorld) :
    (plan.hand document world).world.unhanded = world.unhanded := rfl

@[simp] theorem unread_readNext (plan : WatchPlan) (time : Rat) (world : WatchWorld) :
    (plan.readNext time world).world.unread = world.unread - 1 := by
  unfold readNext
  split
  · next none => simp [none]
  · next some => dsimp only; split <;> simp [some]

@[simp] theorem unread_handNext (plan : WatchPlan) (place : Nat) (world : WatchWorld) :
    (plan.handNext place world).world.unread = world.unread := by
  unfold handNext
  split <;> simp

@[simp] theorem unhanded_handNext (plan : WatchPlan) (place : Nat) (world : WatchWorld) :
    (plan.handNext place world).world.unhanded = world.unhanded.eraseIdx place := by
  unfold handNext
  split
  · next none => rw [List.eraseIdx_of_length_le (List.getElem?_eq_none_iff.mp none)]
  · simp

end WatchPlan

namespace Watcher

variable {delay : Delay} {callNow : Bool} {watcher : Watcher}

inductive Order
  | put (tree : Tree)
  | feed (changes : List (ChangeKind × Text))
  | advance (seconds : Rat)
  | read
  | hand (place : Nat)
  | start
  | stop
  | handle (kinds : List ChangeKind)
  | process

def Order.isAmbient : Order → Bool
  | .put _ => true
  | .feed _ => true
  | .advance _ => true
  | .read => true
  | .hand _ => true
  | _ => false

def obey (watcher : Watcher) : Order → Watcher
  | .put tree => watcher.setTree tree
  | .feed changes => watcher.feed changes
  | .advance seconds => watcher.advance seconds
  | .read => watcher.read
  | .hand place => watcher.hand place
  | .start => watcher.start.1
  | .stop => watcher.stop
  | .handle kinds => (watcher.handleChanges kinds).1
  | .process => watcher.process.1

def obeyAll (watcher : Watcher) (orders : List Order) : Watcher := orders.foldl obey watcher

theorem obeyAll_cons (watcher : Watcher) (order : Order) (orders : List Order) :
    watcher.obeyAll (order :: orders) = (watcher.obey order).obeyAll orders := rfl

theorem obeyAll_append (watcher : Watcher) (orders others : List Order) :
    watcher.obeyAll (orders ++ others) = (watcher.obeyAll orders).obeyAll others :=
  List.foldl_append

/-! ## Runs that get on -/

def GetsOn (watcher later : Watcher) : Prop :=
  ∃ world rows, later =
    ⟨watcher.plan, { watcher.debouncer with world := world, log := rows }, watcher.watching⟩

theorem getsOn_refl (watcher : Watcher) : watcher.GetsOn watcher := ⟨_, _, rfl⟩

theorem GetsOn.trans {later last : Watcher} (gets : watcher.GetsOn later)
    (getsOn : later.GetsOn last) : watcher.GetsOn last := by
  obtain ⟨world, rows, rfl⟩ := gets
  obtain ⟨world, rows, rfl⟩ := getsOn
  exact ⟨_, _, rfl⟩

theorem getsOn_read (watcher : Watcher) : watcher.GetsOn watcher.read := ⟨_, _, rfl⟩

theorem getsOn_hand (watcher : Watcher) (place : Nat) : watcher.GetsOn (watcher.hand place) :=
  ⟨_, _, rfl⟩

theorem repeat_kept (good : Watcher → Prop) {turn : Watcher → Watcher}
    (turns : ∀ {watcher : Watcher}, good watcher → good (turn watcher)) (count : Nat)
    (holds : good watcher) : good (Nat.repeat turn count watcher) := by
  induction count with
  | zero => exact holds
  | succ count ih => exact turns ih

theorem getsOn_finish (watcher : Watcher) : watcher.GetsOn watcher.finish :=
  repeat_kept watcher.GetsOn (fun gets => gets.trans (getsOn_hand _ 0)) _
    (repeat_kept watcher.GetsOn (fun gets => gets.trans (getsOn_read _)) _ (getsOn_refl watcher))

theorem unread_repeat_read (count : Nat) (watcher : Watcher) :
    (Nat.repeat read count watcher).debouncer.world.unread =
      watcher.debouncer.world.unread - count := by
  induction count with
  | zero => rfl
  | succ count ih => exact (WatchPlan.unread_readNext _ _ _).trans (congrArg (· - 1) ih)

theorem unread_repeat_hand (count : Nat) (watcher : Watcher) :
    (Nat.repeat (hand · 0) count watcher).debouncer.world.unread =
      watcher.debouncer.world.unread := by
  induction count with
  | zero => rfl
  | succ count ih => exact (WatchPlan.unread_handNext _ _ _).trans ih

theorem unhanded_repeat_hand (count : Nat) (watcher : Watcher) :
    (Nat.repeat (hand · 0) count watcher).debouncer.world.unhanded =
      watcher.debouncer.world.unhanded.drop count := by
  induction count with
  | zero => rfl
  | succ count ih =>
      refine (WatchPlan.unhanded_handNext _ _ _).trans ?_
      rw [ih, List.eraseIdx_zero, List.tail_drop]

theorem finish_finished (watcher : Watcher) :
    watcher.finish.debouncer.world.unread = 0 ∧ watcher.finish.debouncer.world.unhanded = [] := by
  unfold finish
  dsimp only
  rw [unread_repeat_hand, unread_repeat_read, unhanded_repeat_hand]
  exact ⟨Nat.sub_self _, List.drop_length⟩

/-! ## What every order keeps -/

theorem feed_of_idle {watcher : Watcher} (idle : watcher.watching = false)
    (changes : List (ChangeKind × Text)) : watcher.feed changes = watcher := by
  simp only [feed, idle, Bool.false_and, Bool.false_eq_true, if_false]

/-- What holds of a watcher and goes on holding with all that its orders are made of. -/
structure Kept (good : Watcher → Prop) : Prop where
  order : ∀ {watcher : Watcher} {order : Debouncer.Order}, order.keepsRules = true →
    good watcher → good (watcher.order order)
  setTree : ∀ {watcher : Watcher} (tree : Tree), good watcher → good (watcher.setTree tree)
  log : ∀ {watcher : Watcher} (rows : Log), good watcher → good (watcher.log rows)
  watch : ∀ {watcher : Watcher} (watching : Bool), good watcher →
    good { watcher with watching := watching }
  read : ∀ {watcher : Watcher}, good watcher → good watcher.read
  hand : ∀ {watcher : Watcher} (place : Nat), good watcher → good (watcher.hand place)
  process : ∀ {watcher : Watcher}, good watcher → good watcher.process.1

namespace Kept

variable {good : Watcher → Prop} (kept : Kept good)

include kept

theorem handleChanges (holds : good watcher) (kinds : List ChangeKind) :
    good (watcher.handleChanges kinds).1 := by
  unfold Watcher.handleChanges
  split
  · exact kept.order rfl holds
  · split
    · exact kept.log _ holds
    · exact holds

theorem feed (holds : good watcher) (changes : List (ChangeKind × Text)) :
    good (watcher.feed changes) := by
  simp only [Watcher.feed]
  split
  · exact kept.handleChanges holds _
  · exact holds

theorem start (holds : good watcher) : good watcher.start.1 := by
  have made : good watcher.ensureFile.1 := kept.log _ (kept.setTree _ holds)
  unfold Watcher.start
  split
  · next failed =>
    rw [failed] at made
    exact made
  · next ensured =>
    rw [ensured] at made
    exact kept.log _ (kept.watch true made)

theorem finish (holds : good watcher) : good watcher.finish := by
  exact repeat_kept good (kept.hand 0) _ (repeat_kept good kept.read _ holds)

theorem stop (holds : good watcher) : good watcher.stop := by
  have cancelled : good (watcher.order .cancel) := kept.order rfl holds
  have drained : good ((watcher.order .cancel).order .drain) := kept.order rfl cancelled
  unfold Watcher.stop
  split
  · exact kept.log _ (kept.watch false (kept.finish drained))
  · exact holds

theorem obey (holds : good watcher) (order : Order) : good (watcher.obey order) := by
  cases order with
  | put tree => exact kept.setTree tree holds
  | feed changes => exact kept.feed holds changes
  | advance seconds => exact kept.order rfl holds
  | read => exact kept.read holds
  | hand place => exact kept.hand place holds
  | start => exact kept.start holds
  | stop => exact kept.stop holds
  | handle kinds => exact kept.handleChanges holds kinds
  | process => exact kept.process holds

theorem obeyAll (holds : good watcher) (orders : List Order) : good (watcher.obeyAll orders) := by
  induction orders generalizing watcher with
  | nil => exact holds
  | cons order orders ih => exact ih (kept.obey holds order)

end Kept

theorem kept_plan (plan : WatchPlan) : Kept (·.plan = plan) where
  order _ same := same
  setTree _ same := same
  log _ same := same
  watch _ same := same
  read same := same
  hand _ same := same
  process same := same

theorem plan_obey (watcher : Watcher) (order : Order) :
    (watcher.obey order).plan = watcher.plan :=
  (kept_plan watcher.plan).obey rfl order

theorem plan_obeyAll (watcher : Watcher) (orders : List Order) :
    (watcher.obeyAll orders).plan = watcher.plan :=
  (kept_plan watcher.plan).obeyAll rfl orders

/-- The debouncer of a watcher is sound, and goes by a delay and a way to call. -/
structure Follows (delay : Delay) (callNow : Bool) (watcher : Watcher) : Prop where
  delay : watcher.debouncer.delay = delay
  callNow : watcher.debouncer.callNow = callNow
  now : 0 ≤ watcher.debouncer.now
  sound : watcher.debouncer.Sound

theorem follows_fresh (plan : WatchPlan) (delay : Delay) (callNow : Bool) (tree : Tree) :
    (fresh plan delay callNow tree).Follows delay callNow :=
  ⟨rfl, rfl, le_refl _, Debouncer.sound_new delay callNow _⟩

theorem Follows.remade (follows : watcher.Follows delay callNow) (plan : WatchPlan)
    (world : WatchWorld) (log : Log) (watching : Bool) :
    Follows delay callNow
      ⟨plan, { watcher.debouncer with world := world, log := log }, watching⟩ := by
  obtain ⟨sameDelay, sameCallNow, now, sound⟩ := follows
  exact ⟨sameDelay, sameCallNow, now, sound.timers, sound.window, sound.past, sound.answered⟩

theorem kept_follows (delay : Delay) (callNow : Bool) : Kept (Follows delay callNow) where
  order {watcher _} keeps follows :=
    have steady := Debouncer.steady_obey watcher.plan.work watcher.debouncer keeps
    ⟨steady.delay.trans follows.delay, steady.callNow.trans follows.callNow,
      follows.now.trans steady.now, follows.sound.obey watcher.plan.work _⟩
  setTree _ follows := follows.remade _ _ _ _
  log _ follows := follows.remade _ _ _ _
  watch _ follows := follows.remade _ _ _ _
  read follows := follows.remade _ _ _ _
  hand _ follows := follows.remade _ _ _ _
  process follows := follows.remade _ _ _ _

end Watcher

end CommandFile
