import CommandFile.Proofs.Watches

/-!
# Resumptions

A watcher may have watched before.  What it has read, told and logged stays behind it, and
from there on it does what a watcher does that has never watched, at the same time, on the
same files and with runs that take as long.
-/

namespace CommandFile

/-- A world in which what another one has read, dispatched and told lies further back. -/
def WatchWorld.remember (before world : WatchWorld) : WatchWorld :=
  { world with
    readings := world.readings ++ before.readings
    dispatches := world.dispatches ++ before.dispatches
    messages := before.messages ++ world.messages }

def Deed.remember {α : Type} (before : WatchWorld) (deed : Deed α) : Deed α :=
  { deed with world := before.remember deed.world }

namespace Deed

variable {α : Type}

@[simp] theorem answer_remember (before : WatchWorld) (deed : Deed α) :
    (deed.remember before).answer = deed.answer := rfl

@[simp] theorem log_remember (before : WatchWorld) (deed : Deed α) :
    (deed.remember before).log = deed.log := rfl

@[simp] theorem world_remember (before : WatchWorld) (deed : Deed α) :
    (deed.remember before).world = before.remember deed.world := rfl

@[simp] theorem failure?_remember (before : WatchWorld) (deed : Deed α) :
    (deed.remember before).failure? = deed.failure? := rfl

end Deed

namespace WatchPlan

variable {plan : WatchPlan} {past : Past WatchWorld} {before : WatchWorld}

theorem read_remember (plan : WatchPlan) (before : WatchWorld) (time : Rat) (world : WatchWorld) :
    plan.read time (before.remember world) = (plan.read time world).remember before := by
  simp only [read, WatchWorld.remember]
  split
  · rfl
  · split <;> rfl

theorem hand_remember (plan : WatchPlan) (before : WatchWorld) (document : Document)
    (world : WatchWorld) :
    plan.hand document (before.remember world) = (plan.hand document world).remember before := by
  simp only [hand, WatchWorld.remember, Deed.remember, List.cons_append, List.append_assoc]

theorem process_remember (plan : WatchPlan) (before : WatchWorld) (time : Rat)
    (world : WatchWorld) :
    plan.process time (before.remember world) = (plan.process time world).remember before := by
  simp only [process, read_remember, Deed.answer_remember]
  split
  · rfl
  · rfl
  · simp only [Deed.world_remember, hand_remember]
    rfl

theorem readNext_remember (plan : WatchPlan) (before : WatchWorld) (time : Rat)
    (world : WatchWorld) :
    plan.readNext time (before.remember world) = (plan.readNext time world).remember before := by
  have unread : (before.remember world).unread = world.unread := rfl
  unfold readNext
  rw [unread]
  split
  · rfl
  · next others _ =>
      have read := plan.read_remember before time { world with unread := others }
      rw [show plan.read time { before.remember world with unread := others } = _ from read]
      simp only [Deed.answer_remember]
      split <;> rfl

theorem handNext_remember (plan : WatchPlan) (before : WatchWorld) (place : Nat)
    (world : WatchWorld) :
    plan.handNext place (before.remember world) = (plan.handNext place world).remember before := by
  have unhanded : (before.remember world).unhanded = world.unhanded := rfl
  unfold handNext
  rw [unhanded]
  split
  · rfl
  · exact plan.hand_remember before _ { world with unhanded := world.unhanded.eraseIdx place }

theorem carries_work (plan : WatchPlan) (recalls : past.memory = .remember before)
    {pace : Nat → Rat} (paces : ∀ number, pace (number + past.started) = plan.pace number) :
    past.Carries plan.work { plan with pace := pace }.work := by
  intro number time world
  have processed := plan.process_remember before time world
  have other : { plan with pace := pace }.process = plan.process := rfl
  rw [recalls]
  simp only [work, other, processed, paces]
  split <;> rfl

end WatchPlan

namespace Watcher

variable {plan : WatchPlan} {past : Past WatchWorld} {pace : Nat → Rat} {before : WatchWorld}

/-- A watcher as it is with a past behind it, with its runs at the pace of all of them. -/
def after (past : Past WatchWorld) (pace : Nat → Rat) (watcher : Watcher) : Watcher :=
  ⟨{ watcher.plan with pace := pace }, watcher.debouncer.after past, watcher.watching⟩

theorem tree_after (recalls : past.memory = .remember before) (watcher : Watcher) :
    (watcher.after past pace).tree = watcher.tree :=
  congrArg (fun memory => (memory watcher.debouncer.world).tree) recalls

theorem setTree_after (recalls : past.memory = .remember before) (watcher : Watcher)
    (tree : Tree) :
    (watcher.after past pace).setTree tree = (watcher.setTree tree).after past pace := by
  simp only [setTree, after, Debouncer.after, recalls, WatchWorld.remember]

theorem log_after (watcher : Watcher) (rows : Log) :
    (watcher.after past pace).log rows = (watcher.log rows).after past pace := by
  simp only [log, after, Debouncer.after, List.append_assoc]

def Paced (past : Past WatchWorld) (pace : Nat → Rat) (watcher : Watcher) : Prop :=
  ∀ number, pace (number + past.started) = watcher.plan.pace number

theorem order_after (recalls : past.memory = .remember before) {watcher : Watcher}
    (paced : watcher.Paced past pace) (order : Debouncer.Order) :
    (watcher.after past pace).order order = (watcher.order order).after past pace := by
  have obeyed := Debouncer.obey_after (watcher.plan.carries_work recalls paced)
    watcher.debouncer order
  exact congrArg (Watcher.mk _ · watcher.watching) obeyed

theorem handleChanges_after (recalls : past.memory = .remember before)
    {watcher : Watcher} (paced : watcher.Paced past pace) (kinds : List ChangeKind) :
    ((watcher.after past pace).handleChanges kinds).1 =
      (watcher.handleChanges kinds).1.after past pace := by
  unfold handleChanges
  split
  · exact order_after recalls paced _
  · split
    · exact log_after watcher _
    · rfl

theorem feed_after (recalls : past.memory = .remember before) {watcher : Watcher}
    (paced : watcher.Paced past pace) (changes : List (ChangeKind × Text)) :
    (watcher.after past pace).feed changes = (watcher.feed changes).after past pace := by
  have accepts : (watcher.after past pace).plan.accepts = watcher.plan.accepts := rfl
  have watching : (watcher.after past pace).watching = watcher.watching := rfl
  simp only [feed, tree_after recalls, accepts, watching, apply_ite (after past pace)]
  rw [handleChanges_after recalls paced]

theorem ensureFile_after (recalls : past.memory = .remember before) (watcher : Watcher) :
    (watcher.after past pace).ensureFile =
      (watcher.ensureFile.1.after past pace, watcher.ensureFile.2) := by
  simp only [ensureFile, tree_after recalls, setTree_after recalls, log_after]
  rfl

theorem start_after (recalls : past.memory = .remember before) (watcher : Watcher) :
    (watcher.after past pace).start = (watcher.start.1.after past pace, watcher.start.2) := by
  simp only [start, ensureFile_after recalls]
  cases watcher.ensureFile with
  | mk made answer =>
      cases answer with
      | error failure => rfl
      | ok _ => exact congrArg (·, _) (log_after { made with watching := true } _)

theorem getOn_after {α : Type} (recalls : past.memory = .remember before) (watcher : Watcher)
    (deed : Deed α) :
    (watcher.after past pace).getOn (deed.remember before) =
      (watcher.getOn deed).after past pace := by
  simp only [getOn, ← log_after, Deed.log_remember, Deed.failure?_remember, Deed.world_remember]
  simp only [setWorld, after, Debouncer.after, recalls]

theorem world_after (recalls : past.memory = .remember before) (watcher : Watcher) :
    (watcher.after past pace).debouncer.world = before.remember watcher.debouncer.world :=
  congrFun recalls _

theorem read_after (recalls : past.memory = .remember before) (watcher : Watcher) :
    (watcher.after past pace).read = watcher.read.after past pace := by
  have read := watcher.plan.readNext_remember before watcher.debouncer.now watcher.debouncer.world
  rw [← world_after recalls] at read
  exact (congrArg (watcher.after past pace).getOn read).trans (getOn_after recalls watcher _)

theorem hand_after (recalls : past.memory = .remember before) (watcher : Watcher) (place : Nat) :
    (watcher.after past pace).hand place = (watcher.hand place).after past pace := by
  have handed := watcher.plan.handNext_remember before place watcher.debouncer.world
  rw [← world_after recalls] at handed
  exact (congrArg (watcher.after past pace).getOn handed).trans (getOn_after recalls watcher _)

theorem repeat_after {turn : Watcher → Watcher}
    (same : ∀ watcher : Watcher, turn (watcher.after past pace) = (turn watcher).after past pace)
    (count : Nat) (watcher : Watcher) :
    Nat.repeat turn count (watcher.after past pace) =
      (Nat.repeat turn count watcher).after past pace := by
  induction count with
  | zero => rfl
  | succ count ih => exact (congrArg turn ih).trans (same _)

theorem finish_after (recalls : past.memory = .remember before) (watcher : Watcher) :
    (watcher.after past pace).finish = watcher.finish.after past pace := by
  have unread : (watcher.after past pace).debouncer.world.unread = watcher.debouncer.world.unread :=
    congrArg (·.unread) (world_after recalls watcher)
  simp only [finish, unread, repeat_after (read_after recalls)]
  generalize Nat.repeat read watcher.debouncer.world.unread watcher = reads
  have unhanded :
      (reads.after past pace).debouncer.world.unhanded = reads.debouncer.world.unhanded :=
    congrArg (·.unhanded) (world_after recalls reads)
  rw [unhanded, repeat_after fun watcher => hand_after recalls watcher 0]

theorem stop_after (recalls : past.memory = .remember before) {watcher : Watcher}
    (paced : watcher.Paced past pace) :
    (watcher.after past pace).stop = watcher.stop.after past pace := by
  have watching : (watcher.after past pace).watching = watcher.watching := rfl
  have pacedStill : (watcher.order .cancel).Paced past pace := paced
  simp only [stop, watching, order_after recalls paced, order_after recalls pacedStill,
    finish_after recalls, apply_ite (after past pace)]
  generalize ((watcher.order .cancel).order .drain).finish = stopped
  exact if_congr Iff.rfl (log_after { stopped with watching := false } _) rfl

theorem process_after (recalls : past.memory = .remember before) (watcher : Watcher) :
    (watcher.after past pace).process.1 = watcher.process.1.after past pace := by
  have processed := watcher.plan.process_remember before
    watcher.debouncer.now watcher.debouncer.world
  have other : (watcher.after past pace).plan.process = watcher.plan.process := rfl
  have now : (watcher.after past pace).debouncer.now = watcher.debouncer.now := rfl
  simp only [process, other, world_after recalls, now, processed, ← log_after]
  simp only [setWorld, after, Debouncer.after, recalls, Deed.remember]

theorem obey_after (recalls : past.memory = .remember before) {watcher : Watcher}
    (paced : watcher.Paced past pace) (order : Order) :
    (watcher.after past pace).obey order = (watcher.obey order).after past pace := by
  cases order with
  | put tree => exact setTree_after recalls watcher tree
  | feed changes => exact feed_after recalls paced changes
  | advance seconds => exact order_after recalls paced _
  | read => exact read_after recalls watcher
  | hand place => exact hand_after recalls watcher place
  | start => exact congrArg Prod.fst (start_after recalls watcher)
  | stop => exact stop_after recalls paced
  | handle kinds => exact handleChanges_after recalls paced kinds
  | process => exact process_after recalls watcher

theorem obeyAll_after (recalls : past.memory = .remember before) {watcher : Watcher}
    (paced : watcher.Paced past pace) (orders : List Order) :
    (watcher.after past pace).obeyAll orders = (watcher.obeyAll orders).after past pace := by
  induction orders generalizing watcher with
  | nil => rfl
  | cons order orders ih =>
      have pacedStill : (watcher.obey order).Paced past pace := by
        rw [Paced, plan_obey]
        exact paced
      rw [obeyAll_cons, obeyAll_cons, obey_after recalls paced, ih pacedStill]

end Watcher

end CommandFile
