import CommandFile.Proofs.Watches

/-!
# Dispatches

What a watcher has read it calls its dispatcher with, and with nothing else.  While its runs hand
on what they have read in the order of reading, what has been dispatched and what has not make up
the documents that have been read.  A prompt watcher never leaves anything for later.
-/

namespace CommandFile

namespace Debouncer

open Relation

variable {World : Type} {work : Work World} {debouncer last : Debouncer World}
  {good : World → World → Prop}

theorem world_trigger (refl : ∀ world, good world world)
    (works : ∀ number time world, good world (work number time world).world)
    (debouncer : Debouncer World) : good debouncer.world (debouncer.trigger work).world := by
  unfold trigger
  dsimp only
  split
  · exact refl _
  · split
    · exact works _ _ _
    · exact refl _

theorem world_happens (refl : ∀ world, good world world)
    (works : ∀ number time world, good world (work number time world).world)
    (happens : Happens work debouncer last) : good debouncer.world last.world := by
  obtain ⟨next⟩ := happens
  rename_i time due
  cases due with
  | finish run =>
      simp only [happen, finishRun]
      split <;> exact refl _
  | timer timer =>
      simp only [happen, closeWindow]
      split
      · exact works _ _ _
      · exact refl _

/-- Whatever every run does to the world, and what is kept by doing nothing, all steps do. -/
theorem world_reaches (refl : ∀ world, good world world)
    (trans : ∀ {first second third}, good first second → good second third → good first third)
    (works : ∀ number time world, good world (work number time world).world)
    (reaches : Reaches work debouncer last) : good debouncer.world last.world := by
  induction reaches with
  | refl => exact refl _
  | tail _ step ih =>
      refine trans ih ?_
      cases step with
      | trigger => exact world_trigger refl works _
      | cancel =>
          unfold cancel
          dsimp only
          split <;> exact refl _
      | happens happens => exact world_happens refl works happens
      | _ => exact refl _

end Debouncer

/-- What has been read without a failure, the latest first. -/
def WatchWorld.taken (world : WatchWorld) : List Document :=
  world.unhanded.reverse ++ world.dispatched

namespace WatchPlan

variable {plan : WatchPlan} {world between later : WatchWorld}

/-- Each call of the dispatcher has done what the dispatcher does with the document, and a prompt
watcher has nothing left to read or to hand on. -/
structure Orderly (plan : WatchPlan) (world : WatchWorld) : Prop where
  calls : ∀ call ∈ world.dispatches, call.effect = plan.dispatcher call.document call.tree
  prompt : plan.prompt = true → world.unread = 0 ∧ world.unhanded = []

theorem Orderly.setTree (orderly : plan.Orderly world) (tree : Tree) :
    plan.Orderly { world with tree := tree } := ⟨orderly.calls, orderly.prompt⟩

theorem Orderly.read (orderly : plan.Orderly world) (time : Rat) :
    plan.Orderly (plan.read time world).world := by
  rw [world_read]
  exact ⟨orderly.calls, orderly.prompt⟩

theorem Orderly.hand (orderly : plan.Orderly world) (document : Document) :
    plan.Orderly (plan.hand document world).world :=
  ⟨List.forall_mem_cons.mpr ⟨rfl, orderly.calls⟩, orderly.prompt⟩

theorem Orderly.process (orderly : plan.Orderly world) (time : Rat) :
    plan.Orderly (plan.process time world).world := by
  unfold WatchPlan.process
  dsimp only
  split
  · exact orderly.read time
  · exact orderly.read time
  · exact (orderly.read time).hand _

theorem Orderly.work (orderly : plan.Orderly world) (number : Nat) (time : Rat) :
    plan.Orderly (plan.work number time world).world := by
  unfold WatchPlan.work
  split
  · exact orderly.process time
  · next slow => exact ⟨orderly.calls, fun prompt => absurd prompt slow⟩

theorem Orderly.readNext (orderly : plan.Orderly world) (time : Rat) :
    plan.Orderly (plan.readNext time world).world := by
  unfold WatchPlan.readNext
  split
  · exact orderly
  next others some =>
    have slow : plan.prompt ≠ true := fun prompt => by
      have none := (orderly.prompt prompt).1
      omega
    dsimp only
    split <;>
      exact ⟨by simpa using orderly.calls, fun prompt => absurd prompt slow⟩

theorem Orderly.handNext (orderly : plan.Orderly world) (place : Nat) :
    plan.Orderly (plan.handNext place world).world := by
  unfold WatchPlan.handNext
  split
  · exact orderly
  · next document found =>
    have others : plan.Orderly { world with unhanded := world.unhanded.eraseIdx place } := by
      refine ⟨orderly.calls, fun prompt => ?_⟩
      obtain ⟨read, handed⟩ := orderly.prompt prompt
      exact ⟨read, by rw [handed]; rfl⟩
    exact others.hand document

/-! ## The order of reading -/

def Takes (world later : WatchWorld) : Prop :=
  ∃ fresh, later.readings = fresh ++ world.readings ∧
    later.taken = fresh.filterMap (·.answer.toOption) ++ world.taken

theorem takes_refl (world : WatchWorld) : Takes world world := ⟨[], rfl, rfl⟩

theorem Takes.trans (takes : Takes world between) (takesOn : Takes between later) :
    Takes world later := by
  obtain ⟨fresh, readings, taken⟩ := takes
  obtain ⟨freshOn, readingsOn, takenOn⟩ := takesOn
  refine ⟨freshOn ++ fresh, ?_, ?_⟩
  · rw [readingsOn, readings, List.append_assoc]
  · rw [takenOn, taken, List.filterMap_append, List.append_assoc]

theorem read_cases (plan : WatchPlan) (time : Rat) (world : WatchWorld) :
    (∃ document, plan.documentIn world.tree = .ok document ∧
      (plan.read time world).answer = .ok (some document)) ∨
    ∃ failure, plan.documentIn world.tree = .error failure ∧
      ((plan.read time world).answer = .ok none ∨
        (plan.read time world).answer = .error failure) := by
  unfold read documentIn
  cases Operation.readDocument plan.path.text plan.encoding world.tree with
  | ok document => exact .inl ⟨document, rfl, rfl⟩
  | error failure =>
      refine .inr ⟨failure, rfl, ?_⟩
      dsimp only
      split
      · exact .inl rfl
      · exact .inr rfl

@[simp] theorem readings_process (plan : WatchPlan) (time : Rat) (world : WatchWorld) :
    (plan.process time world).world.readings =
      ⟨time, plan.documentIn world.tree⟩ :: world.readings := by
  unfold process
  dsimp only
  split <;> simp [hand]

theorem takes_process (handed : world.unhanded = []) (time : Rat) :
    Takes world (plan.process time world).world := by
  refine ⟨[⟨time, plan.documentIn world.tree⟩], plan.readings_process time world, ?_⟩
  · rcases plan.read_cases time world with ⟨document, found, answer⟩ | ⟨failure, failed, answer⟩
    · simp [WatchPlan.process, answer, found, WatchPlan.hand, WatchWorld.taken,
        WatchWorld.dispatched, handed, Except.toOption]
    · rcases answer with answer | answer <;>
        simp [WatchPlan.process, answer, failed, WatchWorld.taken, WatchWorld.dispatched, handed,
          Except.toOption]

theorem takes_work (orderly : plan.Orderly world) (number : Nat) (time : Rat) :
    Takes world (plan.work number time world).world := by
  unfold WatchPlan.work
  split
  · next prompt => exact takes_process (orderly.prompt prompt).2 time
  · exact takes_refl world

@[simp] theorem readings_handNext (plan : WatchPlan) (place : Nat) (world : WatchWorld) :
    (plan.handNext place world).world.readings = world.readings := by
  unfold handNext
  split <;> rfl

theorem takes_readNext (time : Rat) : Takes world (plan.readNext time world).world := by
  unfold WatchPlan.readNext
  split
  · exact takes_refl world
  · next others some =>
    refine ⟨[⟨time, plan.documentIn world.tree⟩], ?_, ?_⟩
    · dsimp only
      split <;> simp
    · rcases plan.read_cases time { world with unread := others } with
        ⟨document, found, answer⟩ | ⟨failure, failed, answer⟩
      · simp [answer, show plan.documentIn world.tree = _ from found, WatchWorld.taken,
          WatchWorld.dispatched, Except.toOption]
      · rcases answer with answer | answer <;>
          simp [answer, show plan.documentIn world.tree = _ from failed, WatchWorld.taken,
            WatchWorld.dispatched, Except.toOption]

theorem takes_handNext (orderly : plan.Orderly world) {place : Nat}
    (first : plan.prompt = true ∨ place = 0) :
    Takes world (plan.handNext place world).world := by
  refine ⟨[], plan.readings_handNext place world, ?_⟩
  cases unhanded : world.unhanded with
  | nil => simp [WatchPlan.handNext, unhanded]
  | cons document rest =>
      obtain rfl : place = 0 := first.resolve_left fun prompt => by
        have none := (orderly.prompt prompt).2
        simp [unhanded] at none
      simp [WatchPlan.handNext, WatchPlan.hand, unhanded, WatchWorld.taken,
        WatchWorld.dispatched]

def KeepsOrder (plan : WatchPlan) (world later : WatchWorld) : Prop :=
  plan.Orderly world → plan.Orderly later ∧ Takes world later

theorem keepsOrder_refl (plan : WatchPlan) (world : WatchWorld) : plan.KeepsOrder world world :=
  fun orderly => ⟨orderly, takes_refl world⟩

theorem KeepsOrder.trans (keeps : plan.KeepsOrder world between)
    (keepsOn : plan.KeepsOrder between later) : plan.KeepsOrder world later := by
  intro orderly
  obtain ⟨still, takes⟩ := keeps orderly
  obtain ⟨stillOn, takesOn⟩ := keepsOn still
  exact ⟨stillOn, takes.trans takesOn⟩

theorem keepsOrder_work (plan : WatchPlan) (number : Nat) (time : Rat) (world : WatchWorld) :
    plan.KeepsOrder world (plan.work number time world).world :=
  fun orderly => ⟨orderly.work number time, takes_work orderly number time⟩

end WatchPlan

namespace Watcher

variable {watcher : Watcher}

def world (watcher : Watcher) : WatchWorld := watcher.debouncer.world

def Orderly (watcher : Watcher) : Prop := watcher.plan.Orderly watcher.world

theorem keepsOrder_order (watcher : Watcher) (order : Debouncer.Order) :
    watcher.plan.KeepsOrder watcher.world (watcher.order order).world :=
  Debouncer.world_reaches watcher.plan.keepsOrder_refl WatchPlan.KeepsOrder.trans
    watcher.plan.keepsOrder_work
    (Debouncer.reaches_obeyAll watcher.plan.work watcher.debouncer [order])

theorem keepsOrder_handleChanges (watcher : Watcher) (kinds : List ChangeKind) :
    watcher.plan.KeepsOrder watcher.world (watcher.handleChanges kinds).1.world := by
  unfold handleChanges
  split
  · exact keepsOrder_order watcher _
  · split <;> exact watcher.plan.keepsOrder_refl _

theorem keepsOrder_feed (watcher : Watcher) (changes : List (ChangeKind × Text)) :
    watcher.plan.KeepsOrder watcher.world (watcher.feed changes).world := by
  simp only [feed]
  split
  · exact keepsOrder_handleChanges watcher _
  · exact watcher.plan.keepsOrder_refl _

theorem keepsOrder_ambient {order : Order} (ambient : order.isAmbient = true)
    (first : watcher.plan.prompt = true ∨ ∀ place, order = .hand place → place = 0) :
    watcher.plan.KeepsOrder watcher.world (watcher.obey order).world := by
  cases order with
  | put tree => exact fun orderly => ⟨orderly.setTree tree, [], rfl, rfl⟩
  | feed changes => exact keepsOrder_feed watcher changes
  | advance seconds => exact keepsOrder_order watcher _
  | read => exact fun orderly => ⟨orderly.readNext _, WatchPlan.takes_readNext _⟩
  | hand place =>
      exact fun orderly => ⟨orderly.handNext place,
        WatchPlan.takes_handNext orderly (first.imp_right fun hands => hands place rfl)⟩
  | start => nomatch ambient
  | stop => nomatch ambient
  | handle kinds => nomatch ambient
  | process => nomatch ambient

theorem kept_orderly : Kept Orderly where
  order _ orderly := (keepsOrder_order _ _ orderly).1
  setTree tree orderly := WatchPlan.Orderly.setTree orderly tree
  log _ orderly := orderly
  watch _ orderly := orderly
  read orderly := WatchPlan.Orderly.readNext orderly _
  hand place orderly := WatchPlan.Orderly.handNext orderly place
  process orderly := WatchPlan.Orderly.process orderly _

/-- While nothing is handed on before what has been read earlier, all that is read is taken in
the order of reading. -/
theorem Orderly.takes (orderly : watcher.Orderly) {orders : List Order}
    (ambient : ∀ order ∈ orders, order.isAmbient = true)
    (first : watcher.plan.prompt = true ∨ ∀ place, .hand place ∈ orders → place = 0) :
    WatchPlan.Takes watcher.world (watcher.obeyAll orders).world := by
  induction orders generalizing watcher with
  | nil => exact WatchPlan.takes_refl _
  | cons order orders ih =>
      obtain ⟨here, rest⟩ := List.forall_mem_cons.mp ambient
      have takes := (keepsOrder_ambient here (first.imp_right fun hands place same =>
        hands place (same ▸ List.mem_cons_self)) orderly).2
      refine takes.trans (ih (kept_orderly.obey orderly order) rest ?_)
      rw [plan_obey]
      exact first.imp_right fun hands place inside => hands place (List.mem_cons_of_mem _ inside)

end Watcher

end CommandFile
