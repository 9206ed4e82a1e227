import CommandFile.Proofs.Dispatches
import CommandFile.Proofs.Resumptions
import Mathlib.Data.List.Induction

/-!
# Deliveries

A watcher that is told of a new or altered command file owes a reading of it.  The trigger waits
for the window to close, or a run starts at once, and the debt is not paid before a run has read
the file.  So a watcher without an open window, none of whose runs is still to read, has read the
file since it was last told of a change.  It has called its dispatcher with what it has read, if
the runs hand on their readings in the order in which they were made.  The runs of a prompt
watcher are never still to read, and never change places.
-/

namespace CommandFile

namespace WatchPlan

variable {plan : WatchPlan}

/-- Some of the changes say that the command file is new or altered. -/
def Tells (plan : WatchPlan) (tree : Tree) (changes : List (ChangeKind × Text)) : Prop :=
  ∃ change ∈ changes, plan.accepts tree change.2 = true ∧
    (change.1 = .added ∨ change.1 = .modified)

end WatchPlan

namespace Debouncer

open Relation

variable {plan : WatchPlan} {debouncer last : Debouncer WatchWorld}

/-! ## Readings between two moments -/

def Owes (debouncer : Debouncer WatchWorld) : Prop :=
  debouncer.pending = true ∨ 0 < debouncer.world.unread

/-- Between two moments the command file has stayed as it was, and every reading shows it so.
A reading that was owed at the first moment still is, or it has been made. -/
structure Reads (plan : WatchPlan) (debouncer later : Debouncer WatchWorld) : Prop where
  document : plan.documentIn later.world.tree = plan.documentIn debouncer.world.tree
  now : debouncer.now ≤ later.now
  fresh : ∃ fresh, later.world.readings = fresh ++ debouncer.world.readings ∧
    (∀ reading ∈ fresh, debouncer.now ≤ reading.time ∧
      reading.answer = plan.documentIn debouncer.world.tree) ∧
    (debouncer.Owes → later.Owes ∨ fresh ≠ [])

theorem Reads.refl (plan : WatchPlan) (debouncer : Debouncer WatchWorld) :
    Reads plan debouncer debouncer :=
  ⟨rfl, le_refl _, [], rfl, by simp, Or.inl⟩

theorem Reads.trans {later : Debouncer WatchWorld} (first : Reads plan debouncer later)
    (second : Reads plan later last) : Reads plan debouncer last := by
  obtain ⟨document, now, early, readings, shows, waits⟩ := first
  obtain ⟨documentThen, nowThen, late, readingsThen, showsThen, waitsThen⟩ := second
  refine ⟨documentThen.trans document, now.trans nowThen, late ++ early, ?_,
    fun reading inside => ?_, fun owes => ?_⟩
  · rw [readingsThen, readings, List.append_assoc]
  · rcases List.mem_append.mp inside with inside | inside
    · obtain ⟨after, same⟩ := showsThen reading inside
      exact ⟨now.trans after, same.trans document⟩
    · exact shows reading inside
  · rcases waits owes with owes | some
    · rcases waitsThen owes with owes | some
      · exact .inl owes
      · exact .inr (List.append_ne_nil_of_left_ne_nil some _)
    · exact .inr (List.append_ne_nil_of_right_ne_nil _ some)

end Debouncer

namespace Watcher

variable {plan : WatchPlan} {watcher current : Watcher} {changes : List (ChangeKind × Text)}

def readings (watcher : Watcher) : List Reading := watcher.debouncer.world.readings

/-! ## Batches -/

/-- A reading that is the newest one when a delivery and further orders have been obeyed, and
that has been made since the delivery.  It shows the command file as it was behind some of
these orders. -/
structure CatchesUp (current : Watcher) (delivery : Order) (later : List Order)
    (reading : Reading) : Prop where
  newest : ∃ newer, (current.obeyAll (delivery :: later)).readings =
    reading :: (newer ++ current.readings)
  late : current.debouncer.now ≤ reading.time
  shown : ∃ during rest, later = during ++ rest ∧
    reading.answer = current.plan.documentIn (current.obeyAll (delivery :: during)).tree

structure Minds (current : Watcher) (delivery : Order) (later : List Order) : Prop where
  now : current.debouncer.now ≤ (current.obeyAll (delivery :: later)).debouncer.now
  readings : ∃ newer, (current.obeyAll (delivery :: later)).readings = newer ++ current.readings
  served : (current.obeyAll (delivery :: later)).debouncer.Owes ∨
    ∃ reading, CatchesUp current delivery later reading

theorem obeyAll_concat (watcher : Watcher) (orders : List Order) (order : Order) :
    watcher.obeyAll (orders ++ [order]) = (watcher.obeyAll orders).obey order :=
  obeyAll_append watcher orders [order]

theorem CatchesUp.concat {delivery order : Order} {later : List Order} {reading : Reading}
    (catchesUp : CatchesUp current delivery later reading)
    (same : (current.obeyAll (delivery :: (later ++ [order]))).readings =
      (current.obeyAll (delivery :: later)).readings) :
    CatchesUp current delivery (later ++ [order]) reading := by
  obtain ⟨⟨newer, newest⟩, late, during, rest, split, shown⟩ := catchesUp
  refine ⟨⟨newer, same.trans newest⟩, late, during, rest ++ [order], ?_, shown⟩
  rw [split, List.append_assoc]

theorem Minds.reads {delivery order : Order} {later : List Order}
    (minds : Minds current delivery later)
    (reads : Debouncer.Reads current.plan (current.obeyAll (delivery :: later)).debouncer
      (current.obeyAll (delivery :: (later ++ [order]))).debouncer) :
    Minds current delivery (later ++ [order]) := by
  obtain ⟨now, ⟨newer, readings⟩, served⟩ := minds
  obtain ⟨document, nowThen, fresh, readingsThen, shows, waits⟩ := reads
  refine ⟨now.trans nowThen, ⟨fresh ++ newer, ?_⟩, ?_⟩
  · rw [List.append_assoc, ← readings]
    exact readingsThen
  · cases fresh with
    -- Without a new reading the old one is still the newest, or the delivery goes on waiting.
    | nil =>
        rcases served with owes | ⟨reading, catchesUp⟩
        · exact .inl ((waits owes).resolve_right (by simp))
        · exact .inr ⟨reading, catchesUp.concat readingsThen⟩
    | cons reading fresh =>
        obtain ⟨late, shown⟩ := shows reading List.mem_cons_self
        refine .inr ⟨reading, ⟨fresh ++ newer, ?_⟩, now.trans late, later ++ [order], [], ?_, ?_⟩
        · rw [List.append_assoc, ← readings]
          exact readingsThen
        · rw [List.append_nil]
        · exact shown.trans document.symm

theorem Minds.put {delivery : Order} {later : List Order} (minds : Minds current delivery later)
    (tree : Tree) : Minds current delivery (later ++ [.put tree]) := by
  have last := obeyAll_concat current (delivery :: later) (.put tree)
  obtain ⟨now, ⟨newer, readings⟩, served⟩ := minds
  have same : (current.obeyAll (delivery :: (later ++ [.put tree]))).readings =
      (current.obeyAll (delivery :: later)).readings := by
    rw [← List.cons_append, last]
    rfl
  refine ⟨?_, ⟨newer, same.trans readings⟩, ?_⟩
  · exact now.trans_eq (congrArg (·.debouncer.now) last).symm
  · rcases served with owes | ⟨reading, catchesUp⟩
    · rw [← List.cons_append, last]
      exact .inl owes
    · exact .inr ⟨reading, catchesUp.concat same⟩

theorem CatchesUp.dispatched {delivery : Order} {later : List Order} {reading : Reading}
    (catchesUp : CatchesUp current delivery later reading) (orderly : current.Orderly)
    (ambient : ∀ order ∈ delivery :: later, order.isAmbient = true)
    (first : current.plan.prompt = true ∨
      (current.obeyAll (delivery :: later)).world.unhanded = [] ∧
        ∀ place, .hand place ∈ delivery :: later → place = 0)
    {document : Document} (found : reading.answer = .ok document) :
    ∃ call, (current.obeyAll (delivery :: later)).world.dispatches.head? = some call ∧
      call.document = document ∧ call.effect = current.plan.dispatcher document call.tree := by
  have still := kept_orderly.obeyAll orderly (delivery :: later)
  have samePlan := plan_obeyAll current (delivery :: later)
  have handed : (current.obeyAll (delivery :: later)).world.unhanded = [] :=
    first.elim (fun prompt => (still.prompt (by rw [samePlan]; exact prompt)).2) (·.1)
  obtain ⟨newer, newest⟩ := catchesUp.newest
  obtain ⟨fresh, readings, taken⟩ := orderly.takes ambient (first.imp_right (·.2))
  -- The readings since then are those of the walk, and the newest of them has been handed on.
  obtain rfl : reading :: newer = fresh := by
    apply List.append_cancel_right
    exact newest.symm.trans readings
  have dispatched : (current.obeyAll (delivery :: later)).world.dispatched =
      document :: (newer.filterMap (·.answer.toOption) ++ current.world.taken) := by
    simpa [WatchWorld.taken, handed, found, Except.toOption] using taken
  obtain ⟨call, calls, same⟩ : ∃ call calls,
      (current.obeyAll (delivery :: later)).world.dispatches = call :: calls ∧
        call.document = document := by
    obtain ⟨call, calls, split, same, -⟩ := List.map_eq_cons_iff.mp dispatched
    exact ⟨call, calls, split, same⟩
  obtain ⟨split, rfl⟩ := same
  refine ⟨call, by rw [split]; rfl, rfl, ?_⟩
  rw [← samePlan]
  exact still.calls call (by rw [split]; exact List.mem_cons_self)

end Watcher

end CommandFile
