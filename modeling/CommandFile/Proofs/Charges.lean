import CommandFile.Proofs.Runs

/-!
# Charges

A run is charged to the latest trigger before it.  A trigger owes one run, and what it owes is
gone once the run is started or everything is cancelled.  So no two runs are charged to one
trigger, and between a cancellation and the next trigger no run is started.
-/

namespace CommandFile.Debouncer

variable {World : Type} {work : Work World} {debouncer last : Debouncer World} {time : Rat}
  {history : List (Event × Rat)} {event : Event}

/-! ## Triggers that owe a run -/

/-- Since the latest trigger nothing has happened but that runs have ended. -/
def Owing (history : List (Event × Rat)) : Prop :=
  ∃ since instant before, history = since ++ (.triggered, instant) :: before ∧
    ∀ item ∈ since, item.1.ended?.isSome = true

def Charged (history : List (Event × Rat)) : Prop :=
  ∀ later number time earlier, history = later ++ (.started number, time) :: earlier →
    Owing earlier

theorem owing_cons :
    Owing ((event, time) :: history) ↔
      event = .triggered ∨ event.ended?.isSome = true ∧ Owing history := by
  constructor
  · rintro ⟨since, instant, before, same, ends⟩
    rcases List.cons_eq_append_iff.mp same with ⟨rfl, here⟩ | ⟨since, rfl, rest⟩
    · obtain ⟨first, -⟩ := List.cons.inj here
      exact .inl (congrArg Prod.fst first).symm
    · obtain ⟨ended, others⟩ := List.forall_mem_cons.mp ends
      exact .inr ⟨ended, since, instant, before, rest, others⟩
  · rintro (rfl | ⟨ended, since, instant, before, rfl, others⟩)
    · exact ⟨[], time, history, rfl, by simp⟩
    · exact ⟨(event, time) :: since, instant, before, rfl,
        List.forall_mem_cons.mpr ⟨ended, others⟩⟩

@[simp] theorem charged_nil : Charged [] := by
  intro later number time earlier same
  simp at same

theorem charged_cons :
    Charged ((event, time) :: history) ↔
      (event.isStart = true → Owing history) ∧ Charged history := by
  constructor
  · refine fun charged => ⟨fun started => ?_, fun later number instant earlier same => ?_⟩
    · cases event with
      | started number => exact charged [] number time history rfl
      | _ => nomatch started
    · exact charged ((event, time) :: later) number instant earlier (congrArg _ same)
  · rintro ⟨owing, charged⟩ later number instant earlier same
    rcases List.cons_eq_append_iff.mp same with ⟨rfl, here⟩ | ⟨others, rfl, rest⟩
    · obtain ⟨first, rfl⟩ := List.cons.inj here
      obtain ⟨rfl, -⟩ := Prod.mk.inj first
      exact owing rfl
    · exact charged others number instant earlier rest

theorem Charged.length_le (charged : Charged history) :
    let starts := (timesOf Event.isStart history).length
    let triggers := (timesOf Event.isTrigger history).length
    starts ≤ triggers ∧ (Owing history → starts < triggers) := by
  induction history with
  | nil =>
      refine ⟨Nat.zero_le _, ?_⟩
      rintro ⟨since, instant, before, same, -⟩
      simp at same
  | cons item history ih =>
      obtain ⟨event, time⟩ := item
      obtain ⟨owing, charged⟩ := charged_cons.mp charged
      obtain ⟨some, more⟩ := ih charged
      simp only [owing_cons, timesOf_cons, List.length_append]
      cases event with
      | triggered =>
          have starts : (if Event.triggered.isStart then [time] else []).length = 0 := rfl
          have triggers : (if Event.triggered.isTrigger then [time] else []).length = 1 := rfl
          omega
      | started number =>
          -- The run is paid by a trigger that has owed one, and the trigger owes none any more.
          have fewer := more (owing rfl)
          have starts : (if (Event.started number).isStart then [time] else []).length = 1 := rfl
          have paid : ¬ (Event.started number = .triggered ∨
              (Event.started number).ended?.isSome = true ∧ Owing history) := by
            simp [Event.ended?]
          exact ⟨by omega, fun owes => absurd owes paid⟩
      | cancelled => simpa [Event.isStart, Event.isTrigger, Event.ended?]
      | ended number => simpa [Event.isStart, Event.isTrigger, Event.ended?] using ⟨some, more⟩
      | failed number => simpa [Event.isStart, Event.isTrigger, Event.ended?] using ⟨some, more⟩

/-! ## Debouncers that charge their runs -/

structure Billed (debouncer : Debouncer World) : Prop where
  charged : Charged debouncer.history
  owing : debouncer.pending = true → Owing debouncer.history

theorem billed_new (delay : Delay) (callNow : Bool) (world : World) :
    (new delay callNow world).Billed :=
  ⟨charged_nil, by simp [new]⟩

theorem billed_serve (charged : Charged debouncer.history) (owing : Owing debouncer.history)
    (work : Work World) : (debouncer.serve work).Billed :=
  ⟨charged_cons.mpr ⟨fun _ => owing, charged⟩, nofun⟩

theorem Billed.trigger (billed : debouncer.Billed) (sound : debouncer.Sound)
    (work : Work World) : (debouncer.trigger work).Billed := by
  have charged : Charged (debouncer.note .triggered).history :=
    charged_cons.mpr ⟨nofun, billed.charged⟩
  have owing : Owing (debouncer.note .triggered).history := owing_cons.mpr (.inl rfl)
  rw [sound.trigger_eq]
  split
  · exact billed_serve charged owing work
  · exact ⟨charged, fun _ => owing⟩

theorem Billed.finishRun (billed : debouncer.Billed) (run : Run) :
    (finishRun run debouncer).Billed := by
  have ended : run.ending.ended?.isSome = true := by simp [run.ended?_ending]
  rw [finishRun_eq]
  refine ⟨charged_cons.mpr ⟨?_, billed.charged⟩, fun pending => ?_⟩
  · simp [run.isStart_ending]
  · exact owing_cons.mpr (.inr ⟨ended, billed.owing pending⟩)

theorem Billed.happens (billed : debouncer.Billed) (sound : debouncer.Sound)
    (happens : Happens work debouncer last) : last.Billed := by
  have moved (time : Rat) : (debouncer.moveTo time).Billed := ⟨billed.charged, billed.owing⟩
  rcases sound.happens_cases happens with ⟨run, -, -, rfl⟩ | ⟨due, -, rfl⟩
  · exact (moved run.finish).finishRun run
  · unfold closeAt
    split
    · next pending => exact billed_serve (moved due).charged ((moved due).owing pending) work
    · exact ⟨billed.charged, billed.owing⟩

theorem Billed.step (billed : debouncer.Billed) (sound : debouncer.Sound)
    (step : Step work debouncer last) : last.Billed := by
  cases step with
  | trigger => exact billed.trigger sound work
  | cancel =>
      rw [sound.cancel_eq]
      exact ⟨charged_cons.mpr ⟨nofun, billed.charged⟩, nofun⟩
  | setDelay delay => exact ⟨billed.charged, billed.owing⟩
  | setCallNow callNow => exact ⟨billed.charged, billed.owing⟩
  | happens happens => exact billed.happens sound happens
  | wait quiet => exact ⟨billed.charged, billed.owing⟩

theorem Billed.reaches (billed : debouncer.Billed) (sound : debouncer.Sound)
    (reaches : Reaches work debouncer last) : last.Billed := by
  induction reaches with
  | refl => exact billed
  | tail reaches step ih => exact ih.step (sound.reaches reaches) step

/-! ## Without a trigger -/

def Order.isSilent : Order → Bool
  | .trigger _ => false
  | _ => true

theorem Calm.startTimes_happens (calm : debouncer.Calm) (happens : Happens work debouncer last) :
    last.startTimes = debouncer.startTimes := by
  obtain ⟨run, time, rfl⟩ := calm.exists_run happens
  exact startTimes_finishRun run (debouncer.moveTo time)

theorem Calm.cancel (calm : debouncer.Calm) :
    debouncer.cancel.Calm ∧ debouncer.cancel.startTimes = debouncer.startTimes := by
  have same : debouncer.cancel = { debouncer.note .cancelled with pending := false } := by
    simp only [Debouncer.cancel, note, calm.closed]
  rw [same]
  exact ⟨⟨calm.closed, rfl, calm.unarmed⟩, startTimes_note debouncer rfl⟩

theorem Calm.step (calm : debouncer.Calm) (step : StepBy work Order.isSilent debouncer last) :
    last.Calm ∧ last.startTimes = debouncer.startTimes := by
  cases step with
  | trigger may => nomatch may
  | cancel may => exact calm.cancel
  | setDelay may => exact ⟨⟨calm.closed, calm.quiet, calm.unarmed⟩, rfl⟩
  | setCallNow may => exact ⟨⟨calm.closed, calm.quiet, calm.unarmed⟩, rfl⟩
  | happens happens => exact ⟨calm.happens happens, calm.startTimes_happens happens⟩
  | wait _ quiet => exact ⟨⟨calm.closed, calm.quiet, calm.unarmed⟩, rfl⟩

theorem Calm.reaches (calm : debouncer.Calm)
    (reaches : ReachesBy work Order.isSilent debouncer last) :
    last.Calm ∧ last.startTimes = debouncer.startTimes := by
  induction reaches with
  | refl => exact ⟨calm, rfl⟩
  | tail _ step ih =>
      obtain ⟨calmThen, same⟩ := ih.1.step step
      exact ⟨calmThen, same.trans ih.2⟩

/-! ## Accounts -/

theorem length_startedRuns (debouncer : Debouncer World) :
    debouncer.startedRuns.length = debouncer.startTimes.length := by
  unfold startedRuns startTimes
  induction debouncer.history with
  | nil => rfl
  | cons item history ih =>
      obtain ⟨event, time⟩ := item
      rw [timesOf_cons, List.length_append, ← ih]
      cases event <;> rfl

theorem active_cancel (debouncer : Debouncer World) :
    debouncer.cancel.active = debouncer.active := by
  unfold cancel
  dsimp only
  split <;> rfl

/-- No run is spurious.  Whatever orders are given, each run is charged to a trigger of its own:
when it is started, nothing but ends of runs has happened since.  Once everything is cancelled,
no run is started until the next trigger.  A run in flight stays there until its time is up,
cancelled or not, and the runs in flight are those that have been started and have not ended. -/
theorem runs_charged (work : Work World) (delay : Delay) (callNow : Bool) (world : World) :
    let start := new delay callNow world
    (∀ orders, Reaches work start (obeyAll work start orders)) ∧
    ∀ debouncer, Reaches work start debouncer →
      (Charged debouncer.history ∧
        debouncer.startedRuns.length ≤ debouncer.triggerTimes.length) ∧
      ((∀ orders, (∀ order ∈ orders, order.isSilent = true) →
          ReachesBy work Order.isSilent debouncer.cancel
            (obeyAll work debouncer.cancel orders)) ∧
        ∀ last, ReachesBy work Order.isSilent debouncer.cancel last →
          last.idle = true ∧ last.startTimes = debouncer.startTimes) ∧
      (debouncer.cancel.active = debouncer.active ∧
        ∀ last, Reaches work debouncer last → ∀ run ∈ debouncer.active, Lasts run last) ∧
      (debouncer.activeRuns ++ debouncer.endedRuns).Perm debouncer.startedRuns ∧
        debouncer.startedRuns.Nodup ∧
        debouncer.running + debouncer.endedRuns.length = debouncer.startedRuns.length := by
  refine ⟨reaches_obeyAll work _, fun debouncer reaches => ?_⟩
  have fresh : (new delay callNow world).Sound := sound_new _ _ _
  have sound := fresh.reaches reaches
  have billed := (billed_new delay callNow world).reaches fresh reaches
  have numbered := (numbered_new delay callNow world).reaches fresh reaches
  refine ⟨⟨billed.charged, ?_⟩, ⟨fun orders silent => reachesBy_obeyAll work _ silent, ?_⟩,
    ⟨active_cancel debouncer, ?_⟩, numbered.accounted, numbered.nodup, ?_⟩
  · rw [length_startedRuns]
    exact billed.charged.length_le.1
  · intro last silence
    obtain ⟨calm, same⟩ := sound.calm_cancel.reaches silence
    have cancelled : debouncer.cancel.startTimes = debouncer.startTimes := by
      rw [sound.cancel_eq]
      exact startTimes_note debouncer rfl
    exact ⟨by simp [idle, calm.closed], same.trans cancelled⟩
  · intro last later run inside
    exact numbered.lasts_reaches sound later (.inl inside)
  · have lengths := numbered.accounted.length_eq
    rwa [List.length_append, activeRuns, List.length_map] at lengths

/-- Two runs are in flight, one of which fails, and a third trigger waits when everything is
cancelled. -/
theorem runs_charged_cancelled :
    let work : Work Unit := fun number _ _ =>
      ⟨(), [], 3, if number = 1 then some .noPath else none⟩
    let start : Debouncer Unit := new (.finite 1) true ()
    let debouncer := obeyAll work start [.trigger 2, .advance (5 / 4), .trigger 1]
    let silence : List Order := [.setDelay (.finite 0), .advance 10, .cancel, .drain]
    let last := obeyAll work debouncer.cancel silence
    Reaches work start debouncer ∧ debouncer.pending = true ∧ debouncer.running = 2 ∧
      debouncer.startTimes = [0, 1] ∧ debouncer.startedRuns.length ≤ debouncer.triggerTimes.length ∧
      last.idle = true ∧ last.startTimes = [0, 1] ∧ last.endedRuns = [1, 0] := by
  intro work start debouncer silence last
  have facts : (debouncer.pending = true ∧ debouncer.running = 2 ∧
      debouncer.startTimes = [0, 1]) ∧ last.endedRuns = [1, 0] := by
    decide +kernel
  obtain ⟨⟨pending, running, starts⟩, ended⟩ := facts
  obtain ⟨reaches, charges⟩ := runs_charged work (.finite 1) true ()
  obtain ⟨⟨-, fewer⟩, ⟨silently, drops⟩, -⟩ := charges debouncer (reaches _)
  obtain ⟨idle, same⟩ := drops last (silently silence (by decide))
  exact ⟨reaches _, pending, running, starts, fewer, idle, same.trans starts, ended⟩

end CommandFile.Debouncer
