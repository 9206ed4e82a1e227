import CommandFile.Proofs.Runs
import CommandFile.Proofs.Schedules
import Mathlib.Data.List.Induction

/-!
# Complaints

A run that fails leaves a mark in the history and a row in the log, and that is all.  Everything
else goes on as if it had not failed, and each row can be told from the history: a run writes its
own rows when it is started, and a failed one is told of in a row when it ends.
-/

namespace CommandFile

variable {World : Type}

/-! ## Without failures -/

def Work.hushed (work : Work World) : Work World :=
  fun number time world => { work number time world with log := [], failure? := none }

def Run.hushed (run : Run) : Run := { run with failure? := none }

def Event.hushed : Event → Event
  | .failed number => .ended number
  | event => event

namespace Debouncer

open Relation

variable {work : Work World} {world : World} {debouncer last : Debouncer World} {time : Rat}

def hushed (debouncer : Debouncer World) : Debouncer World :=
  { debouncer with
    active := debouncer.active.map Run.hushed
    history := debouncer.history.map fun item => (item.1.hushed, item.2)
    log := [] }

theorem note_hushed (debouncer : Debouncer World) {event : Event} (same : event.hushed = event) :
    debouncer.hushed.note event = (debouncer.note event).hushed := by
  simp [note, hushed, same]

theorem startRun_hushed (work : Work World) (debouncer : Debouncer World) :
    debouncer.hushed.startRun work.hushed = (debouncer.startRun work).hushed := by
  simp [startRun, hushed, Work.hushed, Run.hushed, Event.hushed]

theorem finishRun_hushed (run : Run) (debouncer : Debouncer World) :
    finishRun run.hushed debouncer.hushed = (finishRun run debouncer).hushed := by
  have rest : (debouncer.active.map Run.hushed).filter (·.number ≠ run.number) =
      (debouncer.active.filter (·.number ≠ run.number)).map Run.hushed :=
    List.filter_map
  have ending : run.hushed.ending = run.ending.hushed := by
    unfold Run.ending
    cases run.failure? <;> rfl
  have number : run.hushed.number = run.number := rfl
  have report : run.hushed.report = [] := rfl
  rw [finishRun_eq, finishRun_eq]
  simp only [note, hushed, ending, number, report, rest, List.map_cons, List.append_nil]

theorem trigger_hushed (work : Work World) (debouncer : Debouncer World) :
    debouncer.hushed.trigger work.hushed = (debouncer.trigger work).hushed := by
  have noted : debouncer.hushed.note .triggered = (debouncer.note .triggered).hushed :=
    note_hushed debouncer rfl
  have window : debouncer.hushed.window? = debouncer.window? := rfl
  cases opened : debouncer.window? with
  | some id =>
      rw [trigger_of_open opened, trigger_of_open (window.trans opened), noted]
      rfl
  | none =>
      cases calls : debouncer.callNow with
      | true =>
          rw [trigger_of_calls opened calls, trigger_of_calls (window.trans opened) calls, noted,
            startRun_hushed]
          rfl
      | false =>
          rw [trigger_of_waits opened calls, trigger_of_waits (window.trans opened) calls, noted]
          rfl

theorem cancel_hushed (debouncer : Debouncer World) :
    debouncer.hushed.cancel = debouncer.cancel.hushed := by
  have window : debouncer.hushed.window? = debouncer.window? := rfl
  unfold cancel
  rw [note_hushed debouncer rfl]
  cases opened : debouncer.window? with
  | some id =>
      simp only [note, hushed, opened]
      rfl
  | none => simp only [note, hushed, opened]

theorem closeWindow_hushed (work : Work World) (debouncer : Debouncer World) :
    debouncer.hushed.closeWindow work.hushed = (debouncer.closeWindow work).hushed := by
  have same : debouncer.hushed.pending = debouncer.pending := rfl
  cases pending : debouncer.pending with
  | true =>
      have begun := startRun_hushed work { debouncer with window? := none, pending := false }
      rw [closeWindow_of_pending (same.trans pending), closeWindow_of_pending pending]
      exact congrArg openWindow begun
  | false =>
      rw [closeWindow_of_quiet (same.trans pending), closeWindow_of_quiet pending]
      rfl

theorem weight_hushed (debouncer : Debouncer World) :
    debouncer.hushed.weight = debouncer.weight := by
  simp only [weight, hushed, List.length_map]
  rfl

theorem happen_hushed (work : Work World) (debouncer : Debouncer World) (time : Rat) (due : Due) :
    debouncer.hushed.happen work.hushed time (due.map Run.hushed id) =
      (debouncer.happen work time due).hushed := by
  cases due with
  | finish run => exact finishRun_hushed run (debouncer.moveTo time)
  | timer timer => exact closeWindow_hushed work ((debouncer.moveTo time).stopTimer timer.id)

theorem mirrors_hushed (work : Work World) :
    Mirrors work work.hushed hushed (Due.map Run.hushed id) where
  now := fun _ => rfl
  weight := weight_hushed
  active := fun _ => List.map_eq_nil_iff
  next := fun _ => next?_map (fun _ => rfl) (fun _ => rfl) rfl (List.map_id _).symm
  moveTo := fun _ _ => rfl
  happen := happen_hushed work
  trigger := trigger_hushed work
  cancel := cancel_hushed
  setDelay := fun _ _ => rfl
  setCallNow := fun _ _ => rfl

end Debouncer

/-! ## Deeds -/

def Doing.lastWorld (world : World) (deeds : List (Doing World)) : World :=
  (deeds.getLast?.map Doing.world).getD world

/-- What the runs do that are started at some times, each one in the world that the one before
leaves. -/
def Work.deeds (work : Work World) (world : World) (times : List Rat) : List (Doing World) :=
  times.foldl
    (fun deeds time => deeds ++ [work deeds.length time (Doing.lastWorld world deeds)]) []

theorem Work.deeds_concat (work : Work World) (world : World) (times : List Rat) (time : Rat) :
    work.deeds world (times ++ [time]) =
      work.deeds world times ++ [work (work.deeds world times).length time
        (Doing.lastWorld world (work.deeds world times))] := by
  simp [deeds]

namespace Event

variable {deeds : List (Doing World)} {event : Event}

/-- An event is about a run that has been started, and a run that ends has failed exactly if that
is what it does. -/
def Fits (deeds : List (Doing World)) : Event → Prop
  | .started number => number < deeds.length
  | .ended number => deeds[number]?.map Doing.failure? = some none
  | .failed number => ∃ failure, deeds[number]?.map Doing.failure? = some (some failure)
  | _ => True

/-- The failure with which a run ends; a cancellation is none. -/
def failure? (deeds : List (Doing World)) : Event → Option Failure
  | .failed number => (deeds[number]?.bind Doing.failure?).filter (· ≠ .cancelled)
  | _ => none

/-- A run that is started writes its own rows, and one that fails is told of when it ends. -/
def rows (deeds : List (Doing World)) : Event → Log
  | .started number => (deeds[number]?.map Doing.log).getD []
  | event => (event.failure? deeds).toList.map fun failure =>
      ⟨.error, "handycmd.utils.debounce", s!"Debounced callback failed: {failure.message}", [],
        some failure.name⟩

theorem lt_of_map_getElem? {number : Nat} {failure? : Option Failure}
    (same : deeds[number]?.map Doing.failure? = some failure?) : number < deeds.length := by
  obtain ⟨doing, found, -⟩ := Option.map_eq_some_iff.mp same
  exact (List.getElem?_eq_some_iff.mp found).1

theorem Fits.concat (fits : event.Fits deeds) (doing : Doing World) :
    event.Fits (deeds ++ [doing]) ∧ event.rows (deeds ++ [doing]) = event.rows deeds := by
  cases event with
  | triggered => exact ⟨trivial, rfl⟩
  | cancelled => exact ⟨trivial, rfl⟩
  | started number =>
      have inside : number < deeds.length := fits
      refine ⟨?_, by rw [rows, List.getElem?_append_left inside, ← rows]⟩
      simp only [Fits, List.length_append]
      omega
  | ended number =>
      have inside := lt_of_map_getElem? fits
      exact ⟨by rwa [Fits, List.getElem?_append_left inside], rfl⟩
  | failed number =>
      have inside := lt_of_map_getElem? fits.choose_spec
      refine ⟨by rwa [Fits, List.getElem?_append_left inside], ?_⟩
      rw [rows, rows, failure?, failure?, List.getElem?_append_left inside] <;> nofun

end Event

namespace Debouncer

variable {work : Work World} {world : World} {debouncer last : Debouncer World}
  {doings : List (Doing World)}

/-! ## Rows -/

def rowsOf (doings : List (Doing World)) (history : List (Event × Rat)) : Log :=
  history.reverse.flatMap fun item => item.1.rows doings

theorem rowsOf_cons (doings : List (Doing World)) (event : Event) (time : Rat)
    (history : List (Event × Rat)) :
    rowsOf doings ((event, time) :: history) = rowsOf doings history ++ event.rows doings := by
  simp [rowsOf]

theorem rowsOf_concat {history : List (Event × Rat)} (fits : ∀ item ∈ history, item.1.Fits doings)
    (doing : Doing World) : rowsOf (doings ++ [doing]) history = rowsOf doings history :=
  List.flatMap_congr fun item inside =>
    ((fits item (List.mem_reverse.mp inside)).concat doing).2

def deeds (work : Work World) (world : World) (debouncer : Debouncer World) :
    List (Doing World) :=
  work.deeds world debouncer.startTimes

structure Recorded (work : Work World) (world : World) (debouncer : Debouncer World) : Prop where
  counted : debouncer.started = (debouncer.deeds work world).length
  left : debouncer.world = Doing.lastWorld world (debouncer.deeds work world)
  active : ∀ run ∈ debouncer.active,
    (debouncer.deeds work world)[run.number]?.map Doing.failure? = some run.failure?
  fits : ∀ item ∈ debouncer.history, item.1.Fits (debouncer.deeds work world)
  log : debouncer.log = rowsOf (debouncer.deeds work world) debouncer.history

theorem recorded_new (work : Work World) (delay : Delay) (callNow : Bool) (world : World) :
    Recorded work world (new delay callNow world) where
  counted := rfl
  left := rfl
  active := by simp [new]
  fits := by simp [new]
  log := rfl

theorem Recorded.note (recorded : Recorded work world debouncer) {event : Event}
    (other : event.isStart = false) (fits : event.Fits (debouncer.deeds work world))
    (silent : event.rows (debouncer.deeds work world) = []) :
    Recorded work world (debouncer.note event) := by
  have same : (debouncer.note event).deeds work world = debouncer.deeds work world :=
    congrArg (work.deeds world) (startTimes_note debouncer other)
  refine ⟨same ▸ recorded.counted, same ▸ recorded.left, same ▸ recorded.active, ?_, ?_⟩
  · exact same ▸ List.forall_mem_cons.mpr ⟨fits, recorded.fits⟩
  · rw [same, Debouncer.note, rowsOf_cons, silent, List.append_nil]
    exact recorded.log

theorem deeds_serve (work : Work World) (recorded : Recorded work world debouncer) :
    (debouncer.serve work).deeds work world = debouncer.deeds work world ++
      [work debouncer.started debouncer.now debouncer.world] := by
  rw [deeds, startTimes_serve, Work.deeds_concat, recorded.counted, recorded.left]
  rfl

theorem Recorded.serve (recorded : Recorded work world debouncer) :
    Recorded work world (debouncer.serve work) := by
  -- The deeds grow at their end, so what has been noted about the earlier ones stays true.
  have more := deeds_serve work recorded
  have here : (debouncer.deeds work world ++
      [work debouncer.started debouncer.now debouncer.world])[debouncer.started]? =
      some (work debouncer.started debouncer.now debouncer.world) := by
    rw [recorded.counted]
    exact List.getElem?_concat_length
  have history : (debouncer.serve work).history =
      (.started debouncer.started, debouncer.now) :: debouncer.history := rfl
  refine ⟨?_, ?_, ?_, ?_, ?_⟩ <;> rw [more]
  · have count : (debouncer.serve work).started = debouncer.started + 1 := rfl
    rw [count, recorded.counted, List.length_append, List.length_singleton]
  · rw [Doing.lastWorld, List.getLast?_concat]
    rfl
  · intro run inside
    rcases List.mem_append.mp inside with before | begun
    · have same := recorded.active run before
      rwa [List.getElem?_append_left (Event.lt_of_map_getElem? same)]
    · obtain rfl := List.mem_singleton.mp begun
      exact congrArg (Option.map Doing.failure?) here
  · rw [history]
    refine List.forall_mem_cons.mpr ⟨(List.getElem?_eq_some_iff.mp here).1, ?_⟩
    exact fun item inside => ((recorded.fits item inside).concat _).1
  · have log : (debouncer.serve work).log =
        debouncer.log ++ (work debouncer.started debouncer.now debouncer.world).log := rfl
    rw [history, log, rowsOf_cons, rowsOf_concat recorded.fits, recorded.log, Event.rows, here]
    rfl

theorem Recorded.finishRun (recorded : Recorded work world debouncer) {run : Run}
    (inside : run ∈ debouncer.active) : Recorded work world (finishRun run debouncer) := by
  have failing := recorded.active run inside
  have same : (Debouncer.finishRun run debouncer).deeds work world = debouncer.deeds work world :=
    congrArg (work.deeds world) (startTimes_finishRun run debouncer)
  have fits : run.ending.Fits (debouncer.deeds work world) := by
    unfold Run.ending
    cases failed : run.failure? with
    | none => exact failing.trans (congrArg some failed)
    | some failure => exact ⟨failure, failing.trans (congrArg some failed)⟩
  have rows : run.ending.rows (debouncer.deeds work world) = run.report := by
    obtain ⟨doing, found, fails⟩ := Option.map_eq_some_iff.mp failing
    unfold Run.ending Run.report
    cases failed : run.failure? with
    | none => rfl
    | some failure =>
        by_cases cancelled : failure = .cancelled <;>
          simp [Event.rows, Event.failure?, found, fails, failed, complaints, complaint, source,
            cancelled]
  rw [finishRun_eq] at same ⊢
  refine ⟨same ▸ recorded.counted, same ▸ recorded.left, ?_, ?_, ?_⟩ <;> rw [same]
  · exact fun other insideToo => recorded.active other (List.mem_of_mem_filter insideToo)
  · exact List.forall_mem_cons.mpr ⟨fits, recorded.fits⟩
  · change debouncer.log ++ run.report = rowsOf _ ((run.ending, debouncer.now) :: debouncer.history)
    rw [rowsOf_cons, rows, recorded.log]

theorem Recorded.trigger (recorded : Recorded work world debouncer) (sound : debouncer.Sound) :
    Recorded work world (debouncer.trigger work) := by
  have noted : Recorded work world (debouncer.note .triggered) := recorded.note rfl trivial rfl
  rw [sound.trigger_eq]
  split
  · exact noted.serve
  · exact ⟨noted.counted, noted.left, noted.active, noted.fits, noted.log⟩

theorem Recorded.happens (recorded : Recorded work world debouncer) (sound : debouncer.Sound)
    (happens : Happens work debouncer last) : Recorded work world last := by
  have moved (time : Rat) : Recorded work world (debouncer.moveTo time) :=
    ⟨recorded.counted, recorded.left, recorded.active, recorded.fits, recorded.log⟩
  rcases sound.happens_cases happens with ⟨run, inside, -, rfl⟩ | ⟨due, -, rfl⟩
  · exact (moved run.finish).finishRun inside
  · unfold closeAt
    split
    · exact (moved due).serve
    · exact ⟨recorded.counted, recorded.left, recorded.active, recorded.fits, recorded.log⟩

theorem Recorded.step (recorded : Recorded work world debouncer) (sound : debouncer.Sound)
    (step : Step work debouncer last) : Recorded work world last := by
  cases step with
  | trigger => exact recorded.trigger sound
  | cancel =>
      have noted : Recorded work world (debouncer.note .cancelled) := recorded.note rfl trivial rfl
      rw [sound.cancel_eq]
      exact ⟨noted.counted, noted.left, noted.active, noted.fits, noted.log⟩
  | setDelay delay =>
      exact ⟨recorded.counted, recorded.left, recorded.active, recorded.fits, recorded.log⟩
  | setCallNow callNow =>
      exact ⟨recorded.counted, recorded.left, recorded.active, recorded.fits, recorded.log⟩
  | happens happens => exact recorded.happens sound happens
  | wait quiet =>
      exact ⟨recorded.counted, recorded.left, recorded.active, recorded.fits, recorded.log⟩

theorem Recorded.reaches (recorded : Recorded work world debouncer) (sound : debouncer.Sound)
    (reaches : Reaches work debouncer last) : Recorded work world last := by
  induction reaches with
  | refl => exact recorded
  | tail reaches step ih => exact ih.step (sound.reaches reaches) step

/-! ## Runs that write nothing -/

/-- The failures with which runs have ended, in the order of their ends. -/
def failures (doings : List (Doing World)) (history : List (Event × Rat)) : List Failure :=
  history.reverse.filterMap fun item => item.1.failure? doings

theorem log_deeds (silent : ∀ number time world, (work number time world).log = [])
    (times : List Rat) : ∀ doing ∈ work.deeds world times, doing.log = [] := by
  induction times using List.reverseRecOn with
  | nil => nofun
  | append_singleton times time ih =>
      rw [Work.deeds_concat]
      exact List.forall_mem_append.mpr ⟨ih, List.forall_mem_singleton.mpr (silent _ _ _)⟩

theorem rows_of_silent (silent : ∀ doing ∈ doings, doing.log = []) (event : Event) :
    event.rows doings = (event.failure? doings).toList.map fun failure =>
      ⟨.error, "handycmd.utils.debounce", s!"Debounced callback failed: {failure.message}", [],
        some failure.name⟩ := by
  cases event with
  | started number =>
      cases found : doings[number]? with
      | none => simp [Event.rows, Event.failure?, found]
      | some doing =>
          have none := silent doing (List.mem_of_getElem? found)
          simp [Event.rows, Event.failure?, found, none]
  | _ => rfl

theorem rowsOf_of_silent (silent : ∀ doing ∈ doings, doing.log = [])
    (history : List (Event × Rat)) :
    rowsOf doings history = (failures doings history).map fun failure =>
      ⟨.error, "handycmd.utils.debounce", s!"Debounced callback failed: {failure.message}", [],
        some failure.name⟩ := by
  rw [failures, List.filterMap_eq_flatMap_toList, List.map_flatMap]
  exact List.flatMap_congr fun item _ => rows_of_silent silent item.1

/-! ## What is up to the runs -/

/-- The schedule is not up to the runs.  Unless the debouncer waits for them, any two kinds of work
have the same runs started at the same times and the same windows open.  A failure does not get in
the way of anything: whatever orders are given, the debouncer ends up as if no run failed, but for
the marks and the rows.  And what is written is what the runs write themselves when they are started
and one row of an error when a failed one ends, which it does once; only of a cancellation nothing
is said.  If the runs write nothing, the log is one row for each failure. -/
theorem schedule_of_orders {Other : Type} (work : Work World) (another : Work Other)
    (delay : Delay) (callNow : Bool) (world : World) (other : Other) :
    let start := new delay callNow world
    (∀ orders : List Order, (∀ order ∈ orders, order ≠ .drain) →
      let last := obeyAll work start orders
      let lastToo := obeyAll another (new delay callNow other) orders
      last.startTimes = lastToo.startTimes ∧ last.idle = lastToo.idle) ∧
    (∀ orders, Reaches work start (obeyAll work start orders) ∧
      (obeyAll work start orders).hushed = obeyAll work.hushed start orders) ∧
    ∀ debouncer, Reaches work start debouncer →
      debouncer.log = rowsOf (debouncer.deeds work world) debouncer.history ∧
      (∀ item ∈ debouncer.history, item.1.Fits (debouncer.deeds work world)) ∧
      debouncer.endedRuns.Nodup ∧
      ((∀ number time world, (work number time world).log = []) →
        debouncer.log =
          (failures (debouncer.deeds work world) debouncer.history).map fun failure =>
            ⟨.error, "handycmd.utils.debounce", s!"Debounced callback failed: {failure.message}",
              [], some failure.name⟩) := by
  intro start
  have sound : start.Sound := sound_new _ _ _
  have soundToo : (new delay callNow other).Sound := sound_new _ _ _
  refine ⟨fun orders waitless => ?_, fun orders => ⟨reaches_obeyAll work _ orders, ?_⟩, ?_⟩
  · have fresh : Abreast start (new delay callNow other) := ⟨⟨rfl, rfl, rfl, rfl, rfl⟩, rfl⟩
    have alike := (fresh.obeyAll sound soundToo work another waitless).toAlike
    refine ⟨alike.startTimes, alike.idle_eq ?_ ?_⟩
    · exact sound.reaches (reaches_obeyAll work start orders)
    · exact soundToo.reaches (reaches_obeyAll another _ orders)
  · exact ((mirrors_hushed work).obeyAll start orders).symm
  · intro debouncer reaches
    have recorded := (recorded_new work delay callNow world).reaches sound reaches
    have numbered := (numbered_new delay callNow world).reaches sound reaches
    refine ⟨recorded.log, recorded.fits, (List.nodup_append.mp numbered.nodup_append).2.1,
      fun silent => ?_⟩
    rw [recorded.log]
    exact rowsOf_of_silent (log_deeds silent _) _

/-- Short runs, and long ones that overlap and fail but for the second; a window is dropped and the
delay changes on the way. -/
theorem schedule_of_orders_failing :
    let work : Work Unit := fun _ _ _ => ⟨(), [], 1 / 4, none⟩
    let another : Work Nat := fun number _ count =>
      ⟨count + 1, [], 3, if number = 1 then none else some .noPath⟩
    let orders : List Order := [.trigger 2, .advance (3 / 2), .setCallNow false, .trigger 1,
      .setDelay (.finite 2), .cancel, .trigger 3, .advance 6]
    let row : LogRow := ⟨.error, "handycmd.utils.debounce",
      "Debounced callback failed: tuple index out of range", [], some "IndexError"⟩
    let last := obeyAll work (new (.finite 1) true ()) orders
    let lastToo := obeyAll another (new (.finite 1) true 0) orders
    last.startTimes = [0, 1, 7 / 2] ∧ lastToo.startTimes = [0, 1, 7 / 2] ∧
      last.idle = lastToo.idle ∧ last.log = [] ∧
      failures (lastToo.deeds another 0) lastToo.history = [.noPath, .noPath] ∧
      lastToo.log = [row, row] ∧ lastToo.endedRuns.Nodup := by
  intro work another orders row last lastToo
  obtain ⟨same, -⟩ := schedule_of_orders work another (.finite 1) true () 0
  obtain ⟨-, reaches, records⟩ := schedule_of_orders another work (.finite 1) true 0 ()
  obtain ⟨starts, idle⟩ := same orders (by decide)
  obtain ⟨-, -, once, rows⟩ := records lastToo (reaches orders).1
  have facts : last.startTimes = [0, 1, 7 / 2] ∧ last.log = [] ∧
      failures (lastToo.deeds another 0) lastToo.history = [.noPath, .noPath] := by
    decide +kernel
  refine ⟨facts.1, starts.symm.trans facts.1, idle, facts.2.1, facts.2.2, ?_, once⟩
  rw [rows fun _ _ _ => rfl, facts.2.2]
  rfl

end Debouncer

end CommandFile
