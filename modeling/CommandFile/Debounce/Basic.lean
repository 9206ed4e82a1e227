import CommandFile.Failure
import CommandFile.Number.Basic

/-!
# Debouncing

A debouncer turns bursts of triggers into few runs of its work.  A trigger opens a quiet
window, and further triggers open it anew.  When the window closes behind a suppressed
trigger, the work runs and a window of its own opens.  A debouncer that calls at once
also runs on a trigger that comes while no window is open.

A debouncer carries its clock, its timers and the world that its runs act on.  A run acts
when it starts and stays active for a while; a run that fails does so when it ends.
-/

namespace CommandFile

inductive Delay
  | finite (seconds : Rat)
  | endless
deriving DecidableEq, Repr

namespace Delay

def seconds (negative : Bool) (mantissa : Nat) (exponent : Int) : Rat :=
  let (above, below) := Number.quotient mantissa exponent
  let size : Rat := (above : Rat) / (below : Rat)
  if negative then -size else size

/-- The delay of a debouncer.  Settings that have been loaded hold no `nan`, so the program makes no
debouncer that goes by it, and what its window would do does not matter. -/
def ofNumber : Number → Delay
  | .finite negative mantissa exponent => .finite (seconds negative mantissa exponent)
  | .infinite true => .finite 0
  | .infinite false => .endless
  | .nan => .endless

def after (now : Rat) : Delay → Option Rat
  | .finite seconds => some (now + seconds)
  | .endless => none

end Delay

structure Timer where
  id : Nat
  due? : Option Rat
deriving DecidableEq, Repr

structure Run where
  number : Nat
  finish : Rat
  failure? : Option Failure
deriving DecidableEq, Repr

inductive Event
  | triggered
  | cancelled
  | started (number : Nat)
  | ended (number : Nat)
  | failed (number : Nat)
deriving DecidableEq, Repr

/-- What a run does: the world and the rows that it leaves when it starts, how long it
takes, and the failure with which it ends. -/
structure Doing (World : Type) where
  world : World
  log : Log
  duration : Rat
  failure? : Option Failure

abbrev Work (World : Type) := Nat → Rat → World → Doing World

/-- `history` begins with the latest event, and `window?` names the timer that closes the
quiet window. -/
structure Debouncer (World : Type) where
  delay : Delay
  callNow : Bool
  window? : Option Nat
  pending : Bool
  now : Rat
  timers : List Timer
  opened : Nat
  active : List Run
  started : Nat
  history : List (Event × Rat)
  world : World
  log : Log

namespace Debouncer

variable {World : Type}

def source : String := "handycmd.utils.debounce"

def new (delay : Delay) (callNow : Bool) (world : World) : Debouncer World where
  delay := delay
  callNow := callNow
  window? := none
  pending := false
  now := 0
  timers := []
  opened := 0
  active := []
  started := 0
  history := []
  world := world
  log := []

def idle (debouncer : Debouncer World) : Bool := debouncer.window?.isNone

def running (debouncer : Debouncer World) : Nat := debouncer.active.length

def note (debouncer : Debouncer World) (event : Event) : Debouncer World :=
  { debouncer with history := (event, debouncer.now) :: debouncer.history }

def startRun (work : Work World) (debouncer : Debouncer World) : Debouncer World :=
  let number := debouncer.started
  let doing := work number debouncer.now debouncer.world
  { debouncer with
    active := debouncer.active ++ [⟨number, debouncer.now + doing.duration, doing.failure?⟩]
    started := number + 1
    history := (.started number, debouncer.now) :: debouncer.history
    world := doing.world
    log := debouncer.log ++ doing.log }

def openWindow (debouncer : Debouncer World) : Debouncer World :=
  let id := debouncer.opened
  { debouncer with
    window? := some id
    timers := debouncer.timers ++ [⟨id, debouncer.delay.after debouncer.now⟩]
    opened := id + 1 }

def stopTimer (debouncer : Debouncer World) (id : Nat) : Debouncer World :=
  { debouncer with timers := debouncer.timers.filter (·.id ≠ id) }

def trigger (work : Work World) (debouncer : Debouncer World) : Debouncer World :=
  let noted := debouncer.note .triggered
  match noted.window? with
  | some id => openWindow { noted.stopTimer id with pending := true }
  | none =>
      if noted.callNow then openWindow (noted.startRun work)
      else openWindow { noted with pending := true }

def cancel (debouncer : Debouncer World) : Debouncer World :=
  let noted := debouncer.note .cancelled
  match noted.window? with
  | some id => { noted.stopTimer id with window? := none, pending := false }
  | none => { noted with pending := false }

/-- Closes the window; a suppressed trigger makes a run, and the run a window. -/
def closeWindow (work : Work World) (debouncer : Debouncer World) : Debouncer World :=
  let closed := { debouncer with window? := none }
  if closed.pending then openWindow (startRun work { closed with pending := false })
  else closed

def complaint (failure : Failure) : LogRow :=
  ⟨.error, source, s!"Debounced callback failed: {failure.message}", [],
    some failure.name⟩

/-- The rows about a failure.  A cancellation is not one that is caught, so nothing is said
of it. -/
def complaints (failure : Failure) : Log :=
  if failure = .cancelled then [] else [complaint failure]

def finishRun (run : Run) (debouncer : Debouncer World) : Debouncer World :=
  let active := debouncer.active.filter (·.number ≠ run.number)
  match run.failure? with
  | none => { debouncer with active := active }.note (.ended run.number)
  | some failure =>
      { debouncer with
          active := active
          log := debouncer.log ++ complaints failure }.note (.failed run.number)

end Debouncer

end CommandFile
