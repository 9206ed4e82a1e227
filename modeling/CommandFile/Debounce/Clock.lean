import CommandFile.Debounce.Basic
import CommandFile.Value

/-!
# The clock of a debouncer

Time moves from one due thing to the next: the end of a run, or a timer that goes off.
Of two that are due at one instant the end of a run comes first.  `weight` bounds how
many things can fall due without a further trigger, since a window that closes uses up
the suppressed trigger.
-/

namespace CommandFile

inductive Due
  | finish (run : Run)
  | timer (timer : Timer)
deriving DecidableEq, Repr

/-- The run that ends first; of several at one instant, the one that started first. -/
def Run.earliest? : List Run → Option Run
  | [] => none
  | run :: others =>
      match earliest? others with
      | none => some run
      | some other => if other.finish < run.finish then some other else some run

def Timer.earliest? : List Timer → Option (Rat × Timer)
  | [] => none
  | timer :: others =>
      match timer.due?, earliest? others with
      | none, found => found
      | some due, none => some (due, timer)
      | some due, some found => if found.1 < due then some found else some (due, timer)

namespace Debouncer

variable {World : Type}

def next? (debouncer : Debouncer World) : Option (Rat × Due) :=
  match Run.earliest? debouncer.active, Timer.earliest? debouncer.timers with
  | none, none => none
  | some run, none => some (run.finish, .finish run)
  | none, some (due, timer) => some (due, .timer timer)
  | some run, some (due, timer) =>
      if due < run.finish then some (due, .timer timer) else some (run.finish, .finish run)

/-- Time does not go back. -/
def moveTo (debouncer : Debouncer World) (time : Rat) : Debouncer World :=
  { debouncer with now := if debouncer.now < time then time else debouncer.now }

def happen (work : Work World) (debouncer : Debouncer World) (time : Rat) (due : Due) :
    Debouncer World :=
  let moved := debouncer.moveTo time
  match due with
  | .finish run => finishRun run moved
  | .timer timer => closeWindow work (moved.stopTimer timer.id)

/-- How many things can fall due without a further trigger. -/
def weight (debouncer : Debouncer World) : Nat :=
  debouncer.active.length + debouncer.timers.length + if debouncer.pending then 2 else 0

def happenUntil (work : Work World) (limit : Rat) :
    (fuel : Nat) → Debouncer World → Debouncer World
  | 0, debouncer => debouncer
  | fuel + 1, debouncer =>
      match debouncer.next? with
      | none => debouncer
      | some (time, due) =>
          if time ≤ limit then happenUntil work limit fuel (debouncer.happen work time due)
          else debouncer

def settle (work : Work World) (debouncer : Debouncer World) : Debouncer World :=
  happenUntil work debouncer.now debouncer.weight debouncer

def advance (work : Work World) (seconds : Rat) (debouncer : Debouncer World) :
    Debouncer World :=
  let time := debouncer.now + seconds
  (happenUntil work time debouncer.weight debouncer).moveTo time

def happenWhileActive (work : Work World) :
    (fuel : Nat) → Debouncer World → Debouncer World
  | 0, debouncer => debouncer
  | fuel + 1, debouncer =>
      if debouncer.active = [] then debouncer
      else
        match debouncer.next? with
        | none => debouncer
        | some (time, due) => happenWhileActive work fuel (debouncer.happen work time due)

def drain (work : Work World) (debouncer : Debouncer World) : Debouncer World :=
  happenWhileActive work debouncer.weight debouncer

inductive Order
  | trigger (count : Nat)
  | advance (seconds : Rat)
  | cancel
  | drain
  | setDelay (delay : Delay)
  | setCallNow (callNow : Bool)
deriving DecidableEq, Repr

def triggers (work : Work World) : Nat → Debouncer World → Debouncer World
  | 0, debouncer => debouncer
  | count + 1, debouncer => triggers work count (debouncer.trigger work)

def act (work : Work World) (debouncer : Debouncer World) : Order → Debouncer World
  | .trigger count => debouncer.triggers work count
  | .advance seconds => debouncer.advance work seconds
  | .cancel => debouncer.cancel
  | .drain => debouncer.drain work
  | .setDelay delay => { debouncer with delay := delay }
  | .setCallNow callNow => { debouncer with callNow := callNow }

def obey (work : Work World) (debouncer : Debouncer World) (order : Order) :
    Debouncer World :=
  (debouncer.act work order).settle work

def delayFor (other? : Option Value) (delay : Number) : Except Failure Delay :=
  match other? with
  | some value => .error (.notCallable value.typeName)
  | none => if delay.isBelowZero then .error .negativeDelay else .ok (.ofNumber delay)

end Debouncer

end CommandFile
