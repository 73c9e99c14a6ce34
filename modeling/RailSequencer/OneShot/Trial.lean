import RailSequencer.OneShot
import RailSequencer.Timing

/-!
# Trials of a one-shot timer

A trial is a timer alone on a clock, with a count of its calls. Commands only fill the slot
of the timer; polls are what has effects.
-/

namespace RailSequencer.OneShot

/-- What can be done in a trial. -/
inductive Trial.Command where
  | schedule (ms : Nat)
  | cancel
  | defer (ms : Int)
  | poll
  /-- Move the clock without a poll. -/
  | jump (ms : Nat)
  /-- Let time pass with a poll now, at each deadline on the way and at the end. -/
  | advance (ms : Nat)
deriving DecidableEq, Repr

/-- A timer alone on a clock. -/
structure Trial where
  now : Nat := 0
  timer : OneShot := {}
  fired : Nat := 0
  lastFired : Option Nat := none
deriving DecidableEq, Repr

namespace Trial

/-- Poll the timer, counting its calls. -/
def look (trial : Trial) : Trial :=
  let (timer, fired) := trial.timer.poll trial.now
  { trial with
    timer := timer
    fired := trial.fired + fired
    lastFired := if fired = 0 then trial.lastFired else some trial.now }

/-- Move the clock to a time and poll there. -/
def lookAt (trial : Trial) (time : Nat) : Trial := { trial with now := time }.look

/-- Let time pass up to `target`. After a poll at most one deadline is ahead, and a poll at
that deadline leaves none. -/
def passUntil (trial : Trial) (target : Nat) : Trial :=
  let polled := trial.look
  match polled.timer.deadline with
  | some deadline =>
    if deadline < target then (polled.lookAt deadline).lookAt target else polled.lookAt target
  | none => polled.lookAt target

def carryOut (trial : Trial) : Command → Trial
  | .schedule ms => { trial with timer := trial.timer.schedule (ms * Timing.usPerMs) }
  | .cancel => { trial with timer := trial.timer.cancel }
  | .defer ms => { trial with timer := trial.timer.defer ms }
  | .poll => trial.look
  | .jump ms => { trial with now := trial.now + ms * Timing.usPerMs }
  | .advance ms => trial.passUntil (trial.now + ms * Timing.usPerMs)

end Trial

end RailSequencer.OneShot
