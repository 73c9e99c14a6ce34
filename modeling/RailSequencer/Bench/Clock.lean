import RailSequencer.Bench.Board

/-!
# The clock of a bench

Time passes from event to event. An event is the time of an action or a deadline of the
shutdown timer; at each, the actions that are due are done in the order in which they were
added, and then the timer is looked at. Actions are done at events only: one that is due at
once waits until the clock moves, and is then done at the event that comes next.
-/

namespace RailSequencer.Bench

/-- Size of all the actions that wait, which bounds how many of them can still be done. -/
def backlog (bench : Bench) : Nat :=
  bench.timed.foldl (fun total timed => total + timed.action.size) 0

/-- Do the first waiting action that is due, if there is one. -/
def doDueAction (bench : Bench) : Option Bench :=
  match bench.timed.findIdx? fun timed => timed.due ≤ bench.now with
  | none => none
  | some index =>
    match bench.timed[index]? with
    | none => none
    | some timed =>
      let taken := { bench with timed := bench.timed.eraseIdx index }
      some ((taken.log (.timed timed.action)).act timed.action)

/-- Do waiting actions that are due, one after the other, as long as there are any. An action
that adds another leaves a smaller one behind, so the size of the backlog bounds the count. -/
def doDueActions (bench : Bench) : Bench := repeatDue bench.backlog bench
where
  repeatDue : Nat → Bench → Bench
    | 0, current => current
    | rest + 1, current =>
      match current.doDueAction with
      | none => current
      | some next => repeatDue rest next

/-- The earliest of `target`, the deadline of the timer, and the times of the waiting actions
that are still to come. An action whose time has come already makes no event. -/
def nextEvent (bench : Bench) (target : Nat) : Nat :=
  let coming := (bench.timed.map Timed.due).filter fun due => bench.now < due
  (coming ++ bench.mailbox.shutdownTimer.deadline.toList).foldl min target

/-- Let time pass up to the next event, but not past `target`. Every action that is due by
then is done there, and the timer is looked at last. -/
def passEvent (bench : Bench) (target : Nat) : Bench :=
  let moved := { bench with now := max bench.now (bench.nextEvent target) }
  moved.doDueActions.pollTimer

/-- Let time pass up to `target`. Nothing is done where no time passes, except that the timer is
looked at. A timer that was looked at has no deadline behind it, so every event moves the
clock, and the time that is left bounds their number. -/
def passUntil (bench : Bench) (target : Nat) : Bench :=
  repeatEvents (target - bench.now) bench.pollTimer
where
  repeatEvents : Nat → Bench → Bench
    | 0, current => current
    | rest + 1, current =>
      if target ≤ current.now then current else repeatEvents rest (current.passEvent target)

end RailSequencer.Bench
