/-!
# One-shot timers

A timer has one slot for the newest command, which any task may overwrite, and a deadline,
which only the timer's own task sets. Nothing happens between polls: `turn` is one look at
the timer, and `poll` repeats it until there is nothing left to do at that instant.
-/

namespace RailSequencer

/-- What a client may ask of a timer. -/
inductive OneShot.Command where
  /-- Fire `delayUs` after the command is taken, in place of any deadline set before. -/
  | schedule (delayUs : Nat)
  | cancel
deriving DecidableEq, Repr

/-- A timer that fires once for each deadline that passes. -/
structure OneShot where
  /-- The newest command that the timer's task has not taken yet. -/
  command : Option OneShot.Command := none
  deadline : Option Nat := none
deriving DecidableEq, Repr

namespace OneShot

/-- Ask for a call after `delayUs`; an older command that was not taken is forgotten. -/
def schedule (timer : OneShot) (delayUs : Nat) : OneShot :=
  { timer with command := some (.schedule delayUs) }

def cancel (timer : OneShot) : OneShot := { timer with command := some .cancel }

/-- Schedule in milliseconds, where a negative delay cancels. -/
def defer (timer : OneShot) (delayMs : Int) : OneShot :=
  match delayMs with
  | .ofNat delay => timer.schedule (delay * 1000)
  | .negSucc _ => timer.cancel

/-- The deadline has been reached. -/
def isDue (timer : OneShot) (now : Nat) : Bool := timer.deadline.any (· ≤ now)

/-- A turn would do something: the deadline has been reached or a command waits. -/
def isReady (timer : OneShot) (now : Nat) : Bool := timer.isDue now || timer.command.isSome

/-- One look at the timer at time `now`, which tells whether it fired. A deadline that has
been reached fires first, even when a command waits; then the command is taken, and a delay
counts from here. -/
def turn (timer : OneShot) (now : Nat) : OneShot × Bool :=
  let fired := timer.isDue now
  let deadline := match timer.command with
    | none => if fired then none else timer.deadline
    | some .cancel => none
    | some (.schedule delayUs) => some (now + delayUs)
  (⟨none, deadline⟩, fired)

/-- Look at the timer until it waits, counting the calls. After one turn no command is left,
so a second turn is enough: it fires a delay of zero that the first one took. -/
def poll (timer : OneShot) (now : Nat) : OneShot × Nat :=
  let first := timer.turn now
  let second := first.1.turn now
  (second.1, first.2.toNat + second.2.toNat)

end OneShot

end RailSequencer
