import RailSequencer.OneShot
import RailSequencer.PowerState
import RailSequencer.Timing

/-!
# Requests to the power task

The mailbox is all that other tasks and interrupt handlers share with the power task. Each
request is a single cell: asking again before it is taken changes nothing, except that a
later reset request replaces an earlier one.
-/

namespace RailSequencer

/-- The two kinds of processor reset, which are carried out alike. -/
inductive ResetKind where
  | warm
  | cold
deriving DecidableEq, Repr

/-- The cells shared with the power task. -/
structure Mailbox where
  /-- The state that the power task last made known. -/
  published : PowerState := .g3
  shutdownRequested : Bool := false
  powerOnRequested : Bool := false
  resetRequested : Option ResetKind := none
  /-- The last attempt to power on was refused by the charger. -/
  inhibited : Bool := false
  /-- Hold time of the power button, as a 32-bit number of milliseconds. -/
  longPressMs : UInt32 := UInt32.ofNat Timing.defaultLongPressMs
  /-- The power task has been woken and has not slept since. -/
  woken : Bool := false
  /-- Forces a shutdown when the power button has been held. -/
  shutdownTimer : OneShot := {}
deriving DecidableEq, Repr

namespace Mailbox

/-- Let the power task look again, for instance after a change of an input line. -/
def wake (mailbox : Mailbox) : Mailbox := { mailbox with woken := true }

/-- Take the processor to G3 from wherever it is. -/
def requestShutdown (mailbox : Mailbox) : Mailbox :=
  { mailbox with shutdownRequested := true }.wake

/-- Leave hard off. The request counts only in G3 and on the way there. -/
def requestPowerOn (mailbox : Mailbox) : Mailbox :=
  match mailbox.published with
  | .g3 | .s5g3 => { mailbox with powerOnRequested := true }.wake
  | _ => mailbox

/-- Pulse the reset line. -/
def requestReset (mailbox : Mailbox) (kind : ResetKind) : Mailbox :=
  { mailbox with resetRequested := some kind }.wake

/-- The published state is one of the classes in `mask`. -/
def isIn (mailbox : Mailbox) (mask : StateMask) : Bool := mailbox.published.isIn mask

def longPressUs (mailbox : Mailbox) : Nat := mailbox.longPressMs.toNat * Timing.usPerMs

/-- Set the hold time of the power button. The cell keeps the low 32 bits. -/
def setLongPress (mailbox : Mailbox) (holdMs : Nat) : Mailbox :=
  { mailbox with longPressMs := UInt32.ofNat holdMs }

def schedule (mailbox : Mailbox) (delayUs : Nat) : Mailbox :=
  { mailbox with shutdownTimer := mailbox.shutdownTimer.schedule delayUs }

def cancelTimer (mailbox : Mailbox) : Mailbox :=
  { mailbox with shutdownTimer := mailbox.shutdownTimer.cancel }

/-- A press powers on from off and starts the hold time; a release stops it. -/
def powerButton (mailbox : Mailbox) (pressed : Bool) : Mailbox :=
  if pressed then
    let answered := if mailbox.isIn .anyOff then mailbox.requestPowerOn else mailbox
    answered.schedule answered.longPressUs
  else
    mailbox.cancelTimer

/-- Opening the lid powers on from off; closing it does nothing. -/
def lid (mailbox : Mailbox) (isOpen : Bool) : Mailbox :=
  if isOpen && mailbox.isIn .anyOff then mailbox.requestPowerOn else mailbox

/-- What the timer's task does with one look at the shutdown timer. -/
def turnTimer (mailbox : Mailbox) (now : Nat) : Mailbox :=
  let (timer, fired) := mailbox.shutdownTimer.turn now
  let seen := { mailbox with shutdownTimer := timer }
  if fired then seen.requestShutdown else seen

/-- Look at the shutdown timer until it waits. -/
def pollTimer (mailbox : Mailbox) (now : Nat) : Mailbox :=
  (mailbox.turnTimer now).turnTimer now

end Mailbox

end RailSequencer
