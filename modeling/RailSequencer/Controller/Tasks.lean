import RailSequencer.Controller.HostBus
import RailSequencer.Controller.PowerTask

/-!
# The tasks of the controller

Each task is a function on the state that does nothing unless the task has something to do.
A round looks at every task once, in a fixed order. So a task sees at once what an earlier one
did in the same round, and what a later one did in the next.
-/

namespace RailSequencer.Controller

/-- Time between two feeds of the watchdog. -/
def feedUs : Nat := 1000000

/-- Time after which a watchdog that is not fed resets the controller. -/
def watchdogUs : Nat := 8000000

/-- Time between two samples of the monitored lines. -/
def sampleUs : Nat := 1000

/-- Time between two readings of the input voltage. -/
def readingUs : Nat := 20000

/-- Volts for each step of the converter: its range over its steps, with a correction. -/
def voltsPerStep : Binary32 :=
  Binary32.ofQuotient 1015 1000 * (fullScaleVolts / ((4096 : Nat) : Binary32))

/-- The largest voltage that is kept, in millivolts. -/
def mostMillivolts : Nat := 0xffffffff

namespace Live

/-- Feed the watchdog when it is time. -/
def pollFeeder (live : Live) : Live :=
  if live.ram.nextFeed ≤ live.now then
    { live with
      ram := { live.ram with feeds := live.ram.feeds + 1, nextFeed := live.now + feedUs } }
  else
    live

/-- The store task takes up the oldest change in the channel, unless it has one. -/
def takeChange (live : Live) : Live :=
  { live with ram := { live.ram with changes := live.ram.changes.takeUp } }

/-- The store task stores the change that it has taken up. A change that cannot be stored is
dropped. -/
def storeTaken (live : Live) : Live where
  hardware := match live.ram.changes.taken with
    | none => live.hardware
    | some change => live.hardware.storeSetting change
  ram := { live.ram with changes := live.ram.changes.finish }

/-- Take up and store every change that has been sent, one after the other. -/
def pollStore (live : Live) : Live := storeEach live.ram.changes.sent.length live.storeTaken
where
  storeEach : Nat → Live → Live
    | 0, current => current
    | rest + 1, current => storeEach rest current.takeChange.storeTaken

/-- Take in a sample of the monitored lines. A change wakes the power task. -/
def takeSample (live : Live) (sample : SignalMask) : Live :=
  if sample = live.ram.sampled.lines then live
  else
    { live with ram := { live.ram with sampled := live.ram.sampled.take sample } }.onMailbox
      Mailbox.wake

/-- Sample the monitored lines when it is time. -/
def pollSampler (live : Live) : Live :=
  if live.ram.nextSample ≤ live.now then
    let sampled := live.takeSample live.hardware.sampleLines
    { sampled with ram := { sampled.ram with nextSample := live.ram.nextSample + sampleUs } }
  else
    live

/-- Read the input voltage when it is time. A reading that fails changes nothing. -/
def pollConverter (live : Live) : Live :=
  if live.ram.nextReading ≤ live.now then
    let next := live.ram.nextReading + readingUs
    if live.hardware.converterFails then
      { live with ram := { live.ram with nextReading := next } }
    else
      let volts := (live.hardware.vinReading.toNat : Binary32) * voltsPerStep
      let vin := live.ram.vin.add volts
      let millivolts := (vin.value * ((1000 : Nat) : Binary32)).truncate mostMillivolts
      { live with
        ram := { live.ram with vin := vin, vinMillivolts := millivolts, nextReading := next } }
  else
    live

/-- Look at the power button. -/
def pollButton (live : Live) : Live :=
  let (button, settled) :=
    live.ram.button.poll live.now (live.hardware.inputLevel Pin.button true)
  let seen := { live with ram := { live.ram with button := button } }
  match settled with
  | none => seen
  | some released =>
    { seen with ram := { seen.ram with buttonPressed := !released } }.onMailbox
      fun mailbox => mailbox.powerButton !released

/-- Look at the lid. -/
def pollLid (live : Live) : Live :=
  let (lid, settled) := live.ram.lid.poll live.now (live.hardware.inputLevel Pin.lid true)
  let seen := { live with ram := { live.ram with lid := lid } }
  match settled with
  | none => seen
  | some isOpen => seen.onMailbox fun mailbox => mailbox.lid isOpen

/-- One look at the shutdown timer. -/
def pollTimer (live : Live) : Live := live.onMailbox fun mailbox => mailbox.turnTimer live.now

/-- Every task in its turn. -/
def round (live : Live) : Live :=
  let sampled := live.pollFeeder.pollStore.pollSampler.pollConverter
  pollHost (PowerTask.poll sampled.pollButton.pollLid.pollTimer)

/-- No task has anything to do. -/
def isIdle (live : Live) : Bool :=
  live.now < live.ram.nextFeed && live.ram.changes.toList.isEmpty &&
    live.now < live.ram.nextSample && live.now < live.ram.nextReading &&
    !live.ram.button.isReady live.now && !live.ram.lid.isReady live.now &&
    !live.ram.mailbox.shutdownTimer.isReady live.now && !PowerTask.isReady live &&
    live.ram.transfer.isNone

/-- The times at which a task wants to be looked at. -/
def deadlines (live : Live) : List Nat :=
  let power := match live.ram.power with
    | .sleeping wakeAt _ _ => some wakeAt
    | .watching _ deadline _ _ => some deadline
    | .resting _ _ => none
  [live.ram.nextFeed, live.ram.nextSample, live.ram.nextReading] ++
    [live.ram.button.deadline?, live.ram.lid.deadline?, live.ram.mailbox.shutdownTimer.deadline,
      power].filterMap id

end Live

end RailSequencer.Controller
