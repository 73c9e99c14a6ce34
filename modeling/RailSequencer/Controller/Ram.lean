import RailSequencer.Controller.Hardware
import RailSequencer.Controller.SampledLines
import RailSequencer.Sequencer
import RailSequencer.SlidingAverage
import RailSequencer.Switch

/-!
# The state of a running controller

`Ram` is what the running program keeps, one part for each of its tasks, and `Live` is that
memory together with the hardware around it. A task that waits keeps what it waits for as a value, so
whether it has something to do is a question about the state.
-/

namespace RailSequencer.Controller

/-- The power task while it waits. -/
inductive PowerTask where
  | sleeping (wakeAt : Nat) (memory : Memory) (resume : Mailbox → Task Turn)
  /-- Waiting for input lines, until they are all asserted or the deadline has passed. -/
  | watching (wanted : SignalMask) (deadline : Nat) (memory : Memory)
      (resume : Mailbox → Except PowerError Unit → Task Turn)
  /-- Nothing to do until it is woken. -/
  | resting (memory : Memory) (state : PowerState)

/-- A transfer on the host bus, seen from the controller. -/
inductive Transfer where
  | write (data : List UInt8)
  /-- The host writes, and then reads `count` bytes. -/
  | writeRead (data : List UInt8) (count : Nat)
  | read (count : Nat)
  | generalCall (data : List UInt8)
  | busError
deriving DecidableEq, Repr

/-- What the running program keeps. -/
structure Ram where
  settings : Settings
  changes : ChangeQueue := {}
  mailbox : Mailbox
  sampled : SampledLines
  nextSample : Nat
  vin : SlidingAverage Binary32 := .empty
  /-- The averaged input voltage. -/
  vinMillivolts : Nat := 0
  nextReading : Nat
  button : Switch
  buttonPressed : Bool := false
  lid : Switch
  idleAllowed : Bool := true
  /-- Times that the watchdog was fed. -/
  feeds : Nat := 0
  nextFeed : Nat
  /-- The level of every pin that is set up as an output. -/
  outputs : PinMap (Option Level) := .constant none
  /-- The power tree that was chosen at boot. -/
  tree : PowerTree
  /-- The voltage threshold that the power task took at boot. -/
  threshold : Binary32
  power : PowerTask
  /-- A transfer that the controller has not seen yet. -/
  transfer : Option Transfer := none
  /-- The answer to the last transfer. -/
  answer : Option (List UInt8) := none
  /-- The program has asked for a reset of the controller. -/
  restarting : Bool := false

/-- The running program with the hardware around it. -/
structure Live where
  hardware : Hardware
  ram : Ram

namespace Live

def now (live : Live) : Nat := live.hardware.now

def onMailbox (live : Live) (change : Mailbox → Mailbox) : Live :=
  { live with ram := { live.ram with mailbox := change live.ram.mailbox } }

/-- Drive an output pin. -/
def drive (live : Live) (pin : Pin) (level : Level) : Live where
  hardware := live.hardware.drive pin level
  ram := { live.ram with outputs := live.ram.outputs.set pin (some level) }

/-- Drive every USB power switch to one level. -/
def driveUsb (live : Live) (level : Level) : Live :=
  usbSwitches.foldl (fun current switch => current.drive switch level) live

/-- Change a setting: the working copy at once, and the stored one in its turn. -/
def changeSetting (live : Live) (change : SettingChange) : Live :=
  { live with
    ram := { live.ram with
      settings := live.ram.settings.change change
      changes := live.ram.changes.send change } }

/-- Change a setting without waiting for the store. With no room for the change, it reaches
the working copy only. -/
def offerSetting (live : Live) (change : SettingChange) : Live :=
  { live with
    ram := { live.ram with
      settings := live.ram.settings.change change
      changes := live.ram.changes.offer change } }

end Live

/-- The averaged input voltage in volts. -/
def Ram.volts (ram : Ram) : Binary32 :=
  (ram.vinMillivolts : Binary32) / ((1000 : Nat) : Binary32)

end RailSequencer.Controller
