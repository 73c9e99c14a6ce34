import RailSequencer.Controller.Ram

/-!
# The host bus

The host writes commands and reads registers over a bus on which the controller is the
secondary. A write is parsed into a `HostCommand`, or has no effect at all; a read never has
one.
-/

namespace RailSequencer.Controller

/-- The address of the controller on the bus. -/
def hostAddress : Nat := 109

/-- The version of the controller's program: major, minor, patch, and 255 for a release. -/
def programVersion : List UInt8 := [0, 1, 0, 255]

/-- Full scale of the input voltage, in volts. -/
def fullScaleVolts : Binary32 := (40 : Nat)

/-- Bytes of the longest transfer, which is one more than the controller takes. -/
def transferLimit : Nat := 16

/-- What the host can tell the controller. -/
inductive HostCommand where
  | changeSetting (change : SettingChange)
  /-- Set the hold time of the power button, here and now and in the settings. -/
  | setLongPress (ms : UInt16)
  | powerOn
  | forceOff
  | reset (kind : ResetKind)
  /-- Restart the controller and leave the processor running. -/
  | restart
  /-- Restart the controller and keep the processor off. -/
  | restartOff
deriving DecidableEq, Repr

/-- Two bytes, the high one first. -/
def wordOf (high low : UInt8) : UInt16 := UInt16.ofNat (high.toNat * 256 + low.toNat)

/-- The bytes of a 16-bit number, the high one first. -/
def wordBytes (word : Nat) : List UInt8 := [UInt8.ofNat (word / 256), UInt8.ofNat word]

/-- The bytes of a mask, the high one first. -/
def maskBytes (mask : SignalMask) : List UInt8 :=
  let bits := mask.bits.toNat
  wordBytes (bits / 65536) ++ wordBytes (bits % 65536)

namespace HostCommand

/-- The command that a write carries, if it carries one. A revision that this board cannot
drive is no command. -/
def parse? (command : UInt8) (arguments : List UInt8) : Option HostCommand :=
  match command.toNat, arguments with
  | 0x03, [version] =>
    if (drivable? version).isSome then some (.changeSetting (.hardwareVersion version)) else none
  | 0x14, [enabled] => some (.changeSetting (.autoPowerOn (enabled != 0)))
  | 0x15, [high, low] => some (.setLongPress (wordOf high low))
  | 0x16, [high, low] =>
    some (.changeSetting (.vinThreshold
      (((wordOf high low).toNat : Binary32) / ((100 : Nat) : Binary32))))
  | 0x30, _ => some .powerOn
  | 0x31, _ => some .forceOff
  | 0x32, [cold] => some (.reset (if cold = 0 then .warm else .cold))
  | 0x40, _ => some .restart
  | 0x41, _ => some .restartOff
  | _, _ => none

/-- Leave a request to the next boot and ask for the reset. -/
def askRestart (live : Live) (scratch : Scratch) : Live where
  hardware := { live.hardware with scratch := scratch }
  ram := { live.ram with restarting := true }

/-- Carry out a command. -/
def execute (live : Live) : HostCommand → Live
  | .changeSetting change => live.changeSetting change
  | .setLongPress ms =>
    (live.onMailbox fun mailbox => mailbox.setLongPress ms.toNat).changeSetting
      (.longPress ms.toUInt32)
  | .powerOn => live.onMailbox Mailbox.requestPowerOn
  | .forceOff => live.onMailbox Mailbox.requestShutdown
  | .reset kind => live.onMailbox fun mailbox => mailbox.requestReset kind
  | .restart => askRestart live Scratch.warmRestart
  | .restartOff => askRestart live Scratch.restartOff

end HostCommand

/-- The bytes of a register, if there is such a register. -/
def register? (ram : Ram) (register : UInt8) : Option (List UInt8) :=
  match register.toNat with
  | 0x03 => some [ram.settings.hardwareVersion]
  | 0x04 => some programVersion
  | 0x10 => some [UInt8.ofNat ram.mailbox.published.code]
  | 0x11 => some [UInt8.ofNat ram.mailbox.published.activity.code]
  | 0x12 => some (maskBytes ram.sampled.lines)
  | 0x13 => some [if ram.mailbox.inhibited then 1 else 0]
  | 0x14 => some [if ram.settings.autoPowerOn then 1 else 0]
  | 0x15 => some (wordBytes (min ram.settings.longPressMs.toNat 65535))
  | 0x16 => some (wordBytes
      ((((100 : Nat) : Binary32) * ram.settings.vinThreshold).truncate 65535))
  | 0x20 => some (wordBytes
      ((((65535 : Nat) : Binary32) * ram.volts / fullScaleVolts).truncate 65535))
  | _ => none

/-- Exactly `count` bytes of an answer: zeros follow a short one, and a long one is cut. -/
def fit (count : Nat) (bytes : List UInt8) : List UInt8 :=
  (bytes ++ List.replicate count 0).take count

/-- What the host gets when the controller answers with `bytes`. -/
def respond (live : Live) (bytes : Option (List UInt8)) : Live :=
  { live with ram := { live.ram with answer := if live.hardware.hostFails then none else bytes } }

/-- Deal with one transfer. A transfer of too many bytes is an error of the bus. -/
def dealWith (live : Live) : Transfer → Live
  | .write (command :: arguments) =>
    if arguments.length + 1 < transferLimit then
      match HostCommand.parse? command arguments with
      | some accepted => accepted.execute live
      | none => live
    else
      live
  | .writeRead (command :: arguments) count =>
    if arguments.length + 1 < transferLimit then
      respond live ((register? live.ram command).map (fit count))
    else
      live
  | .read count =>
    respond live (some (List.replicate count (UInt8.ofNat live.ram.mailbox.published.code)))
  | .write [] | .writeRead [] _ | .generalCall _ | .busError => live

/-- One look at the host bus. -/
def pollHost (live : Live) : Live :=
  match live.ram.transfer with
  | none => live
  | some transfer =>
    dealWith { live with ram := { live.ram with transfer := none } } transfer

end RailSequencer.Controller
