import RailSequencer.Controller.Pins
import RailSequencer.Controller.Restart
import RailSequencer.Controller.Settings

/-!
# The hardware around the controller

What outlives the program of the controller: the clock, the levels on its inputs, what the
supplies remember of their enables, the converter, the flash and the scratch registers.
-/

namespace RailSequencer.Controller

/-- A write of an output pin. -/
structure PinWrite where
  nowMs : Nat
  pin : Pin
  level : Level
deriving DecidableEq, Repr

/-- The hardware around the controller. -/
structure Hardware where
  now : Nat := 0
  /-- Levels forced onto inputs from outside. -/
  forced : PinMap (Option Bool) := .constant none
  /-- Power-good inputs follow the enables of their supplies. -/
  autoPowerGood : Bool := true
  /-- The level last driven on each output since power came on. -/
  held : PinMap Bool := .constant false
  /-- What the converter reads on the input voltage. -/
  vinReading : UInt16 := 0
  converterFails : Bool := false
  flash : Flash := {}
  flashFails : Bool := false
  /-- Answers to the host fail. -/
  hostFails : Bool := false
  scratch : Scratch := {}
  /-- Resets that the controller forced. -/
  forcedResets : Nat := 0
  /-- Writes of output pins, newest first. -/
  writes : List PinWrite := []

namespace Hardware

/-- The level on an input with a given pull: a forced level first, then the supply that the
line watches, then the pull. -/
def inputLevel (hardware : Hardware) (pin : Pin) (pulledUp : Bool) : Bool :=
  match hardware.forced.get pin with
  | some level => level
  | none =>
    match supplyOf? pin with
    | some enable => if hardware.autoPowerGood then hardware.held.get enable else pulledUp
    | none => pulledUp

/-- The monitored lines, all pulled down. -/
def sampleLines (hardware : Hardware) : SignalMask :=
  monitored.foldl
    (fun seen line => if hardware.inputLevel line.1 false then seen.union line.2 else seen)
    .empty

/-- An output pin is driven. -/
def drive (hardware : Hardware) (pin : Pin) (level : Level) : Hardware :=
  { hardware with
    held := hardware.held.set pin level.isHigh
    writes := ⟨hardware.now / Timing.usPerMs, pin, level⟩ :: hardware.writes }

/-- What the supplies remember is lost. -/
def forgetHeld (hardware : Hardware) : Hardware :=
  { hardware with held := .constant false }

/-- Store a changed setting, unless the flash fails. -/
def storeSetting (hardware : Hardware) (change : SettingChange) : Hardware :=
  if hardware.flashFails then hardware
  else { hardware with flash := hardware.flash.store change }

end Hardware

end RailSequencer.Controller
