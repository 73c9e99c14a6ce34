import RailSequencer.Sequencer

/-!
# Restarts of the controller

Two scratch registers survive every reset short of a power cycle. They carry one request from
the controller to its next boot, which reads and clears them; the request counts only when the
reset was one that the controller forced itself.
-/

namespace RailSequencer.Controller

/-- Why the controller came out of reset. -/
inductive ResetReason where
  | power
  | timeout
  | forced
deriving DecidableEq, Repr

/-- The registers that survive a reset. -/
structure Scratch where
  jump : UInt32 := 0
  flags : UInt32 := 0
deriving DecidableEq, Repr

namespace Scratch

/-- Marks a restart with the processor left running. -/
def jumpMark : UInt32 := 0x45434a4d

/-- Marks a restart after which the processor stays off. -/
def keepOffFlag : UInt32 := 1

/-- What a warm restart leaves behind. -/
def warmRestart : Scratch := ⟨jumpMark, 0⟩

/-- What a restart leaves behind after which the processor stays off. -/
def restartOff : Scratch := ⟨0, keepOffFlag⟩

/-- What a boot learns from the registers. -/
def bootInfo (scratch : Scratch) (reason : ResetReason) (autoPowerOn : Bool) : BootInfo where
  jumped := reason = .forced && scratch.jump = jumpMark
  keepOff := reason = .forced && scratch.flags &&& keepOffFlag ≠ 0
  autoPowerOn := autoPowerOn

end Scratch

end RailSequencer.Controller
