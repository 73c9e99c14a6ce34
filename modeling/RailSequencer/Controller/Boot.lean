import RailSequencer.Controller.Tasks

/-!
# Booting the controller

A boot takes no time up to the first delay of the power task. It reads the settings, takes
what the last run left in the scratch registers, and starts every task in turn. The outputs
are set up where they rest: with the processor running when it was left running and every
input still says so, and hard off otherwise.
-/

namespace RailSequencer.Controller

namespace Live

/-- Set up every output at its level. -/
def setUpOutputs (live : Live) (levels : RailAssignment Level) (usb : Level) : Live :=
  (wiring.foldl (fun current wire => current.drive wire.2 (levels.get wire.1)) live).driveUsb usb

end Live

/-- The hardware as a boot finds it. A power cycle clears the scratch registers and what the
supplies remember. -/
def Hardware.afterReset (hardware : Hardware) : ResetReason → Hardware
  | .power => { hardware with scratch := {} }.forgetHeld
  | .timeout | .forced => hardware

/-- Start the program after a reset, where settings under some keys cannot be read. -/
def bootWith (fails : SettingKey → Bool) (before : Hardware) (reason : ResetReason) : Live :=
  let reset := before.afterReset reason
  let settings := reset.flash.load fails
  let info := reset.scratch.bootInfo reason settings.autoPowerOn
  let hardware := { reset with scratch := {} }
  let lines := hardware.sampleLines
  let tree := PowerTree.ofRevision (runningRevision settings.hardwareVersion)
  let resumes := info.jumped && lines.contains tree.allS0
  let mailbox := (Mailbox.wake {}).setLongPress settings.longPressMs.toNat
  let ram : Ram :=
    { settings := settings
      mailbox := mailbox
      sampled := ⟨lines, true⟩
      nextSample := hardware.now + sampleUs
      nextReading := hardware.now + readingUs
      button := { accepted := hardware.inputLevel Pin.button true }
      lid := { accepted := hardware.inputLevel Pin.lid true }
      nextFeed := hardware.now + feedUs
      tree := tree
      threshold := settings.vinThreshold
      power := .resting {} .g3 }
  let ready := Live.setUpOutputs ⟨hardware, ram⟩ (tree.tables.restingLevels resumes)
    (.ofBool resumes)
  PowerTask.launch ready info

/-- Start the program after a reset. While flash fails no setting can be read. -/
def boot (before : Hardware) (reason : ResetReason) : Live :=
  bootWith (fun _ => (before.afterReset reason).flashFails) before reason

/-- A reset that the program asked for is counted. -/
def Hardware.countReset (hardware : Hardware) : Hardware :=
  { hardware with forcedResets := hardware.forcedResets + 1 }

/-- Carry out the reset that the program asked for. -/
def reboot (live : Live) : Live := boot live.hardware.countReset .forced

namespace Live

/-- Rounds after which the tasks are at rest. A task that has something to do is looked at in
the same round or the next, and hands on to a few others at most. -/
def roundsToRest : Nat := 64

/-- Take rounds until no task has anything to do. A reset that the program asks for happens
at once. -/
def settle (live : Live) : Live := takeRounds roundsToRest live
where
  takeRounds : Nat → Live → Live
    | 0, current => current
    | rest + 1, current =>
      if current.isIdle then current
      else
        let next := current.round
        takeRounds rest (if next.ram.restarting then reboot next else next)

end Live

end RailSequencer.Controller
