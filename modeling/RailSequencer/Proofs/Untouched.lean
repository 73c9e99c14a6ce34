import RailSequencer.Controller.Boot
import RailSequencer.Proofs.Exchange

/-!
# What the power task leaves alone

However far the power task goes on at a look, it has its own part of the state: the pins, its mailbox,
the slot of the sampled lines, whether idling is allowed, and what it waits for. `Live.untouched` is a
controller without these, and none of its answers changes it. So what the charger and the button say
stays the same as far as the power task goes on (`Live.tells_of_untouched`).
-/

namespace RailSequencer.Controller

namespace Live

/-- The controller without all that the power task writes. -/
def untouched (live : Live) : Live where
  hardware := { live.hardware with held := .constant false, writes := [] }
  ram := { live.ram with
    mailbox := {}
    sampled := {}
    idleAllowed := true
    outputs := .constant none
    power := .resting {} .g3 }

theorem untouched_drivePins {ι : Type} (live : Live) (items : List ι) (pinOf : ι → Pin)
    (levelOf : ι → Level) :
    (items.foldl (fun current item => current.drive (pinOf item) (levelOf item)) live).untouched =
      live.untouched := by
  induction items generalizing live with
  | nil => rfl
  | cons item rest inductionHypothesis =>
    exact inductionHypothesis (live.drive (pinOf item) (levelOf item))

theorem untouched_driveUsb (live : Live) (level : Level) :
    (live.driveUsb level).untouched = live.untouched :=
  live.untouched_drivePins usbSwitches id fun _ => level

theorem untouched_setUpOutputs (live : Live) (levels : RailAssignment Level) (usb : Level) :
    (live.setUpOutputs levels usb).untouched = live.untouched :=
  (untouched_driveUsb _ usb).trans
    (live.untouched_drivePins wiring Prod.snd fun wire => levels.get wire.1)

theorem untouched_answerAtOnce (live : Live) (request : Request) :
    (live.answerAtOnce request).1.untouched = live.untouched := by
  cases request with
  | drive rail level =>
    simp only [answerAtOnce, driveRail]
    split
    · rfl
    · rfl
  | notify event =>
    cases event with
    | startup => exact live.untouched_driveUsb .high
    | shutdown => exact live.untouched_driveUsb .low
    | resume | suspend => rfl
  | powerOnBlocked | shutdownWanted => simp only [answerAtOnce]
  | _ => rfl

/-- What the charger and the button answer, from what has been measured and seen. -/
def Tells (live : Live) : Exchange → Prop
  | ⟨.powerOnBlocked, _, blocked⟩ => blocked = live.ram.volts.lt live.ram.threshold
  | ⟨.shutdownWanted, _, wanted⟩ => wanted = live.ram.volts.lt criticalVolts
  | ⟨.buttonPressed, _, pressed⟩ => pressed = live.ram.buttonPressed
  | _ => True

theorem tells_answerAtOnce (live : Live) (request : Request) (calls : List Mailbox.Call) :
    live.Tells ⟨request, calls, (live.answerAtOnce request).2⟩ := by
  cases request with
  | powerOnBlocked | shutdownWanted | buttonPressed => rfl
  | _ => trivial

/-- The answers depend on nothing that the power task writes. -/
theorem tells_of_untouched {live after : Live} (same : after.untouched = live.untouched) :
    after.Tells = live.Tells := by
  have told : after.untouched.Tells = live.untouched.Tells := congrArg Tells same
  exact told

/-- It takes no time. -/
theorem now_of_untouched {live after : Live} (same : after.untouched = live.untouched) :
    after.now = live.now := by
  have told : after.untouched.now = live.untouched.now := congrArg now same
  exact told

end Live

end RailSequencer.Controller
