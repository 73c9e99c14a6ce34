import RailSequencer.Proofs.StoreOutcomes

/-!
# A controller without its flash

Once it is up the program never reads flash back: what it works with are its own copies, and whether a
change could be stored makes no difference to it. So a controller without its flash
(`Live.flashless`) does all that it does with it. Every task is told this way by one equation, the power
task by an induction over what is left of its programs, and a round is then the same without flash,
whatever it has stored (`Live.RoundsTo.flashless`).
-/

namespace RailSequencer.Controller

/-- The hardware with a flash that takes nothing. -/
def Hardware.flashless (hardware : Hardware) : Hardware :=
  { hardware with flash := ⟨false, []⟩, flashFails := true }

namespace Live

/-- The controller with such a flash. -/
def flashless (live : Live) : Live := { live with hardware := live.hardware.flashless }

@[simp]
theorem flashless_ram (live : Live) : live.flashless.ram = live.ram := rfl

@[simp]
theorem flashless_now (live : Live) : live.flashless.now = live.now := rfl

theorem flashless_drivePins {ι : Type} (live : Live) (items : List ι) (pinOf : ι → Pin)
    (levelOf : ι → Level) :
    (items.foldl (fun current item => current.drive (pinOf item) (levelOf item)) live).flashless =
      items.foldl (fun current item => current.drive (pinOf item) (levelOf item))
        live.flashless := by
  induction items generalizing live with
  | nil => rfl
  | cons item rest inductionHypothesis =>
    exact inductionHypothesis (live.drive (pinOf item) (levelOf item))

theorem flashless_driveUsb (live : Live) (level : Level) :
    (live.driveUsb level).flashless = live.flashless.driveUsb level :=
  live.flashless_drivePins usbSwitches id fun _ => level

theorem flashless_setUpOutputs (live : Live) (levels : RailAssignment Level) (usb : Level) :
    (live.setUpOutputs levels usb).flashless = live.flashless.setUpOutputs levels usb := by
  rw [setUpOutputs, flashless_driveUsb, flashless_drivePins]
  rfl

/-- No answer to the power task comes from flash. -/
theorem flashless_answerAtOnce (live : Live) (request : Request) :
    live.flashless.answerAtOnce request =
      ((live.answerAtOnce request).1.flashless, (live.answerAtOnce request).2) := by
  cases request with
  | drive rail level =>
    simp only [answerAtOnce, driveRail]
    split <;> rfl
  | notify event =>
    cases event with
    | startup => exact congrArg (·, ()) (live.flashless_driveUsb .high).symm
    | shutdown => exact congrArg (·, ()) (live.flashless_driveUsb .low).symm
    | resume | suspend => rfl
  | _ => rfl

end Live

namespace PowerTask

open Live

theorem flashless_proceed (task : Task Turn) (live : Live) :
    proceed task live.flashless = (proceed task live).map flashless id := by
  -- The induction is on what is left to do: an answer is the same without flash, and so is the rest.
  induction task generalizing live with
  | done memory turn => rfl
  | ask memory request resume inductionHypothesis =>
    cases immediate : answersAtOnce request with
    | true =>
      have answered := (live.handOver memory).flashless_answerAtOnce request
      have handed : (live.handOver memory).flashless = live.flashless.handOver memory := rfl
      rw [handed] at answered
      rw [proceed_ask immediate, proceed_ask immediate, answered]
      exact inductionHypothesis _ _ _
    | false =>
      cases request with
      | sleep us => rfl
      | waitForLines wanted timeoutUs =>
        cases looked : live.ram.sampled.look wanted with
        | mk sampled result =>
          cases result with
          | none =>
            rw [proceed, proceed, flashless_ram, looked]
            rfl
          | some result =>
            have again : live.flashless.ram.sampled.look wanted = (sampled, some result) := looked
            rw [proceed_wait looked, proceed_wait again]
            exact inductionHypothesis _ _ ((live.handOver memory).keepSampled sampled)
      | _ => exact absurd immediate.symm Bool.false_ne_true

theorem flashless_serve (turns : Nat) (progress : Live × Progress) :
    serve turns (progress.map flashless id) = (serve turns progress).map flashless id := by
  induction turns generalizing progress with
  | zero =>
    obtain ⟨live, waits⟩ := progress
    rcases waits with ⟨memory, state | state⟩ | task <;> rfl
  | succ turns inductionHypothesis =>
    obtain ⟨live, waits⟩ := progress
    rcases waits with ⟨memory, state | state⟩ | task
    · change serve turns (proceed (beginTurn live memory state) live.flashless) = _
      rw [flashless_proceed]
      exact inductionHypothesis _
    · let taken := live.onMailbox fun mailbox => { mailbox with woken := false }
      change (if live.ram.mailbox.woken then
          serve turns (proceed (beginTurn taken memory state) taken.flashless)
        else (live.flashless, resting memory state)) = Prod.map flashless id
          (if live.ram.mailbox.woken then serve turns (proceed (beginTurn taken memory state) taken)
          else (live, resting memory state))
      rw [apply_ite (Prod.map flashless id), ← inductionHypothesis, flashless_proceed]
      rfl
    · rfl

theorem flashless_putAway (progress : Live × PowerTask) :
    (putAway progress).flashless = putAway (progress.map flashless id) := rfl

/-- What the power task has taken on is put away where it waits. -/
theorem flashless_taken (task : Task Turn) (live : Live) :
    (putAway (serve turnsAtOnce (proceed task live))).flashless =
      putAway (serve turnsAtOnce (proceed task live.flashless)) := by
  rw [flashless_putAway, ← flashless_serve, flashless_proceed]

theorem flashless_poll (live : Live) : (poll live).flashless = poll live.flashless := by
  have ready : isReady live.flashless = isReady live := rfl
  rw [poll, poll, ready, flashless_ram]
  split
  next =>
    cases live.ram.power with
    | sleeping wakeAt memory resume => exact flashless_taken _ live
    | watching wanted deadline memory resume =>
      simp only [flashless_now]
      cases live.ram.sampled.lookAgain wanted deadline live.now with
      | mk sampled result =>
        cases result with
        | none => rfl
        | some result => exact flashless_taken _ (live.keepSampled sampled)
    | resting memory state =>
      have served := flashless_serve turnsAtOnce (live, .ended memory (.rest state))
      exact congrArg putAway served.symm
  next => rfl

theorem flashless_launch (live : Live) (info : BootInfo) :
    (launch live info).flashless = launch live.flashless info := flashless_taken _ live

end PowerTask

namespace Live

/-! Every task but the store does without flash what it does with it. -/

theorem flashless_pollFeeder (live : Live) :
    live.pollFeeder.flashless = live.flashless.pollFeeder :=
  apply_ite flashless _ _ _

/-- Whatever flash takes, the changes no longer wait. -/
theorem flashless_storing (live : Live) (taken : List SettingChange) :
    (live.storing taken).flashless = live.flashless.pollStore := by
  rw [pollStore_eq, storeAll_eq_store]
  rfl

theorem flashless_takeSample (live : Live) (sample : SignalMask) :
    (live.takeSample sample).flashless = live.flashless.takeSample sample :=
  apply_ite flashless _ _ _

theorem flashless_pollSampler (live : Live) :
    live.pollSampler.flashless = live.flashless.pollSampler := by
  have lines : live.flashless.hardware.sampleLines = live.hardware.sampleLines := rfl
  rw [pollSampler, pollSampler, lines, ← flashless_takeSample]
  exact apply_ite flashless _ _ _

theorem flashless_pollConverter (live : Live) :
    live.pollConverter.flashless = live.flashless.pollConverter := by
  simp only [pollConverter, apply_ite flashless]
  rfl

theorem flashless_pollButton (live : Live) :
    live.pollButton.flashless = live.flashless.pollButton := by
  have level : live.flashless.hardware.inputLevel Pin.button true =
      live.hardware.inputLevel Pin.button true := rfl
  simp only [pollButton, level, flashless_ram, flashless_now]
  split <;> rfl

theorem flashless_pollLid (live : Live) : live.pollLid.flashless = live.flashless.pollLid := by
  have level : live.flashless.hardware.inputLevel Pin.lid true =
      live.hardware.inputLevel Pin.lid true := rfl
  simp only [pollLid, level, flashless_ram, flashless_now]
  split <;> rfl

theorem flashless_pollTimer (live : Live) :
    live.pollTimer.flashless = live.flashless.pollTimer := rfl

/-- The host is answered from what the program keeps. -/
theorem flashless_dealWith (live : Live) (transfer : Transfer) :
    (dealWith live transfer).flashless = dealWith live.flashless transfer := by
  cases transfer with
  | write data =>
    cases data with
    | nil => rfl
    | cons command arguments =>
      simp only [dealWith, apply_ite flashless]
      cases HostCommand.parse? command arguments with
      | none => rfl
      | some accepted => cases accepted <;> rfl
  | writeRead data count =>
    cases data with
    | nil => rfl
    | cons command arguments => exact apply_ite flashless _ _ _
  | read | generalCall | busError => rfl

theorem flashless_pollHost (live : Live) :
    (pollHost live).flashless = pollHost live.flashless := by
  rw [pollHost, pollHost, flashless_ram]
  cases live.ram.transfer with
  | none => rfl
  | some transfer => exact flashless_dealWith _ transfer

theorem flashless_afterStore (live : Live) :
    live.afterStore.flashless = live.flashless.afterStore := by
  simp only [afterStore, flashless_pollHost, PowerTask.flashless_poll, flashless_pollTimer,
    flashless_pollLid, flashless_pollButton, flashless_pollConverter, flashless_pollSampler]

/-- Whatever is stored in a round, without flash it is the same round. -/
theorem RoundsTo.flashless {live left : Live} (taken : live.RoundsTo left) :
    left.flashless = live.flashless.round := by
  obtain ⟨stored, -, rfl⟩ := taken
  rw [flashless_afterStore, flashless_storing, flashless_pollFeeder]
  rfl

end Live

/-- Hardware that is the same without flash has a flash of its own at most. -/
theorem Hardware.eq_of_flashless {before other : Hardware}
    (same : before.flashless = other.flashless) :
    other = { before with flash := other.flash, flashFails := other.flashFails } := by
  cases before
  cases other
  simp only [flashless, Hardware.mk.injEq] at same ⊢
  simp [same]

/-- Boots that have read the same settings back leave the same, but for flash. -/
theorem flashless_boot {before other : Hardware} {reason : ResetReason}
    (same : before.flashless = other.flashless)
    (loaded : before.settingsAt reason = other.settingsAt reason) :
    (boot before reason).flashless = (boot other reason).flashless := by
  rw [Hardware.eq_of_flashless same] at loaded ⊢
  simp only [Hardware.settingsAt] at loaded
  simp only [boot, bootWith, PowerTask.flashless_launch, Live.flashless_setUpOutputs, ← loaded]
  cases reason <;> rfl

end RailSequencer.Controller
