import RailSequencer.Proofs.Wiring

/-!
# What the host may write, and what that changes

`Controls` is all that the host has a hand in: the settings, the changes that are on their way to
flash, the mailbox of the power task and the scratch registers. `Controls.Commanded` is the grammar of
its writes. Each form comes with what it does to the controls, cell by cell, and a form leaves alone
what it does not name.

The host bus keeps to this grammar (`controls_follow_grammar`): a write of one of these forms does what
the form says, and nothing else that happens on the bus changes anything but an answer.
-/

namespace RailSequencer.Controller

/-- What the host has a hand in. -/
structure Controls where
  settings : Settings
  changes : ChangeQueue
  mailbox : Mailbox
  scratch : Scratch

namespace Live

def controls (live : Live) : Controls where
  settings := live.ram.settings
  changes := live.ram.changes
  mailbox := live.ram.mailbox
  scratch := live.hardware.scratch

/-- The controller without the controls, and without what the host bus keeps for itself: its answer,
and that it has asked for a reset. -/
def beyondHost (live : Live) : Live where
  hardware := { live.hardware with scratch := {} }
  ram := { live.ram with
    settings := {}
    changes := {}
    mailbox := {}
    answer := none
    restarting := false }

end Live

/-- The revision with this number drives rails only that have a pin here. -/
def CanDrive (version : UInt8) : Prop :=
  ∃ revision, Revision.ofNumber? version.toNat = some revision ∧
    ∀ write ∈ (EdgeTables.ofRevision revision).writes, (pinOf? write.rail).isSome = true

theorem isSome_drivable_iff {version : UInt8} :
    (drivable? version).isSome = true ↔ CanDrive version := by
  have pinned : ∀ revision : Revision, (EdgeTables.ofRevision revision).drivesOnly wiredRails = true ↔
      ∀ write ∈ (EdgeTables.ofRevision revision).writes, (pinOf? write.rail).isSome = true := by
    intro revision
    cases revision <;> decide +kernel
  rw [drivable?, CanDrive]
  cases Revision.ofNumber? version.toNat with
  | none => simp
  | some revision => simp [Option.isSome_filter, pinned]

namespace Controls

/-- The forms of the writes that count, each with all that it changes. Some take any arguments, and
the others exactly those that they name. -/
inductive Commanded (before : Controls) : List UInt8 → Controls → Prop where
  | hardwareVersion (version : UInt8) (drives : CanDrive version) :
      before.Commanded [0x03, version] { before with
        settings := { before.settings with hardwareVersion := version }
        changes := before.changes.send (.hardwareVersion version) }
  | autoPowerOn (enabled : UInt8) :
      before.Commanded [0x14, enabled] { before with
        settings := { before.settings with autoPowerOn := enabled != 0 }
        changes := before.changes.send (.autoPowerOn (enabled != 0)) }
  /-- The hold time of the power button is set here and now, too. -/
  | longPress (high low : UInt8) :
      before.Commanded [0x15, high, low] { before with
        settings := { before.settings with longPressMs := (wordOf high low).toUInt32 }
        changes := before.changes.send (.longPress (wordOf high low).toUInt32)
        mailbox := { before.mailbox with longPressMs := (wordOf high low).toUInt32 } }
  /-- The threshold comes in hundredths of a volt. -/
  | vinThreshold (high low : UInt8) (volts : Binary32)
      (hundredths : volts = ((wordOf high low).toNat : Binary32) / ((100 : Nat) : Binary32)) :
      before.Commanded [0x16, high, low] { before with
        settings := { before.settings with vinThreshold := volts }
        changes := before.changes.send (.vinThreshold volts) }
  /-- A power-on request counts in hard off and on the way there. -/
  | powerOn (arguments : List UInt8) :
      before.Commanded (0x30 :: arguments) { before with
        mailbox :=
          if before.mailbox.published.TakesPowerOn then
            { before.mailbox with powerOnRequested := true, woken := true }
          else
            before.mailbox }
  | forceOff (arguments : List UInt8) :
      before.Commanded (0x31 :: arguments) { before with
        mailbox := { before.mailbox with shutdownRequested := true, woken := true } }
  | reset (kind : UInt8) :
      before.Commanded [0x32, kind] { before with
        mailbox := { before.mailbox with
          resetRequested := some (if kind = 0 then .warm else .cold)
          woken := true } }
  | restart (arguments : List UInt8) :
      before.Commanded (0x40 :: arguments) { before with scratch := ⟨Scratch.jumpMark, 0⟩ }
  | restartOff (arguments : List UInt8) :
      before.Commanded (0x41 :: arguments) { before with scratch := ⟨0, Scratch.keepOffFlag⟩ }

/-- A hold time of two bytes fits its cell. -/
private theorem controls_setLongPress (live : Live) (ms : UInt16) :
    (HostCommand.setLongPress ms |>.execute live).controls = { live.controls with
      settings := { live.ram.settings with longPressMs := ms.toUInt32 }
      changes := live.ram.changes.send (.longPress ms.toUInt32)
      mailbox := { live.ram.mailbox with longPressMs := ms.toUInt32 } } := by
  have fits : UInt32.ofNat ms.toNat = ms.toUInt32 := by simp
  have held : live.ram.mailbox.setLongPress ms.toNat =
      { live.ram.mailbox with longPressMs := ms.toUInt32 } := by
    rw [Mailbox.setLongPress, fits]
  rw [← held]
  rfl

private theorem controls_powerOn (live : Live) :
    (HostCommand.powerOn.execute live).controls = { live.controls with
      mailbox :=
        if live.ram.mailbox.published.TakesPowerOn then
          { live.ram.mailbox with powerOnRequested := true, woken := true }
        else
          live.ram.mailbox } := by
  rw [← Mailbox.requestPowerOn_eq]
  rfl

/-- A form is told by its first byte and the number of its arguments, and then it is parsed as the
command that does what the form says. -/
private theorem commanded_iff {live : Live} {data : List UInt8} {after : Controls} :
    live.controls.Commanded data after ↔ ∃ command arguments accepted,
      data = command :: arguments ∧ HostCommand.parse? command arguments = some accepted ∧
        after = (accepted.execute live).controls := by
  constructor
  · intro commanded
    cases commanded with
    | hardwareVersion version drives =>
      exact ⟨_, _, _, rfl, if_pos (isSome_drivable_iff.mpr drives), rfl⟩
    | vinThreshold high low volts hundredths =>
      subst hundredths
      exact ⟨_, _, _, rfl, rfl, rfl⟩
    | longPress high low =>
      exact ⟨_, _, _, rfl, rfl, (controls_setLongPress live _).symm⟩
    | powerOn arguments => exact ⟨_, _, _, rfl, rfl, (controls_powerOn live).symm⟩
    | autoPowerOn | forceOff | reset | restart | restartOff =>
      exact ⟨_, _, _, rfl, rfl, rfl⟩
  · rintro ⟨command, arguments, accepted, rfl, parsed, rfl⟩
    have code {known : UInt8} (register : command.toNat = known.toNat) : command = known :=
      UInt8.toNat_inj.mp register
    unfold HostCommand.parse? at parsed
    split at parsed
    next version register =>
      obtain rfl := @code 0x03 register
      obtain ⟨drives, carried⟩ := Option.ite_none_right_eq_some.mp parsed
      obtain rfl := Option.some.inj carried
      exact .hardwareVersion version (isSome_drivable_iff.mp drives)
    next enabled register =>
      obtain rfl := @code 0x14 register
      obtain rfl := Option.some.inj parsed
      exact .autoPowerOn enabled
    next high low register =>
      obtain rfl := @code 0x15 register
      obtain rfl := Option.some.inj parsed
      rw [controls_setLongPress]
      exact .longPress high low
    next high low register =>
      obtain rfl := @code 0x16 register
      obtain rfl := Option.some.inj parsed
      exact .vinThreshold high low _ rfl
    next register =>
      obtain rfl := @code 0x30 register
      obtain rfl := Option.some.inj parsed
      rw [controls_powerOn]
      exact .powerOn _
    next register =>
      obtain rfl := @code 0x31 register
      obtain rfl := Option.some.inj parsed
      exact .forceOff _
    next kind register =>
      obtain rfl := @code 0x32 register
      obtain rfl := Option.some.inj parsed
      exact .reset kind
    next register =>
      obtain rfl := @code 0x40 register
      obtain rfl := Option.some.inj parsed
      exact .restart _
    next register =>
      obtain rfl := @code 0x41 register
      obtain rfl := Option.some.inj parsed
      exact .restartOff _
    next => exact absurd parsed nofun

end Controls

/-- A transfer carries a command if it is a write that fits and is parsed. -/
theorem Transfer.command?_eq_some_iff {transfer : Transfer} {accepted : HostCommand} :
    transfer.command? = some accepted ↔ ∃ command arguments,
      transfer = .write (command :: arguments) ∧ arguments.length + 1 < transferLimit ∧
        HostCommand.parse? command arguments = some accepted := by
  constructor
  · intro carries
    unfold command? at carries
    split at carries
    next command arguments =>
      obtain ⟨fits, parsed⟩ := Option.ite_none_right_eq_some.mp carries
      exact ⟨command, arguments, rfl, fits, parsed⟩
    next => exact absurd carries nofun
  · rintro ⟨command, arguments, rfl, fits, parsed⟩
    exact (if_pos fits).trans parsed

/-- No command reaches beyond the controls. -/
theorem HostCommand.beyondHost_execute (live : Live) (command : HostCommand) :
    (command.execute live).beyondHost = live.beyondHost := by
  cases command <;> rfl

/-- The host bus accepts exactly its grammar. Whatever state the controller is in and whatever comes
on the bus, nothing changes but the controls, the answer, and whether a reset is asked for. A write of
fewer bytes than the limit that is of one of the forms changes the controls as the form says. With
every other write, and with a read, a general call or an error of the bus, the whole controller stays
as it is, but for the answer. -/
theorem controls_follow_grammar (live : Live) (transfer : Transfer) :
    (dealWith live transfer).beyondHost = live.beyondHost ∧
    (∀ data, transfer = .write data → data.length < transferLimit → ∀ after,
      live.controls.Commanded data after → (dealWith live transfer).controls = after) ∧
    ((∀ data, transfer = .write data → data.length < transferLimit → ∀ after,
        ¬live.controls.Commanded data after) →
      ∃ answer, dealWith live transfer = { live with ram := { live.ram with answer := answer } }) := by
  rcases live.dealWith_cases transfer with ⟨accepted, carries, executed⟩ | ⟨carries, answer, same⟩
  · obtain ⟨command, arguments, rfl, fits, parsed⟩ := Transfer.command?_eq_some_iff.mp carries
    have commanded : live.controls.Commanded (command :: arguments)
        (accepted.execute live).controls :=
      Controls.commanded_iff.mpr ⟨command, arguments, accepted, rfl, parsed, rfl⟩
    rw [executed]
    refine ⟨accepted.beyondHost_execute live, ?_, fun other => absurd commanded (other _ rfl fits _)⟩
    rintro _ ⟨⟩ - after otherwise
    obtain ⟨_, _, same, split, again, rfl⟩ := Controls.commanded_iff.mp otherwise
    obtain ⟨rfl, rfl⟩ := List.cons.inj split
    obtain rfl := Option.some.inj (parsed.symm.trans again)
    rfl
  · rw [same]
    refine ⟨rfl, ?_, fun _ => ⟨answer, rfl⟩⟩
    rintro data rfl fits after commanded
    obtain ⟨command, arguments, accepted, rfl, parsed, rfl⟩ := Controls.commanded_iff.mp commanded
    have carried := Transfer.command?_eq_some_iff.mpr ⟨command, arguments, rfl, fits, parsed⟩
    exact absurd (carries.symm.trans carried) nofun

/-- A controller that has just powered up takes a hold time of a second in two bytes. One in a single
byte changes nothing, and neither does a forced shutdown with too many arguments. -/
theorem controls_follow_grammar_holdTime :
    let live := boot {} .power
    (dealWith live (.write [0x15, 0x03, 0xe8])).controls.mailbox.longPressMs = 1000 ∧
      (∃ answer, dealWith live (.write [0x15, 0x03]) =
        { live with ram := { live.ram with answer := answer } }) ∧
      ∃ answer, dealWith live (.write (0x31 :: List.replicate 15 0)) =
        { live with ram := { live.ram with answer := answer } } := by
  intro live
  have taken := (controls_follow_grammar live (.write [0x15, 0x03, 0xe8])).2.1 _ rfl (by decide) _
    (.longPress 0x03 0xe8)
  refine ⟨congrArg (·.mailbox.longPressMs) taken, ?_, ?_⟩
  · apply (controls_follow_grammar live (.write [0x15, 0x03])).2.2
    rintro _ ⟨⟩ - after commanded
    cases commanded
  · apply (controls_follow_grammar live _).2.2
    rintro _ ⟨⟩ fits
    exact absurd fits (by decide)

end RailSequencer.Controller
