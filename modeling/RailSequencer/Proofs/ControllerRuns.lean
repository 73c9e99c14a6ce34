import RailSequencer.Proofs.PowerTask
import RailSequencer.Proofs.Sessions

/-!
# Runs of the controller

Whatever is done in a session, all that happens to a running controller is that one of its tasks is
looked at, or that something comes from outside: `Live.Happens` lists what that can be, and
`Live.Since` is any number of such things after a boot. A session knows nothing else
(`Session.sinceBoot_executeAll`), so what holds after every boot and is kept by everything that
happens holds always.

The power task is the only one that drives rails, and it keeps to a run of the loop:
`Live.onRun_boot` begins it, and `Live.Since.onRun` carries it on.
-/

namespace RailSequencer.Controller

namespace Live

/-- Store the changes of a queue, the oldest first. -/
def storeAll (hardware : Hardware) (queue : ChangeQueue) : Hardware :=
  queue.toList.foldl Hardware.storeSetting hardware

/-- A store that fails takes nothing, and one that works takes everything. -/
theorem storeAll_eq_store (hardware : Hardware) (queue : ChangeQueue) :
    storeAll hardware queue =
      { hardware with
        flash := (if hardware.flashFails then [] else queue.toList).foldl Flash.store
          hardware.flash } := by
  rw [storeAll]
  generalize queue.toList = changes
  induction changes generalizing hardware with
  | nil => split <;> rfl
  | cons change rest inductionHypothesis =>
    rw [List.foldl_cons, inductionHypothesis, Hardware.storeSetting]
    by_cases fails : hardware.flashFails = true
    · simp [fails]
    · simp [fails]

/-- The store writes flash, and leaves the rest of the hardware alone. -/
theorem storeAll_eq (hardware : Hardware) (queue : ChangeQueue) :
    storeAll hardware queue = { hardware with flash := (storeAll hardware queue).flash } := by
  rw [storeAll_eq_store]

/-- What the store task does with one change after the other comes to storing them all. -/
theorem pollStore_eq (live : Live) : live.pollStore =
    { hardware := storeAll live.hardware live.ram.changes
      ram := { live.ram with changes := {} } } := by
  have each (hardware : Hardware) (ram : Ram) (sent : List SettingChange) :
      pollStore.storeEach sent.length ⟨hardware, { ram with changes := ⟨none, sent⟩ }⟩ =
        ⟨sent.foldl Hardware.storeSetting hardware, { ram with changes := {} }⟩ := by
    induction sent generalizing hardware with
    | nil => rfl
    | cons change rest inductionHypothesis => exact inductionHypothesis (hardware.storeSetting change)
  obtain ⟨hardware, ram⟩ := live
  rw [pollStore, storeAll, ChangeQueue.toList, List.foldl_append]
  cases taken : ram.changes.taken with
  | none =>
    have begun : storeTaken ⟨hardware, ram⟩ =
        ⟨hardware, { ram with changes := ⟨none, ram.changes.sent⟩ }⟩ := by
      rw [storeTaken, taken]
      rfl
    rw [begun]
    exact each hardware ram ram.changes.sent
  | some change =>
    have begun : storeTaken ⟨hardware, ram⟩ =
        ⟨hardware.storeSetting change, { ram with changes := ⟨none, ram.changes.sent⟩ }⟩ := by
      rw [storeTaken, taken]
      rfl
    rw [begun]
    exact each (hardware.storeSetting change) ram ram.changes.sent

/-- The feeder leaves alone what surrounds the program. -/
theorem hardware_pollFeeder (live : Live) : live.pollFeeder.hardware = live.hardware := by
  rw [pollFeeder]
  split
  · rfl
  · rfl

/-- The smallest things that happen to a running controller: a look at one of its tasks, and what
comes from outside. -/
inductive Happens : Live → Live → Prop where
  | feeder {live : Live} : Happens live live.pollFeeder
  | store {live : Live} : Happens live live.pollStore
  | sampler {live : Live} : Happens live live.pollSampler
  | converter {live : Live} : Happens live live.pollConverter
  | button {live : Live} : Happens live live.pollButton
  | lid {live : Live} : Happens live live.pollLid
  | timer {live : Live} : Happens live live.pollTimer
  | power {live : Live} : Happens live (PowerTask.poll live)
  | host {live : Live} : Happens live (pollHost live)
  /-- Time passes, or something else changes around the program. -/
  | hardware {live : Live} (change : Hardware → Hardware) :
      Happens live { live with hardware := change live.hardware }
  /-- Levels on inputs change, which the button and the lid notice. -/
  | inputs {live moved : Live} (change : Hardware → Hardware)
      (moves : Session.moveInputs change (.on live) = .on moved) : Happens live moved
  | setting {live : Live} (change : SettingChange) : Happens live (live.offerSetting change)
  | transfer {live : Live} (transfer : Transfer) :
      Happens live { live with ram := { live.ram with transfer := some transfer, answer := none } }

/-- What has happened since `first`. -/
inductive Since (first : Live) : Live → Prop where
  | refl : Since first first
  | step {before after : Live} (prior : Since first before) (last : before.Happens after) :
      Since first after

/-- The controller has been booted, and runs since. -/
def SinceBoot (live : Live) : Prop := ∃ before reason, Since (boot before reason) live

namespace SinceBoot

variable {live after : Live}

theorem step (sinceBoot : live.SinceBoot) (last : live.Happens after) : after.SinceBoot := by
  obtain ⟨before, reason, since⟩ := sinceBoot
  exact ⟨before, reason, since.step last⟩

theorem round (sinceBoot : live.SinceBoot) : live.round.SinceBoot := by
  have sampled := (((sinceBoot.step .feeder).step .store).step .sampler).step .converter
  exact ((((sampled.step .button).step .lid).step .timer).step .power).step .host

end SinceBoot

end Live

/-- A controller that is on has been booted, whatever stimuli there are. -/
def SessionInvariant.booted : SessionInvariant fun _ => True where
  holds
    | .on live => live.SinceBoot
    | .off _ => True
  boot reason _ := ⟨_, reason, .refl⟩
  off _ := trivial
  round := Live.SinceBoot.round
  around {power change} _ booted := by
    cases power with
    | on live => exact booted.step (.hardware change)
    | off hardware => trivial
  inputs {power change} _ booted := by
    cases power with
    | on live => exact booted.step (.inputs change rfl)
    | off hardware => trivial
  scratch {power stimulus change} _ _ _ booted := by
    cases power with
    | on live => exact booted.step (.hardware change)
    | off hardware => trivial
  setting {power change} _ booted := by
    cases power with
    | on live => exact booted.step (.setting change)
    | off hardware => trivial
  transfer {power transfer} _ booted := by
    cases power with
    | on live => exact booted.step (.transfer transfer)
    | off hardware => trivial

/-- However a session has gone on that began with the controller off, a controller that is on has
been booted in it, and nothing but what can happen has happened since. -/
theorem Session.sinceBoot_executeAll {hardware : Hardware} {timed : List Timed}
    {commands : List Command} {live : Live}
    (on : (executeAll ⟨.off hardware, timed⟩ commands).power = .on live) : live.SinceBoot := by
  have off : SessionInvariant.booted.Holds ⟨.off hardware, timed⟩ :=
    ⟨trivial, fun timed _ => timed.stimulus.fits_of_forall fun _ => trivial⟩
  have fits (command : Command) (_ : command ∈ commands) : command.Fits fun _ => True :=
    command.fits_of_forall fun _ => trivial
  have booted := (SessionInvariant.booted.holds_executeAll off fits).power
  rw [on] at booted
  exact booted

/-- The command that a transfer carries, if it carries one. -/
def Transfer.command? : Transfer → Option HostCommand
  | .write (command :: arguments) =>
    if arguments.length + 1 < transferLimit then HostCommand.parse? command arguments else none
  | _ => none

namespace Live

/-- The command that has come from the host, if one has come. -/
def command? (live : Live) : Option HostCommand := live.ram.transfer.bind Transfer.command?

/-- Nothing that the power task knows is changed. -/
theorem Leaves.refl {before after : Live} (power : after.ram.power = before.ram.power)
    (tree : after.ram.tree = before.ram.tree) (outputs : after.ram.outputs = before.ram.outputs)
    (mailbox : after.ram.mailbox = before.ram.mailbox)
    (lines : after.ram.sampled.lines = before.ram.sampled.lines) : before.Leaves after :=
  ⟨power, tree, outputs, ⟨[], mailbox⟩, .inl lines⟩

/-- All that is changed is that one call has been made. -/
theorem Leaves.call {before after : Live} (call : Mailbox.Call)
    (power : after.ram.power = before.ram.power) (tree : after.ram.tree = before.ram.tree)
    (outputs : after.ram.outputs = before.ram.outputs)
    (mailbox : after.ram.mailbox = before.ram.mailbox.perform call)
    (lines : after.ram.sampled.lines = before.ram.sampled.lines) : before.Leaves after :=
  ⟨power, tree, outputs, ⟨[call], mailbox⟩, .inl lines⟩

/-- A transfer carries a command, which is carried out, or changes nothing but the answer. -/
theorem dealWith_cases (live : Live) (transfer : Transfer) :
    (∃ command, transfer.command? = some command ∧
      dealWith live transfer = command.execute live) ∨
    (transfer.command? = none ∧ ∃ answer,
      dealWith live transfer = { live with ram := { live.ram with answer := answer } }) := by
  have nothing : live = { live with ram := { live.ram with answer := live.ram.answer } } := rfl
  cases transfer with
  | write data =>
    cases data with
    | nil => exact .inr ⟨rfl, _, nothing⟩
    | cons command arguments =>
      simp only [dealWith, Transfer.command?]
      split
      · cases parsed : HostCommand.parse? command arguments with
        | none => exact .inr ⟨rfl, _, nothing⟩
        | some accepted => exact .inl ⟨accepted, rfl, rfl⟩
      · exact .inr ⟨rfl, _, nothing⟩
  | writeRead data count =>
    cases data with
    | nil => exact .inr ⟨rfl, _, nothing⟩
    | cons command arguments =>
      simp only [dealWith]
      split
      · exact .inr ⟨rfl, _, rfl⟩
      · exact .inr ⟨rfl, _, nothing⟩
  | read count => exact .inr ⟨rfl, _, rfl⟩
  | generalCall | busError => exact .inr ⟨rfl, _, nothing⟩

/-- So does a look at the host bus. -/
theorem pollHost_cases (live : Live) :
    (∃ command, live.command? = some command ∧
      pollHost live = command.execute { live with ram := { live.ram with transfer := none } }) ∨
    (live.command? = none ∧ ∃ transfer answer, pollHost live =
      { live with ram := { live.ram with transfer := transfer, answer := answer } }) := by
  rw [command?, pollHost]
  cases live.ram.transfer with
  | none => exact .inr ⟨rfl, live.ram.transfer, live.ram.answer, rfl⟩
  | some transfer =>
    rcases dealWith_cases { live with ram := { live.ram with transfer := none } } transfer with
      carried | ⟨carries, answer, untouched⟩
    · exact .inl carried
    · exact .inr ⟨carries, none, answer, untouched⟩

/-- A command of the host calls once at most. -/
theorem leaves_execute (live : Live) (command : HostCommand) :
    live.Leaves (command.execute live) := by
  cases command with
  | changeSetting change => exact .refl rfl rfl rfl rfl rfl
  | setLongPress ms => exact .call (.setLongPress ms.toNat) rfl rfl rfl rfl rfl
  | powerOn => exact .call .requestPowerOn rfl rfl rfl rfl rfl
  | forceOff => exact .call .requestShutdown rfl rfl rfl rfl rfl
  | reset kind => exact .call (.requestReset kind) rfl rfl rfl rfl rfl
  | restart | restartOff => exact .refl rfl rfl rfl rfl rfl

theorem leaves_pollHost (live : Live) : live.Leaves (pollHost live) := by
  rcases live.pollHost_cases with ⟨command, -, executed⟩ | ⟨-, transfer, answer, untouched⟩
  · obtain ⟨power, tree, outputs, calls, wakes⟩ := leaves_execute
      { live with ram := { live.ram with transfer := none } } command
    rw [executed]
    exact ⟨power, tree, outputs, calls, wakes⟩
  · rw [untouched]
    exact .refl rfl rfl rfl rfl rfl

/-- A sample that differs from the last one wakes the power task. -/
theorem leaves_pollSampler (live : Live) : live.Leaves live.pollSampler := by
  rw [pollSampler]
  split
  · simp only [takeSample]
    split
    · exact .refl rfl rfl rfl rfl rfl
    · exact ⟨rfl, rfl, rfl, ⟨[.wake], rfl⟩, .inr rfl⟩
  · exact .refl rfl rfl rfl rfl rfl

theorem leaves_pollConverter (live : Live) : live.Leaves live.pollConverter := by
  simp only [pollConverter]
  split
  · split
    · exact .refl rfl rfl rfl rfl rfl
    · exact .refl rfl rfl rfl rfl rfl
  · exact .refl rfl rfl rfl rfl rfl

theorem leaves_pollButton (live : Live) : live.Leaves live.pollButton := by
  simp only [pollButton]
  split
  · exact .refl rfl rfl rfl rfl rfl
  next released _ => exact .call (.powerButton !released) rfl rfl rfl rfl rfl

theorem leaves_pollLid (live : Live) : live.Leaves live.pollLid := by
  simp only [pollLid]
  split
  · exact .refl rfl rfl rfl rfl rfl
  next isOpen _ => exact .call (.lid isOpen) rfl rfl rfl rfl rfl

theorem leaves_pollFeeder (live : Live) : live.Leaves live.pollFeeder := by
  rw [pollFeeder]
  split
  · exact .refl rfl rfl rfl rfl rfl
  · exact .refl rfl rfl rfl rfl rfl

/-- Whatever happens, the power task is looked at, or finds that others have called. -/
theorem Happens.leaves_or_polls {before after : Live} (happens : before.Happens after) :
    before.Leaves after ∨ after = PowerTask.poll before := by
  cases happens with
  | power => exact .inr rfl
  | feeder => exact .inl before.leaves_pollFeeder
  | store =>
    rw [pollStore_eq]
    exact .inl (.refl rfl rfl rfl rfl rfl)
  | hardware | setting | transfer => exact .inl (.refl rfl rfl rfl rfl rfl)
  | sampler => exact .inl before.leaves_pollSampler
  | converter => exact .inl before.leaves_pollConverter
  | button => exact .inl before.leaves_pollButton
  | lid => exact .inl before.leaves_pollLid
  | timer => exact .inl (.call (.turnTimer before.now) rfl rfl rfl rfl rfl)
  | host => exact .inl before.leaves_pollHost
  | inputs change moves =>
    obtain rfl := Power.on.inj moves
    exact .inl (.refl rfl rfl rfl rfl rfl)

/-- The power task keeps to its run, whatever happens. -/
theorem OnRunKnown.happens {known : Exchange → Prop} {tree : PowerTree} {start : Position}
    {levels : RailAssignment Level} {usb : Level} {before after : Live} (pauses : tree.Pauses)
    (tells : ∀ exchange, before.Tells exchange → known exchange)
    (onRun : before.OnRunKnown known tree start levels usb) (happens : before.Happens after) :
    after.OnRunKnown known tree start levels usb := by
  rcases happens.leaves_or_polls with leaves | rfl
  · exact onRun.leaves leaves
  · exact onRun.poll pauses tells

theorem Since.onRun {tree : PowerTree} {start : Position} {levels : RailAssignment Level}
    {usb : Level} {first live : Live} (since : Since first live) (pauses : tree.Pauses)
    (begun : first.OnRun tree start levels usb) : live.OnRun tree start levels usb := by
  induction since with
  | refl => exact begun
  | step _ last inductionHypothesis =>
    have onRun := onRun_iff.mp inductionHypothesis
    exact onRun_iff.mpr (onRun.happens pauses (fun _ _ => trivial) last)

/-- Every pin that is set up shows its rail. -/
theorem outputs_setUp {levels : RailAssignment Level} {wires : List (Rail × Pin)}
    {wire : Rail × Pin} {live : Live} (distinct : (wires.map Prod.snd).Nodup)
    (member : wire ∈ wires) :
    (wires.foldl (fun current wire => current.drive wire.2 (levels.get wire.1))
      live).ram.outputs.get wire.2 = some (levels.get wire.1) := by
  induction wires generalizing live with
  | nil => exact absurd member List.not_mem_nil
  | cons first rest inductionHypothesis =>
    rw [List.map_cons, List.nodup_cons] at distinct
    rw [List.foldl_cons]
    rcases List.mem_cons.mp member with rfl | later
    · rw [outputs_drivePins distinct.1]
      simp [drive]
    · exact inductionHypothesis distinct.2 later

/-- Outputs are set up at their levels. -/
theorem shows_setUpOutputs (live : Live) (levels : RailAssignment Level) (usb : Level) :
    (live.setUpOutputs levels usb).Shows levels := by
  apply Shows.driveUsb
  intro rail pin atPin
  have wired : ∀ rail : Rail, ∀ pin ∈ pinOf? rail, (rail, pin) ∈ wiring := by decide +kernel
  exact outputs_setUp (by decide) (wired rail pin atPin)

/-- Setting up the outputs leaves the mailbox, the tree and the sampled lines alone. -/
theorem ram_setUpOutputs (live : Live) (levels : RailAssignment Level) (usb : Level) :
    (live.setUpOutputs levels usb).ram.mailbox = live.ram.mailbox ∧
      (live.setUpOutputs levels usb).ram.tree = live.ram.tree ∧
      (live.setUpOutputs levels usb).ram.sampled = live.ram.sampled := by
  obtain ⟨mailbox, tree, sampled⟩ :=
    live.ram_drivePins wiring Prod.snd fun wire => levels.get wire.1
  obtain ⟨mailboxToo, treeToo, sampledToo⟩ := ram_drivePins
    (wiring.foldl (fun current wire => current.drive wire.2 (levels.get wire.1)) live)
    usbSwitches id fun _ => usb
  exact ⟨mailboxToo.trans mailbox, treeToo.trans tree, sampledToo.trans sampled⟩

/-- The power task that is launched when the outputs are set up begins a run with them. -/
theorem onRunKnown_setUpOutputs {known : Exchange → Prop} (live : Live) (boot : BootInfo)
    (pauses : live.ram.tree.Pauses) (tells : ∀ exchange, live.Tells exchange → known exchange)
    (levels : RailAssignment Level) (usb : Level) : ∃ first entered state,
      (Program.start live.ram.tree boot { mailbox := live.ram.mailbox }).Runs first entered state ∧
      (state = if boot.jumped && live.ram.sampled.lines.contains live.ram.tree.allS0
        then .s0 else .g3) ∧
      (PowerTask.launch (live.setUpOutputs levels usb) boot).OnRunKnown known live.ram.tree
        (.enter state entered) levels usb := by
  obtain ⟨mailbox, tree, sampled⟩ := live.ram_setUpOutputs levels usb
  rw [← tree] at pauses
  rw [← tells_of_untouched (live.untouched_setUpOutputs levels usb)] at tells
  obtain ⟨first, entered, state, started, reads, onRun⟩ :=
    onRunKnown_launch boot pauses tells (live.shows_setUpOutputs levels usb)
      (showsUsb_driveUsb _ usb)
  rw [mailbox, tree] at started
  rw [sampled] at reads
  rw [tree] at onRun
  exact ⟨first, entered, state, started, Program.start_state started reads, onRun⟩

end Live

namespace Hardware

variable (before : Hardware) (reason : ResetReason)

/-- The settings that a boot reads back. -/
def settingsAt : Settings :=
  (before.afterReset reason).flash.load fun _ => (before.afterReset reason).flashFails

/-- The tree that a boot picks. -/
def treeAt : PowerTree :=
  .ofRevision (runningRevision (before.settingsAt reason).hardwareVersion)

/-- What a boot learns from the scratch registers. -/
def infoAt : BootInfo :=
  (before.afterReset reason).scratch.bootInfo reason (before.settingsAt reason).autoPowerOn

/-- A boot finds the processor running. -/
def resumesAt : Bool :=
  (before.infoAt reason).jumped &&
    { before.afterReset reason with scratch := {} }.sampleLines.contains
      (before.treeAt reason).allS0

/-- The mailbox that a boot sets up. -/
def mailboxAt : Mailbox :=
  (Mailbox.wake {}).setLongPress (before.settingsAt reason).longPressMs.toNat

end Hardware

/-- All tasks but the power task and the host bus wait. -/
structure Live.Waits (live : Live) : Prop where
  feeder : live.now < live.ram.nextFeed
  store : live.ram.changes.toList = []
  sampler : live.now < live.ram.nextSample
  converter : live.now < live.ram.nextReading
  button : live.ram.button.isReady live.now = false
  lid : live.ram.lid.isReady live.now = false
  timer : live.ram.mailbox.shutdownTimer.isReady live.now = false

/-- What a boot has made ready when it comes to the outputs. -/
structure Live.Prepared (before : Hardware) (reason : ResetReason) (live : Live) : Prop where
  hardware : live.hardware = { before.afterReset reason with scratch := {} }
  mailbox : live.ram.mailbox = before.mailboxAt reason
  tree : live.ram.tree = before.treeAt reason
  lines : live.ram.sampled.lines = { before.afterReset reason with scratch := {} }.sampleLines
  waits : live.Waits
  transfer : live.ram.transfer = none
  settings : live.ram.settings = before.settingsAt reason
  changes : live.ram.changes = {}

/-- A boot sets up the outputs where they rest, and launches the power task. -/
theorem boot_eq_launch (before : Hardware) (reason : ResetReason) : ∃ live : Live,
    live.Prepared before reason ∧ boot before reason = PowerTask.launch
      (live.setUpOutputs ((before.treeAt reason).tables.restingLevels (before.resumesAt reason))
        (.ofBool (before.resumesAt reason))) (before.infoAt reason) := by
  refine ⟨_, ⟨rfl, rfl, rfl, rfl, ?_, rfl, rfl, rfl⟩, rfl⟩
  have later (delay : Nat) (some : 0 < delay) :
      (before.afterReset reason).now < (before.afterReset reason).now + delay :=
    Nat.lt_add_of_pos_right some
  exact ⟨later feedUs (by decide), rfl, later sampleUs (by decide), later readingUs (by decide),
    rfl, rfl, rfl⟩

/-- What a boot leaves is what it made ready before it set up the outputs, in all that the power task
does not touch. -/
theorem untouched_boot (before : Hardware) (reason : ResetReason) : ∃ live : Live,
    live.Prepared before reason ∧ (boot before reason).untouched = live.untouched := by
  obtain ⟨live, prepared, launched⟩ := boot_eq_launch before reason
  rw [launched]
  exact ⟨live, prepared,
    (Live.untouched_launch _ _).trans (live.untouched_setUpOutputs _ _)⟩

/-- After a boot the power task begins a run, in the state that its start picks, with the tree of
the stored revision and the outputs as they were set up. -/
theorem Live.onRunKnown_boot {known : Exchange → Prop} (before : Hardware) (reason : ResetReason)
    (tells : ∀ exchange, (boot before reason).Tells exchange → known exchange) :
    ∃ first entered state,
      (Program.start (before.treeAt reason) (before.infoAt reason)
        { mailbox := before.mailboxAt reason }).Runs first entered state ∧
      (state = if before.resumesAt reason then .s0 else .g3) ∧
      (boot before reason).OnRunKnown known (before.treeAt reason) (.enter state entered)
        ((before.treeAt reason).tables.restingLevels (before.resumesAt reason))
        (.ofBool (before.resumesAt reason)) := by
  obtain ⟨live, ⟨-, mailbox, tree, lines, -, -, -, -⟩, booted⟩ := boot_eq_launch before reason
  have pauses : live.ram.tree.Pauses := tree ▸ PowerTree.pauses_ofRevision _
  rw [booted, tells_of_untouched (untouched_launch _ _),
    tells_of_untouched (live.untouched_setUpOutputs _ _)] at tells
  have begun := live.onRunKnown_setUpOutputs (before.infoAt reason) pauses tells
    ((before.treeAt reason).tables.restingLevels (before.resumesAt reason))
    (.ofBool (before.resumesAt reason))
  rw [booted]
  rw [mailbox, tree, lines] at begun
  exact begun

theorem Live.onRun_boot (before : Hardware) (reason : ResetReason) : ∃ first entered state,
      (Program.start (before.treeAt reason) (before.infoAt reason)
        { mailbox := before.mailboxAt reason }).Runs first entered state ∧
      (state = if before.resumesAt reason then .s0 else .g3) ∧
      (boot before reason).OnRun (before.treeAt reason) (.enter state entered)
        ((before.treeAt reason).tables.restingLevels (before.resumesAt reason))
        (.ofBool (before.resumesAt reason)) := by
  obtain ⟨first, entered, state, started, picked, begun⟩ :=
    @onRunKnown_boot (fun _ => True) before reason fun _ _ => trivial
  exact ⟨first, entered, state, started, picked, onRun_iff.mpr begun⟩

end RailSequencer.Controller
