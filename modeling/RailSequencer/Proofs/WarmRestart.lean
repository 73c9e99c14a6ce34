import RailSequencer.Proofs.Agreement
import RailSequencer.Proofs.RunningLevels

/-!
# A warm restart is invisible to a running processor

While no task has anything to do, a transfer of the host is dealt with before anything else happens
(`Live.Waits.round`). The restart that it asks for leaves a mark, and the boot that finds the mark
and sees every line of S0 asserted sets up the outputs of a running processor. Its power task makes
the same decision a second time, from the same sample, and rests in S0 before any time has passed
(`PowerTask.launch_running`). What the earlier run has left on the pins is what the boot sets up
(`Live.SinceBoot.shows_running`), so no output moves.
-/

namespace RailSequencer

/-- A switch that has nothing to do is left as it is. -/
theorem Switch.poll_of_waiting {switch : Switch} {now : Nat} (waiting : switch.isReady now = false)
    (level : Bool) : switch.poll now level = (switch, none) := by
  obtain ⟨accepted, phase⟩ := switch
  cases phase with
  | watching seen =>
    obtain rfl : seen = false := waiting
    rfl
  | settling wakeAt =>
    simp only [isReady, decide_eq_false_iff_not] at waiting
    simp only [poll, if_neg waiting]

/-- So is a timer. -/
theorem OneShot.turn_of_waiting {timer : OneShot} {now : Nat}
    (waiting : timer.isReady now = false) : timer.turn now = (timer, false) := by
  obtain ⟨command, deadline⟩ := timer
  simp only [isReady, Bool.or_eq_false_iff, Option.isSome_eq_false_iff,
    Option.isNone_iff_eq_none] at waiting
  obtain ⟨early, rfl⟩ := waiting
  simp [turn, early]

namespace Controller

namespace Live

variable {live : Live}

theorem isIdle_iff : live.isIdle = true ↔
    live.Waits ∧ PowerTask.isReady live = false ∧ live.ram.transfer = none := by
  simp only [isIdle, Bool.and_eq_true, decide_eq_true_eq, Bool.not_eq_true', List.isEmpty_iff,
    Option.isNone_iff_eq_none]
  constructor
  · rintro ⟨⟨⟨⟨⟨⟨⟨⟨feeder, store⟩, sampler⟩, converter⟩, button⟩, lid⟩, timer⟩, power⟩, host⟩
    exact ⟨⟨feeder, store, sampler, converter, button, lid, timer⟩, power, host⟩
  · rintro ⟨⟨feeder, store, sampler, converter, button, lid, timer⟩, power, host⟩
    exact ⟨⟨⟨⟨⟨⟨⟨⟨feeder, store⟩, sampler⟩, converter⟩, button⟩, lid⟩, timer⟩, power⟩, host⟩

/-- A round in which only the host bus has something to do. -/
theorem Waits.round (waits : live.Waits) (asleep : PowerTask.isReady live = false) :
    live.round = pollHost live := by
  have feeder : live.pollFeeder = live := if_neg (Nat.not_le.mpr waits.feeder)
  have store : live.pollStore = live := by
    rw [pollStore_eq, storeAll, waits.store, ← ChangeQueue.eq_of_toList_eq_nil waits.store]
    rfl
  have sampler : live.pollSampler = live := if_neg (Nat.not_le.mpr waits.sampler)
  have converter : live.pollConverter = live := if_neg (Nat.not_le.mpr waits.converter)
  have button : live.pollButton = live := by
    simp only [pollButton, Switch.poll_of_waiting waits.button]
  have lid : live.pollLid = live := by
    simp only [pollLid, Switch.poll_of_waiting waits.lid]
  have timer : live.pollTimer = live := by
    simp only [pollTimer, onMailbox, Mailbox.turnTimer, OneShot.turn_of_waiting waits.timer]
    rfl
  have power : PowerTask.poll live = live := by
    rw [PowerTask.poll, asleep]
    rfl
  simp only [Live.round, feeder, store, sampler, converter, button, lid, timer, power]

/-- Pins that are driven one after the other change nothing but the outputs and what the hardware
knows of them. -/
theorem drivePins_eq {ι : Type} (live : Live) (items : List ι) (pinOf : ι → Pin)
    (levelOf : ι → Level) : ∃ held outputs,
    items.foldl (fun current item => current.drive (pinOf item) (levelOf item)) live =
      ⟨{ live.hardware with
          held := held
          writes := (items.map fun item =>
            ⟨live.now / Timing.usPerMs, pinOf item, levelOf item⟩).reverse ++
              live.hardware.writes },
        { live.ram with outputs := outputs }⟩ := by
  induction items generalizing live with
  | nil => exact ⟨_, _, rfl⟩
  | cons first rest inductionHypothesis =>
    obtain ⟨held, outputs, driven⟩ :=
      inductionHypothesis (live.drive (pinOf first) (levelOf first))
    refine ⟨held, outputs, ?_⟩
    rw [List.foldl_cons, driven, List.map_cons, List.reverse_cons, List.append_assoc]
    rfl

end Live

/-- The output pins in the order in which a boot sets them up. -/
def outputPins : List Pin := wiring.map Prod.snd ++ usbSwitches

/-- The writes of a boot, in order. -/
def setUpWrites (nowMs : Nat) (levels : RailAssignment Level) (usb : Level) : List PinWrite :=
  (wiring.map fun wire => ⟨nowMs, wire.2, levels.get wire.1⟩) ++
    usbSwitches.map fun switch => ⟨nowMs, switch, usb⟩

theorem map_pin_setUpWrites (nowMs : Nat) (levels : RailAssignment Level) (usb : Level) :
    (setUpWrites nowMs levels usb).map PinWrite.pin = outputPins := rfl

namespace Live

variable {live : Live}

theorem setUpOutputs_eq (live : Live) (levels : RailAssignment Level) (usb : Level) :
    ∃ held outputs, live.setUpOutputs levels usb =
      ⟨{ live.hardware with
          held := held
          writes := (setUpWrites (live.now / Timing.usPerMs) levels usb).reverse ++
            live.hardware.writes },
        { live.ram with outputs := outputs }⟩ := by
  obtain ⟨railsHeld, rails, drivesRails⟩ :=
    live.drivePins_eq wiring Prod.snd fun wire => levels.get wire.1
  obtain ⟨held, outputs, drivesUsb⟩ := drivePins_eq
    (wiring.foldl (fun current wire => current.drive wire.2 (levels.get wire.1)) live)
    usbSwitches id fun _ => usb
  refine ⟨held, outputs, ?_⟩
  rw [setUpWrites, List.reverse_append, List.append_assoc]
  refine drivesUsb.trans ?_
  rw [drivesRails]
  rfl

/-- A write that a boot makes for a running processor finds its pin on the level already, where the
pins show a running processor. -/
theorem output_of_setUpWrites {levels : RailAssignment Level} {usb : Level} {nowMs : Nat}
    {write : PinWrite} (shows : live.Shows levels) (shownUsb : live.ShowsUsb usb)
    (member : write ∈ setUpWrites nowMs levels usb) :
    live.ram.outputs.get write.pin = some write.level := by
  rcases List.mem_append.mp member with rail | switch
  · obtain ⟨wire, wired, rfl⟩ := List.mem_map.mp rail
    have atPin : ∀ wire ∈ wiring, pinOf? wire.1 = some wire.2 := by decide
    exact shows _ _ (atPin wire wired)
  · obtain ⟨switch, wired, rfl⟩ := List.mem_map.mp switch
    exact shownUsb _ wired

end Live

/-- A turn from S0 that was not asked for anything looks at the lines, and rests where they speak
for S0. -/
theorem turn_s0 {tree : PowerTree} {memory : Memory} (steady : tree.debounce = none)
    (unasked : memory.mailbox.resetRequested = none)
    (unforced : memory.mailbox.shutdownRequested = false)
    (free : memory.forcingShutdown = false) :
    ∃ look, Program.turn tree .s0 memory = .ask memory .readLines look ∧
      ∀ mailbox lines, tree.endsS0 false lines = false →
        look mailbox lines = .done { memory with mailbox := mailbox } (.rest .s0) := by
  obtain ⟨mailbox, forcing, held⟩ := memory
  obtain ⟨published, shutdown, powerOn, reset, inhibited, longPress, woken, timer⟩ := mailbox
  obtain ⟨revision, pgoodS3, pgoodS0, debounce, tables⟩ := tree
  obtain rfl : reset = none := unasked
  obtain rfl : shutdown = false := unforced
  obtain rfl : forcing = false := free
  obtain rfl : debounce = none := steady
  refine ⟨_, rfl, ?_⟩
  intro mailbox lines quiet
  obtain ⟨supplied, -, awake⟩ := PowerTree.endsS0_eq_false_iff.mp quiet
  simp only [bind_pure_comp, Bool.or_self, Task.bind_done, supplied, awake, Bool.not_true,
    Bool.or_false]
  rfl

namespace PowerTask

/-- A start that finds the processor running forbids to idle and takes a turn from S0. -/
theorem firstTurn_running (tree : PowerTree) (memory : Memory) {boot : BootInfo}
    (jumped : boot.jumped = true) :
    ∃ look, firstTurn tree boot memory = .ask (memory.publish .g3) .readLines look ∧
      ∀ mailbox lines, lines.contains tree.allS0 = true → ∃ forbid,
        look mailbox lines = .ask { memory with mailbox := mailbox } (.allowIdle false) forbid ∧
        ∀ mailbox, forbid mailbox () =
          Program.turn tree .s0 ({ memory with mailbox := mailbox }.publish .s0) := by
  obtain ⟨jump, keepOff, autoPowerOn⟩ := boot
  obtain rfl : jump = true := jumped
  refine ⟨_, rfl, ?_⟩
  intro mailbox lines asserted
  simp only [Task.bind_done]
  rw [if_pos asserted]
  exact ⟨_, rfl, fun _ => rfl⟩

/-- A turn from S0 is over at once where the sampled lines speak for S0. -/
theorem proceed_turn_s0 (live : Live) (memory : Memory) (steady : live.ram.tree.debounce = none)
    (quiet : live.ram.tree.endsS0 false live.ram.sampled.lines = false)
    (unasked : memory.mailbox.resetRequested = none)
    (unforced : memory.mailbox.shutdownRequested = false)
    (free : memory.forcingShutdown = false) :
    proceed (Program.turn live.ram.tree .s0 memory) live =
      (live.handOver memory, .ended memory (.rest .s0)) := by
  obtain ⟨look, asks, rests⟩ := turn_s0 steady unasked unforced free
  have answered : look ((live.handOver memory).answerAtOnce .readLines).1.ram.mailbox
      ((live.handOver memory).answerAtOnce .readLines).2 = .done memory (.rest .s0) :=
    rests memory.mailbox live.ram.sampled.lines quiet
  rw [asks, proceed_ask rfl, answered]
  rfl

/-- So the power task rests in S0. If it was woken, it takes one more turn first. -/
theorem serve_rest_s0 (live : Live) (memory : Memory) (turns : Nat)
    (steady : live.ram.tree.debounce = none)
    (quiet : live.ram.tree.endsS0 false live.ram.sampled.lines = false)
    (unasked : live.ram.mailbox.resetRequested = none)
    (unforced : live.ram.mailbox.shutdownRequested = false)
    (free : memory.forcingShutdown = false) :
    ∃ last, serve (turns + 2) (live, .ended memory (.rest .s0)) =
      (live.onMailbox fun mailbox => { mailbox with woken := false }, .resting last .s0) := by
  cases woken : live.ram.mailbox.woken with
  | false =>
    have asleep : { live.ram.mailbox with woken := false } = live.ram.mailbox := by rw [← woken]
    refine ⟨memory, ?_⟩
    rw [serve, woken, Live.onMailbox, asleep]
    rfl
  | true =>
    let taken := live.onMailbox fun mailbox => { mailbox with woken := false }
    let last : Memory := { memory with mailbox := taken.ram.mailbox }
    have turned : proceed (beginTurn taken memory .s0) taken = (taken, .ended last (.rest .s0)) :=
      proceed_turn_s0 taken last steady quiet unasked unforced free
    have again : serve (turns + 2) (live, .ended memory (.rest .s0)) =
        serve (turns + 1) (proceed (beginTurn taken memory .s0) taken) := by
      rw [serve, if_pos woken]
    refine ⟨last, ?_⟩
    rw [again, turned]
    rfl

/-- All that the launch changes where it finds the processor running. -/
theorem launch_running (live : Live) {boot : BootInfo} (jumped : boot.jumped = true)
    (steady : live.ram.tree.debounce = none)
    (asserted : live.ram.sampled.lines.contains live.ram.tree.allS0 = true)
    (quiet : live.ram.tree.endsS0 false live.ram.sampled.lines = false)
    (unasked : live.ram.mailbox.resetRequested = none)
    (unforced : live.ram.mailbox.shutdownRequested = false) :
    ∃ last, launch live boot =
      { live with
        ram := { live.ram with
          idleAllowed := false
          mailbox := { live.ram.mailbox with published := .s0, woken := false }
          power := .resting last .s0 } } := by
  -- The mailbox as it is handed over with a state, once idling is forbidden.
  let handed (state : PowerState) : Live :=
    { live with
      ram := { live.ram with
        idleAllowed := false
        mailbox := { live.ram.mailbox with published := state } } }
  let entered : Memory := { mailbox := { live.ram.mailbox with published := .s0 } }
  obtain ⟨look, looks, sees⟩ :=
    firstTurn_running live.ram.tree { mailbox := live.ram.mailbox } jumped
  obtain ⟨forbid, forbids, turns⟩ :=
    sees { live.ram.mailbox with published := .g3 } live.ram.sampled.lines asserted
  have begun : proceed (firstTurn live.ram.tree boot { mailbox := live.ram.mailbox }) live =
      proceed (Program.turn live.ram.tree .s0 entered) (handed .g3) := by
    rw [looks, proceed_ask rfl]
    refine (congrArg (fun task => proceed task _) forbids).trans ?_
    rw [proceed_ask rfl]
    exact congrArg (fun task => proceed task _) (turns _)
  have turned : proceed (Program.turn live.ram.tree .s0 entered) (handed .g3) =
      (handed .s0, .ended entered (.rest .s0)) :=
    proceed_turn_s0 (handed .g3) entered steady quiet unasked unforced rfl
  obtain ⟨last, rests⟩ :=
    serve_rest_s0 (handed .s0) entered 62 steady quiet unasked unforced rfl
  refine ⟨last, ?_⟩
  have served := congrArg (fun progress => putAway (serve turnsAtOnce progress))
    (begun.trans turned)
  exact served.trans (congrArg putAway rests)

end PowerTask

/-- The controller has come up at rest, with a processor that was left running. -/
structure Live.LeavesRunning (before : Hardware) (after : Live) : Prop where
  now : after.now = before.now
  resets : after.hardware.forcedResets = before.forcedResets
  idle : after.isIdle = true
  published : after.ram.mailbox.published = .s0
  awake : after.ram.idleAllowed = false
  shows : after.Shows ((EdgeTables.ofRevision .v2).restingLevels true)
  shownUsb : after.ShowsUsb .high
  writes : after.hardware.writes =
    (setUpWrites (before.now / Timing.usPerMs) ((EdgeTables.ofRevision .v2).restingLevels true)
      .high).reverse ++ before.writes

/-- Lines of a running simplified tree do not speak against S0. -/
theorem endsS0_of_allS0 {lines : SignalMask}
    (asserted : lines.contains (PowerTree.ofRevision .v2).allS0 = true) :
    (PowerTree.ofRevision .v2).endsS0 false lines = false := by
  obtain ⟨supplies, awake⟩ := (SignalMask.contains_union_iff _ _ _).mp asserted
  obtain ⟨lower, -⟩ := (SignalMask.contains_union_iff _ _ _).mp supplies
  obtain ⟨supplied, -⟩ := (SignalMask.contains_union_iff _ _ _).mp lower
  exact PowerTree.endsS0_eq_false_iff.mpr ⟨supplied, rfl, awake⟩

theorem Hardware.jumped_of_marked {before : Hardware}
    (marked : before.scratch.jump = Scratch.jumpMark) : (before.infoAt .forced).jumped = true := by
  have same : (before.afterReset .forced).scratch.jump = Scratch.jumpMark := marked
  simp [infoAt, Scratch.bootInfo, same]

/-- A boot that finds the mark of a warm restart, and every line of S0 asserted, leaves the
processor running. -/
theorem boot_running {before : Hardware} (marked : before.scratch.jump = Scratch.jumpMark)
    (asserted : before.sampleLines.contains (PowerTree.ofRevision .v2).allS0 = true) :
    Live.LeavesRunning before (boot before .forced) := by
  obtain ⟨live, ⟨hardware, mailbox, tree, lines, waits, transfer⟩, booted⟩ :=
    boot_eq_launch before .forced
  have jumped := Hardware.jumped_of_marked marked
  have resumes : before.resumesAt .forced = true := by
    rw [Hardware.resumesAt, jumped, before.treeAt_eq]
    exact asserted
  rw [before.treeAt_eq] at tree
  rw [resumes, before.treeAt_eq] at booted
  let levels := (PowerTree.ofRevision .v2).tables.restingLevels true
  have shows := live.shows_setUpOutputs levels .high
  have shownUsb : (live.setUpOutputs levels .high).ShowsUsb .high := Live.showsUsb_driveUsb _ _
  obtain ⟨held, outputs, setUp⟩ := live.setUpOutputs_eq levels .high
  obtain ⟨last, launched⟩ := PowerTask.launch_running (live.setUpOutputs levels .high)
    jumped (by rw [setUp, tree]; rfl) (by rw [setUp, tree, lines]; exact asserted)
    (by rw [setUp, tree, lines]; exact endsS0_of_allS0 asserted) (by rw [setUp, mailbox]; rfl)
    (by rw [setUp, mailbox]; rfl)
  have ready := booted.trans launched
  rw [setUp] at ready shows shownUsb
  have now : live.now = before.now := by
    rw [Live.now, hardware]
    rfl
  have resets : live.hardware.forcedResets = before.forcedResets := by
    rw [hardware]
    rfl
  have written : live.hardware.writes = before.writes := by
    rw [hardware]
    rfl
  rw [ready]
  exact
    { now := now
      resets := resets
      idle := Live.isIdle_iff.mpr
        ⟨⟨waits.feeder, waits.store, waits.sampler, waits.converter, waits.button, waits.lid,
          waits.timer⟩, rfl, transfer⟩
      published := rfl
      awake := rfl
      shows := shows.of_outputs rfl
      shownUsb := shownUsb.of_outputs rfl
      writes := by
        rw [← now, ← written]
        rfl }

/-- A command of the host to restart leaves the mark, whatever its arguments. -/
theorem pollHost_restart {live : Live} {arguments : List UInt8}
    (sent : live.ram.transfer = some (.write (0x40 :: arguments)))
    (fits : arguments.length + 1 < transferLimit) :
    pollHost live = HostCommand.askRestart { live with ram := { live.ram with transfer := none } }
      Scratch.warmRestart := by
  have restart : HostCommand.parse? 0x40 arguments = some .restart := rfl
  rw [pollHost, sent]
  simp only [dealWith, if_pos fits, restart]
  rfl

/-- Where no task has anything to do, no round is taken. -/
theorem Live.takeRounds_of_isIdle {live : Live} (idle : live.isIdle = true) (rounds : Nat) :
    settle.takeRounds rounds live = live := by
  cases rounds with
  | zero => rfl
  | succ rounds => rw [settle.takeRounds, if_pos idle]

/-- Such a command is dealt with at once where no task has anything to do, and the boot that follows
is all that happens if it comes up at rest. -/
theorem Live.settle_restart {live after : Live} {arguments : List UInt8} (waits : live.Waits)
    (asleep : PowerTask.isReady live = false)
    (sent : live.ram.transfer = some (.write (0x40 :: arguments)))
    (fits : arguments.length + 1 < transferLimit)
    (restarted : reboot { live with
      hardware := { live.hardware with scratch := Scratch.warmRestart } } = after)
    (rests : after.isIdle = true) : live.settle = after := by
  have busy : ¬live.isIdle = true := by
    intro idle
    have nothing := (isIdle_iff.mp idle).2.2
    exact absurd (sent.symm.trans nothing) (Option.some_ne_none _)
  have asked : live.round = HostCommand.askRestart
      { live with ram := { live.ram with transfer := none } } Scratch.warmRestart :=
    (waits.round asleep).trans (pollHost_restart sent fits)
  have again : reboot live.round = after := by
    rw [asked]
    exact restarted
  have restarting : live.round.ram.restarting = true := by
    rw [asked]
    rfl
  rw [settle, roundsToRest, settle.takeRounds, if_neg busy]
  simp only [restarting, if_true]
  rw [again]
  exact takeRounds_of_isIdle rests _

/-- Where no task has anything to do, the processor runs, and every line of S0 is still asserted as
it was sampled, a warm restart goes unnoticed by the processor: the controller comes up once more
before any time has passed, at rest in S0 with idling forbidden, and every output is set up once, on
the level that it had. The host may send along as many arguments as the controller takes. A reset
pulse is not such a place: there the power task is within a turn. -/
theorem restart_invisible {live : Live} {memory : Memory} (timed : List Timed)
    (arguments : List UInt8) (sinceBoot : live.SinceBoot) (idle : live.isIdle = true)
    (parked : live.ram.power = .resting memory .s0)
    (asserted : live.ram.sampled.lines.contains live.ram.tree.allS0 = true)
    (unchanged : live.hardware.sampleLines = live.ram.sampled.lines)
    (fits : arguments.length + 1 < transferLimit) : ∃ after : Live,
      (Session.execute ⟨.on live, timed⟩ (.apply (.transfer (.write (0x40 :: arguments))))).1 =
        ⟨.on after, timed⟩ ∧
      after.hardware.forcedResets = live.hardware.forcedResets + 1 ∧
      after.now = live.now ∧ after.isIdle = true ∧
      after.ram.mailbox.published = .s0 ∧ after.ram.idleAllowed = false ∧
      (∀ pin ∈ outputPins, after.ram.outputs.get pin = live.ram.outputs.get pin) ∧
      after.hardware.writes.reverse.map PinWrite.pin = outputPins ∧
      ∀ write ∈ after.hardware.writes, live.ram.outputs.get write.pin = some write.level := by
  obtain ⟨shows, shownUsb⟩ := sinceBoot.shows_running parked
  obtain ⟨_, _, chosen, -⟩ := sinceBoot.onRun
  obtain ⟨waits, asleep, -⟩ := Live.isIdle_iff.mp idle
  rw [chosen, ← unchanged] at asserted
  let before : Hardware :=
    { live.hardware with
      writes := []
      scratch := Scratch.warmRestart
      forcedResets := live.hardware.forcedResets + 1 }
  have leaves : Live.LeavesRunning before (boot before .forced) := boot_running rfl asserted
  refine ⟨boot before .forced, ?_, leaves.resets, leaves.now, leaves.idle, leaves.published,
    leaves.awake, ?_, ?_, ?_⟩
  · let sent : Live := ⟨{ live.hardware with writes := [] },
      { live.ram with transfer := some (.write (0x40 :: arguments)), answer := none }⟩
    have settled : sent.settle = boot before .forced :=
      Live.settle_restart ⟨waits.feeder, waits.store, waits.sampler, waits.converter, waits.button,
        waits.lid, waits.timer⟩ asleep rfl fits rfl leaves.idle
    exact congrArg (fun power => Session.mk (.on power) timed) settled
  · intro pin output
    rw [← map_pin_setUpWrites 0 ((EdgeTables.ofRevision .v2).restingLevels true) .high] at output
    obtain ⟨write, member, rfl⟩ := List.mem_map.mp output
    rw [Live.output_of_setUpWrites shows shownUsb member]
    exact Live.output_of_setUpWrites leaves.shows leaves.shownUsb member
  · rw [leaves.writes, List.append_nil, List.reverse_reverse]
    exact map_pin_setUpWrites _ _ _
  · intro write written
    rw [leaves.writes, List.append_nil, List.mem_reverse] at written
    exact Live.output_of_setUpWrites shows shownUsb written

/-- The processor that was powered on does not notice a restart either. -/
theorem restart_invisible_poweredUp : ∃ live memory after, poweredUp.power = .on live ∧
    live.SinceBoot ∧ live.isIdle = true ∧ live.ram.power = .resting memory .s0 ∧
    live.ram.sampled.lines.contains live.ram.tree.allS0 = true ∧
    live.hardware.sampleLines = live.ram.sampled.lines ∧
    (Session.execute ⟨.on live, []⟩ (.apply (.transfer (.write [0x40, 7])))).1 = ⟨.on after, []⟩ ∧
    after.hardware.forcedResets = live.hardware.forcedResets + 1 ∧
    after.ram.mailbox.published = .s0 ∧
    ∀ pin ∈ outputPins, after.ram.outputs.get pin = live.ram.outputs.get pin := by
  obtain ⟨live, memory, on, idle, parked, asserted, unchanged⟩ :=
    Power.exists_of_runsAtRest poweredUp_runsAtRest
  have sinceBoot : live.SinceBoot := Session.sinceBoot_executeAll on
  obtain ⟨after, executed, resets, -, -, published, -, outputs, -⟩ :=
    restart_invisible [] [7] sinceBoot idle parked asserted unchanged (by decide)
  exact ⟨live, memory, after, on, sinceBoot, idle, parked, asserted, unchanged, executed, resets,
    published, outputs⟩

end Controller

end RailSequencer
