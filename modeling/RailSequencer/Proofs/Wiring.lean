import RailSequencer.Proofs.ControllerRuns
import RailSequencer.Proofs.HeldFlag

/-!
# Only wired rails are driven

`EdgeTables.drivesOnly` looks at the tables once, before anything runs. What the sequencer drives
comes from the tables, or is the reset line: a resume releases it, and the two pulses move it. So
the look is enough for whatever is done with the sequencer. The controller chooses its revision by
it, so the run that its power task keeps to drives rails with a pin, and the pins show every write.
-/

namespace RailSequencer

namespace EdgeTables

variable {tables : EdgeTables} {wired : List Rail} {state : PowerState}

theorem drivesOnly_iff :
    tables.drivesOnly wired = true ↔
      .sysRstL ∈ wired ∧ ∀ write ∈ tables.writes, write.rail ∈ wired := by
  simp [drivesOnly]

theorem mem_writes_of_mem_edge {write : RailWrite} (entry : write ∈ tables.edge state) :
    write ∈ tables.writes := by
  cases state with
  | s5s3 | s3s0 | s0s3 | s3s5 =>
    simp only [edge] at entry
    simp [writes, entry]
  | _ => exact absurd entry List.not_mem_nil

end EdgeTables

/-- Everything that is driven has a wire. -/
def DrivesWired (wired : List Rail) (writes : List (Rail × Level)) : Prop :=
  ∀ write ∈ writes, write.1 ∈ wired

namespace DrivesWired

variable {wired : List Rail} {first second writes : List (Rail × Level)}

theorem append (earlier : DrivesWired wired first) (later : DrivesWired wired second) :
    DrivesWired wired (first ++ second) :=
  List.forall_mem_append.mpr ⟨earlier, later⟩

theorem of_sysRstL (reset : .sysRstL ∈ wired) (only : ∀ write ∈ writes, write.1 = .sysRstL) :
    DrivesWired wired writes :=
  fun write member => only write member ▸ reset

end DrivesWired

/-- What one use of the sequencer asks for, whichever way it is used and however far it comes. -/
inductive PowerTree.Use (tree : PowerTree) : List Exchange → Prop where
  | start {boot : BootInfo} {memory : Memory} {trace : List Exchange} {task : Task PowerState}
      (reached : (Program.start tree boot memory).Reaches trace task) : Use tree trace
  | step {state : PowerState} {memory : Memory} {trace : List Exchange} {task : Task PowerState}
      (reached : (Program.step tree state memory).Reaches trace task) : Use tree trace
  /-- The endless loop, from any state; resets are served on the way. -/
  | run {state : PowerState} {memory : Memory} {events : List Event} {position : Position}
      (run : Steps tree (.enter state memory) events position) : Use tree (Event.exchanges events)
  | pulse {memory : Memory} {trace : List Exchange} {task : Task Unit}
      (reached : (Program.pulseReset memory).Reaches trace task) : Use tree trace
  /-- A pulse by a caller that cannot sleep. -/
  | pulseBlocking {memory : Memory} {trace : List Exchange} {task : Task Unit}
      (reached : (Program.pulseResetBlocking memory).Reaches trace task) : Use tree trace

section Uses

variable {tree : PowerTree} {wired : List Rail}

/-- However far a task has come, what it has driven is driven by a run of it. -/
theorem DrivesWired.of_runs {α : Type} {task later : Task α} {trace : List Exchange}
    (reached : task.Reaches trace later)
    (runs : ∀ {trace memory result}, task.Runs trace memory result →
      DrivesWired wired (Exchange.writes trace)) : DrivesWired wired (Exchange.writes trace) := by
  obtain ⟨rest, memory, result, run⟩ := reached.extend
  have whole := runs run
  rw [Exchange.writes_append] at whole
  exact (List.forall_mem_append.mp whole).1

/-- Steps drive entries of the tables, and the reset line. -/
theorem Program.drivesWired_step (drives : tree.tables.drivesOnly wired = true) {state : PowerState}
    {memory : Memory} {trace : List Exchange} {task : Task PowerState}
    (reached : (step tree state memory).Reaches trace task) :
    DrivesWired wired (Exchange.writes trace) := by
  obtain ⟨reset, entries⟩ := EdgeTables.drivesOnly_iff.mp drives
  intro write driven
  rcases write_of_reaches reached driven with tabled | ⟨-, rfl⟩
  · obtain ⟨entry, member, rfl⟩ := List.mem_map.mp tabled
    exact entries entry (EdgeTables.mem_writes_of_mem_edge member)
  · exact reset

/-- In the loop nothing but steps and pulses drives anything. -/
def LoopInvariant.drivesWired (drives : tree.tables.drivesOnly wired = true) :
    LoopInvariant tree where
  top events _ _ := DrivesWired wired (Event.writes events)
  begun events _ _ := DrivesWired wired (Event.writes events)
  rest events _ _ := DrivesWired wired (Event.writes events)
  serve := by
    intro events state memory trace final before served
    rw [Event.writes_part rfl]
    have reset := (EdgeTables.drivesOnly_iff.mp drives).1
    exact before.append (.of_sysRstL reset (Program.serveReset_writes served))
  change := by
    intro events state memory trace worked next before run different
    rw [Event.writes_part rfl]
    exact before.append (Program.drivesWired_step drives run)
  settle := by
    intro events state memory trace worked next before run same stable
    rw [Event.writes_part rfl]
    exact before.append (Program.drivesWired_step drives run)
  retry := by
    intro events state memory trace worked next before run same unstable
    rw [Event.writes_part rfl]
    exact before.append (Program.drivesWired_step drives run)
  hear := by
    intro events state memory call before
    rw [Event.writes_concat rfl]
    exact before
  wake := by
    intro events state memory before woken
    rw [Event.writes_concat rfl]
    exact before

theorem Steps.drivesWired (drives : tree.tables.drivesOnly wired = true) {state : PowerState}
    {memory : Memory} {events : List Event} {position : Position}
    (run : Steps tree (.enter state memory) events position) :
    DrivesWired wired (Event.writes events) := by
  have entered : (LoopInvariant.drivesWired drives).top [] state (memory.publish state) :=
    fun _ member => absurd member List.not_mem_nil
  have holds := LoopInvariant.holds_of_enter entered run
  cases position with
  | serving state task =>
    obtain ⟨earlier, memory, trace, before, reached, rfl⟩ := holds
    rw [Event.writes_append, Event.writes_asked]
    have reset := (EdgeTables.drivesOnly_iff.mp drives).1
    exact before.append (.of_sysRstL reset (Program.serveReset_writes reached))
  | stepping state task =>
    obtain ⟨earlier, memory, trace, before, reached, rfl⟩ := holds
    rw [Event.writes_append, Event.writes_asked]
    exact before.append (Program.drivesWired_step drives reached)
  | resting state memory => exact holds

/-- Whatever is done with the sequencer, it drives wired rails only. -/
theorem PowerTree.Use.drivesWired (drives : tree.tables.drivesOnly wired = true)
    {trace : List Exchange} (use : tree.Use trace) : DrivesWired wired (Exchange.writes trace) := by
  have reset := (EdgeTables.drivesOnly_iff.mp drives).1
  cases use with
  | start reached =>
    apply DrivesWired.of_runs reached
    intro trace final state run
    rw [Program.start_writes run]
    exact fun _ member => absurd member List.not_mem_nil
  | step reached => exact Program.drivesWired_step drives reached
  | run run => exact run.drivesWired drives
  | pulse reached =>
    apply DrivesWired.of_runs reached
    intro trace final answer run
    rw [Exchange.writes, (Program.pulseReset_runs run).1]
    exact .of_sysRstL reset (by decide)
  | pulseBlocking reached =>
    apply DrivesWired.of_runs reached
    intro trace final answer run
    obtain ⟨_, _, _, rfl, held⟩ := Program.runs_ask_bind_iff.mp run
    obtain ⟨_, _, _, rfl, spun⟩ := Program.runs_ask_bind_iff.mp held
    obtain ⟨_, rfl, -⟩ := Program.runs_ask_iff.mp spun
    change DrivesWired wired [(.sysRstL, .low), (.sysRstL, .high)]
    exact .of_sysRstL reset (by decide)

end Uses

namespace Controller

/-- Every wired rail has a pin. -/
theorem exists_pin {rail : Rail} (wired : rail ∈ wiredRails) : ∃ pin, pinOf? rail = some pin := by
  have pins : ∀ rail ∈ wiredRails, (pinOf? rail).isSome = true := by decide
  exact Option.isSome_iff_exists.mp (pins rail wired)

/-- Whatever number is stored, the tree that runs drives wired rails only. -/
theorem drivesOnly_runningRevision (hardwareVersion : UInt8) :
    (PowerTree.ofRevision (runningRevision hardwareVersion)).tables.drivesOnly wiredRails =
      true := by
  rw [PowerTree.tables_ofRevision, runningRevision]
  cases chosen : drivable? hardwareVersion with
  | none => decide
  | some revision => exact (Option.filter_eq_some_iff.mp chosen).2

/-- Of the built-in trees it is the simplified one. -/
theorem runningRevision_eq (hardwareVersion : UInt8) : runningRevision hardwareVersion = .v2 := by
  rw [runningRevision]
  cases chosen : drivable? hardwareVersion with
  | none => rfl
  | some revision =>
    have drives := (Option.filter_eq_some_iff.mp chosen).2
    cases revision with
    | v2 => rfl
    | v0 | v1 => exact absurd drives (by decide)

theorem Hardware.treeAt_eq (before : Hardware) (reason : ResetReason) :
    before.treeAt reason = .ofRevision .v2 := by
  rw [treeAt, runningRevision_eq]

/-- Since it was booted, the power task of a controller has kept to a run of the simplified tree,
which began running or hard off, with the outputs to match. -/
theorem Live.SinceBoot.onRun {live : Live} (sinceBoot : live.SinceBoot) : ∃ resumes entered,
    live.OnRun (.ofRevision .v2) (.enter (if resumes then .s0 else .g3) entered)
      ((EdgeTables.ofRevision .v2).restingLevels resumes) (.ofBool resumes) := by
  obtain ⟨before, reason, since⟩ := sinceBoot
  obtain ⟨_, entered, _, -, rfl, begun⟩ := onRun_boot before reason
  rw [before.treeAt_eq] at begun
  exact ⟨_, entered, since.onRun (PowerTree.pauses_ofRevision _) begun⟩

/-- Where the power task rests its run has come to rest, and the pins show all of it. -/
theorem Live.SinceBoot.atRest {live : Live} {memory : Memory} {state : PowerState}
    (sinceBoot : live.SinceBoot) (parked : live.ram.power = .resting memory state) :
    ∃ resumes entered events,
      Steps (.ofRevision .v2) (.enter (if resumes then .s0 else .g3) entered) events
        (.resting state { memory with mailbox := live.ram.mailbox }) ∧
      live.Shows (((EdgeTables.ofRevision .v2).restingLevels resumes).driveAll
        (Event.writes events)) ∧
      live.ShowsUsb (usbAfterAll (.ofBool resumes) (Event.notified events)) := by
  obtain ⟨resumes, entered, -, trace, comes, shows, shownUsb⟩ := sinceBoot.onRun
  rw [parked] at comes
  cases comes with
  | atRest run => exact ⟨resumes, entered, _, run, shows, shownUsb⟩
  | inTurn _ _ waits => cases waits

/-- Whatever is done with it, the tree that runs drives rails with a pin only. -/
theorem exists_pin_of_use {hardwareVersion : UInt8} {trace : List Exchange}
    (use : (PowerTree.ofRevision (runningRevision hardwareVersion)).Use trace) :
    ∀ write ∈ Exchange.writes trace, ∃ pin, pinOf? write.1 = some pin := by
  intro write driven
  have drives := drivesOnly_runningRevision hardwareVersion
  exact exists_pin (use.drivesWired drives write driven)

/-- `EdgeTables.drivesOnly` is sound: whatever is done with a sequencer whose tables it accepts
drives wired rails only. So whatever number is stored, the tree that the controller picks drives
rails with a pin only. And whatever is done in a session, the power task of a controller that is on
keeps to a run of the tree that the last boot picked: it began in the state that the start picked,
the controller publishes the state that it has come to, and the pins show all that has been driven
in it since the outputs were set up. -/
theorem drivesOnly_sound :
    (∀ (tree : PowerTree) (wired : List Rail), tree.tables.drivesOnly wired = true →
      ∀ trace, tree.Use trace → ∀ write ∈ Exchange.writes trace, write.1 ∈ wired) ∧
    (∀ (hardwareVersion : UInt8) (trace : List Exchange),
      (PowerTree.ofRevision (runningRevision hardwareVersion)).Use trace →
        ∀ write ∈ Exchange.writes trace, ∃ pin, pinOf? write.1 = some pin) ∧
    ∀ (hardware : Hardware) (timed : List Timed) (commands : List Session.Command) (live : Live),
      (Session.executeAll ⟨.off hardware, timed⟩ commands).power = .on live →
      ∃ before reason first entered state events position,
        Live.Since (boot before reason) live ∧
        (Program.start (before.treeAt reason) (before.infoAt reason)
          { mailbox := before.mailboxAt reason }).Runs first entered state ∧
        (state = if before.resumesAt reason then .s0 else .g3) ∧
        Steps (before.treeAt reason) (.enter state entered) events position ∧
        live.ram.mailbox.published = position.state ∧
        (∀ write ∈ Event.writes events, ∃ pin, pinOf? write.1 = some pin) ∧
        live.Shows (((before.treeAt reason).tables.restingLevels
          (before.resumesAt reason)).driveAll (Event.writes events)) := by
  refine ⟨fun tree wired drives trace use => use.drivesWired drives,
    fun hardwareVersion trace use => exists_pin_of_use use, ?_⟩
  intro hardware timed commands live on
  obtain ⟨before, reason, since⟩ := Session.sinceBoot_executeAll on
  obtain ⟨first, entered, state, started, picked, begun⟩ := Live.onRun_boot before reason
  obtain ⟨-, trace, comes, shows⟩ := since.onRun (PowerTree.pauses_ofRevision _) begun
  obtain ⟨events, position, run, rfl, published⟩ := comes.steps
  exact ⟨before, reason, first, entered, state, events, position, since, started, picked, run,
    published, exists_pin_of_use (.run run), shows⟩

/-- The simplified tree is powered up to S3, and a controller is booted whose stored revision it
cannot drive. -/
theorem drivesOnly_sound_afterPowerUp :
    (PowerTree.ofRevision .v2).tables.drivesOnly wiredRails = true ∧
    Event.writes (toSuspended .v2).1 ≠ [] ∧
    (∀ write ∈ Event.writes (toSuspended .v2).1, write.1 ∈ wiredRails) ∧
    (∀ write ∈ Event.writes (toSuspended .v2).1, ∃ pin, pinOf? write.1 = some pin) ∧
    drivable? 1 = none ∧
    ∃ live before reason entered state events position,
      (Session.executeAll ⟨.off { flash := ⟨true, [.hardwareVersion 1]⟩ }, []⟩
        [.apply (.boot .power)]).power = .on live ∧
      Live.Since (boot before reason) live ∧
      Steps (before.treeAt reason) (.enter state entered) events position ∧
      ∀ write ∈ Event.writes events, ∃ pin, pinOf? write.1 = some pin := by
  obtain ⟨sound, pins, sessions⟩ := drivesOnly_sound
  have drives : (PowerTree.ofRevision .v2).tables.drivesOnly wiredRails = true := by decide
  have use : (PowerTree.ofRevision .v2).Use (Event.exchanges (toSuspended .v2).1) :=
    .run (Steps.rehearse _ _ _)
  have chosen : runningRevision 1 = .v2 := by decide
  obtain ⟨before, reason, first, entered, state, events, position, since, -, -, run, -, driven,
    -⟩ := sessions { flash := ⟨true, [.hardwareVersion 1]⟩ } [] [.apply (.boot .power)] _ rfl
  exact ⟨drives, by decide +kernel, sound _ _ drives _ use, pins 1 _ (chosen ▸ use), by decide, _,
    before, reason, entered, state, events, position, rfl, since, run, driven⟩

end Controller

end RailSequencer
