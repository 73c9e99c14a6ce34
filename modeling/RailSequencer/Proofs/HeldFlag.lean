import RailSequencer.Proofs.Rehearsal
import RailSequencer.Proofs.RestingLevels
import RailSequencer.Proofs.Unasked

/-!
# What the flag of the held reset line tells

A power-up sets the flag and a resume clears it, whatever becomes of either, and no other step
turns it. So it is never set while the processor runs. Where it is set in S3, or while a resume is
tried, the last thing that was driven was the table of the power-up, unless a reset pulse came
between.

The power-up sets the flag without a look at that table. The tables of the split trees drive the
line low, so there the flag tells the truth; that of the simplified tree releases the line as it
goes, and there the flag is wrong wherever it is set.
-/

namespace RailSequencer

/-- The flag of the held reset line after a step, if it was `held` before. -/
def PowerState.heldAfter : PowerState → Bool → Bool
  | .s5s3, _ => true
  | .s3s0, _ => false
  | _, held => held

namespace Transition

variable {tree : PowerTree} {memory final : Memory} {trace : List Exchange}
  {state next : PowerState}

/-- Only power-up and resume turn the flag, and they do so also when their supplies do not come. -/
theorem resetHeld (transition : Transition tree memory state trace final next) :
    final.resetHeld = state.heldAfter memory.resetHeld := by
  cases transition with
  | suspends told completed idled looked pressed whole => cases pressed <;> rfl
  | _ => rfl

/-- A processor that runs after a step has just been released, or ran before. -/
theorem released_of_running (transition : Transition tree memory state trace final next)
    (before : state = .s0 ∨ state = .s0s3 → memory.resetHeld = false)
    (running : next = .s0 ∨ next = .s0s3) : final.resetHeld = false := by
  have edge := transition.mem_successors
  rw [transition.resetHeld]
  cases state with
  | s3s0 => rfl
  | s0 => exact before (.inl rfl)
  | _ =>
    rcases running with rfl | rfl
    · exact absurd edge (by decide)
    · exact absurd edge (by decide)

end Transition

/-- While the processor runs, nothing is held. -/
def LoopInvariant.released (tree : PowerTree) : LoopInvariant tree where
  top _ state memory := state = .s0 ∨ state = .s0s3 → memory.resetHeld = false
  begun _ state memory := state = .s0 ∨ state = .s0s3 → memory.resetHeld = false
  rest _ state memory := state = .s0 ∨ state = .s0s3 → memory.resetHeld = false
  serve := by
    intro events state memory trace final released served running
    rw [(Program.serveReset_runs served).2]
    exact released running
  change := by
    intro events state memory trace worked next released run _ running
    exact (Program.step_runs run).released_of_running released running
  settle := by
    intro events state memory trace worked next released run _ _ running
    exact (Program.step_runs run).released_of_running released running
  retry := by
    intro events state memory trace worked next released run _ _ running
    exact (Program.step_runs run).released_of_running released running
  hear released := released
  wake released _ := released

/-- In a run that starts hard off nothing is held while the processor runs, also in the middle of a
step. -/
theorem Steps.released_of_running {tree : PowerTree} {memory : Memory} {events : List Event}
    {position : Position} (run : Steps tree (.enter .g3 memory) events position)
    (running : position.state = .s0 ∨ position.state = .s0s3) :
    position.memory.resetHeld = false := by
  have entered : (LoopInvariant.released tree).top [] .g3 (memory.publish .g3) := by
    intro off
    rcases off with off | off
    · exact absurd off (by decide)
    · exact absurd off (by decide)
  have holds := LoopInvariant.holds_of_enter entered run
  cases position with
  | serving state task =>
    obtain ⟨_, memory, trace, released, reached, -⟩ := holds
    have served := congrArg Memory.resetHeld (Program.serveReset_memory reached)
    exact served.trans (released running)
  | stepping state task =>
    obtain ⟨_, memory, trace, released, reached, -⟩ := holds
    have neither : state.turnsHold = false := by
      obtain rfl | rfl : state = .s0 ∨ state = .s0s3 := running
      · rfl
      · rfl
    exact (Program.step_resetHeld tree neither reached).trans (released running)
  | resting state memory => exact holds running

section Level

variable {tree : PowerTree} {memory : Memory} {events : List Event} {position : Position}
  (levels : RailAssignment Level)

/-- Nothing is held while the processor runs, and what is held in S3, or while a resume is tried, is
on the level that power-up left. -/
private def AsPoweredUp (tree : PowerTree) (events : List Event) (state : PowerState)
    (held : Bool) : Prop :=
  (state = .s0 ∨ state = .s0s3 → held = false) ∧
    (state = .s3 ∨ state = .s3s0 → held = true →
      (levels.driveAll (Event.writes events)).get .sysRstL =
        tree.tables.suspendedLevels.get .sysRstL)

/-- A step that leads to S3 or a resume with the line held is a power-up, or drives nothing. -/
private theorem asPoweredUp_step (driven : .sysRstL ∈ tree.tables.s5s3.map RailWrite.rail)
    {state next : PowerState} {trace : List Exchange} {worked final : Memory}
    (before : AsPoweredUp levels tree events state memory.resetHeld)
    (transition : Transition tree memory.takeShutdown state trace worked next) :
    AsPoweredUp levels tree
      (events ++ .began state memory :: trace.map .asked ++ [.ended next final]) next
      worked.resetHeld := by
  refine ⟨transition.released_of_running before.1, ?_⟩
  intro suspended held
  have turned := transition.resetHeld
  have drives := transition.drives
  have edge := transition.mem_successors
  rw [Event.writes_step, RailAssignment.driveAll_append]
  cases state with
  | s5s3 =>
    have table : Exchange.writes trace = tree.tables.s5s3.map RailWrite.output := drives
    rw [table, EdgeTables.suspendedLevels, ← RailAssignment.driveAll_output]
    apply RailAssignment.get_driveAll_congr
    rw [List.map_map]
    exact .inl driven
  | s3 =>
    have nothing : Exchange.writes trace = [] := drives
    rw [nothing]
    exact before.2 (.inl rfl) (turned.symm.trans held)
  | s3s0 => exact absurd (turned.symm.trans held) Bool.false_ne_true
  | s0s3 =>
    have released : memory.resetHeld = false := before.1 (.inr rfl)
    exact absurd ((turned.trans released).symm.trans held) Bool.false_ne_true
  | _ =>
    rcases suspended with rfl | rfl
    · exact absurd edge (by decide)
    · exact absurd edge (by decide)

/-- The flag as a condition that whole steps carry on. -/
private def QuietInvariant.asPoweredUp
    (driven : .sysRstL ∈ tree.tables.s5s3.map RailWrite.rail) : QuietInvariant tree where
  between := AsPoweredUp levels tree
  step := asPoweredUp_step levels driven
  called := by
    intro events state held call before
    rw [AsPoweredUp, Event.writes_concat rfl]
    exact before
  woke := by
    intro events state held before
    rw [AsPoweredUp, Event.writes_concat rfl]
    exact before

/-- Started hard off, on any levels and with the flag set or not, in a run without reset requests:
wherever the reset line counts as held between two steps in S3 or S3S0, it is low on the split
trees. On the simplified tree it is high there. -/
theorem heldLine_low_iff {revision : Revision} (quiet : memory.mailbox.resetRequested = none)
    (run : Steps (.ofRevision revision) (.enter .g3 memory) events position)
    (others : ∀ event ∈ events, ∀ call ∈ event.calls, ¬call.AsksReset)
    (boundary : position.isBoundary = true)
    (suspended : position.state = .s3 ∨ position.state = .s3s0)
    (held : position.memory.resetHeld = true) :
    (levels.driveAll (Event.writes events)).get .sysRstL = .low ↔ revision ≠ .v2 := by
  have driven : .sysRstL ∈ (PowerTree.ofRevision revision).tables.s5s3.map RailWrite.rail := by
    cases revision <;> decide
  have entered : AsPoweredUp levels (.ofRevision revision) [] .g3 memory.resetHeld := by
    simp [AsPoweredUp]
  have invariant : (QuietInvariant.asPoweredUp levels driven).At events position :=
    QuietInvariant.at_of_steps entered quiet run others
  have level := (invariant.boundary boundary).2 suspended held
  rw [level]
  cases revision <;> decide +kernel

end Level

/-- The power task is asked to power on, and rests in S3 after five turns. -/
def toSuspended (revision : Revision) : List Event × Position :=
  (Position.enter .g3 (({} : Memory).hear [.requestPowerOn])).rehearse (.ofRevision revision)
    (List.replicate 5 (.steady (PowerTree.ofRevision revision).pgoodS3))

/-- On v1 the line is low where the power task rests in S3 after a power-up. -/
theorem heldLine_low_iff_afterPowerUp :
    (toSuspended .v1).2.state = .s3 ∧ (toSuspended .v1).2.memory.resetHeld = true ∧
    (((EdgeTables.ofRevision .v1).restingLevels false).driveAll
      (Event.writes (toSuspended .v1).1)).get .sysRstL = .low := by
  have state : (toSuspended .v1).2.state = .s3 := by decide +kernel
  have held : (toSuspended .v1).2.memory.resetHeld = true := by decide +kernel
  have faithful := heldLine_low_iff ((EdgeTables.ofRevision .v1).restingLevels false)
    (by decide) (Steps.rehearse (.ofRevision .v1) _ _) (by decide +kernel) (by decide +kernel)
    (.inl state) held
  exact ⟨state, held, faithful.mpr (by decide)⟩

/-- On v2 the line is high there, although it counts as held and nobody has asked for a reset. -/
theorem heldLine_high_afterPowerUp :
    Steps (.ofRevision .v2) (.enter .g3 (({} : Memory).hear [.requestPowerOn]))
      (toSuspended .v2).1 (toSuspended .v2).2 ∧
    (∀ event ∈ (toSuspended .v2).1, ∀ call ∈ event.calls, ¬call.AsksReset) ∧
    (toSuspended .v2).2.isBoundary = true ∧ (toSuspended .v2).2.state = .s3 ∧
    (toSuspended .v2).2.memory.resetHeld = true ∧
    (((EdgeTables.ofRevision .v2).restingLevels false).driveAll
      (Event.writes (toSuspended .v2).1)).get .sysRstL = .high :=
  ⟨.rehearse _ _ _, by decide +kernel, by decide +kernel, by decide +kernel, by decide +kernel,
    by decide +kernel⟩

end RailSequencer
