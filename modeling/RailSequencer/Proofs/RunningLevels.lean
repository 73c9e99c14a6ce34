import RailSequencer.Proofs.HeldFlag
import RailSequencer.Proofs.PowerDown
import RailSequencer.Proofs.UsbPorts
import RailSequencer.Proofs.Wiring

/-!
# The outputs of a running processor

Where the power task rests in S0, every output is on the level on which a boot sets it up that
finds the processor running: the rails have settled, the reset line is released, and the USB
switches are on. What came before makes no difference, be it reset pulses, suspends that were called
off or whole power cycles.

The reset line needs an invariant of its own, because pulses move it between steps. It is carried
through S3, where a line that still counts as held will be released by the resume.
-/

namespace RailSequencer

namespace PowerState

/-- Where the processor runs the reset line is high. Where a resume may come next the line is high,
or counts as held, so that the resume will release it. -/
def SettlesReset (state : PowerState) (held : Bool) (line : Level) : Prop :=
  (state = .s0 ∨ state = .s0s3 → line = .high) ∧
    (state = .s3 ∨ state = .s3s0 → held = true ∨ line = .high)

instance (state : PowerState) (held : Bool) (line : Level) :
    Decidable (state.SettlesReset held line) :=
  inferInstanceAs (Decidable (_ ∧ _))

/-- On the levels of a running processor the reset line is released, and hard off does not ask for
anything. -/
theorem SettlesReset.ofBool (running held : Bool) :
    (if running then PowerState.s0 else .g3).SettlesReset held (.ofBool running) := by
  cases running <;> cases held <;> decide

/-- After a power-up the line counts as held, whatever the table did to it. -/
theorem SettlesReset.powerUp {next : PowerState} (edge : next ∈ PowerState.s5s3.successors)
    (line : Level) : next.SettlesReset true line := by
  have all : ∀ next ∈ PowerState.s5s3.successors, next.SettlesReset true line := by
    cases line <;> decide
  exact all next edge

/-- A step other than a power-up or a resume takes the flag and the line along. -/
theorem SettlesReset.step {state next : PowerState} {held : Bool} {line : Level}
    (settles : state.SettlesReset held line) (edge : next ∈ state.successors)
    (powered : state ≠ .s5s3) (resumed : state ≠ .s3s0) : next.SettlesReset held line := by
  have all (held : Bool) : state.SettlesReset held line → ∀ next ∈ state.successors,
      next.SettlesReset held line := by
    cases state with
    | s5s3 => exact absurd rfl powered
    | s3s0 => exact absurd rfl resumed
    | _ => cases held <;> cases line <;> decide
  exact all held settles next edge

end PowerState

section ResetLine

variable {revision : Revision} {memory final : Memory} {trace : List Exchange}
  {state next : PowerState} (levels : RailAssignment Level)

/-- Power-ups aside, tables leave the reset line alone. -/
theorem EdgeTables.not_mem_of_ne_s5s3 (other : state ≠ .s5s3) :
    .sysRstL ∉ (((PowerTree.ofRevision revision).tables.edge state).map RailWrite.output).map
      Prod.fst := by
  intro driven
  obtain ⟨⟨rail, level⟩, entry, rfl⟩ := List.mem_map.mp driven
  exact other (EdgeTables.eq_s5s3_of_sysRstL entry).1

theorem Transition.settlesReset
    (transition : Transition (.ofRevision revision) memory state trace final next)
    (before : state.SettlesReset memory.resetHeld (levels.get .sysRstL)) :
    next.SettlesReset final.resetHeld
      ((levels.driveAll (Exchange.writes trace)).get .sysRstL) := by
  have edge := transition.mem_successors
  have turned := transition.resetHeld
  obtain ⟨tabled, begun, whole⟩ := transition.writes_eq
  rw [turned, whole, RailAssignment.driveAll_append]
  by_cases powered : state = .s5s3
  · subst powered
    exact .powerUp edge _
  have untouched : (levels.driveAll tabled).get .sysRstL = levels.get .sysRstL := by
    apply RailAssignment.get_driveAll_of_not_mem
    exact fun driven => EdgeTables.not_mem_of_ne_s5s3 powered
      ((begun.map Prod.fst).subset driven)
  by_cases resumed : state = .s3s0
  · subst resumed
    have released : ((levels.driveAll tabled).driveAll
        (PowerState.release .s3s0 memory.resetHeld)).get .sysRstL = .high := by
      cases held : memory.resetHeld with
      | true => simp [PowerState.release, RailAssignment.driveAll]
      | false =>
        have line := (before.2 (.inr rfl)).resolve_left (Bool.eq_false_iff.mp held)
        exact untouched.trans line
    rw [released]
    exact ⟨fun _ => rfl, fun _ => .inr rfl⟩
  · have nothing : state.release memory.resetHeld = [] := by
      simp [PowerState.release, resumed]
    have kept : state.heldAfter memory.resetHeld = memory.resetHeld := by
      cases state with
      | s5s3 => exact absurd rfl powered
      | s3s0 => exact absurd rfl resumed
      | _ => rfl
    rw [nothing, kept]
    change next.SettlesReset _ ((levels.driveAll tabled).get .sysRstL)
    rw [untouched]
    exact before.step edge powered resumed

/-- A pulse that is over leaves the line high, and where there is none the line stays. -/
theorem Program.settlesReset_serveReset
    (served : (Program.serveReset memory).Runs trace final ())
    (before : state.SettlesReset memory.resetHeld (levels.get .sysRstL)) :
    state.SettlesReset final.resetHeld
      ((levels.driveAll (Exchange.writes trace)).get .sysRstL) := by
  obtain ⟨asked, rfl⟩ := Program.serveReset_runs served
  rw [Exchange.writes, asked]
  split
  · have pulsed : (levels.driveAll (Request.writes pulseRequests)).get .sysRstL = .high := by
      change ((levels.set .sysRstL .low).set .sysRstL .high).get .sysRstL = .high
      simp
    rw [pulsed]
    exact ⟨fun _ => rfl, fun _ => .inr rfl⟩
  · exact before

/-- Wherever a turn begins, a step begins, or the power task rests, the reset line has settled. -/
def LoopInvariant.settlesReset (revision : Revision) : LoopInvariant (.ofRevision revision) where
  top events state memory := state.SettlesReset memory.resetHeld
    ((levels.driveAll (Event.writes events)).get .sysRstL)
  begun events state memory := state.SettlesReset memory.resetHeld
    ((levels.driveAll (Event.writes events)).get .sysRstL)
  rest events state memory := state.SettlesReset memory.resetHeld
    ((levels.driveAll (Event.writes events)).get .sysRstL)
  serve := by
    intro events state memory trace final before served
    rw [Event.writes_part rfl, RailAssignment.driveAll_append]
    exact Program.settlesReset_serveReset _ served before
  change := by
    intro events state memory trace worked next before run _
    rw [Event.writes_part rfl, RailAssignment.driveAll_append]
    exact (Program.step_runs run).settlesReset _ before
  settle := by
    intro events state memory trace worked next before run _ _
    rw [Event.writes_part rfl, RailAssignment.driveAll_append]
    exact (Program.step_runs run).settlesReset _ before
  retry := by
    intro events state memory trace worked next before run _ _
    rw [Event.writes_part rfl, RailAssignment.driveAll_append]
    exact (Program.step_runs run).settlesReset _ before
  hear := by
    intro events state memory call before
    rw [Event.writes_concat rfl]
    exact before
  wake := by
    intro events state memory before _
    rw [Event.writes_concat rfl]
    exact before

end ResetLine

section Running

variable {revision : Revision} {resumes : Bool} {entered rested : Memory} {events : List Event}

/-- On the built-in trees, started hard off on the levels of hard off, or running on the levels of a
running processor: wherever the power task rests in S0, the rails are on the levels of a running
processor, the reset line included. -/
theorem Steps.levels_running
    (run : Steps (.ofRevision revision) (.enter (if resumes then .s0 else .g3) entered) events
      (.resting .s0 rested)) :
    ((EdgeTables.ofRevision revision).restingLevels resumes).driveAll (Event.writes events) =
      (EdgeTables.ofRevision revision).restingLevels true := by
  have started (powered : Bool) : ((EdgeTables.ofRevision revision).restingLevels powered).get
      .sysRstL = .ofBool powered := by simp [EdgeTables.restingLevels]
  ext rail
  by_cases reset : rail = .sysRstL
  · have entering : (LoopInvariant.settlesReset
        ((EdgeTables.ofRevision revision).restingLevels resumes) revision).top []
        (if resumes then .s0 else .g3) (entered.publish (if resumes then .s0 else .g3)) := by
      change PowerState.SettlesReset _ _
        (((EdgeTables.ofRevision revision).restingLevels resumes).get .sysRstL)
      rw [started]
      exact .ofBool resumes _
    have holds := LoopInvariant.holds_of_enter entering run
    rw [reset, holds.1 (.inl rfl), started]
    rfl
  · have balanced := EdgeTables.balanced_ofRevision revision
    rw [← PowerTree.tables_ofRevision] at balanced ⊢
    have begun : (PowerTree.ofRevision revision).tables.Settled (if resumes then .s0 else .g3)
        ((PowerTree.ofRevision revision).tables.restingLevels resumes) := by
      cases resumes with
      | true => exact fun _ _ => rfl
      | false => exact fun _ _ => rfl
    exact settled_of_balanced _ balanced begun run rfl rail reset

end Running

namespace Controller

/-- Wherever the power task of a booted controller rests in S0, the pins show a running
processor. -/
theorem Live.SinceBoot.shows_running {live : Live} {memory : Memory} (sinceBoot : live.SinceBoot)
    (parked : live.ram.power = .resting memory .s0) :
    live.Shows ((EdgeTables.ofRevision .v2).restingLevels true) ∧ live.ShowsUsb .high := by
  obtain ⟨_, _, _, run, shows, shownUsb⟩ := sinceBoot.atRest parked
  rw [run.levels_running] at shows
  rw [usb_of_steps run rfl .high rfl] at shownUsb
  exact ⟨shows, shownUsb⟩

end Controller

end RailSequencer
