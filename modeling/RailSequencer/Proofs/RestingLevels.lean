import RailSequencer.PowerTree.Revisions
import RailSequencer.Proofs.Loop

/-!
# The level of every rail follows from the state

Between two steps every rail but the reset line has a level that the state alone decides, whatever
happened before: aborted suspends, retried resumes, refused power-ups and reset pulses leave no
mark. This holds of every set of tables that is `Balanced`, and the built-in tables are.

The reset line is left out because pulses and the release of a held reset drive it between tables.
-/

namespace RailSequencer

/-- A built-in tree moves its supplies by the built-in tables of its revision. -/
theorem PowerTree.tables_ofRevision (revision : Revision) :
    (ofRevision revision).tables = .ofRevision revision := by
  cases revision <;> rfl

/-- A property of every rail is decided rail by rail. -/
instance Rail.decidableForall {property : Rail → Prop} [DecidablePred property] :
    Decidable (∀ rail, property rail) :=
  decidable_of_iff (∀ rail ∈ Rail.all, property rail)
    ⟨fun all rail => all rail rail.mem_all, fun all rail _ => all rail⟩

namespace RailAssignment

variable (levels other : RailAssignment Level) {writes : List (Rail × Level)} {rail : Rail}

/-- The levels after output lines have been driven, the first one first. -/
def driveAll (writes : List (Rail × Level)) : RailAssignment Level :=
  writes.foldl (fun current write => current.set write.1 write.2) levels

theorem driveAll_append (first second : List (Rail × Level)) :
    levels.driveAll (first ++ second) = (levels.driveAll first).driveAll second :=
  List.foldl_append

/-- Writing a table is driving its entries. -/
theorem driveAll_output (table : List RailWrite) :
    levels.driveAll (table.map RailWrite.output) = levels.writeAll table :=
  List.foldl_map

/-- A line that is not driven keeps its level. -/
theorem get_driveAll_of_not_mem (untouched : rail ∉ writes.map Prod.fst) :
    (levels.driveAll writes).get rail = levels.get rail := by
  induction writes generalizing levels with
  | nil => rfl
  | cons write rest inductionHypothesis =>
    rw [List.map_cons, List.mem_cons, not_or] at untouched
    have kept := inductionHypothesis (levels.set write.1 write.2) untouched.2
    rw [get_set, if_neg (Ne.symm untouched.1)] at kept
    exact kept

/-- What a line had before matters only if it is not driven. -/
theorem get_driveAll_congr
    (decided : rail ∈ writes.map Prod.fst ∨ levels.get rail = other.get rail) :
    (levels.driveAll writes).get rail = (other.driveAll writes).get rail := by
  induction writes generalizing levels other with
  | nil =>
    rcases decided with driven | same
    · exact absurd driven List.not_mem_nil
    · exact same
  | cons write rest inductionHypothesis =>
    apply inductionHypothesis
    rw [get_set, get_set]
    by_cases here : write.1 = rail
    · rw [if_pos here, if_pos here]
      exact .inr rfl
    · rw [if_neg here, if_neg here]
      rcases decided with driven | same
      · rcases List.mem_cons.mp driven with first | later
        · exact absurd first.symm here
        · exact .inl later
      · exact .inr same

/-- A line either keeps its level or has one that was driven on it. -/
theorem get_driveAll_cases (rail : Rail) (writes : List (Rail × Level)) :
    (levels.driveAll writes).get rail = levels.get rail ∨
      (rail, (levels.driveAll writes).get rail) ∈ writes := by
  induction writes generalizing levels with
  | nil => exact .inl rfl
  | cons write rest inductionHypothesis =>
    rcases inductionHypothesis (levels.set write.1 write.2) with kept | driven
    · rw [get_set] at kept
      by_cases here : write.1 = rail
      · rw [if_pos here] at kept
        refine .inr (List.mem_cons.mpr (.inl ?_))
        exact Prod.ext here.symm kept
      · rw [if_neg here] at kept
        exact .inl kept
    · exact .inr (List.mem_cons_of_mem write driven)

end RailAssignment

namespace EdgeTables

/-- The levels in S3: power-up from hard off has gone as far as it goes without a resume. -/
def suspendedLevels (tables : EdgeTables) : RailAssignment Level :=
  (tables.restingLevels false).writeAll tables.s5s3

/-- Each edge leads where its neighbours expect it to, on every rail but the reset line. -/
structure Balanced (tables : EdgeTables) : Prop where
  /-- Power-down undoes power-up. -/
  powerDown : ∀ rail ≠ .sysRstL,
    (tables.suspendedLevels.writeAll tables.s3s5).get rail = (tables.restingLevels false).get rail
  /-- A resume leads to the levels of a running processor. -/
  resume : ∀ rail ≠ .sysRstL,
    (tables.suspendedLevels.writeAll tables.s3s0).get rail = (tables.restingLevels true).get rail
  /-- A suspend leads back from there. -/
  suspend : ∀ rail ≠ .sysRstL,
    ((tables.restingLevels true).writeAll tables.s0s3).get rail = tables.suspendedLevels.get rail
  /-- Every single write of a suspend is final, so a suspend may stop anywhere. -/
  partway : ∀ write ∈ tables.s0s3, write.level = tables.suspendedLevels.get write.rail

/-- The level that a state allows a rail. Only a resume that has not succeeded leaves a choice. -/
def Allows (tables : EdgeTables) (state : PowerState) (rail : Rail) (level : Level) : Prop :=
  match state with
  | .g3 | .g3s5 | .s5 | .s5s3 | .s5g3 => level = (tables.restingLevels false).get rail
  | .s3 | .s3s5 => level = tables.suspendedLevels.get rail
  | .s0 | .s0s3 => level = (tables.restingLevels true).get rail
  | .s3s0 => level = tables.suspendedLevels.get rail ∨
    rail ∈ tables.s3s0.map RailWrite.rail ∧ level = (tables.restingLevels true).get rail

/-- Every rail but the reset line has a level that the state allows. -/
def Settled (tables : EdgeTables) (state : PowerState) (levels : RailAssignment Level) : Prop :=
  ∀ rail ≠ .sysRstL, tables.Allows state rail (levels.get rail)

/-- The built-in tables are balanced. -/
theorem balanced_ofRevision (revision : Revision) : (ofRevision revision).Balanced where
  powerDown := by cases revision <;> decide +kernel
  resume := by cases revision <;> decide +kernel
  suspend := by cases revision <;> decide +kernel
  partway := by cases revision <;> decide +kernel

namespace Settled

variable {tables : EdgeTables} {levels : RailAssignment Level} {state : PowerState}

/-- Driving the reset line settles and unsettles nothing. -/
theorem driveAll_sysRstL (settled : tables.Settled state levels) {writes : List (Rail × Level)}
    (only : ∀ write ∈ writes, write.1 = .sysRstL) :
    tables.Settled state (levels.driveAll writes) := by
  intro rail apart
  have untouched : rail ∉ writes.map Prod.fst := by
    intro driven
    obtain ⟨write, member, rfl⟩ := List.mem_map.mp driven
    exact apart (only write member)
  rw [RailAssignment.get_driveAll_of_not_mem levels untouched]
  exact settled rail apart

/-- A table takes levels that agree with a reference where the reference says. -/
theorem writeAll_congr {reference : RailAssignment Level} {rail : Rail} (table : List RailWrite)
    (same : levels.get rail = reference.get rail) :
    (levels.driveAll (table.map RailWrite.output)).get rail =
      (reference.writeAll table).get rail := by
  rw [← RailAssignment.driveAll_output]
  exact RailAssignment.get_driveAll_congr levels reference (.inr same)

end Settled

variable {tables : EdgeTables} {levels : RailAssignment Level}

/-- A resume leaves the levels of a running processor, from wherever it begins. -/
theorem Balanced.resumed (balanced : tables.Balanced) (settled : tables.Settled .s3s0 levels)
    {rail : Rail} (apart : rail ≠ .sysRstL) :
    (levels.driveAll (tables.s3s0.map RailWrite.output)).get rail =
      (tables.restingLevels true).get rail := by
  rw [← balanced.resume rail apart, ← RailAssignment.driveAll_output]
  apply RailAssignment.get_driveAll_congr
  rcases settled rail apart with suspended | ⟨written, -⟩
  · exact .inr suspended
  · rw [List.map_map]
    exact .inl written

/-- A suspend that stops anywhere leaves what a resume may begin from. -/
theorem Balanced.calledOff (balanced : tables.Balanced) (settled : tables.Settled .s0s3 levels)
    {writes : List (Rail × Level)} (begun : writes <+: tables.s0s3.map RailWrite.output) :
    tables.Settled .s3s0 (levels.driveAll writes) := by
  intro rail apart
  rcases RailAssignment.get_driveAll_cases levels rail writes with kept | driven
  · rw [kept]
    by_cases written : rail ∈ tables.s3s0.map RailWrite.rail
    · exact .inr ⟨written, settled rail apart⟩
    · have untouched : rail ∉ (tables.s3s0.map RailWrite.output).map Prod.fst := by
        rw [List.map_map]
        exact written
      have same := balanced.resume rail apart
      rw [← RailAssignment.driveAll_output,
        RailAssignment.get_driveAll_of_not_mem _ untouched] at same
      exact .inl ((settled rail apart).trans same.symm)
  · obtain ⟨write, member, same⟩ := List.mem_map.mp (begun.subset driven)
    have final := balanced.partway write member
    obtain ⟨rfl, level⟩ := Prod.ext_iff.mp same
    exact .inl (level.symm.trans final)

end EdgeTables

namespace Transition

variable {tree : PowerTree} {levels : RailAssignment Level} {memory final : Memory}
  {trace : List Exchange} {state next : PowerState}

/-- Where a step drives nothing, what its state allows is allowed by the next. -/
private theorem settled_quiet (settled : tree.tables.Settled state levels)
    (edge : next ∈ state.successors) (quiet : state ∉ [.s5s3, .s3s0, .s0s3, .s3s5]) :
    tree.tables.Settled next levels := by
  intro rail apart
  have allowed := settled rail apart
  cases state with
  | s3 =>
    simp only [PowerState.successors, List.mem_cons, List.not_mem_nil, or_false] at edge
    rcases edge with rfl | rfl | rfl
    · exact allowed
    · exact allowed
    · exact .inl allowed
  | s5g3 =>
    obtain rfl := List.mem_singleton.mp edge
    exact allowed
  | s5s3 | s3s0 | s0s3 | s3s5 => exact absurd (by decide) quiet
  | g3 | s5 | s0 | g3s5 =>
    simp only [PowerState.successors, List.mem_cons, List.not_mem_nil, or_false] at edge
    rcases edge with rfl | rfl
    · exact allowed
    · exact allowed

/-- A step takes settled levels to settled levels. -/
theorem settled (balanced : tree.tables.Balanced)
    (transition : Transition tree memory state trace final next)
    (before : tree.tables.Settled state levels) :
    tree.tables.Settled next (levels.driveAll (Exchange.writes trace)) := by
  have drives := transition.drives
  have edge := transition.mem_successors
  cases state with
  | s5s3 =>
    have written : Exchange.writes trace = _ := drives
    simp only [PowerState.successors, List.mem_cons, List.not_mem_nil, or_false] at edge
    rw [written]
    intro rail apart
    have level := EdgeTables.Settled.writeAll_congr tree.tables.s5s3 (before rail apart)
    rcases edge with rfl | rfl
    · exact level
    · exact level
  | s3s5 =>
    have written : Exchange.writes trace = _ := drives
    obtain rfl := List.mem_singleton.mp edge
    rw [written]
    intro rail apart
    have level := EdgeTables.Settled.writeAll_congr tree.tables.s3s5 (before rail apart)
    exact level.trans (balanced.powerDown rail apart)
  | s3s0 =>
    have written : Exchange.writes trace = _ := drives
    simp only [PowerState.successors, List.mem_cons, List.not_mem_nil, or_false] at edge
    have resumed : tree.tables.Settled .s0
        (levels.driveAll (tree.tables.s3s0.map RailWrite.output)) :=
      fun rail apart => balanced.resumed before apart
    rw [written, RailAssignment.driveAll_append]
    have only : ∀ write ∈ (if memory.resetHeld then [(Rail.sysRstL, Level.high)] else []),
        write.1 = .sysRstL := by
      split <;> simp
    have released := resumed.driveAll_sysRstL only
    rcases edge with rfl | rfl
    · exact released
    · -- The wait failed. The levels are those of S0, as if a suspend had not begun to write.
      exact balanced.calledOff released List.nil_prefix
  | s0s3 =>
    obtain ⟨begun, whole⟩ : _ ∧ _ := drives
    simp only [PowerState.successors, List.mem_cons, List.not_mem_nil, or_false] at edge
    rcases edge with rfl | rfl
    · rw [whole rfl]
      intro rail apart
      have level := EdgeTables.Settled.writeAll_congr tree.tables.s0s3 (before rail apart)
      exact level.trans (balanced.suspend rail apart)
    · exact balanced.calledOff before begun
  | _ =>
    have written : Exchange.writes trace = [] := drives
    rw [written]
    exact settled_quiet before edge (by decide)

end Transition

section Runs

variable {tree : PowerTree} {memory : Memory} {state : PowerState} {events : List Event}
  {position : Position} (levels : RailAssignment Level)

/-- The levels after one part of a turn. -/
private theorem driveAll_part {event : Event} (silent : event.exchange? = none)
    (trace : List Exchange) :
    levels.driveAll (Event.writes (events ++ trace.map .asked ++ [event])) =
      (levels.driveAll (Event.writes events)).driveAll (Exchange.writes trace) := by
  rw [Event.writes_part silent, RailAssignment.driveAll_append]

/-- Levels that are settled where the power task is started are settled at every point of the
loop. -/
def LoopInvariant.settled (balanced : tree.tables.Balanced) : LoopInvariant tree where
  top events state _ := tree.tables.Settled state (levels.driveAll (Event.writes events))
  begun events state _ := tree.tables.Settled state (levels.driveAll (Event.writes events))
  rest events state _ := tree.tables.Settled state (levels.driveAll (Event.writes events))
  serve := by
    intro events state memory trace final settled served
    rw [driveAll_part levels rfl]
    exact settled.driveAll_sysRstL (Program.serveReset_writes served)
  change := by
    intro events state memory trace worked next settled run different
    rw [driveAll_part levels rfl]
    exact (Program.step_runs run).settled balanced settled
  settle := by
    intro events state memory trace worked next settled run same stable
    rw [driveAll_part levels rfl]
    exact (Program.step_runs run).settled balanced settled
  retry := by
    intro events state memory trace worked next settled run same unstable
    rw [driveAll_part levels rfl]
    exact (Program.step_runs run).settled balanced settled
  hear := by
    intro events state memory call settled
    rw [Event.writes_concat rfl]
    exact settled
  wake := by
    intro events state memory settled woken
    rw [Event.writes_concat rfl]
    exact settled

/-- Whatever the board answers and other tasks call, the levels between two steps are settled if
they were when the power task was started. -/
theorem settled_of_balanced (balanced : tree.tables.Balanced)
    (started : tree.tables.Settled state levels)
    (run : Steps tree (.enter state memory) events position)
    (boundary : position.isBoundary = true) :
    tree.tables.Settled position.state (levels.driveAll (Event.writes events)) := by
  have entered : (LoopInvariant.settled levels balanced).top [] state (memory.publish state) :=
    started
  have holds := LoopInvariant.holds_of_enter entered run
  cases position with
  | serving state task =>
    obtain ⟨earlier, memory, trace, settled, reached, rfl⟩ := holds
    rw [Event.writes_append, Event.writes_asked, RailAssignment.driveAll_append]
    exact EdgeTables.Settled.driveAll_sysRstL settled (Program.serveReset_writes reached)
  | stepping state task => exact absurd boundary Bool.false_ne_true
  | resting state memory => exact holds

/-- The levels of the built-in trees follow from the state: started hard off on the levels of hard
off, or running on the levels of a running processor, every run has settled levels between any two
steps. -/
theorem settled_ofRevision {revision : Revision}
    (started : state = .g3 ∧ levels = (EdgeTables.ofRevision revision).restingLevels false ∨
      state = .s0 ∧ levels = (EdgeTables.ofRevision revision).restingLevels true)
    (run : Steps (.ofRevision revision) (.enter state memory) events position)
    (boundary : position.isBoundary = true) :
    (EdgeTables.ofRevision revision).Settled position.state
      (levels.driveAll (Event.writes events)) := by
  have tables : (PowerTree.ofRevision revision).tables = .ofRevision revision := by
    cases revision <;> rfl
  rw [← tables] at started ⊢
  apply settled_of_balanced levels _ _ run boundary
  · rw [tables]
    exact EdgeTables.balanced_ofRevision revision
  · rcases started with ⟨rfl, rfl⟩ | ⟨rfl, rfl⟩
    · exact fun _ _ => rfl
    · exact fun _ _ => rfl

/-- A warm reset and a suspend that is called off at once: the resume begins on settled levels. -/
theorem settled_ofRevision_suspendCalledOff : ∃ events memory,
    Steps (.ofRevision .v2) (.enter .s0 { mailbox := { resetRequested := some .warm } }) events
      (.serving .s3s0 (.done memory ())) ∧
    Event.writes events = [(.sysRstL, .low), (.sysRstL, .high)] ∧
    (EdgeTables.ofRevision .v2).Settled .s3s0
      (((EdgeTables.ofRevision .v2).restingLevels true).driveAll (Event.writes events)) := by
  have pulse : Steps (.ofRevision .v2)
      (.enter .s0 { mailbox := { resetRequested := some .warm } }) _ _ :=
    .move (.move (.move .refl (.serve [] ())) (.serve [] ())) (.serve [] ())
  have leaves := Steps.move (.move (.move pulse .begin) (.work [] SignalMask.empty)) (.conclude rfl)
  have slice := Steps.move (.move (.move leaves .begin) (.work [] ())) (.work [] ())
  have aborts := Steps.move (.move slice (.work [] SignalMask.suspendDeasserted)) (.conclude rfl)
  exact ⟨_, _, aborts, rfl, settled_ofRevision _ (.inr ⟨rfl, rfl⟩) aborts rfl⟩

end Runs

end RailSequencer
