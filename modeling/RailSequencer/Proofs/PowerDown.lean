import Mathlib.Data.List.Induction
import RailSequencer.Proofs.Rehearsal
import RailSequencer.Proofs.RestingLevels

/-!
# The levels that a power-down leaves

Back in hard off, every rail but the reset line has the level on which a cold boot would set it up.
Nothing that leads there drives the reset line: only power-ups, resumes and reset pulses do. It
keeps what the last of these left on it, and only the power-up of a split tree leaves it low.
-/

namespace RailSequencer

/-- A rail has the level that was last driven on it, or the one that it had at first. -/
theorem RailAssignment.get_driveAll_eq_lookup (levels : RailAssignment Level) (rail : Rail)
    (writes : List (Rail × Level)) :
    (levels.driveAll writes).get rail = (writes.reverse.lookup rail).getD (levels.get rail) := by
  induction writes using List.reverseRecOn with
  | nil => rfl
  | append_singleton writes write inductionHypothesis =>
    have last : levels.driveAll (writes ++ [write]) =
        (levels.driveAll writes).set write.1 write.2 := by
      rw [RailAssignment.driveAll_append]
      rfl
    rw [last, RailAssignment.get_set, List.reverse_append, List.reverse_singleton,
      List.singleton_append, List.lookup_cons]
    by_cases here : write.1 = rail
    · simp [here]
    · have elsewhere : (rail == write.1) = false := beq_eq_false_iff_ne.mpr (Ne.symm here)
      simp [here, elsewhere, inductionHypothesis]

/-- Of the built-in tables only those of the power-ups drive the reset line. -/
theorem EdgeTables.eq_s5s3_of_sysRstL {revision : Revision} {state : PowerState} {level : Level}
    (driven : (.sysRstL, level) ∈
      ((PowerTree.ofRevision revision).tables.edge state).map RailWrite.output) :
    state = .s5s3 ∧ level = if revision = .v2 then .high else .low := by
  have entries : ∀ state ∈ PowerState.all,
      ∀ write ∈ (PowerTree.ofRevision revision).tables.edge state, write.rail = .sysRstL →
        state = .s5s3 ∧ write.level = if revision = .v2 then .high else .low := by
    cases revision <;> decide +kernel
  obtain ⟨write, member, same⟩ := List.mem_map.mp driven
  obtain ⟨rail, rfl⟩ := Prod.ext_iff.mp same
  exact entries state state.mem_all write member rail

section Runs

variable {revision : Revision} {entered : PowerState} {memory : Memory} {events : List Event}
  {event : Event} {position following : Position}

/-- What drives the reset line is a pulse, the release by a resume, or the table of a power-up. -/
theorem Move.drives_sysRstL
    (run : Steps (.ofRevision revision) (.enter entered memory) events position)
    (move : Move (.ofRevision revision) position event following) {level : Level}
    (driven : event.write? = some (.sysRstL, level)) :
    (∃ state task, position = .serving state task) ∨
      (∃ task, position = .stepping .s3s0 task) ∧ level = .high ∨
      (∃ task, position = .stepping .s5s3 task) ∧
        level = if revision = .v2 then .high else .low := by
  cases move with
  | serve => exact .inl ⟨_, _, rfl⟩
  | @work state _ request _ calls answer =>
    obtain ⟨begun, trace, reached⟩ := run.reached_step
    have asked := reached.answer calls answer
    have driving : request.write? = some (.sysRstL, level) := driven
    have written : (.sysRstL, level) ∈ Exchange.writes (trace ++ [⟨request, calls, answer⟩]) := by
      simp [Exchange.writes, Request.writes, driving]
    rcases Program.write_of_reaches asked written with entry | ⟨rfl, release⟩
    · obtain ⟨rfl, powersUp⟩ := EdgeTables.eq_s5s3_of_sysRstL entry
      exact .inr (.inr ⟨⟨_, rfl⟩, powersUp⟩)
    · exact .inr (.inl ⟨⟨_, rfl⟩, (Prod.ext_iff.mp release).2⟩)
  | begin | conclude | hear | wake => exact absurd driven (Option.some_ne_none _).symm

/-- On the built-in trees, started hard off on the levels of hard off: wherever the power task is
back in hard off between two steps, every rail but the reset line has its resting level. The
outputs as a whole have theirs unless the reset line was driven high last. And only pulses, resumes
and power-ups drive it, never a power-down. -/
theorem levels_of_hardOff
    (run : Steps (.ofRevision revision) (.enter .g3 memory) events position)
    (boundary : position.isBoundary = true) (off : position.state = .g3) :
    (∀ rail ≠ .sysRstL,
        (((EdgeTables.ofRevision revision).restingLevels false).driveAll
          (Event.writes events)).get rail =
        ((EdgeTables.ofRevision revision).restingLevels false).get rail) ∧
      (((EdgeTables.ofRevision revision).restingLevels false).driveAll (Event.writes events) =
          (EdgeTables.ofRevision revision).restingLevels false ↔
        (Event.writes events).reverse.lookup .sysRstL ≠ some .high) ∧
      ∀ place seen level,
        Seen (.ofRevision revision) (.enter .g3 memory) events position place seen →
        seen.write? = some (.sysRstL, level) →
        (∃ state task, place = .serving state task) ∨
          (∃ task, place = .stepping .s3s0 task) ∧ level = .high ∨
          (∃ task, place = .stepping .s5s3 task) ∧
            level = if revision = .v2 then .high else .low := by
  have balanced := EdgeTables.balanced_ofRevision revision
  rw [← PowerTree.tables_ofRevision] at balanced ⊢
  have started : (PowerTree.ofRevision revision).tables.Settled .g3
      ((PowerTree.ofRevision revision).tables.restingLevels false) := fun _ _ => rfl
  have settled := settled_of_balanced _ balanced started run boundary
  rw [off] at settled
  refine ⟨settled, ?_, ?_⟩
  · have resting : ((PowerTree.ofRevision revision).tables.restingLevels false).get .sysRstL =
        .low := by
      simp [EdgeTables.restingLevels, Level.ofBool]
    have line := RailAssignment.get_driveAll_eq_lookup
      ((PowerTree.ofRevision revision).tables.restingLevels false) .sysRstL (Event.writes events)
    rw [resting] at line
    constructor
    · intro same high
      rw [same, resting, high] at line
      exact absurd line (by decide)
    · intro notHigh
      have low : (((PowerTree.ofRevision revision).tables.restingLevels false).driveAll
          (Event.writes events)).get .sysRstL = .low := by
        rw [line]
        cases last : (Event.writes events).reverse.lookup .sysRstL with
        | none => rfl
        | some level =>
          cases level with
          | low => rfl
          | high => exact absurd last notHigh
      ext rail
      by_cases reset : rail = .sysRstL
      · rw [reset, low, resting]
      · exact settled rail reset
  · rintro place seen level ⟨earlier, rest, following, -, prior, move, -⟩ driven
    exact move.drives_sysRstL prior driven

end Runs

/-- The first tree is powered on with every line asserted, and a shutdown is requested in each of
`down` turns after the first `up`. -/
def onAndOff (up down : Nat) : List Event × Position :=
  (Position.enter .g3 (({} : Memory).hear [.requestPowerOn])).rehearse (.ofRevision .v0)
    (List.replicate up (.steady .allLines) ++
      List.replicate down ((Answering.steady .allLines).calling [.requestShutdown]))

/-- A shutdown during power-up leaves every output on its resting level. -/
theorem levels_of_hardOff_neverResumed :
    (onAndOff 3 5).2.state = .g3 ∧
    ((EdgeTables.ofRevision .v0).restingLevels false).driveAll (Event.writes (onAndOff 3 5).1) =
      (EdgeTables.ofRevision .v0).restingLevels false := by
  have off : (onAndOff 3 5).2.state = .g3 := by decide +kernel
  have levels := levels_of_hardOff (Steps.rehearse (.ofRevision .v0) _ _) (by decide +kernel) off
  exact ⟨off, levels.2.1.mpr (by decide +kernel)⟩

/-- A shutdown from S0 does not: the processor is off, and its reset line is high. -/
theorem levels_of_hardOff_resumed :
    Steps (.ofRevision .v0) (.enter .g3 (({} : Memory).hear [.requestPowerOn])) (onAndOff 6 6).1
      (onAndOff 6 6).2 ∧
    (onAndOff 6 6).2.isBoundary = true ∧ (onAndOff 6 6).2.state = .g3 ∧
    (((EdgeTables.ofRevision .v0).restingLevels false).driveAll
      (Event.writes (onAndOff 6 6).1)).get .sysRstL = .high ∧
    ((EdgeTables.ofRevision .v0).restingLevels false).get .sysRstL = .low :=
  ⟨.rehearse _ _ _, by decide +kernel, by decide +kernel, by decide +kernel, by decide +kernel⟩

end RailSequencer
