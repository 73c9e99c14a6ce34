import RailSequencer.Proofs.RestingLevels
import RailSequencer.Proofs.Unasked

/-!
# The reset line while it is held

On the earlier trees power-up drives the reset line low, and it is to stay low until a resume
releases it. Steps keep to that: none but a resume drives the line high. Serving a reset request
does not. It is a pulse wherever it is served, and the end of the pulse leaves the line high, also
while it is held. So the line stays low for as long as nobody asks for a reset, and no longer.
-/

namespace RailSequencer

namespace EdgeTables

/-- No table drives the reset line high, except that of a resume perhaps. -/
structure HoldsReset (tables : EdgeTables) : Prop where
  powerUp : (.sysRstL, .high) ∉ tables.s5s3.map RailWrite.output
  suspend : (.sysRstL, .high) ∉ tables.s0s3.map RailWrite.output
  powerDown : (.sysRstL, .high) ∉ tables.s3s5.map RailWrite.output

theorem holdsReset_ofRevision {revision : Revision} (early : revision ≠ .v2) :
    (PowerTree.ofRevision revision).tables.HoldsReset := by
  cases revision with
  | v0 => exact ⟨by decide, by decide, by decide⟩
  | v1 => exact ⟨by decide, by decide, by decide⟩
  | v2 => exact absurd rfl early

end EdgeTables

/-- A line that is low stays so while it is not driven high. -/
theorem RailAssignment.get_driveAll_low {levels : RailAssignment Level} {rail : Rail}
    {writes : List (Rail × Level)} (low : levels.get rail = .low) (never : (rail, .high) ∉ writes) :
    (levels.driveAll writes).get rail = .low := by
  rcases levels.get_driveAll_cases rail writes with kept | driven
  · exact kept.trans low
  · cases level : (levels.driveAll writes).get rail with
    | low => rfl
    | high =>
      rw [level] at driven
      exact absurd driven never

/-- Power-up drives the reset line low. -/
def TakesHold (position : Position) (event : Event) : Prop :=
  (∃ task, position = .stepping .s5s3 task) ∧ event.write? = some (.sysRstL, .low)

/-- A resume drives the reset line high. -/
def ReleasesHold (position : Position) (event : Event) : Prop :=
  (∃ task, position = .stepping .s3s0 task) ∧ event.write? = some (.sysRstL, .high)

/-- A pulse that serves a reset request ends. -/
def EndsPulse (position : Position) (event : Event) : Prop :=
  (∃ state task, position = .serving state task) ∧ event.write? = some (.sysRstL, .high)

namespace Program

variable {tree : PowerTree} {state : PowerState} {memory : Memory} {trace : List Exchange}

/-- However far a step has come, if it has driven the reset line high it is a resume. -/
theorem eq_s3s0_of_reaches (holds : tree.tables.HoldsReset) {task : Task PowerState}
    (reached : (step tree state memory).Reaches trace task)
    (high : (.sysRstL, .high) ∈ Exchange.writes trace) : state = .s3s0 := by
  obtain ⟨rest, final, next, run⟩ := reached.extend
  have drives := (step_runs run).drives
  have driven : (.sysRstL, .high) ∈ Exchange.writes (trace ++ rest) := by
    rw [Exchange.writes_append]
    exact List.mem_append_left _ high
  cases state with
  | s3s0 => rfl
  | s5s3 => exact absurd (drives ▸ driven) holds.powerUp
  | s0s3 => exact absurd (drives.1.subset driven) holds.suspend
  | s3s5 => exact absurd (drives ▸ driven) holds.powerDown
  | _ => exact absurd (drives ▸ driven) List.not_mem_nil

end Program

section Window

variable {tree : PowerTree} {entered : PowerState} {memory : Memory} {events later : List Event}
  {event : Event} {position first following final : Position}

/-- The reset line is driven high by resumes and by pulses only. -/
theorem Move.releases_or_endsPulse (holds : tree.tables.HoldsReset)
    (run : Steps tree (.enter entered memory) events position)
    (move : Move tree position event following) (high : event.write? = some (.sysRstL, .high)) :
    ReleasesHold position event ∨ EndsPulse position event := by
  cases move with
  | serve calls answer => exact .inr ⟨⟨_, _, rfl⟩, high⟩
  | @work state _ request _ calls answer =>
    obtain ⟨begun, trace, reached⟩ := run.reached_step
    have asked := reached.answer calls answer
    have driven : request.write? = some (.sysRstL, .high) := high
    have resumes := Program.eq_s3s0_of_reaches holds asked (by
      simp [Exchange.writes, Request.writes, driven])
    subst resumes
    exact .inl ⟨⟨_, rfl⟩, high⟩
  | begin | conclude | hear | wake => exact absurd high (Option.some_ne_none _).symm

/-- A pulse does not end where there is none. -/
theorem Position.Unasked.not_endsPulse (unasked : position.Unasked)
    (move : Move tree position event following) : ¬EndsPulse position event := by
  rintro ⟨⟨state, task, rfl⟩, high⟩
  obtain ⟨memory, rfl, -⟩ := unasked
  cases move with
  | begin => exact absurd high nofun

/-- The line is not released before a resume begins. -/
theorem Steps.not_releasesHold (window : Steps tree first later final)
    (apart : first.state ≠ .s3s0) (unbegun : ∀ memory, .began .s3s0 memory ∉ later) :
    ∀ place seen, Seen tree first later final place seen → ¬ReleasesHold place seen := by
  rintro place seen ⟨earlier, rest, following, rfl, prior, -, -⟩ ⟨⟨task, rfl⟩, -⟩
  rcases prior.began with ⟨before, rfl⟩ | ⟨memory, member⟩
  · exact apart rfl
  · exact unbegun memory (List.mem_append_left _ member)

/-- On the earlier trees, from where power-up drives the reset line low until a resume releases it,
and however other tasks call: what drives the line high is the end of a pulse that serves a reset
request, and nothing else. As long as no pulse ends the line is low, and no pulse ends if no reset
request was pending at first and none came since. -/
theorem reset_held_unless_pulsed {revision : Revision} (early : revision ≠ .v2)
    (levels : RailAssignment Level)
    (run : Steps (.ofRevision revision) (.enter entered memory) events position)
    (taking : Move (.ofRevision revision) position event first) (takes : TakesHold position event)
    (window : Steps (.ofRevision revision) first later final)
    (held : ∀ place seen, Seen (.ofRevision revision) first later final place seen →
      ¬ReleasesHold place seen) :
    (∀ place seen, Seen (.ofRevision revision) first later final place seen →
        seen.write? = some (.sysRstL, .high) → EndsPulse place seen) ∧
      ((∀ place seen, Seen (.ofRevision revision) first later final place seen →
          ¬EndsPulse place seen) →
        (.sysRstL, .high) ∉ Event.writes later ∧
          (levels.driveAll (Event.writes (events ++ event :: later))).get .sysRstL = .low) ∧
      (first.memory.mailbox.resetRequested = none →
        (∀ seen ∈ later, ∀ call ∈ seen.calls, ¬call.AsksReset) →
        ∀ place seen, Seen (.ofRevision revision) first later final place seen →
          ¬EndsPulse place seen) := by
  have begun := run.move taking
  have pulses {place : Position} {seen : Event}
      (sees : Seen (.ofRevision revision) first later final place seen)
      (high : seen.write? = some (.sysRstL, .high)) : EndsPulse place seen := by
    have ⟨earlier, _, following, _, prior, move, _⟩ := sees
    exact (move.releases_or_endsPulse (EdgeTables.holdsReset_ofRevision early)
      (begun.trans prior) high).resolve_left (held place seen sees)
  refine ⟨fun place seen => pulses, ?_, ?_⟩
  · intro unpulsed
    have never : (.sysRstL, .high) ∉ Event.writes later := by
      intro driven
      obtain ⟨seen, member, high⟩ := Event.mem_writes_iff.mp driven
      obtain ⟨place, sees⟩ := window.seen_of_mem member
      exact unpulsed place seen sees (pulses sees high)
    refine ⟨never, ?_⟩
    have low : ((levels.driveAll (Event.writes events)).set .sysRstL .low).get .sysRstL = .low := by
      rw [RailAssignment.get_set, if_pos rfl]
    have stays := RailAssignment.get_driveAll_low low never
    rw [Event.writes_append, Event.writes_cons, takes.2, RailAssignment.driveAll_append]
    exact stays
  · intro quiet others place seen sees
    obtain ⟨earlier, rest, following, rfl, prior, move, -⟩ := sees
    have unasked : first.Unasked := by
      obtain ⟨⟨task, rfl⟩, low⟩ := takes
      cases taking with
      | work => exact quiet
      | conclude => exact absurd low nofun
    refine (begun.unasked unasked prior ?_).not_endsPulse move
    exact fun event member => others event (List.mem_append_left _ member)

end Window

/-- On v1 six requests of a power-up come before the one that drives the reset line low. -/
private theorem Move.powerUp_takesHold (memory : Memory)
    (answer : (request : Request) → List Mailbox.Call × request.Answer) :
    Move (.ofRevision .v1)
      (.stepping .s5s3 ((Program.step (.ofRevision .v1) .s5s3 memory).advance answer 6).2)
      (.asked ⟨.drive .sysRstL .low, (answer (.drive .sysRstL .low)).1, ()⟩)
      (.stepping .s5s3 ((Program.step (.ofRevision .v1) .s5s3 memory).advance answer 7).2) :=
  .work _ _

/-- After a power-up during which nobody asked for a reset, the line is low where the power task
rests in S3. -/
theorem reset_held_unless_pulsed_inS3 : ∃ events position event first later memory,
    Steps (.ofRevision .v1) (.enter .s5s3 {}) events position ∧
    Move (.ofRevision .v1) position event first ∧ TakesHold position event ∧
    Steps (.ofRevision .v1) first later (.resting .s3 memory) ∧
    (.sysRstL, .high) ∉ Event.writes later ∧
    (((EdgeTables.ofRevision .v1).restingLevels true).driveAll
      (Event.writes (events ++ event :: later))).get .sysRstL = .low := by
  let told : List Mailbox.Call := [.wake, .lid true]
  let supplied := fun request : Request =>
    (if request.event?.isSome then told else [], request.steadyAnswer .allLines)
  let powerUp := Program.step (.ofRevision .v1) .s5s3 ({ mailbox := { published := .s5s3 } })
  let powered : Memory := { mailbox := { published := .s5s3, woken := true }, resetHeld := true }
  have enters : Steps (.ofRevision .v1) (.enter .s5s3 {}) _ (.stepping .s5s3 powerUp) :=
    .move .refl .begin
  have reaches := enters.trans (.stepping (powerUp.reaches_advance supplied 6))
  have taking := Move.powerUp_takesHold { mailbox := { published := .s5s3 } } supplied
  have takes : TakesHold (.stepping .s5s3 (powerUp.advance supplied 6).2)
      (.asked ⟨.drive .sysRstL .low, [], ()⟩) := ⟨⟨_, rfl⟩, rfl⟩
  have rises : Steps (.ofRevision .v1) (.stepping .s5s3 (powerUp.advance supplied 7).2) _ _ :=
    Steps.finish supplied (by decide +kernel : _ = (powered, .s3)) (by decide)
  have looks := Steps.move (.move rises .begin) (.work [] (PowerTree.ofRevision .v1).pgoodS3)
  have rests := looks.move (.conclude rfl)
  have held := rests.not_releasesHold (by decide) (by simp)
  obtain ⟨-, low, quiet⟩ := reset_held_unless_pulsed (by decide)
    ((EdgeTables.ofRevision .v1).restingLevels true) reaches taking takes rests held
  exact ⟨_, _, _, _, _, _, reaches, taking, takes, rests, low (quiet rfl (by decide +kernel))⟩

/-- A reset request that comes while a power-up tells of its end is served in S3, where the pulse
leaves the reset line high, although it is still held. -/
theorem reset_released_byRequest : ∃ events position event first later memory,
    Steps (.ofRevision .v1) (.enter .g3 (({} : Memory).hear [.requestPowerOn])) events position ∧
    Move (.ofRevision .v1) position event first ∧ TakesHold position event ∧
    Steps (.ofRevision .v1) first later (.serving .s3 (.done memory ())) ∧
    (∀ place seen, Seen (.ofRevision .v1) first later (.serving .s3 (.done memory ())) place seen →
      ¬ReleasesHold place seen) ∧
    (.sysRstL, .high) ∈ Event.writes later ∧ memory.resetHeld = true ∧
    (((EdgeTables.ofRevision .v1).restingLevels false).driveAll
      (Event.writes (events ++ event :: later))).get .sysRstL = .high := by
  let asking : Memory := { mailbox := { published := .g3s5, woken := true } }
  let powering : Memory := { mailbox := { published := .s5s3, woken := true } }
  let powered : Memory :=
    { mailbox := { published := .s5s3, resetRequested := some .cold, woken := true }
      resetHeld := true }
  let told : List Mailbox.Call := [.requestReset .cold]
  let supplied := fun request : Request =>
    (if request.event?.isSome then told else [], request.steadyAnswer .allLines)
  let powerUp := Program.step (.ofRevision .v1) .s5s3 powering
  have leaves : Steps (.ofRevision .v1) (.enter .g3 (({} : Memory).hear [.requestPowerOn])) _
      (Turn.position asking (.next .g3s5)) :=
    .move (.move .refl .begin) (.conclude rfl)
  have agrees := (leaves.move .begin).trans
    (Steps.finish supplied (by decide +kernel : _ = (asking, .s5)) (by decide))
  have powers : Steps (.ofRevision .v1) _ _ (Turn.position powering (.next .s5s3)) :=
    .move (.move agrees .begin) (.conclude rfl)
  have reaches := (powers.move .begin).trans (.stepping (powerUp.reaches_advance supplied 6))
  have taking := Move.powerUp_takesHold powering supplied
  have rises : Steps (.ofRevision .v1) (.stepping .s5s3 (powerUp.advance supplied 7).2) _ _ :=
    Steps.finish supplied (by decide +kernel : _ = (powered, .s3)) (by decide)
  have pulses := Steps.move (.move (.move rises (.serve [] ())) (.serve [] ())) (.serve [] ())
  have held := pulses.not_releasesHold (by decide) (by simp)
  exact ⟨_, _, _, _, _, _, reaches, taking, ⟨⟨_, rfl⟩, rfl⟩, pulses, held, by decide +kernel, rfl,
    by decide +kernel⟩

end RailSequencer
