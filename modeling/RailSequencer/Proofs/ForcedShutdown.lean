import RailSequencer.PowerTree.Revisions
import RailSequencer.Proofs.Loop

/-!
# A forced shutdown is remembered

A shutdown that is requested anywhere in the loop reaches the beginning of the next step as a
request or as the flag that acts on it. The step that takes the processor out of G3 begins with a
clean flag, and it is the only one that forgets: from any other, the flag stays until the processor
is off.

So a request that comes between the publication of G3S5 and the step from it is dropped when the
charger agrees. This takes a reset pulse at that very moment.
-/

namespace RailSequencer

namespace Memory

/-- A shutdown was requested, and it has not been forgotten. -/
def Raised (memory : Memory) : Prop :=
  memory.forcingShutdown = true ∨ memory.mailbox.shutdownRequested = true

variable {memory final : Memory}

/-- Taking the request is no loss. -/
theorem Raised.takeShutdown (raised : memory.Raised) :
    memory.takeShutdown.forcingShutdown = true := by
  rcases raised with forcing | requested
  · simp [Memory.takeShutdown, forcing]
  · simp [Memory.takeShutdown, requested]

theorem Raised.of_heard (raised : memory.Raised) (heard : memory.mailbox.Heard final.mailbox)
    (flag : final.forcingShutdown = memory.forcingShutdown) : final.Raised := by
  rcases raised with forcing | requested
  · exact .inl (flag.trans forcing)
  · exact .inr (heard.shutdown requested)

/-- What was raised stays raised throughout a turn. -/
theorem respected_raised {holding judging : Bool} :
    Respected holding judging fun earlier later => earlier.Raised → later.Raised where
  trans first second := second ∘ first
  hear memory calls raised := raised.of_heard (memory.heard_hear calls) rfl
  works := by
    intro earlier later works
    induction works with
    | trans _ _ first second => exact second ∘ first
    | takeShutdown memory => exact fun raised => .inl raised.takeShutdown
    | force => exact fun _ => .inl rfl
    | refl | takeReset | dropPowerOn | hold | inhibit | cancelTimer => exact id

end Memory

namespace Position

/-- A raised shutdown is carried to the end of the part that the power task is in. -/
def Carries : Position → Prop
  | .serving _ task => ∀ trace final answer, task.Runs trace final answer → final.Raised
  | .stepping _ task => ∀ trace worked next, task.Runs trace worked next → worked.Raised
  | .resting _ memory => memory.Raised

variable {tree : PowerTree} {state : PowerState} {memory : Memory} {position final : Position}
  {event : Event}

theorem carries_serveReset (raised : memory.Raised) :
    (Position.serving state (Program.serveReset memory)).Carries := by
  intro trace final answer run
  exact (Program.works_serveReset memory).of_reaches Memory.respected_raised run raised

/-- Until a step begins, a raised shutdown is carried on. -/
theorem Carries.move (carries : position.Carries) (move : Move tree position event final)
    (waits : ∀ state memory, event ≠ .began state memory) : final.Carries := by
  cases move with
  | serve calls answer => exact fun _ _ _ run => carries _ _ _ (.ask run)
  | begin => exact absurd rfl (waits _ _)
  | work calls answer => exact fun _ _ _ run => carries _ _ _ (.ask run)
  | @conclude state next worked final turn concluded =>
    have raised : worked.Raised := carries _ _ _ (.refl _)
    rcases Program.conclude_cases concluded with
      ⟨-, -, rfl, rfl⟩ | ⟨-, -, rfl, rfl⟩ | ⟨-, rfl, rfl⟩
    · exact raised
    · exact carries_serveReset raised
    · have published : (worked.publish next).Raised := raised
      exact carries_serveReset published
  | @hear state memory call => exact Memory.Raised.of_heard carries (memory.heard_hear [call]) rfl
  | @wake state memory woken =>
    have taken : memory.takeWake.Raised := carries
    exact carries_serveReset taken

theorem Carries.steps {events : List Event} (carries : position.Carries)
    (run : Steps tree position events final)
    (waits : ∀ state memory, .began state memory ∉ events) : final.Carries := by
  induction run with
  | refl => exact carries
  | move _ last inductionHypothesis =>
    have before := inductionHypothesis fun state memory member =>
      waits state memory (List.mem_append_left _ member)
    apply before.move last
    rintro state memory rfl
    exact waits state memory (List.mem_append_right _ (List.mem_singleton.mpr rfl))

/-- A shutdown that is requested when others have called is carried on from there. -/
theorem carries_of_called {events : List Event}
    (run : Steps tree (.enter state memory) events position)
    (move : Move tree position event final) (called : event.calls ≠ [])
    (raised : (position.memory.hear event.calls).Raised) : final.Carries := by
  have holds := LoopInvariant.holds_of_enter
    (show (LoopInvariant.published tree).top [] state (memory.publish state) from rfl) run
  cases move with
  | serve calls answer =>
    obtain ⟨_, begun, _, -, reached, -⟩ := holds
    have rest := (Program.works_serveReset begun).rest reached calls answer
    exact fun _ _ _ ended => rest.of_reaches Memory.respected_raised ended raised
  | work calls answer =>
    obtain ⟨_, begun, _, -, reached, -⟩ := holds
    have rest := (Program.stretches_step tree _ begun).rest reached calls answer
    exact fun _ _ _ ended => rest.of_reaches Memory.respected_raised ended raised
  | hear call => exact raised
  | begin | conclude | wake => exact absurd rfl called

end Position

namespace Transition

variable {tree : PowerTree} {memory worked : Memory} {trace : List Exchange}
  {state next : PowerState}

/-- The step out of G3 ends with a flag that says whether the charger refused. -/
theorem forcing_g3s5 (transition : Transition tree memory .g3s5 trace worked next) :
    worked.forcingShutdown = true ∧ next = .g3 ∨
      worked.forcingShutdown = false ∧ next = .s5 := by
  cases transition with
  | @asksCharger _ _ ready _ polled calls unwanted whole leads =>
    cases refused : unwanted || !ready with
    | false =>
      rw [refused] at leads
      exact .inr ⟨rfl, leads⟩
    | true =>
      rw [refused] at leads
      exact .inl ⟨rfl, leads⟩

end Transition

namespace Event

/-- A shutdown is under way where a step begins or has ended. -/
def Forced : Event → Prop
  | .began _ memory => memory.forcingShutdown = true
  | .ended _ memory => memory.forcingShutdown = true
  | _ => True

/-- A step has ended in G3. -/
def TurnsOff : Event → Prop
  | .ended .g3 _ => True
  | _ => False

/-- Unless the processor has been turned off, a shutdown has been under way all the time, and it
still is. -/
def StillForced (events : List Event) (state : PowerState) (memory : Memory) : Prop :=
  (∀ event ∈ events, ¬event.TurnsOff) →
    state ≠ .g3 ∧ state ≠ .g3s5 ∧ memory.forcingShutdown = true ∧ ∀ event ∈ events, event.Forced

variable {events : List Event} {event : Event} {state next : PowerState} {memory later : Memory}

theorem StillForced.extend (forced : StillForced events state memory) (trace : List Exchange)
    (part : ¬event.TurnsOff → state ≠ .g3 → state ≠ .g3s5 → memory.forcingShutdown = true →
      next ≠ .g3 ∧ next ≠ .g3s5 ∧ later.forcingShutdown = true ∧ event.Forced) :
    StillForced (events ++ trace.map .asked ++ [event]) next later := by
  intro never
  rw [List.forall_mem_append, List.forall_mem_append, List.forall_mem_singleton] at never
  obtain ⟨⟨before, -⟩, last⟩ := never
  obtain ⟨notOff, notStarting, forcing, all⟩ := forced before
  obtain ⟨nextOff, nextStarting, forcingLater, here⟩ := part last notOff notStarting forcing
  refine ⟨nextOff, nextStarting, forcingLater, ?_⟩
  rw [List.forall_mem_append, List.forall_mem_append, List.forall_mem_singleton]
  refine ⟨⟨all, ?_⟩, here⟩
  intro event member
  obtain ⟨exchange, -, rfl⟩ := List.mem_map.mp member
  exact trivial

/-- At rest nothing happens to the flag. -/
theorem StillForced.extend_atRest (forced : StillForced events state memory)
    (same : later.forcingShutdown = memory.forcingShutdown) (quiet : event.Forced) :
    StillForced (events ++ [event]) state later := by
  have kept : StillForced (events ++ [].map .asked ++ [event]) state later :=
    forced.extend [] fun _ notOff notStarting forcing =>
      ⟨notOff, notStarting, same.trans forcing, quiet⟩
  rw [List.map_nil, List.append_nil] at kept
  exact kept

end Event

/-- A step that starts from a forced shutdown ends with one, or in G3. -/
private theorem still_forced {tree : PowerTree} {state next : PowerState} {memory worked : Memory}
    {trace : List Exchange} (run : (Program.step tree state memory).Runs trace worked next)
    (final : Memory) (same : final.forcingShutdown = worked.forcingShutdown)
    (notTurnedOff : ¬(Event.ended next final).TurnsOff) (notOff : state ≠ .g3)
    (notStarting : state ≠ .g3s5) (forcing : memory.forcingShutdown = true) :
    next ≠ .g3 ∧ next ≠ .g3s5 ∧ final.forcingShutdown = true ∧ (Event.ended next final).Forced := by
  have transition := Program.step_runs run
  have taken : memory.takeShutdown.forcingShutdown = true := by simp [Memory.takeShutdown, forcing]
  have kept := same.trans (transition.forcing_kept taken notStarting)
  refine ⟨?_, transition.ne_g3s5 notOff, kept, kept⟩
  rintro rfl
  exact notTurnedOff trivial

/-- A shutdown that is under way stays so until the processor is off. -/
def LoopInvariant.stillForced (tree : PowerTree) : LoopInvariant tree where
  top := Event.StillForced
  begun := Event.StillForced
  rest := Event.StillForced
  serve := by
    intro events state memory trace final forced served
    apply forced.extend trace
    intro _ notOff notStarting forcing
    have kept : final.forcingShutdown = true := by
      rw [(Program.serveReset_runs served).2]
      exact forcing
    exact ⟨notOff, notStarting, kept, kept⟩
  change := by
    intro events state memory trace worked next forced run different
    exact forced.extend trace (still_forced run (worked.publish next) rfl)
  settle := by
    intro events state memory trace worked next forced run same stable
    exact forced.extend trace (still_forced run worked rfl)
  retry := by
    intro events state memory trace worked next forced run same unstable
    exact forced.extend trace (still_forced run worked rfl)
  hear := by
    intro events state memory call forced
    exact forced.extend_atRest (memory.forcingShutdown_hear [call]) trivial
  wake := by
    intro events state memory forced woken
    exact forced.extend_atRest rfl trivial

/-- From where a shutdown is under way, it is seen to be under way. -/
theorem LoopInvariant.forced_of_holds {tree : PowerTree} {events : List Event}
    {position : Position} (holds : (LoopInvariant.stillForced tree).Holds events position)
    (never : ∀ event ∈ events, ¬event.TurnsOff) : ∀ event ∈ events, event.Forced := by
  have part {earlier : List Event} {state : PowerState} {memory : Memory} {trace : List Exchange}
      (forced : Event.StillForced earlier state memory)
      (never : ∀ event ∈ earlier ++ trace.map .asked, ¬event.TurnsOff) :
      ∀ event ∈ earlier ++ trace.map .asked, event.Forced := by
    rw [List.forall_mem_append] at never ⊢
    refine ⟨(forced never.1).2.2.2, ?_⟩
    intro event member
    obtain ⟨exchange, -, rfl⟩ := List.mem_map.mp member
    exact trivial
  cases position with
  | serving state task =>
    obtain ⟨earlier, memory, trace, forced, -, rfl⟩ := holds
    exact part forced never
  | stepping state task =>
    obtain ⟨earlier, memory, trace, forced, -, rfl⟩ := holds
    exact part forced never
  | resting state memory => exact (holds never).2.2.2

section Remembered

variable {tree : PowerTree} {entered state next boundary : PowerState}
  {initial begun ended : Memory} {position following final : Position} {event : Event}
  {before waiting working later events : List Event}

/-- Away from G3, and unless the processor is turned off, the state does not become G3. -/
theorem Steps.state_ne_g3 (run : Steps tree position events final) (away : position.state ≠ .g3)
    (never : ∀ event ∈ events, ¬event.TurnsOff) : final.state ≠ .g3 := by
  induction run with
  | refl => exact away
  | move _ last inductionHypothesis =>
    rw [List.forall_mem_append, List.forall_mem_singleton] at never
    have before := inductionHypothesis never.1
    cases last with
    | @conclude state next worked final turn concluded =>
      have reached : (turn.position final).state = next := by
        rcases Program.conclude_cases concluded with
          ⟨-, -, -, rfl⟩ | ⟨-, -, -, rfl⟩ | ⟨-, -, rfl⟩
        · rfl
        · rfl
        · rfl
      rw [reached]
      rintro rfl
      exact never.2 trivial
    | serve | begin | work | hear | wake => exact before

/-- The first step after a call begins with the flag set. -/
theorem Steps.first_step (carries : following.Carries)
    (run : Steps tree following
      (waiting ++ .began state begun :: (working ++ .ended next ended :: later)) final)
    (waits : ∀ state memory, .began state memory ∉ waiting)
    (works : ∀ next memory, .ended next memory ∉ working) :
    begun.takeShutdown.forcingShutdown = true ∧
      (∃ middle, Steps tree following waiting middle ∧ middle.state = state) ∧
      (∃ trace worked, (Program.step tree state begun).Runs trace worked next ∧
        ended.forcingShutdown = worked.forcingShutdown) ∧
      ∃ after, (after = .resting next ended ∨ after = .serving next (Program.serveReset ended)) ∧
        Steps tree after later final := by
  obtain ⟨middle, waited, rest⟩ := run.split
  obtain ⟨_, begins, rest⟩ := rest.uncons
  have carried := carries.steps waited waits
  cases begins with
  | begin =>
    have raised : begun.Raised := carried [] begun () (.refl _)
    obtain ⟨_, worked, rest⟩ := rest.split
    obtain ⟨_, trace, reached, rfl⟩ := worked.within_step works
    obtain ⟨_, ends, rest⟩ := rest.uncons
    refine ⟨raised.takeShutdown, ⟨_, waited, rfl⟩, ?_⟩
    cases ends with
    | conclude concluded =>
      rcases Program.conclude_cases concluded with
        ⟨-, -, rfl, rfl⟩ | ⟨-, -, rfl, rfl⟩ | ⟨-, rfl, rfl⟩
      · exact ⟨⟨trace, _, reached, rfl⟩, _, .inl rfl, rest⟩
      · exact ⟨⟨trace, _, reached, rfl⟩, _, .inr rfl, rest⟩
      · exact ⟨⟨trace, _, reached, rfl⟩, _, .inr rfl, rest⟩

/-- A shutdown that is requested away from G3 is remembered: the first step after the request ends
with the flag set, or in G3, unless it is the step out of G3 and the charger agrees; and if it is
not, the flag is set where any later step begins or has ended, until the processor is turned off. -/
theorem forcedShutdown_remembered
    (reached : Steps tree (.enter entered initial) before position)
    (away : position.memory.mailbox.published ≠ .g3)
    (move : Move tree position event following) (called : event.calls ≠ [])
    (requested : (position.memory.hear event.calls).mailbox.shutdownRequested = true)
    (run : Steps tree following
      (waiting ++ .began state begun :: (working ++ .ended next ended :: later)) final)
    (waits : ∀ state memory, .began state memory ∉ waiting)
    (works : ∀ next memory, .ended next memory ∉ working) :
    (ended.forcingShutdown = true ∨ next = .g3 ↔ ¬(state = .g3s5 ∧ next = .s5)) ∧
      (¬(state = .g3s5 ∧ next = .s5) →
        (∀ event ∈ waiting ++ .ended next ended :: later, ¬event.TurnsOff) →
        ∀ event ∈ .ended next ended :: later, event.Forced) := by
  have carries := Position.carries_of_called reached move called (.inr requested)
  obtain ⟨forcing, ⟨middle, waited, atStep⟩, ⟨trace, worked, ran, same⟩, after, stands, rest⟩ :=
    run.first_step carries waits works
  have transition := Program.step_runs ran
  have outcome : ended.forcingShutdown = true ∨ next = .g3 ↔ ¬(state = .g3s5 ∧ next = .s5) := by
    by_cases started : state = .g3s5
    · subst started
      rcases transition.forcing_g3s5 with ⟨refused, rfl⟩ | ⟨agreed, rfl⟩
      · simp
      · simp [same, agreed]
    · have kept := same.trans (transition.forcing_kept forcing started)
      simp [kept, started]
  refine ⟨outcome, ?_⟩
  intro kept never
  rw [List.forall_mem_append, List.forall_mem_cons] at never
  obtain ⟨beforeStep, notHere, afterwards⟩ := never
  have nextOn : next ≠ .g3 := by
    rintro rfl
    exact notHere trivial
  have forced : ended.forcingShutdown = true := (outcome.mpr kept).resolve_right nextOn
  have stateOn : state ≠ .g3 := by
    rw [reached.published] at away
    have one : Steps tree position ([] ++ [event]) following := .move .refl move
    have followingOn := one.state_ne_g3 away (by
      rw [List.nil_append, List.forall_mem_singleton]
      cases event with
      | ended next memory => exact absurd rfl called
      | _ => exact id)
    rw [← atStep]
    exact waited.state_ne_g3 followingOn beforeStep
  have start : Event.StillForced [] next ended := fun _ =>
    ⟨nextOn, transition.ne_g3s5 stateOn, forced, fun _ member => absurd member List.not_mem_nil⟩
  have holds : (LoopInvariant.stillForced tree).Holds [] after := by
    rcases stands with rfl | rfl
    · exact start
    · exact ⟨[], ended, [], start, .refl _, rfl⟩
  rw [List.forall_mem_cons]
  exact ⟨forced, LoopInvariant.forced_of_holds (LoopInvariant.holds_of_steps holds rest) afterwards⟩

end Remembered

/-- A shutdown that is requested during a reset pulse in S0 is under way after the next step. -/
theorem forcedShutdown_remembered_inS0 : ∃ position following begun ended final,
    Steps (.ofRevision .v0) (.enter .s0 { mailbox := { resetRequested := some .warm } })
      [.asked ⟨.drive .sysRstL .low, [], ()⟩] position ∧
    Move (.ofRevision .v0) position
      (.asked ⟨.sleep Timing.resetPulseUs, [.requestShutdown], ()⟩) following ∧
    Steps (.ofRevision .v0) following
      ([.asked ⟨.drive .sysRstL .high, [], ()⟩] ++ .began .s0 begun ::
        ([.asked ⟨.readLines, [], SignalMask.empty⟩] ++ .ended .s0s3 ended :: [])) final ∧
    ended.forcingShutdown = true := by
  obtain ⟨position, following, begun, ended, final, pulse, away, move, run⟩ :
      ∃ position following begun ended final,
        Steps (.ofRevision .v0) (.enter .s0 { mailbox := { resetRequested := some .warm } })
          [.asked ⟨.drive .sysRstL .low, [], ()⟩] position ∧
        position.memory.mailbox.published = .s0 ∧
        Move (.ofRevision .v0) position
          (.asked ⟨.sleep Timing.resetPulseUs, [.requestShutdown], ()⟩) following ∧
        Steps (.ofRevision .v0) following
          ([.asked ⟨.drive .sysRstL .high, [], ()⟩] ++ .began .s0 begun ::
            ([.asked ⟨.readLines, [], SignalMask.empty⟩] ++ .ended .s0s3 ended :: [])) final :=
    ⟨_, _, _, _, _, .cons (.serve [] _) .refl, rfl, .serve [.requestShutdown] _,
      .cons (.serve [] _) (.cons .begin (.cons (.work [] _) (.cons (.conclude (by rfl)) .refl)))⟩
  have requested : (position.memory.hear [.requestShutdown]).mailbox.shutdownRequested = true :=
    Mailbox.shutdownRequested_performAll _ (List.mem_singleton_self _)
  have remembered := forcedShutdown_remembered pulse (by rw [away]; decide) move
    (List.cons_ne_nil _ _) requested run (by simp) (by simp)
  have forced := remembered.2 (by decide) (by simp [Event.TurnsOff]) _ List.mem_cons_self
  exact ⟨position, following, begun, ended, final, pulse, move, run, forced⟩

/-- A shutdown that is requested between the publication of G3S5 and the step from it is forgotten.
The second reset request is what makes the power task wait there. -/
theorem forcedShutdown_dropped_duringPulse : ∃ before position following begun ended final,
    Steps (.ofRevision .v2) (.enter .g3 (({} : Memory).hear [.requestPowerOn, .requestReset .warm]))
      before position ∧
    position.memory.mailbox.published = .g3s5 ∧
    Move (.ofRevision .v2) position
      (.asked ⟨.sleep Timing.resetPulseUs, [.requestShutdown], ()⟩) following ∧
    Steps (.ofRevision .v2) following
      ([.asked ⟨.drive .sysRstL .high, [], ()⟩] ++ .began .g3s5 begun ::
        ([.asked ⟨.powerOnBlocked, [], false⟩, .asked ⟨.shutdownWanted, [], false⟩] ++
          .ended .s5 ended :: [])) final ∧
    ended.forcingShutdown = false := by
  have waits : Steps (.ofRevision .v2)
      (.enter .g3 (({} : Memory).hear [.requestPowerOn, .requestReset .warm])) _ _ :=
    .cons (.serve [] ()) (.cons (.serve [.requestReset .warm] ()) (.cons (.serve [] ())
      (.cons .begin (.cons (.conclude rfl) (.cons (.serve [] ()) .refl)))))
  exact ⟨_, _, _, _, _, _, waits, rfl, .serve [.requestShutdown] _,
    .cons (.serve [] _) (.cons .begin (.cons (.work [] _) (.cons (.work [] _)
      (.cons (.conclude (by rfl)) .refl)))), by rfl⟩

end RailSequencer
