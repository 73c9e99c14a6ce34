import RailSequencer.Proofs.Requests

/-!
# Power-on requests are answered, and only those

A power-on request counts where the processor is hard off or headed there. It is then pending until
the next step from G3, which answers it; no other step looks at it, and none can leave it pending
anywhere else. So each time the processor leaves G3 there is a request that was accepted since it
was last elsewhere, or the one that the start makes to power on by itself.
-/

namespace RailSequencer

namespace Program

variable {tree : PowerTree} {state next : PowerState} {memory worked : Memory}
  {trace : List Exchange}

/-- A step from G3 asks for nothing and answers the request that is pending. -/
theorem step_g3 (tree : PowerTree) (memory : Memory) :
    step tree .g3 memory = .done memory.takeShutdown.dropPowerOn
      (if memory.mailbox.powerOnRequested then .g3s5 else .g3) := by
  have answered : step tree .g3 memory =
      (if memory.mailbox.powerOnRequested then pure .g3s5 else pure .g3 : Program PowerState)
        memory.takeShutdown.dropPowerOn := rfl
  rw [answered]
  split
  · rfl
  · rfl

/-- Where a power-on request counts, a step asks for nothing. -/
theorem step_of_takesPowerOn (counts : state.TakesPowerOn) :
    ∃ worked next, step tree state memory = .done worked next := by
  rcases counts with rfl | rfl
  · exact ⟨_, _, step_g3 tree memory⟩
  · exact ⟨_, _, rfl⟩

/-- Only a step from G3 leads to G3S5, and only when asked for it. -/
theorem asked_of_runs_g3s5 (run : (step tree state memory).Runs trace worked .g3s5) :
    state = .g3 ∧ trace = [] ∧ memory.mailbox.powerOnRequested = true := by
  have transition := step_runs run
  have fromG3 : state = .g3 := Decidable.byContradiction fun away => transition.ne_g3s5 away rfl
  subst fromG3
  rw [step_g3] at run
  obtain ⟨rfl, -, leads⟩ := Task.runs_done_iff.mp run
  refine ⟨rfl, rfl, ?_⟩
  cases asked : memory.mailbox.powerOnRequested with
  | true => rfl
  | false =>
    rw [asked] at leads
    exact absurd leads (by decide)

end Program

/-- Another task asks for power-on where that counts. -/
def Position.Accepts (position : Position) (event : Event) : Prop :=
  position.memory.mailbox.published.TakesPowerOn ∧ ∃ call ∈ event.calls, call.AsksPowerOn

/-- A power-on request is pending, or a step has just answered one. -/
def Position.Answers (position : Position) : Prop :=
  position.memory.mailbox.powerOnRequested = true ∨
    ∃ state worked, position = .stepping state (.done worked .g3s5)

/-- Between two steps there is no step that has answered. -/
theorem Position.Answers.pending {position : Position} (answers : position.Answers)
    (boundary : position.isBoundary = true) : position.memory.mailbox.powerOnRequested = true := by
  rcases answers with pending | ⟨state, worked, rfl⟩
  · exact pending
  · exact absurd boundary Bool.false_ne_true

/-- The end of a turn leads to a boundary and leaves the requests as they are. -/
theorem Turn.isBoundary_position (memory : Memory) (turn : Turn) :
    (turn.position memory).isBoundary = true := by
  cases turn with
  | next state => rfl
  | rest state => rfl

theorem Turn.powerOnRequested_position (memory : Memory) (turn : Turn) :
    (turn.position memory).memory.mailbox.powerOnRequested = memory.mailbox.powerOnRequested := by
  cases turn with
  | next state =>
    rw [Turn.position, Position.memory, Program.memory_serveReset]
    rfl
  | rest state => rfl

/-- A power-on request was accepted in the run that is seen as `events`. -/
def Accepted (tree : PowerTree) (start : Position) (events : List Event) (final : Position) :
    Prop :=
  ∃ position event, Seen tree start events final position event ∧ position.Accepts event

namespace Accepted

variable {tree : PowerTree} {start middle final : Position} {events : List Event} {event : Event}

/-- What was accepted stays accepted. -/
theorem later (accepted : Accepted tree start events middle) (last : Move tree middle event final) :
    Accepted tree start (events ++ [event]) final := by
  obtain ⟨position, request, seen, accepts⟩ := accepted
  exact ⟨position, request, seen.later last, accepts⟩

/-- The last move accepts a request. -/
theorem last (prior : Steps tree start events middle) (last : Move tree middle event final)
    (accepts : middle.Accepts event) : Accepted tree start (events ++ [event]) final :=
  ⟨middle, event, ⟨events, [], final, rfl, prior, last, .refl⟩, accepts⟩

end Accepted

section Requests

variable {tree : PowerTree} {position following first : Position} {event : Event}
  {seen since : List Event}

/-- At every point, also in the middle of a step, a power-on request is pending only where it
counts. -/
theorem LoopInvariant.current_of_holds (holds : (LoopInvariant.attended tree).Holds seen position) :
    position.memory.Current position.state := by
  cases position with
  | serving state task =>
    obtain ⟨_, memory, trace, current, reached, -⟩ := holds
    exact Memory.Current.of_keeps current (Program.serveReset_keeps reached)
  | stepping state task =>
    obtain ⟨_, memory, trace, begun, reached, -⟩ := holds
    exact begun.1.of_keeps (Program.step_keeps tree reached)
  | resting state memory => exact holds.1

/-- Only a step from G3 ends with G3S5. -/
theorem LoopInvariant.state_of_answered {state : PowerState} {worked : Memory}
    (holds : (LoopInvariant.attended tree).Holds seen (.stepping state (.done worked .g3s5))) :
    state = .g3 := by
  obtain ⟨_, memory, trace, begun, reached, -⟩ := holds
  exact (Program.asked_of_runs_g3s5 reached).1

/-- Where a power-on request does not count, there is none to answer. -/
theorem Position.not_answers (holds : (LoopInvariant.attended tree).Holds seen position)
    (elsewhere : ¬position.memory.mailbox.published.TakesPowerOn) : ¬position.Answers := by
  have current := LoopInvariant.current_of_holds holds
  rintro (pending | ⟨state, worked, rfl⟩)
  · rw [current.published] at elsewhere
    exact elsewhere (current.accepted pending)
  · apply elsewhere
    rw [current.published]
    exact .inl (LoopInvariant.state_of_answered holds)

/-- A request that is there after a move was there before it, or came with it. -/
theorem Move.answers (move : Move tree position event following)
    (holds : (LoopInvariant.attended tree).Holds seen position) (answers : following.Answers) :
    position.Answers ∨ position.Accepts event := by
  -- What other tasks call is all that can add a request.
  have came {memory : Memory} {calls : List Mailbox.Call}
      (pending : (memory.hear calls).mailbox.powerOnRequested = true) :
      memory.mailbox.powerOnRequested = true ∨
        memory.mailbox.published.TakesPowerOn ∧ ∃ call ∈ calls, call.AsksPowerOn :=
    (Mailbox.powerOnRequested_performAll_iff.mp pending).imp_right And.symm
  cases move with
  | serve calls answer =>
    obtain ⟨_, memory, trace, top, reached, -⟩ := holds
    have begins := ((Program.works_serveReset memory).rest reached calls answer).begins
    exact (came (begins.powerOnRequested (answers.pending rfl))).imp_left .inl
  | @begin state memory =>
    refine .inl (.inl ?_)
    rcases answers with pending | ⟨_, worked, same⟩
    · have started :=
        (Program.stretches_step tree state memory).begins.powerOnRequested pending
      rw [Memory.mailbox_stepStart] at started
      exact started
    · obtain ⟨rfl, ends⟩ := Position.stepping.inj same
      have run : (Program.step tree state memory).Runs [] worked .g3s5 := ends ▸ .refl _
      exact (Program.asked_of_runs_g3s5 run).2.2
  | @work state _ _ _ calls answer =>
    obtain ⟨_, memory, trace, begun, reached, -⟩ := holds
    rcases answers with pending | ⟨_, worked, same⟩
    · have begins := ((Program.stretches_step tree state memory).rest reached calls answer).begins
      exact (came (begins.powerOnRequested pending)).imp_left .inl
    · -- A step that ends with G3S5 has asked for nothing, so this is not its end.
      obtain ⟨rfl, ends⟩ := Position.stepping.inj same
      have run := reached.answer calls answer
      rw [ends] at run
      exact absurd (Program.asked_of_runs_g3s5 run).2.1 (List.concat_ne_nil _ _)
  | @conclude _ _ _ final turn concluded =>
    have pending := answers.pending (turn.isBoundary_position final)
    rw [Turn.powerOnRequested_position] at pending
    obtain ⟨_, rfl⟩ := Program.conclude_publishes concluded
    exact .inl (.inl pending)
  | hear call => exact (came (answers.pending rfl)).imp_left .inl
  | wake woken =>
    have pending := answers.pending rfl
    rw [Position.memory, Program.memory_serveReset] at pending
    exact .inl (.inl pending)

/-- A request that is there at the end of a run was there at its beginning, or was accepted in
it. -/
theorem Steps.answers (run : Steps tree first since position)
    (holds : (LoopInvariant.attended tree).Holds seen first) (answers : position.Answers) :
    first.Answers ∨ Accepted tree first since position := by
  induction run with
  | refl => exact .inl answers
  | move prior last inductionHypothesis =>
    rcases last.answers (LoopInvariant.holds_of_steps holds prior) answers with before | accepts
    · exact (inductionHypothesis before).imp_right fun accepted => accepted.later last
    · exact .inr (.last prior last accepts)

/-- A request that is there stays there until a step from G3 begins. -/
theorem Move.powerOn_kept (move : Move tree position event following)
    (holds : (LoopInvariant.attended tree).Holds seen position)
    (pending : (position.memory.hear event.calls).mailbox.powerOnRequested = true)
    (untaken : ∀ begun, event ≠ .began .g3 begun) :
    following.memory.mailbox.powerOnRequested = true := by
  have current := LoopInvariant.current_of_holds holds
  have counts : position.state.TakesPowerOn := by
    rcases Mailbox.powerOnRequested_performAll_iff.mp pending with before | ⟨-, counts⟩
    · exact current.accepted before
    · exact current.published ▸ counts
  cases move with
  | @serve _ _ _ resume calls answer =>
    obtain ⟨_, memory, trace, -, reached, -⟩ := holds
    have after := Program.serveReset_memory (reached.answer calls answer)
    rw [Memory.after_append, ← Program.serveReset_memory reached, Memory.after_cons,
      Memory.after_nil] at after
    have kept : (resume _ answer).memory.mailbox.powerOnRequested = true := after ▸ pending
    exact kept
  | begin =>
    rcases counts with rfl | rfl
    · exact absurd rfl (untaken _)
    · exact pending
  | @work state _ _ _ calls answer =>
    obtain ⟨_, memory, trace, -, reached, -⟩ := holds
    have silent : ∃ worked next, Program.step tree state memory = .done worked next :=
      Program.step_of_takesPowerOn counts
    obtain ⟨worked, next, ends⟩ := silent
    rw [ends] at reached
    exact absurd (Task.reaches_done_iff.mp reached).2 nofun
  | @conclude _ _ _ final turn concluded =>
    rw [Turn.powerOnRequested_position]
    obtain ⟨_, rfl⟩ := Program.conclude_publishes concluded
    exact pending
  | hear call => exact pending
  | wake woken =>
    rw [Position.memory, Program.memory_serveReset]
    exact pending

theorem Steps.powerOn_kept (run : Steps tree first since position)
    (holds : (LoopInvariant.attended tree).Holds seen first)
    (pending : first.memory.mailbox.powerOnRequested = true)
    (untaken : ∀ begun, .began .g3 begun ∉ since) :
    position.memory.mailbox.powerOnRequested = true := by
  induction run with
  | refl => exact pending
  | @move events event middle final prior last inductionHypothesis =>
    have before := inductionHypothesis fun begun member =>
      untaken begun (List.mem_append_left _ member)
    refine last.powerOn_kept (LoopInvariant.holds_of_steps holds prior)
      ((middle.memory.heard_hear event.calls).powerOn before) ?_
    rintro begun rfl
    exact untaken begun (List.mem_append_right _ List.mem_cons_self)

/-- The step that the power task is in ends with G3S5, and nothing else happens before that. -/
def Position.PowersOn (tree : PowerTree) (position : Position) : Prop :=
  ∃ memory after, Move tree position (.ended .g3s5 memory) after ∧
    ∀ event other, Move tree position event other → event = .ended .g3s5 memory

/-- From here on a power-on request waits for the next step from G3, which answers it. Until then
the power task does not rest without a wake to take. -/
structure Position.AwaitsPowerOn (tree : PowerTree) (first : Position) : Prop where
  awake : ∀ {waiting state memory}, Steps tree first waiting (.resting state memory) →
    (∀ begun, .began .g3 begun ∉ waiting) → memory.mailbox.woken = true
  answered : ∀ {waiting begun next}, Steps tree first (waiting ++ [.began .g3 begun]) next →
    (∀ taken, .began .g3 taken ∉ waiting) → next.PowersOn tree

theorem Program.powersOn_of_pending {memory : Memory}
    (pending : memory.mailbox.powerOnRequested = true) :
    (Position.stepping .g3 (Program.step tree .g3 memory)).PowersOn tree := by
  rw [Program.step_g3, if_pos pending]
  refine ⟨_, _, .conclude rfl, ?_⟩
  intro event other move
  cases move with
  | conclude concluded =>
    obtain ⟨rfl, -⟩ := Task.done.inj concluded
    rfl

theorem Position.awaitsPowerOn (holds : (LoopInvariant.attended tree).Holds seen first)
    (pending : first.memory.mailbox.powerOnRequested = true) : first.AwaitsPowerOn tree where
  awake := by
    intro waiting state memory run untaken
    have kept : memory.mailbox.powerOnRequested = true := run.powerOn_kept holds pending untaken
    obtain ⟨-, idleIfAsleep⟩ := LoopInvariant.holds_of_steps holds run
    cases woken : memory.mailbox.woken with
    | true => rfl
    | false => exact absurd kept (by simp [(idleIfAsleep woken).powerOn])
  answered := by
    intro waiting begun next run untaken
    obtain ⟨middle, waits, ends⟩ := run.split
    have kept := waits.powerOn_kept holds pending untaken
    obtain ⟨after, begins, rest⟩ := ends.uncons
    obtain rfl := rest.eq_of_nil
    cases begins with
    | begin => exact Program.powersOn_of_pending kept

end Requests

section Start

variable {tree : PowerTree} {boot : BootInfo} {trace : List Exchange} {started : Memory}
  {entered : PowerState}

/-- The power task starts with a power-on request: its own, or one that was called for before the
first turn. -/
def AsksAtStart (boot : BootInfo) (entered : PowerState) (calls : List Mailbox.Call) : Prop :=
  entered.TakesPowerOn ∧ (boot.powersOn = true ∨ ∃ call ∈ calls, call.AsksPowerOn)

theorem Program.powerOnRequested_enter_iff
    (start : (Program.start tree boot {}).Runs trace started entered)
    (undisturbed : ∀ exchange ∈ trace, exchange.calls = []) (calls : List Mailbox.Call) :
    (Position.enter entered (started.hear calls)).memory.mailbox.powerOnRequested = true ↔
      AsksAtStart boot entered calls := by
  obtain ⟨published, asks, off⟩ := Program.start_asks start undisturbed
  have same : (Position.enter entered (started.hear calls)).memory.mailbox.powerOnRequested =
      (started.mailbox.performAll calls).powerOnRequested := by
    rw [Position.enter, Position.memory, Program.memory_serveReset]
    rfl
  rw [same, Mailbox.powerOnRequested_performAll_iff, published, asks, AsksAtStart]
  constructor
  · rintro (powersOn | ⟨called, counts⟩)
    · exact ⟨.inl (off powersOn), .inl powersOn⟩
    · exact ⟨counts, .inr called⟩
  · rintro ⟨counts, powersOn | called⟩
    · exact .inl powersOn
    · exact .inr ⟨called, counts⟩

theorem LoopInvariant.attended_of_start
    (start : (Program.start tree boot {}).Runs trace started entered)
    (undisturbed : ∀ exchange ∈ trace, exchange.calls = []) (calls : List Mailbox.Call) :
    (LoopInvariant.attended tree).Holds [] (.enter entered (started.hear calls)) := by
  have begun := Program.start_current start undisturbed
  have called := begun.of_keeps (started.heard_hear calls).toKeeps
  exact ⟨[], (started.hear calls).publish entered, [], ⟨rfl, called.accepted⟩, .refl _, rfl⟩

/-- Power-on requests are neither stale nor lost, after a start that found a fresh mailbox and
however other tasks call from then on. One is pending only where it counts. A step to G3S5 answers
one that was accepted since the processor was elsewhere, whenever that was, or else the request that
there was at the start. A call that asks for power-on elsewhere does nothing but start the hold
time of the button. And one that is accepted waits for the next step from G3, which goes to G3S5. -/
theorem powerOn_answered {calls : List Mailbox.Call} {events : List Event} {position : Position}
    (start : (Program.start tree boot {}).Runs trace started entered)
    (undisturbed : ∀ exchange ∈ trace, exchange.calls = [])
    (run : Steps tree (.enter entered (started.hear calls)) events position) :
    (position.memory.mailbox.powerOnRequested = true →
        position.memory.mailbox.published.TakesPowerOn) ∧
      (∀ memory following, Move tree position (.ended .g3s5 memory) following →
        (∀ earlier since first, Steps tree (.enter entered (started.hear calls)) earlier first →
          ¬first.memory.mailbox.published.TakesPowerOn → Steps tree first since position →
          Accepted tree first since position) ∧
        (AsksAtStart boot entered calls ∨
          Accepted tree (.enter entered (started.hear calls)) events position)) ∧
      (∀ call : Mailbox.Call, call.AsksPowerOn →
        ¬position.memory.mailbox.published.TakesPowerOn →
        position.memory.mailbox.perform call =
          { position.memory.mailbox with
            shutdownTimer := (position.memory.mailbox.perform call).shutdownTimer }) ∧
      (∀ event following, Move tree position event following → position.Accepts event →
        following.AwaitsPowerOn tree) ∧
      (AsksAtStart boot entered calls →
        (Position.enter entered (started.hear calls)).AwaitsPowerOn tree) := by
  have entering := LoopInvariant.attended_of_start start undisturbed calls
  have holds := LoopInvariant.holds_of_steps entering run
  have current := LoopInvariant.current_of_holds holds
  have asked := Program.powerOnRequested_enter_iff start undisturbed calls
  refine ⟨?_, ?_, ?_, ?_, ?_⟩
  · intro pending
    rw [current.published]
    exact current.accepted pending
  · intro memory following move
    have answers : position.Answers := by
      cases move with
      | conclude => exact .inr ⟨_, _, rfl⟩
    constructor
    · intro earlier since first prior elsewhere later
      have holdsThen := LoopInvariant.holds_of_steps entering prior
      exact (later.answers holdsThen answers).resolve_left
        (Position.not_answers holdsThen elsewhere)
    · rcases run.answers entering answers with atStart | accepted
      · exact .inl (asked.mp (atStart.pending rfl))
      · exact .inr accepted
  · intro call asks elsewhere
    exact Mailbox.perform_elsewhere asks elsewhere
  · intro event following move accepts
    refine Position.awaitsPowerOn (LoopInvariant.holds_of_move holds move)
      (move.powerOn_kept holds (Mailbox.powerOnRequested_performAll_iff.mpr (.inr accepts.symm)) ?_)
    rintro begun rfl
    obtain ⟨-, call, member, -⟩ := accepts
    exact List.not_mem_nil member
  · intro atStart
    exact Position.awaitsPowerOn entering (asked.mpr atStart)

/-- The request of the start is answered, but the charger refuses. Power-on is requested once more
later on, and it is this request that the next step from G3 answers. -/
theorem powerOn_answered_afterRefusal : ∃ started earlier first since position memory following,
    (Program.start (.ofRevision .v1) { autoPowerOn := true } {}).Runs [] started .g3 ∧
    Steps (.ofRevision .v1) (.enter .g3 (started.hear [])) earlier first ∧ first.state = .g3s5 ∧
    Steps (.ofRevision .v1) first since position ∧
    Move (.ofRevision .v1) position (.ended .g3s5 memory) following ∧
    Accepted (.ofRevision .v1) first since position := by
  let started : Memory := { mailbox := ({} : Mailbox).requestPowerOn }
  let leaving : Memory := { mailbox := { published := .g3s5, woken := true } }
  let refused : Memory :=
    { mailbox := { inhibited := true, woken := true }, forcingShutdown := true }
  have start : (Program.start (.ofRevision .v1) { autoPowerOn := true } {}).Runs [] started .g3 :=
    .refl _
  have leaves : Steps (.ofRevision .v1) (.enter .g3 (started.hear [])) _
      (Turn.position leaving (.next .g3s5)) :=
    .move (.move .refl .begin) (.conclude rfl)
  have polls : Steps (.ofRevision .v1) (Turn.position leaving (.next .g3s5)) _ _ :=
    .move (.move .refl .begin) (.work [] false)
  have returns : Steps (.ofRevision .v1) _ _ (Turn.position refused (.next .g3)) :=
    .move (.move polls (.work [] true)) (.conclude rfl)
  have rests : Steps (.ofRevision .v1) _ _ (Turn.position refused (.rest .g3)) :=
    .move (.move returns .begin) (.conclude rfl)
  have requests : Move (.ofRevision .v1) (.resting .g3 refused) (.called .requestPowerOn) _ :=
    .hear .requestPowerOn
  have accepts : (Position.resting .g3 refused).Accepts (.called .requestPowerOn) :=
    ⟨.inl rfl, _, List.mem_cons_self, trivial⟩
  have wakes : Steps (.ofRevision .v1) (.resting .g3 (refused.hear [.requestPowerOn])) [.woke] _ :=
    .move .refl (.wake rfl)
  have begins := wakes.move .begin
  obtain ⟨-, -, -, awaits, -⟩ := powerOn_answered start nofun (leaves.trans rests)
  obtain ⟨memory, after, ends, -⟩ := (awaits _ _ requests accepts).answered begins (by simp)
  have since := (rests.move requests).trans begins
  obtain ⟨-, answered, -⟩ := powerOn_answered start nofun (leaves.trans since)
  have accepted := (answered _ _ ends).1 _ _ _ leaves (by decide) since
  exact ⟨started, _, _, _, _, memory, after, start, leaves, rfl, since, ends, accepted⟩

end Start

end RailSequencer
