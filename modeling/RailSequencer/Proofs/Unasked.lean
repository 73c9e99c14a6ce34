import RailSequencer.Proofs.Loop

/-!
# Runs in which nobody asks for a reset

Serving a reset request is the only thing that the loop does between two steps. Where none is
pending, and none comes, the loop takes one whole step after the other, and other tasks may call for
anything else meanwhile. An invariant is stated between two steps, and all that it has to
survive is a whole `Transition`; `at_of_steps` carries it through every such run. An
`UnaskedInvariant` may look at all that is in memory, a `QuietInvariant` at the flag of the held reset
line alone.
-/

namespace RailSequencer

/-- No reset request is pending, and none is being served. -/
def Position.Unasked : Position → Prop
  | .serving _ task => ∃ memory, task = .done memory () ∧ memory.mailbox.resetRequested = none
  | .stepping _ task => task.memory.mailbox.resetRequested = none
  | .resting _ memory => memory.mailbox.resetRequested = none

/-- Without a reset request there is nothing to serve. -/
theorem Program.serveReset_of_none {memory : Memory}
    (quiet : memory.mailbox.resetRequested = none) :
    serveReset memory = .done memory.takeReset () := by
  rw [serveReset_apply, quiet]
  rfl

/-- And where nothing is to be served, there was no reset request. -/
theorem Program.resetRequested_of_served {memory served : Memory}
    (done : serveReset memory = .done served ()) : memory.mailbox.resetRequested = none := by
  rw [serveReset_apply] at done
  cases asked : memory.mailbox.resetRequested with
  | none => rfl
  | some kind =>
    rw [asked] at done
    exact absurd done nofun

theorem Memory.takeReset_of_none {memory : Memory} (quiet : memory.mailbox.resetRequested = none) :
    memory.takeReset = memory := by
  rw [Memory.takeReset, ← quiet]

section Runs

variable {tree : PowerTree} {entered : PowerState} {memory : Memory} {events later : List Event}
  {event : Event} {position first following : Position}

theorem Position.unasked_enter (quiet : memory.mailbox.resetRequested = none) :
    (Position.enter entered memory).Unasked :=
  ⟨_, Program.serveReset_of_none quiet, rfl⟩

/-- While nobody asks for a reset, none is served. -/
theorem Move.unasked (run : Steps tree (.enter entered memory) events position)
    (move : Move tree position event following) (unasked : position.Unasked)
    (others : ∀ call ∈ event.calls, ¬call.AsksReset) : following.Unasked := by
  have heard {memory : Memory} (quiet : memory.mailbox.resetRequested = none) :
      (memory.hear event.calls).mailbox.resetRequested = none :=
    (Mailbox.resetRequested_performAll others).trans quiet
  cases move with
  | serve =>
    obtain ⟨_, served, -⟩ := unasked
    exact absurd served nofun
  | @begin state memory =>
    obtain ⟨_, served, quiet⟩ := unasked
    obtain ⟨rfl, -⟩ := Task.done.inj served
    have begins := (Program.stretches_step tree state memory).begins
    refine begins.resetRequested ?_
    rw [Memory.mailbox_stepStart]
    exact quiet
  | @work state _ _ _ calls answer =>
    obtain ⟨begun, trace, reached⟩ := run.reached_step
    have begins := ((Program.stretches_step tree state begun).rest reached calls answer).begins
    exact begins.resetRequested (heard unasked)
  | @conclude state next worked final turn concluded =>
    obtain ⟨_, rfl⟩ := Program.conclude_publishes concluded
    cases turn with
    | next => exact ⟨_, Program.serveReset_of_none unasked, rfl⟩
    | rest => exact unasked
  | hear call => exact heard unasked
  | wake woken => exact ⟨_, Program.serveReset_of_none unasked, rfl⟩

theorem Steps.unasked (prior : Steps tree (.enter entered memory) events first)
    (unasked : first.Unasked) (run : Steps tree first later position)
    (others : ∀ event ∈ later, ∀ call ∈ event.calls, ¬call.AsksReset) : position.Unasked := by
  induction run with
  | refl => exact unasked
  | move before last inductionHypothesis =>
    rw [List.forall_mem_append, List.forall_mem_singleton] at others
    exact last.unasked (prior.trans before) (inductionHypothesis others.1) others.2

end Runs

/-- A condition on what was seen of a run, the state and the memory, which holds between two steps as
long as nobody asks for a reset. -/
structure UnaskedInvariant (tree : PowerTree) where
  between : List Event → PowerState → Memory → Prop
  step : ∀ {events state memory trace worked next known}, between events state memory →
    Transition tree memory.takeShutdown state trace worked next →
    between (events ++ .began state memory :: trace.map .asked ++
      [.ended next (worked.publish known)]) next (worked.publish known)
  called : ∀ {events state memory call}, between events state memory →
    between (events ++ [.called call]) state (memory.hear [call])
  woke : ∀ {events state memory}, between events state memory →
    between (events ++ [.woke]) state memory.takeWake

namespace UnaskedInvariant

variable {tree : PowerTree} (invariant : UnaskedInvariant tree)

/-- What an invariant says at any point of a run: in the middle of a step, that it held where the
step began. -/
def At (events : List Event) : Position → Prop
  | .serving state task => ∃ memory, task = .done memory () ∧ invariant.between events state memory
  | .stepping state task => ∃ earlier memory trace, invariant.between earlier state memory ∧
      (Program.step tree state memory).Reaches trace task ∧
      events = earlier ++ .began state memory :: trace.map .asked
  | .resting state memory => invariant.between events state memory

variable {invariant} {state : PowerState} {memory : Memory} {events : List Event} {event : Event}
  {position following : Position}

/-- At the top of a turn without a reset request the next step is about to begin. -/
private theorem at_serving (unasked : (Position.serving state (Program.serveReset memory)).Unasked)
    (holds : invariant.between events state memory) :
    invariant.At events (.serving state (Program.serveReset memory)) := by
  obtain ⟨served, done, -⟩ := unasked
  have quiet := Program.resetRequested_of_served done
  exact ⟨memory, by rw [Program.serveReset_of_none quiet, Memory.takeReset_of_none quiet], holds⟩

theorem at_of_move (holds : invariant.At events position) (unasked : following.Unasked)
    (move : Move tree position event following) : invariant.At (events ++ [event]) following := by
  cases move with
  | serve =>
    obtain ⟨_, served, -⟩ := holds
    exact absurd served nofun
  | begin =>
    obtain ⟨_, served, between⟩ := holds
    obtain ⟨rfl, -⟩ := Task.done.inj served
    exact ⟨events, _, [], between, .refl _, rfl⟩
  | work calls answer =>
    obtain ⟨earlier, memory, trace, between, reached, rfl⟩ := holds
    exact ⟨earlier, memory, _, between, reached.answer calls answer, by simp⟩
  | conclude concluded =>
    obtain ⟨earlier, memory, trace, between, reached, rfl⟩ := holds
    obtain ⟨known, rfl⟩ := Program.conclude_publishes concluded
    have stepped : invariant.between
        (_ ++ [.ended _ (Memory.publish _ known)]) _ (Memory.publish _ known) :=
      invariant.step between (Program.step_runs reached)
    rcases Program.conclude_cases concluded with
      ⟨-, -, -, rfl⟩ | ⟨-, -, -, rfl⟩ | ⟨-, -, rfl⟩
    · exact stepped
    · exact at_serving unasked stepped
    · exact at_serving unasked stepped
  | hear call => exact invariant.called holds
  | wake woken => exact at_serving unasked (invariant.woke holds)

/-- An invariant that holds when the power task is started holds in every run from there, as long as
nobody asks for a reset. -/
theorem at_of_steps (entered : invariant.between [] state (memory.publish state))
    (quiet : memory.mailbox.resetRequested = none)
    (run : Steps tree (.enter state memory) events position)
    (others : ∀ event ∈ events, ∀ call ∈ event.calls, ¬call.AsksReset) :
    invariant.At events position := by
  induction run with
  | refl => exact at_serving (Position.unasked_enter quiet) entered
  | move before last inductionHypothesis =>
    have unasked := Steps.unasked .refl (Position.unasked_enter quiet) (.move before last) others
    rw [List.forall_mem_append] at others
    exact at_of_move (inductionHypothesis others.1) unasked last

/-- Between two steps. -/
theorem At.boundary (holds : invariant.At events position)
    (boundary : position.isBoundary = true) :
    invariant.between events position.state position.memory := by
  cases position with
  | serving state task =>
    obtain ⟨memory, rfl, between⟩ := holds
    exact between
  | stepping state task => exact absurd boundary Bool.false_ne_true
  | resting state memory => exact holds

end UnaskedInvariant

/-- A condition on what was seen of a run, the state and the flag of the held reset line, which
holds between two steps as long as nobody asks for a reset. -/
structure QuietInvariant (tree : PowerTree) where
  between : List Event → PowerState → Bool → Prop
  step : ∀ {events state memory trace worked next final},
    between events state memory.resetHeld →
    Transition tree memory.takeShutdown state trace worked next →
    between (events ++ .began state memory :: trace.map .asked ++ [.ended next final]) next
      worked.resetHeld
  called : ∀ {events state held call}, between events state held →
    between (events ++ [.called call]) state held
  woke : ∀ {events state held}, between events state held → between (events ++ [.woke]) state held

namespace QuietInvariant

variable {tree : PowerTree} (invariant : QuietInvariant tree)

/-- What an invariant says at any point of a run: in the middle of a step, that it held where the
step began. -/
def At (events : List Event) : Position → Prop
  | .serving state task =>
    ∃ memory, task = .done memory () ∧ invariant.between events state memory.resetHeld
  | .stepping state task => ∃ earlier memory trace,
    invariant.between earlier state memory.resetHeld ∧
      (Program.step tree state memory).Reaches trace task ∧
      events = earlier ++ .began state memory :: trace.map .asked
  | .resting state memory => invariant.between events state memory.resetHeld

/-- Of all that is in memory, the flag alone counts. -/
def unasked : UnaskedInvariant tree where
  between events state memory := invariant.between events state memory.resetHeld
  step := by
    intro events state memory trace worked next known before transition
    have stepped : invariant.between
        (events ++ .began state memory :: trace.map .asked ++
          [.ended next (worked.publish known)]) next worked.resetHeld :=
      invariant.step before transition
    exact stepped
  called before := invariant.called before
  woke before := invariant.woke before

variable {invariant} {state : PowerState} {memory : Memory} {events : List Event}
  {position : Position}

/-- An invariant that holds when the power task is started holds in every run from there, as long as
nobody asks for a reset. -/
theorem at_of_steps (entered : invariant.between [] state memory.resetHeld)
    (quiet : memory.mailbox.resetRequested = none)
    (run : Steps tree (.enter state memory) events position)
    (others : ∀ event ∈ events, ∀ call ∈ event.calls, ¬call.AsksReset) :
    invariant.At events position := by
  have begun : invariant.unasked.between [] state (memory.publish state) := entered
  have holds := UnaskedInvariant.at_of_steps begun quiet run others
  cases position with
  | serving | stepping | resting => exact holds

/-- Between two steps. -/
theorem At.boundary (holds : invariant.At events position)
    (boundary : position.isBoundary = true) :
    invariant.between events position.state position.memory.resetHeld := by
  cases position with
  | serving state task =>
    obtain ⟨memory, rfl, between⟩ := holds
    exact between
  | stepping state task => exact absurd boundary Bool.false_ne_true
  | resting state memory => exact holds

end QuietInvariant

end RailSequencer
