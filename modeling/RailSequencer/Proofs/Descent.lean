import RailSequencer.PowerTree.Revisions
import RailSequencer.Proofs.ForcedShutdown

/-!
# How far a forced shutdown has to go

While a shutdown is under way every state has one way down: `stepsToG3` counts the steps of it, and
each step takes one off at least. Suspend line, supplies and requests have no say in it, except that
a resume whose supplies do not come is tried again; so the steps that were taken and those that are
left never exceed seven and the resumes that timed out.

A `Journey` is any number of steps with all that came back on the way. What happens to the mailbox
between two steps is left open, as long as no shutdown request is taken away there.
-/

namespace RailSequencer

/-- A wait for a supply, with these lines, that ended before they appeared. -/
def Exchange.timesOut (wanted : SignalMask) : Exchange → Bool
  | ⟨.waitForLines lines timeoutUs, _, .error _⟩ =>
    lines = wanted && timeoutUs == Timing.supplyTimeoutUs
  | _ => false

namespace PowerState

/-- Steps to G3 while a shutdown is under way and the supplies of S0 come when they are waited for.
From S5S3 it may be one less. -/
def stepsToG3 : PowerState → Nat
  | .g3 | .g3s5 => 0
  | .s5g3 => 1
  | .s5 => 2
  | .s3s5 => 3
  | .s3 => 4
  | .s0s3 | .s5s3 => 5
  | .s0 => 6
  | .s3s0 => 7

theorem stepsToG3_le (state : PowerState) : state.stepsToG3 ≤ 7 := by
  cases state <;> decide

theorem stepsToG3_pos {state : PowerState} (away : state ≠ .g3 ∧ state ≠ .g3s5) :
    0 < state.stepsToG3 := by
  cases state with
  | g3 => exact absurd rfl away.1
  | g3s5 => exact absurd rfl away.2
  | _ => decide

end PowerState

/-- A step that was taken: the state that it began in, what came back to it, what it left in memory
and the state that it ended with. -/
structure Leg where
  origin : PowerState
  trace : List Exchange
  final : Memory
  next : PowerState

namespace Leg

variable (tree : PowerTree)

/-- A resume whose supplies did not come in time. -/
def timedOut (leg : Leg) : Bool :=
  leg.origin = .s3s0 && leg.trace.any (Exchange.timesOut tree.pgoodS0)

/-- The step does what a shutdown under way asks of it. -/
structure Forced (leg : Leg) : Prop where
  forcing : leg.final.forcingShutdown = true
  /-- Only a resume that timed out is tried again. -/
  moves : leg.next = leg.origin → leg.timedOut tree = true
  /-- A suspend is not called off. -/
  suspends : leg.origin = .s0s3 → leg.next = .s3

/-- The step from a state that comes of answering, and calling, in one way. -/
def along (answer : (request : Request) → List Mailbox.Call × request.Answer) (state : PowerState)
    (memory : Memory) : Leg :=
  let run := (Program.step tree state memory).follow answer
  ⟨state, run.1, run.2.1, run.2.2⟩

end Leg

/-- Steps taken one after another, each from the state that the one before ended with. Between two
steps nothing happens but to the mailbox. -/
inductive Journey (tree : PowerTree) (meanwhile : Mailbox → Mailbox → Prop) (state : PowerState)
    (memory : Memory) : List Leg → PowerState → Memory → Prop where
  | start : Journey tree meanwhile state memory [] state memory
  | step {legs : List Leg} {last next : PowerState} {before after : Memory}
      {trace : List Exchange} {mailbox : Mailbox}
      (prior : Journey tree meanwhile state memory legs last before)
      (waits : meanwhile before.mailbox mailbox)
      (run : (Program.step tree last { before with mailbox := mailbox }).Runs trace after next) :
      Journey tree meanwhile state memory (legs ++ [⟨last, trace, after, next⟩]) next after

namespace Memory

/-- A shutdown that is under way stays so throughout a turn. -/
theorem respected_forcing {holding judging : Bool} : Respected holding judging fun earlier later =>
    earlier.forcingShutdown = true → later.forcingShutdown = true where
  trans first second := second ∘ first
  hear memory calls := id
  works := by
    intro earlier later works
    induction works with
    | trans _ _ first second => exact second ∘ first
    | takeShutdown memory => exact fun forcing => by simp [takeShutdown, forcing]
    | force => exact fun _ => rfl
    | refl | takeReset | dropPowerOn | hold | inhibit | cancelTimer => exact id

variable {memory : Memory} {state : PowerState}

/-- A step away from G3 begins with the flag that was asked for. -/
theorem Raised.stepStart (raised : memory.Raised) (started : state ≠ .g3s5) :
    (memory.stepStart state).forcingShutdown = true := by
  cases state with
  | g3s5 => exact absurd rfl started
  | _ => exact raised.takeShutdown

end Memory

/-- However far a step has come, a shutdown that was raised before it is under way. -/
theorem Program.forcing_throughout {tree : PowerTree} {state : PowerState} {memory : Memory}
    {trace : List Exchange} {task : Task PowerState} (raised : memory.Raised)
    (started : state ≠ .g3s5) (reached : (Program.step tree state memory).Reaches trace task) :
    task.memory.forcingShutdown = true :=
  (Program.stretches_step tree state memory).of_reaches Memory.respected_forcing reached
    (raised.stepStart started)

namespace Transition

variable {tree : PowerTree} {memory final : Memory} {trace : List Exchange}
  {state next : PowerState}

/-- With a shutdown under way a step comes closer to G3, or is a resume that timed out. -/
theorem stepsToG3_lt (transition : Transition tree memory state trace final next)
    (forcing : memory.forcingShutdown = true) (away : state ≠ .g3 ∧ state ≠ .g3s5) :
    next.stepsToG3 < state.stepsToG3 ∨
      state = .s3s0 ∧ next = .s3s0 ∧ trace.any (Exchange.timesOut tree.pgoodS0) = true := by
  -- Nothing that S0 does when it finds no reason to leave is done here.
  have notQuiet {lines : SignalMask} : tree.endsS0 memory.forcingShutdown lines ≠ false := by
    intro quiet
    rw [forcing] at quiet
    exact absurd (PowerTree.endsS0_eq_false_iff.mp quiet).2.1.symm Bool.false_ne_true
  cases transition with
  | fromG3 => exact absurd rfl away.1
  | asksCharger => exact absurd rfl away.2
  | fromS5 leads =>
    rw [leads, forcing]
    exact .inl (by decide)
  | fromS3 calls lines whole leads =>
    rw [leads, forcing, PowerTree.afterS3, Bool.or_true, if_pos rfl]
    exact .inl (by decide)
  | staysInS0 calls lines whole quiet steady => exact absurd quiet notQuiet
  | losesDebounced calls waited lines error whole quiet debounced => exact absurd quiet notQuiet
  | looksAgain calls waited called lines again begun quiet debounced leads =>
    exact absurd quiet notQuiet
  | failsResume asked release waited error whole =>
    refine .inr ⟨rfl, rfl, ?_⟩
    rw [whole, List.any_append]
    simp [Exchange.timesOut]
  | callsOffSuspend told aborted =>
    exact absurd (aborted.unforced.symm.trans forcing) Bool.false_ne_true
  | leavesS0 | powersUp | failsPowerUp | resumes | suspends | powersDown | turnsOff =>
    exact .inl (by decide)

end Transition

/-- A step that a shutdown was raised before, away from G3, does what is asked of it and counts as
one, a resume that timed out as none. -/
theorem Leg.forced_of_run {tree : PowerTree} {memory final : Memory} {trace : List Exchange}
    {state next : PowerState} (run : (Program.step tree state memory).Runs trace final next)
    (raised : memory.Raised) (away : state ≠ .g3 ∧ state ≠ .g3s5) :
    Leg.Forced tree ⟨state, trace, final, next⟩ ∧
      next.stepsToG3 + 1 ≤
        state.stepsToG3 + [⟨state, trace, final, next⟩].countP (Leg.timedOut tree) := by
  have transition := Program.step_runs run
  have forcing : final.forcingShutdown = true := Program.forcing_throughout raised away.2 run
  rcases transition.stepsToG3_lt raised.takeShutdown away with closer | ⟨rfl, rfl, failed⟩
  · refine ⟨⟨forcing, ?_, ?_⟩, by omega⟩
    · intro (same : next = state)
      subst same
      exact absurd closer (Nat.lt_irrefl _)
    · intro (suspending : state = .s0s3)
      subst suspending
      have edge : next = .s3 ∨ next = .s3s0 := by
        simpa [PowerState.successors] using transition.mem_successors
      rcases edge with slept | rfl
      · exact slept
      · exact absurd closer (by decide)
  · have retried : Leg.timedOut tree ⟨.s3s0, trace, final, .s3s0⟩ = true := by
      simp [Leg.timedOut, failed]
    refine ⟨⟨forcing, fun _ => retried, nofun⟩, ?_⟩
    have counted : [(⟨.s3s0, trace, final, .s3s0⟩ : Leg)].countP (Leg.timedOut tree) = 1 := by
      rw [List.countP_singleton, if_pos retried]
    omega

namespace Journey

variable {tree : PowerTree} {meanwhile : Mailbox → Mailbox → Prop} {state last : PowerState}
  {memory final : Memory} {legs : List Leg}

/-- How far a forced shutdown has come. -/
structure Descent (tree : PowerTree) (legs : List Leg) (last : PowerState) (final : Memory) :
    Prop where
  raised : final.Raised
  started : last ≠ .g3s5
  bound : legs.length + last.stepsToG3 ≤ 7 + legs.countP (Leg.timedOut tree)
  forced : ∀ leg ∈ legs, leg.Forced tree

theorem descent (keeps : ∀ earlier later, meanwhile earlier later →
      earlier.shutdownRequested = true → later.shutdownRequested = true)
    (raised : memory.Raised) (started : state ≠ .g3s5)
    (journey : Journey tree meanwhile state memory legs last final)
    (onTheWay : ∀ leg ∈ legs, leg.origin ≠ .g3) : Descent tree legs last final := by
  induction journey with
  | start =>
    have most : 0 + state.stepsToG3 ≤ 7 + 0 := by simpa using state.stepsToG3_le
    exact ⟨raised, started, most, fun _ member => absurd member List.not_mem_nil⟩
  | @step legs last next before after trace mailbox prior waits run inductionHypothesis =>
    rw [List.forall_mem_append, List.forall_mem_singleton] at onTheWay
    have so := inductionHypothesis onTheWay.1
    have raisedStill : Memory.Raised { before with mailbox := mailbox } :=
      so.raised.imp_right (keeps _ _ waits)
    obtain ⟨forced, closer⟩ := Leg.forced_of_run run raisedStill ⟨onTheWay.2, so.started⟩
    refine ⟨.inl forced.forcing, (Program.step_runs run).ne_g3s5 onTheWay.2, ?_, ?_⟩
    · have bound := so.bound
      rw [List.length_append, List.length_singleton, List.countP_append]
      omega
    · rw [List.forall_mem_append, List.forall_mem_singleton]
      exact ⟨so.forced, forced⟩

/-- A step that is answered in one way goes where that leads. -/
theorem along {before : Memory} {next : PowerState}
    (prior : Journey tree Mailbox.Heard state memory legs last before)
    (answer : (request : Request) → List Mailbox.Call × request.Answer)
    (leads : (Leg.along tree answer last before).next = next) :
    Journey tree Mailbox.Heard state memory (legs ++ [Leg.along tree answer last before]) next
      (Leg.along tree answer last before).final :=
  leads ▸ .step prior (.refl _) (Task.runs_follow answer _)

end Journey

section Progress

variable {tree : PowerTree} {meanwhile : Mailbox → Mailbox → Prop} {state last : PowerState}
  {memory final : Memory} {legs : List Leg}

/-- A shutdown that was forced, or requested, anywhere but in G3S5 reaches G3 within seven steps,
not counting the resumes that timed out: as long as G3 has not been reached there are fewer steps
than that. Each of them leaves the shutdown under way, ends in another state unless it is a resume
that timed out, and does not call off a suspend. In the step that follows the shutdown is under way
from its first request on, and no board keeps that step from ending. -/
theorem g3_of_forcedShutdown
    (keeps : ∀ earlier later, meanwhile earlier later →
      earlier.shutdownRequested = true → later.shutdownRequested = true)
    (raised : memory.forcingShutdown = true ∨ memory.mailbox.shutdownRequested = true)
    (started : state ≠ .g3s5) (journey : Journey tree meanwhile state memory legs last final)
    (onTheWay : ∀ leg ∈ legs, leg.origin ≠ .g3) :
    legs.length ≤ 7 + legs.countP (Leg.timedOut tree) ∧
      (last ≠ .g3 → legs.length < 7 + legs.countP (Leg.timedOut tree)) ∧
      (∀ leg ∈ legs, leg.Forced tree) ∧
      (∀ mailbox trace task, meanwhile final.mailbox mailbox →
        (Program.step tree last { final with mailbox := mailbox }).Reaches trace task →
        task.memory.forcingShutdown = true) ∧
      ∀ mailbox (answer : (request : Request) → List Mailbox.Call × request.Answer),
        meanwhile final.mailbox mailbox → ∃ leg,
          Journey tree meanwhile state memory (legs ++ [leg]) leg.next leg.final ∧
            ∀ exchange ∈ leg.trace,
              (exchange.calls, exchange.answer) = answer exchange.request := by
  have descent := journey.descent keeps raised started onTheWay
  have bound := descent.bound
  refine ⟨by omega, ?_, descent.forced, ?_, ?_⟩
  · intro notThere
    have left := PowerState.stepsToG3_pos ⟨notThere, descent.started⟩
    omega
  · intro mailbox trace task waits reached
    have raisedStill : Memory.Raised { final with mailbox := mailbox } :=
      descent.raised.imp_right (keeps _ _ waits)
    exact Program.forcing_throughout raisedStill descent.started reached
  · intro mailbox answer waits
    obtain ⟨trace, after, next, run, answers⟩ :=
      (Program.step tree last { final with mailbox := mailbox }).exists_runs answer
    exact ⟨⟨last, trace, after, next⟩, .step journey waits run, answers⟩

end Progress

/-- A shutdown is requested while a resume waits for supplies that come at the second try: G3 is
reached after eight steps, which is as late as it may be with one resume that timed out. -/
theorem g3_of_forcedShutdown_resumingTwice : ∃ legs final,
    Journey (.ofRevision .v2) Mailbox.Heard .s3s0 { mailbox := { shutdownRequested := true } } legs
      .g3 final ∧
    legs.countP (Leg.timedOut (.ofRevision .v2)) = 1 ∧ legs.length = 8 ∧
    legs.length ≤ 7 + legs.countP (Leg.timedOut (.ofRevision .v2)) ∧
    ∀ leg ∈ legs, leg.Forced (.ofRevision .v2) := by
  let unsupplied := fun request : Request => (([] : List Mailbox.Call), request.darkAnswer)
  let supplied := fun request : Request =>
    (([] : List Mailbox.Call), request.steadyAnswer .allLines)
  have retries : Journey (.ofRevision .v2) Mailbox.Heard .s3s0
      { mailbox := { shutdownRequested := true } } _ .s3s0 _ :=
    Journey.start.along unsupplied (by decide +kernel)
  have resumes : Journey _ _ _ _ _ .s0 _ := retries.along supplied (by decide +kernel)
  have leaves : Journey _ _ _ _ _ .s0s3 _ := resumes.along supplied (by decide +kernel)
  have suspends : Journey _ _ _ _ _ .s3 _ := leaves.along supplied (by decide +kernel)
  have wakes : Journey _ _ _ _ _ .s3s5 _ := suspends.along supplied (by decide +kernel)
  have powersDown : Journey _ _ _ _ _ .s5 _ := wakes.along supplied (by decide +kernel)
  have turnsOff : Journey _ _ _ _ _ .s5g3 _ := powersDown.along supplied (by decide +kernel)
  have off : Journey _ _ _ _ _ .g3 _ := turnsOff.along supplied (by decide +kernel)
  have progress := g3_of_forcedShutdown (fun _ _ heard => heard.shutdown) (.inr rfl) (by decide)
    off (by decide +kernel)
  exact ⟨_, _, off, by decide +kernel, by decide +kernel, progress.1, progress.2.2.1⟩

end RailSequencer
