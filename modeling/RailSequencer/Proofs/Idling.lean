import RailSequencer.Proofs.Notifications
import RailSequencer.Proofs.Rehearsal

/-!
# Idling is forbidden while the processor may run

The board is told to forbid idling by a start that finds the processor running and by every resume,
and to allow it again at the end of every suspend. Neither a suspend that is called off nor a resume
that fails says anything, so in S3S0 the last word may be either. In every other state it follows
from the state, whatever came between: a suspend that is called off leads to S3S0 only, and from
there only a resume leads on.
-/

namespace RailSequencer

/-- Whether a request allows the board to idle, if it says anything about it. -/
def Request.idling? : Request → Option Bool
  | .allowIdle allowed => some allowed
  | _ => none

namespace Exchange

/-- What the board was told about idling, in order. -/
def idling (trace : List Exchange) : List Bool := (requests trace).filterMap Request.idling?

@[simp]
theorem idling_append (first second : List Exchange) :
    idling (first ++ second) = idling first ++ idling second := by
  simp [idling]

theorem idling_eq_nil {trace : List Exchange}
    (quiet : ∀ request ∈ requests trace, request.IsQuiet) : idling trace = [] := by
  apply List.filterMap_eq_nil_iff.mpr
  intro request member
  cases request with
  | allowIdle allowed => exact absurd (quiet _ member) id
  | _ => rfl

end Exchange

namespace PowerState

/-- What a step says about idling. -/
def idling : PowerState → PowerState → List Bool
  | .s3s0, .s0 => [false]
  | .s0s3, .s3 => [true]
  | _, _ => []

/-- The states in which no supply of a running processor is up. -/
def rests : List PowerState := [.g3, .g3s5, .s5, .s5s3, .s3, .s3s5, .s5g3]

/-- The last word about idling goes with a state. In S3S0 it may be either. -/
def AgreesOnIdling (state : PowerState) (last : Option Bool) : Prop :=
  (state = .s0 ∨ state = .s0s3 → last = some false) ∧ (state ∈ rests → last ≠ some false)

instance (state : PowerState) (last : Option Bool) : Decidable (state.AgreesOnIdling last) :=
  inferInstanceAs (Decidable (_ ∧ _))

/-- A step leaves the last word that goes with the state it leads to. -/
theorem AgreesOnIdling.step {state next : PowerState} {last : Option Bool}
    (agrees : state.AgreesOnIdling last) (edge : next ∈ state.successors) :
    next.AgreesOnIdling ((state.idling next).getLast?.or last) := by
  have all (last : Option Bool) : state.AgreesOnIdling last → ∀ next ∈ state.successors,
      next.AgreesOnIdling ((state.idling next).getLast?.or last) := by
    rcases last with _ | _ | _ <;> cases state <;> decide
  exact all last agrees next edge

end PowerState

namespace Transition

variable {tree : PowerTree} {memory final : Memory} {trace : List Exchange}
  {state next : PowerState}

/-- What a step says about idling follows from the states that it leads from and to. -/
theorem idling (transition : Transition tree memory state trace final next) :
    Exchange.idling trace = state.idling next := by
  cases transition with
  | fromS3 calls lines whole leads => exact whole ▸ rfl
  | leavesS0 calls lines whole ends => exact whole ▸ rfl
  | staysInS0 calls lines whole quiet steady => exact whole ▸ rfl
  | losesDebounced calls waited lines error whole quiet debounced => exact whole ▸ rfl
  | looksAgain calls waited called lines again begun quiet debounced leads => exact begun ▸ rfl
  | asksCharger polled calls unwanted whole leads =>
    rw [whole, Exchange.idling_append, Exchange.idling_eq_nil polled.quiet]
    exact rfl
  | powersUp asked waited told whole =>
    rw [whole, Exchange.idling_append, Exchange.idling_eq_nil (quiet_replayed asked)]
    exact rfl
  | failsPowerUp asked waited error whole =>
    rw [whole, Exchange.idling_append, Exchange.idling_eq_nil (quiet_replayed asked)]
    exact rfl
  | resumes asked release waited told kept whole =>
    rw [whole, Exchange.idling_append, Exchange.idling_append,
      Exchange.idling_eq_nil (quiet_replayed asked),
      Exchange.idling_eq_nil (quiet_released release)]
    exact rfl
  | failsResume asked release waited error whole =>
    rw [whole, Exchange.idling_append, Exchange.idling_append,
      Exchange.idling_eq_nil (quiet_replayed asked),
      Exchange.idling_eq_nil (quiet_released release)]
    exact rfl
  | callsOffSuspend told aborted =>
    have silent := Exchange.idling_eq_nil (quiet_suspended aborted)
    exact silent
  | suspends told completed idled looked pressed whole =>
    have silent := Exchange.idling_eq_nil (quiet_suspended completed)
    rw [whole, Exchange.idling_append]
    exact congrArg (· ++ [true]) silent
  | powersDown told asked =>
    have silent := Exchange.idling_eq_nil (quiet_replayed asked)
    exact silent
  | fromG3 | fromS5 | turnsOff => rfl

end Transition

/-- The last word about idling goes with the state of the loop, if `first` was asked before it. -/
def TraceInvariant.idling (tree : PowerTree) (first : List Exchange) : TraceInvariant tree where
  holds trace state := state.AgreesOnIdling (Exchange.idling (first ++ trace)).getLast?
  pulse := by
    intro trace pulse state memory task agrees served
    rw [← List.append_assoc, Exchange.idling_append,
      Exchange.idling_eq_nil (Program.serveReset_quiet served), List.append_nil]
    exact agrees
  step := by
    intro trace work state next memory worked agrees transition
    rw [← List.append_assoc, Exchange.idling_append, List.getLast?_append, transition.idling]
    exact agrees.step transition.mem_successors

/-- The start leaves the last word that goes with the state it enters. -/
theorem Program.start_agreesOnIdling {tree : PowerTree} {boot : BootInfo} {memory started : Memory}
    {first : List Exchange} {entered : PowerState}
    (start : (Program.start tree boot memory).Runs first started entered) :
    entered.AgreesOnIdling (Exchange.idling first).getLast? := by
  rcases Program.start_runs start with
    ⟨-, calls, lines, kept, -, rfl, rfl⟩ | ⟨-, calls, lines, -, rfl, rfl⟩ | ⟨-, rfl, rfl⟩
  · change PowerState.s0.AgreesOnIdling (some false)
    decide
  · change PowerState.g3.AgreesOnIdling none
    decide
  · change PowerState.g3.AgreesOnIdling none
    decide

/-- Whatever the board answers and other tasks call from the start on, between two steps the last
word about idling was to forbid it if the state is S0 or S0S3, and to allow it, if anything was said
at all, in every other state but S3S0. -/
theorem idling_forbidden_while_running {tree : PowerTree} {boot : BootInfo}
    {memory started : Memory} {first : List Exchange} {entered : PowerState}
    {calls : List Mailbox.Call} {events : List Event} {position : Position}
    (start : (Program.start tree boot memory).Runs first started entered)
    (run : Steps tree (.enter entered (started.hear calls)) events position)
    (boundary : position.isBoundary = true) :
    let last := (Exchange.idling (first ++ Event.exchanges events)).getLast?
    (position.state = .s0 ∨ position.state = .s0s3 → last = some false) ∧
      (position.state ∈ [PowerState.g3, .g3s5, .s5, .s5s3, .s3, .s3s5, .s5g3] →
        ∀ allowed, last = some allowed → allowed = true) := by
  have entered : (TraceInvariant.idling tree first).holds [] entered := by
    change PowerState.AgreesOnIdling _ (Exchange.idling (first ++ [])).getLast?
    rw [List.append_nil]
    exact Program.start_agreesOnIdling start
  have agrees := (TraceInvariant.idling tree first).between entered run boundary
  refine ⟨agrees.1, ?_⟩
  intro resting allowed last
  cases allowed with
  | false => exact absurd last (agrees.2 resting)
  | true => rfl

/-- What is asked by a start that finds the processor running. -/
private def foundRunning : List Exchange :=
  [⟨.readLines, [], .allLines⟩, ⟨.allowIdle false, [], ()⟩]

/-- What is in memory then. -/
private def leftRunning : Memory := { mailbox := { published := .s0 } }

/-- From there, a suspend is called off, the processor is resumed, and the supplies are lost. -/
private def losesSupplies : List Event × Position :=
  (Position.enter .s0 (leftRunning.hear [])).rehearse (.ofRevision .v2)
    [.steady .empty, .steady .suspendDeasserted, .steady .allLines, .steady .empty]

/-- The suspend is completed. -/
private def suspendsThen : List Event × Position :=
  losesSupplies.2.rehearse (.ofRevision .v2) [.steady .empty]

/-- Idling is still forbidden when the suspend begins, and it has been allowed when it is over. -/
theorem idling_forbidden_while_running_suspended :
    losesSupplies.2.state = .s0s3 ∧
      (Exchange.idling (foundRunning ++ Event.exchanges losesSupplies.1)).getLast? = some false ∧
    suspendsThen.2.state = .s3 ∧
      Exchange.idling
        (foundRunning ++ Event.exchanges (losesSupplies.1 ++ suspendsThen.1)) =
        [false, false, true] ∧
      ∀ allowed, (Exchange.idling
        (foundRunning ++ Event.exchanges (losesSupplies.1 ++ suspendsThen.1))).getLast? =
          some allowed → allowed = true := by
  have start : (Program.start (.ofRevision .v2) { jumped := true } {}).Runs foundRunning
      leftRunning .s0 := .ask (.ask (.refl _))
  have loses : Steps (.ofRevision .v2) (.enter .s0 (leftRunning.hear [])) losesSupplies.1
      losesSupplies.2 := .rehearse _ _ _
  have suspends : Steps (.ofRevision .v2) losesSupplies.2 suspendsThen.1 suspendsThen.2 :=
    .rehearse _ _ _
  have leaving : losesSupplies.2.state = .s0s3 := by decide +kernel
  have resting : suspendsThen.2.state = .s3 := by decide +kernel
  have told : Exchange.idling
      (foundRunning ++ Event.exchanges (losesSupplies.1 ++ suspendsThen.1)) =
      [false, false, true] := by decide +kernel
  refine ⟨leaving, ?_, resting, told, ?_⟩
  · exact (idling_forbidden_while_running start loses (by decide +kernel)).1 (.inr leaving)
  · apply (idling_forbidden_while_running start (loses.trans suspends) (by decide +kernel)).2
    rw [resting]
    decide

end RailSequencer
