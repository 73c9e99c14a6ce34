import Mathlib.Data.List.Chain
import RailSequencer.PowerTree.Revisions
import RailSequencer.Proofs.Rehearsal

/-!
# The power task keeps to the state graph

`PowerState.successors` is a table that no program looks at. Every step ends in a state that it
lists, on every tree, with whatever is in memory, and whatever is answered and called meanwhile. So
the states that a run makes known are a path of the graph with an edge for every step, and nothing
in between changes what others see.
-/

namespace RailSequencer

/-- An edge of the state graph. -/
def PowerState.LeadsTo (state next : PowerState) : Prop := next ∈ state.successors

instance (state next : PowerState) : Decidable (state.LeadsTo next) :=
  inferInstanceAs (Decidable (next ∈ state.successors))

namespace Event

/-- The state that was made known when a step ended. -/
def known? : Event → Option PowerState
  | .ended next _ => some next
  | _ => none

/-- The states that were made known, one for each step that has ended. -/
def known (events : List Event) : List PowerState := events.filterMap known?

theorem known_append (first second : List Event) :
    known (first ++ second) = known first ++ known second :=
  List.filterMap_append

theorem known_singleton (event : Event) : known [event] = event.known?.toList := by
  cases event <;> rfl

/-- What makes nothing known adds nothing. -/
theorem known_concat {event : Event} (silent : event.known? = none) (events : List Event) :
    known (events ++ [event]) = known events := by
  rw [known_append, known_singleton, silent]
  exact List.append_nil _

/-- Nothing is made known while a step is under way. -/
theorem known_began (events : List Event) (state : PowerState) (memory : Memory)
    (trace : List Exchange) :
    known (events ++ .began state memory :: trace.map .asked) = known events := by
  have silent : known (trace.map .asked) = [] := by
    rw [known, List.filterMap_map]
    exact List.filterMap_eq_nil_iff.mpr fun _ _ => rfl
  rw [known_append]
  change known events ++ known (trace.map .asked) = _
  rw [silent, List.append_nil]

/-- One state is made known by a whole step. -/
theorem known_step (events : List Event) (state next : PowerState) (begun final : Memory)
    (trace : List Exchange) :
    known (events ++ .began state begun :: trace.map .asked ++ [.ended next final]) =
      known events ++ [next] := by
  rw [known_append, known_began]
  rfl

end Event

section Runs

variable {tree : PowerTree} {entered : PowerState} {memory : Memory} {events : List Event}
  {event : Event} {position following : Position}

/-- Nothing but the end of a step changes the state of the loop, and that follows an edge. -/
theorem Move.leadsTo (prior : Steps tree (.enter entered memory) events position)
    (move : Move tree position event following) :
    event.known? = none ∧ following.state = position.state ∨
      event.known? = some following.state ∧ position.state.LeadsTo following.state := by
  cases move with
  | @conclude state next worked final turn concluded =>
    obtain ⟨begun, trace, ran⟩ := prior.reached_step
    have edge : state.LeadsTo next := (Program.step_runs ran).mem_successors
    have there : (turn.position final).state = next := by
      rcases Program.conclude_cases concluded with
        ⟨-, -, -, rfl⟩ | ⟨-, -, -, rfl⟩ | ⟨-, -, rfl⟩
      · rfl
      · rfl
      · rfl
    rw [there]
    exact .inr ⟨rfl, edge⟩
  | serve | begin | work | hear | wake => exact .inl ⟨rfl, rfl⟩

/-- The states that were made known are a path from the first one to the present one. -/
theorem Steps.known_isChain (run : Steps tree (.enter entered memory) events position) :
    (entered :: Event.known events).IsChain PowerState.LeadsTo ∧
      (entered :: Event.known events).getLast? = some position.state := by
  induction run with
  | refl => exact ⟨List.isChain_singleton _, rfl⟩
  | @move events event position following prior last inductionHypothesis =>
    obtain ⟨path, present⟩ := inductionHypothesis
    rw [Event.known_append, Event.known_singleton, ← List.cons_append]
    rcases last.leadsTo prior with ⟨silent, same⟩ | ⟨told, edge⟩
    · rw [silent, same, Option.toList_none, List.append_nil]
      exact ⟨path, present⟩
    · rw [told, Option.toList_some]
      refine ⟨path.append (List.isChain_singleton _) ?_, List.getLast?_concat⟩
      intro before atEnd next atHead
      rw [present] at atEnd
      obtain rfl := Option.some.inj atEnd
      obtain rfl := Option.some.inj atHead
      exact edge

end Runs

/-- The state graph is kept to, on every tree and from every memory. Wherever a step has come, under
whatever answers and calls, it goes on to an end, and it can end in successors of its state only. In
a run of the loop the state that was entered and those made known since, one for each step, are a
path of the graph, and others see the last of them at every point. -/
theorem successors_followed (tree : PowerTree) :
    (∀ state memory trace task, (Program.step tree state memory).Reaches trace task →
      (∃ rest final next, task.Runs rest final next) ∧
        ∀ rest final next, task.Runs rest final next → next ∈ state.successors) ∧
    ∀ state memory events position, Steps tree (.enter state memory) events position →
      (state :: Event.known events).IsChain (fun before next => next ∈ before.successors) ∧
        (state :: Event.known events).getLast? = some position.memory.mailbox.published := by
  constructor
  · intro state memory trace task reached
    constructor
    · obtain ⟨rest, final, next, run, -⟩ :=
        task.exists_runs fun request => ([], request.darkAnswer)
      exact ⟨rest, final, next, run⟩
    · intro rest final next run
      exact (Program.step_runs (reached.trans run)).mem_successors
  · intro state memory events position run
    obtain ⟨path, present⟩ := run.known_isChain
    rw [← run.published] at present
    exact ⟨path, present⟩

/-- A suspend is called off, and the resume fails before it succeeds. -/
private def failsToResume : List Event × Position :=
  (Position.enter .s0 {}).rehearse (.ofRevision .v2)
    [.steady .empty, .steady .suspendDeasserted, .steady .suspendDeasserted, .steady .allLines]

/-- The resume that fails is a step of its own, from S3S0 to S3S0. -/
theorem successors_followed_failsToResume :
    Event.known failsToResume.1 = [.s0s3, .s3s0, .s3s0, .s0] ∧
    ([.s0, .s0s3, .s3s0, .s3s0, .s0] : List PowerState).IsChain
      (fun before next => next ∈ before.successors) ∧
    failsToResume.2.memory.mailbox.published = .s0 := by
  have known : Event.known failsToResume.1 = [.s0s3, .s3s0, .s3s0, .s0] := by decide +kernel
  obtain ⟨-, runs⟩ := successors_followed (.ofRevision .v2)
  obtain ⟨path, present⟩ := runs .s0 {} failsToResume.1 failsToResume.2 (.rehearse _ _ _)
  rw [known] at path present
  exact ⟨known, path, (Option.some.inj present).symm⟩

end RailSequencer
