import RailSequencer.Proofs.Step

/-!
# The endless loop

The power task takes turn after turn and never ends, so its runs are finite beginnings of that
loop: `Position` is where it is, `Event` what was seen of it, and `Move` the relation between the
two. Other tasks may call with every request and at any time at rest; nothing is assumed of them
or of the board.

A `LoopInvariant` is stated at the three points between which the loop moves (the top of a turn,
the beginning of a step, and rest), and `holds_of_steps` carries it through every run.
-/

namespace RailSequencer

/-- Where the power task is between two requests. -/
inductive Position where
  /-- At the top of a turn, with what is left of serving a reset request. -/
  | serving (state : PowerState) (task : Task Unit)
  /-- In a step, with what is left of it. -/
  | stepping (state : PowerState) (task : Task PowerState)
  /-- Between two turns, until it is woken. -/
  | resting (state : PowerState) (memory : Memory)

/-- What is seen of the power task. -/
inductive Event where
  /-- A request was answered. -/
  | asked (exchange : Exchange)
  /-- Another task called while the power task was at rest. -/
  | called (call : Mailbox.Call)
  /-- The power task took the wake that ended its rest. -/
  | woke
  /-- A step began from `state`. -/
  | began (state : PowerState) (memory : Memory)
  /-- A step ended with `next`, which has been made known. -/
  | ended (next : PowerState) (memory : Memory)

namespace Event

/-- What other tasks called. -/
def calls : Event → List Mailbox.Call
  | .asked exchange => exchange.calls
  | .called call => [call]
  | _ => []

def exchange? : Event → Option Exchange
  | .asked exchange => some exchange
  | _ => none

/-- The output line that a request drove, if it drove one. -/
def write? (event : Event) : Option (Rail × Level) :=
  event.exchange?.bind fun exchange => exchange.request.write?

/-- The requests that were answered, in order. -/
def exchanges (events : List Event) : List Exchange := events.filterMap exchange?

/-- The output lines that were driven, in order. -/
def writes (events : List Event) : List (Rail × Level) := Exchange.writes (exchanges events)

/-- The events that subscribers were told of, in order. -/
def notified (events : List Event) : List HookEvent := Exchange.notified (exchanges events)

@[simp]
theorem exchanges_append (first second : List Event) :
    exchanges (first ++ second) = exchanges first ++ exchanges second :=
  List.filterMap_append

theorem exchanges_singleton (event : Event) : exchanges [event] = event.exchange?.toList := by
  cases event <;> rfl

/-- What asks for nothing adds nothing. -/
theorem exchanges_concat {event : Event} (silent : event.exchange? = none) (events : List Event) :
    exchanges (events ++ [event]) = exchanges events := by
  rw [exchanges_append, exchanges_singleton, silent]
  exact List.append_nil _

@[simp]
theorem exchanges_asked (trace : List Exchange) : exchanges (trace.map .asked) = trace := by
  induction trace with
  | nil => rfl
  | cons exchange rest inductionHypothesis =>
    rw [List.map_cons, exchanges, List.filterMap_cons]
    exact congrArg (exchange :: ·) inductionHypothesis

@[simp]
theorem exchanges_called (calls : List Mailbox.Call) : exchanges (calls.map .called) = [] := by
  rw [exchanges, List.filterMap_map]
  exact List.filterMap_eq_nil_iff.mpr fun _ _ => rfl

@[simp]
theorem writes_append (first second : List Event) :
    writes (first ++ second) = writes first ++ writes second := by
  simp [writes]

/-- Only requests drive lines. -/
theorem writes_singleton {event : Event} (silent : event.exchange? = none) :
    writes [event] = [] := by
  rw [writes, exchanges_singleton, silent]
  rfl

/-- What drives nothing adds nothing. -/
theorem writes_concat {event : Event} (silent : event.exchange? = none) (events : List Event) :
    writes (events ++ [event]) = writes events := by
  rw [writes_append, writes_singleton silent, List.append_nil]

@[simp]
theorem writes_asked (trace : List Exchange) :
    writes (trace.map .asked) = Exchange.writes trace := by
  simp [writes]

/-- What is asked in one part of a turn comes after all that was asked before it. -/
theorem exchanges_part {event : Event} (silent : event.exchange? = none) (events : List Event)
    (trace : List Exchange) :
    exchanges (events ++ trace.map .asked ++ [event]) = exchanges events ++ trace := by
  rw [exchanges_concat silent, exchanges_append, exchanges_asked]

/-- What is driven by one part of a turn comes after all that was driven before it. -/
theorem writes_part {event : Event} (silent : event.exchange? = none) (events : List Event)
    (trace : List Exchange) :
    writes (events ++ trace.map .asked ++ [event]) = writes events ++ Exchange.writes trace := by
  rw [writes_concat silent, writes_append, writes_asked]

theorem writes_cons (event : Event) (events : List Event) :
    writes (event :: events) = event.write?.toList ++ writes events := by
  have single : writes [event] = event.write?.toList := by
    cases event with
    | asked exchange =>
      cases driven : exchange.request.write? <;>
        simp [writes, exchanges_singleton, exchange?, write?, Exchange.writes, Exchange.requests,
          Request.writes, driven]
    | _ => rfl
  rw [← single, ← writes_append, List.singleton_append]

/-- What is asked by one step comes after all that was asked before it, however far it has come. -/
theorem exchanges_began (events : List Event) (state : PowerState) (memory : Memory)
    (trace : List Exchange) :
    exchanges (events ++ .began state memory :: trace.map .asked) = exchanges events ++ trace := by
  rw [exchanges_append]
  change exchanges events ++ exchanges (trace.map .asked) = _
  rw [exchanges_asked]

theorem exchanges_step (events : List Event) (state next : PowerState) (begun final : Memory)
    (trace : List Exchange) :
    exchanges (events ++ .began state begun :: trace.map .asked ++ [.ended next final]) =
      exchanges events ++ trace := by
  rw [exchanges_concat rfl, exchanges_began]

/-- What is driven by one step comes after all that was driven before it. -/
theorem writes_step (events : List Event) (state next : PowerState) (begun final : Memory)
    (trace : List Exchange) :
    writes (events ++ .began state begun :: trace.map .asked ++ [.ended next final]) =
      writes events ++ Exchange.writes trace := by
  rw [writes, exchanges_step, Exchange.writes_append]
  rfl

theorem mem_writes_iff {write : Rail × Level} {events : List Event} :
    write ∈ writes events ↔ ∃ event ∈ events, event.write? = some write := by
  simp only [writes, exchanges, Exchange.writes, Exchange.requests, Request.writes, write?,
    List.filterMap_map, List.mem_filterMap, Option.bind_eq_some_iff]
  constructor
  · rintro ⟨exchange, ⟨event, member, asked⟩, drives⟩
    exact ⟨event, member, exchange, asked, drives⟩
  · rintro ⟨event, member, exchange, asked, drives⟩
    exact ⟨exchange, ⟨event, member, asked⟩, drives⟩

@[simp]
theorem notified_append (first second : List Event) :
    notified (first ++ second) = notified first ++ notified second := by
  simp [notified]

/-- Only requests tell anybody. -/
theorem notified_singleton {event : Event} (silent : event.exchange? = none) :
    notified [event] = [] := by
  rw [notified, exchanges_singleton, silent]
  rfl

@[simp]
theorem notified_asked (trace : List Exchange) :
    notified (trace.map .asked) = Exchange.notified trace := by
  simp [notified]

end Event

namespace Memory

/-- A state has been made known. -/
def publish (memory : Memory) (state : PowerState) : Memory :=
  { memory with mailbox := { memory.mailbox with published := state } }

/-- The wake has been taken. -/
def takeWake (memory : Memory) : Memory :=
  { memory with mailbox := { memory.mailbox with woken := false } }

end Memory

/-- Where the power task is after a turn. -/
def Turn.position (memory : Memory) : Turn → Position
  | .next state => .serving state (Program.serveReset memory)
  | .rest state => .resting state memory

namespace Position

/-- The power task is started in a state, which is made known at once. -/
def enter (state : PowerState) (memory : Memory) : Position :=
  .serving state (Program.serveReset (memory.publish state))

/-- The state of the loop: the one that the current or the coming step starts from. -/
def state : Position → PowerState
  | .serving state _ => state
  | .stepping state _ => state
  | .resting state _ => state

/-- What the power task has in memory. -/
def memory : Position → Memory
  | .serving _ task => task.memory
  | .stepping _ task => task.memory
  | .resting _ memory => memory

/-- Between two steps. -/
def isBoundary : Position → Bool
  | .stepping _ _ => false
  | _ => true

/-- In a step that has nothing left to ask, and ends at once. -/
def isSpent : Position → Bool
  | .stepping _ (.done _ _) => true
  | _ => false

theorem not_isSpent_of_isBoundary {position : Position} (boundary : position.isBoundary = true) :
    position.isSpent = false := by
  cases position with
  | stepping => exact absurd boundary Bool.false_ne_true
  | serving | resting => rfl

end Position

/-- What becomes of the outcome of a step: a new state is made known, and only a stable state that
did not change is rested in. -/
theorem Program.conclude_apply (state next : PowerState) (memory : Memory) :
    Program.conclude state next memory =
      if next = state then
        .done memory (if state.isStable then .rest state else .next state)
      else
        .done (memory.publish next) (.next next) := by
  by_cases same : next = state
  · subst same
    rw [if_pos rfl]
    cases stable : next.isStable <;> simp [Program.conclude, stable]
  · rw [if_neg same]
    simp only [Program.conclude, if_pos same]
    rfl

/-- The three ways in which a turn ends. -/
theorem Program.conclude_cases {state next : PowerState} {worked final : Memory} {turn : Turn}
    (concluded : Program.conclude state next worked = .done final turn) :
    (next = state ∧ next.isStable = true ∧ final = worked ∧ turn = .rest next) ∨
      (next = state ∧ next.isStable = false ∧ final = worked ∧ turn = .next next) ∨
      (next ≠ state ∧ final = worked.publish next ∧ turn = .next next) := by
  rw [Program.conclude_apply] at concluded
  split at concluded
  next same =>
    subst same
    obtain ⟨rfl, rfl⟩ := Task.done.inj concluded
    cases stable : next.isStable with
    | true => exact .inl ⟨rfl, rfl, rfl, rfl⟩
    | false => exact .inr (.inl ⟨rfl, rfl, rfl, rfl⟩)
  next different =>
    obtain ⟨rfl, rfl⟩ := Task.done.inj concluded
    exact .inr (.inr ⟨different, rfl, rfl⟩)

/-- All that the end of a turn changes in memory is the state that is known. -/
theorem Program.conclude_publishes {state next : PowerState} {worked final : Memory} {turn : Turn}
    (concluded : Program.conclude state next worked = .done final turn) :
    ∃ known, final = worked.publish known := by
  rcases Program.conclude_cases concluded with
    ⟨-, -, rfl, -⟩ | ⟨-, -, rfl, -⟩ | ⟨-, rfl, -⟩
  · exact ⟨_, rfl⟩
  · exact ⟨_, rfl⟩
  · exact ⟨_, rfl⟩

/-- The end of a turn asks for nothing. -/
theorem Program.conclude_done (state next : PowerState) (worked : Memory) :
    ∃ final turn, Program.conclude state next worked = .done final turn := by
  rw [Program.conclude_apply]
  split
  · exact ⟨_, _, rfl⟩
  · exact ⟨_, _, rfl⟩

/-- A turn is a reset request served, a step, and its end. -/
theorem Program.turn_runs {tree : PowerTree} {state : PowerState} {memory final : Memory}
    {trace : List Exchange} {ending : Turn}
    (run : (Program.turn tree state memory).Runs trace final ending) :
    ∃ pulse served work worked next, trace = pulse ++ work ∧
      (Program.serveReset memory).Runs pulse served () ∧
      (Program.step tree state served).Runs work worked next ∧
      Program.conclude state next worked = .done final ending := by
  obtain ⟨pulse, served, _, _, serves, begun, rfl⟩ := Program.runs_bind_iff.mp run
  obtain ⟨work, worked, next, _, works, concludes, rfl⟩ := Program.runs_bind_iff.mp begun
  obtain ⟨ended, turn, concluded⟩ := Program.conclude_done state next worked
  rw [concluded] at concludes
  obtain ⟨rfl, rfl, rfl⟩ := Task.runs_done_iff.mp concludes
  exact ⟨pulse, served, work, worked, next, by rw [List.append_nil], serves, works, concluded⟩

/-- The smallest thing that can happen to the power task. -/
inductive Move (tree : PowerTree) : Position → Event → Position → Prop where
  | serve {state : PowerState} {memory : Memory} {request : Request}
      {resume : Mailbox → request.Answer → Task Unit} (calls : List Mailbox.Call)
      (answer : request.Answer) :
      Move tree (.serving state (.ask memory request resume)) (.asked ⟨request, calls, answer⟩)
        (.serving state (resume (memory.hear calls).mailbox answer))
  | begin {state : PowerState} {memory : Memory} :
      Move tree (.serving state (.done memory ())) (.began state memory)
        (.stepping state (Program.step tree state memory))
  | work {state : PowerState} {memory : Memory} {request : Request}
      {resume : Mailbox → request.Answer → Task PowerState} (calls : List Mailbox.Call)
      (answer : request.Answer) :
      Move tree (.stepping state (.ask memory request resume)) (.asked ⟨request, calls, answer⟩)
        (.stepping state (resume (memory.hear calls).mailbox answer))
  | conclude {state next : PowerState} {worked final : Memory} {turn : Turn}
      (concluded : Program.conclude state next worked = .done final turn) :
      Move tree (.stepping state (.done worked next)) (.ended next final) (turn.position final)
  | hear {state : PowerState} {memory : Memory} (call : Mailbox.Call) :
      Move tree (.resting state memory) (.called call) (.resting state (memory.hear [call]))
  | wake {state : PowerState} {memory : Memory} (woken : memory.mailbox.woken = true) :
      Move tree (.resting state memory) .woke
        (.serving state (Program.serveReset memory.takeWake))

/-- Zero or more moves. -/
inductive Steps (tree : PowerTree) (start : Position) : List Event → Position → Prop where
  | refl : Steps tree start [] start
  | move {events : List Event} {event : Event} {middle final : Position}
      (prior : Steps tree start events middle) (last : Move tree middle event final) :
      Steps tree start (events ++ [event]) final

/-- In the run that is seen as `events`, the power task is at `position` when `event` is seen. -/
def Seen (tree : PowerTree) (start : Position) (events : List Event) (final position : Position)
    (event : Event) : Prop :=
  ∃ earlier later following, events = earlier ++ event :: later ∧
    Steps tree start earlier position ∧ Move tree position event following ∧
    Steps tree following later final

/-- What was seen in a run is seen in a longer one. -/
theorem Seen.later {tree : PowerTree} {start middle final position : Position}
    {events : List Event} {event next : Event} (seen : Seen tree start events middle position event)
    (last : Move tree middle next final) :
    Seen tree start (events ++ [next]) final position event := by
  obtain ⟨earlier, later, following, rfl, prior, move, rest⟩ := seen
  refine ⟨earlier, later ++ [next], following, ?_, prior, move, .move rest last⟩
  rw [List.append_assoc, List.cons_append]

namespace Steps

variable {tree : PowerTree} {start middle final : Position} {first second events : List Event}

theorem trans (begun : Steps tree start first middle) (rest : Steps tree middle second final) :
    Steps tree start (first ++ second) final := by
  induction rest with
  | refl =>
    rw [List.append_nil]
    exact begun
  | move _ last inductionHypothesis =>
    rw [← List.append_assoc]
    exact .move inductionHypothesis last

/-- One move, and then a run. -/
theorem cons {event : Event} (begun : Move tree start event middle)
    (rest : Steps tree middle events final) : Steps tree start (event :: events) final :=
  trans (.move .refl begun) rest

/-- A run passes through a position after each part of what is seen of it. -/
theorem split (run : Steps tree start (first ++ second) final) :
    ∃ middle, Steps tree start first middle ∧ Steps tree middle second final := by
  generalize whole : first ++ second = events at run
  induction run generalizing second with
  | refl =>
    obtain ⟨rfl, rfl⟩ := List.append_eq_nil_iff.mp whole
    exact ⟨start, .refl, .refl⟩
  | move prior last inductionHypothesis =>
    rcases List.eq_nil_or_concat second with rfl | ⟨earlier, event, rfl⟩
    · rw [List.append_nil] at whole
      subst whole
      exact ⟨_, .move prior last, .refl⟩
    · rw [List.concat_eq_append, ← List.append_assoc] at whole
      obtain ⟨rfl, same⟩ := List.append_inj' whole rfl
      obtain rfl := List.singleton_inj.mp same
      obtain ⟨middle, begun, rest⟩ := inductionHypothesis rfl
      rw [List.concat_eq_append]
      exact ⟨middle, begun, .move rest last⟩

theorem eq_of_nil (run : Steps tree start [] final) : final = start := by
  generalize nothing : [] = events at run
  cases run with
  | refl => rfl
  | move prior last => exact absurd nothing.symm (List.concat_ne_nil _ _)

/-- The first thing that is seen of a run is its first move. -/
theorem uncons {event : Event} (run : Steps tree start (event :: events) final) :
    ∃ middle, Move tree start event middle ∧ Steps tree middle events final := by
  have parts : Steps tree start ([event] ++ events) final := run
  obtain ⟨middle, begun, rest⟩ := parts.split
  generalize single : [event] = seen at begun
  cases begun with
  | refl => exact absurd single (List.cons_ne_nil _ _)
  | @move earlier last _ _ prior move =>
    have whole : [] ++ [event] = earlier ++ [last] := single
    obtain ⟨rfl, same⟩ := List.append_inj' whole rfl
    obtain rfl := List.singleton_inj.mp same
    obtain rfl := prior.eq_of_nil
    exact ⟨middle, move, rest⟩

theorem serving {state : PowerState} {task later : Task Unit} {trace : List Exchange}
    (reached : task.Reaches trace later) :
    Steps tree (.serving state task) (trace.map .asked) (.serving state later) := by
  induction reached with
  | refl => exact .refl
  | ask _ inductionHypothesis =>
    exact cons (.serve _ _) inductionHypothesis

theorem stepping {state : PowerState} {task later : Task PowerState} {trace : List Exchange}
    (reached : task.Reaches trace later) :
    Steps tree (.stepping state task) (trace.map .asked) (.stepping state later) := by
  induction reached with
  | refl => exact .refl
  | ask _ inductionHypothesis =>
    exact cons (.work _ _) inductionHypothesis

/-- Others may call as often as they like while the power task is at rest. -/
theorem hears {state : PowerState} {memory : Memory} (calls : List Mailbox.Call) :
    Steps tree (.resting state memory) (calls.map .called)
      (.resting state (memory.hear calls)) := by
  induction calls generalizing memory with
  | nil => exact .refl
  | cons call rest inductionHypothesis => exact cons (.hear call) inductionHypothesis

/-- Whatever is seen of a run is seen at some position of it. -/
theorem seen_of_mem {event : Event} (run : Steps tree start events final)
    (member : event ∈ events) : ∃ position, Seen tree start events final position event := by
  obtain ⟨earlier, later, rfl⟩ := List.append_of_mem member
  obtain ⟨position, prior, rest⟩ := run.split
  obtain ⟨following, move, rest⟩ := rest.uncons
  exact ⟨position, earlier, later, following, rfl, prior, move, rest⟩

/-- The step that the power task is in began in the run, or before it. -/
theorem began {state : PowerState} {task : Task PowerState}
    (run : Steps tree start events (.stepping state task)) :
    (∃ before, start = .stepping state before) ∨ ∃ memory, .began state memory ∈ events := by
  generalize stepping : Position.stepping state task = position at run
  induction run generalizing task with
  | refl => exact .inl ⟨task, stepping.symm⟩
  | move prior last inductionHypothesis =>
    cases last with
    | begin =>
      obtain ⟨rfl, -⟩ := Position.stepping.inj stepping
      exact .inr ⟨_, List.mem_append_right _ List.mem_cons_self⟩
    | work =>
      obtain ⟨rfl, -⟩ := Position.stepping.inj stepping
      exact (inductionHypothesis rfl).imp_right fun ⟨memory, member⟩ =>
        ⟨memory, List.mem_append_left _ member⟩
    | @conclude _ _ _ _ turn => cases turn <;> exact absurd stepping nofun
    | serve | hear | wake => exact absurd stepping nofun

/-- As long as a step has not ended, the power task is in it. -/
theorem within_step {state : PowerState} {task : Task PowerState}
    (run : Steps tree (.stepping state task) events final)
    (unfinished : ∀ next memory, .ended next memory ∉ events) :
    ∃ later trace, task.Reaches trace later ∧ final = .stepping state later := by
  induction run with
  | refl => exact ⟨task, [], .refl task, rfl⟩
  | @move earlier event _ _ prior last inductionHypothesis =>
    obtain ⟨later, trace, reached, rfl⟩ := inductionHypothesis fun next memory member =>
      unfinished next memory (List.mem_append_left _ member)
    cases last with
    | work calls answer => exact ⟨_, _, reached.answer calls answer, rfl⟩
    | @conclude _ next _ final _ _ =>
      exact absurd (List.mem_append_right _ (List.mem_singleton.mpr rfl)) (unfinished next final)

/-- A turn is a run of the loop from its top. -/
theorem turn {state : PowerState} {memory ended : Memory} {trace : List Exchange} {turn : Turn}
    (run : (Program.turn tree state memory).Runs trace ended turn) :
    ∃ events, Event.exchanges events = trace ∧
      Steps tree (.serving state (Program.serveReset memory)) events (turn.position ended) := by
  obtain ⟨pulse, served, work, worked, next, rfl, serves, works, concluded⟩ :=
    Program.turn_runs run
  refine ⟨pulse.map .asked ++ [.began state served] ++ work.map .asked ++ [.ended next ended],
    ?_, ?_⟩
  · simp only [Event.exchanges_append, Event.exchanges_asked, Event.exchanges_singleton,
      Event.exchange?, Option.toList_none, List.append_nil]
  · exact .move (trans (.move (serving serves) .begin) (stepping works)) (.conclude concluded)

/-- A turn that has come to a request is a run of the loop that has come there. -/
theorem within_turn {state : PowerState} {begun memory : Memory} {request : Request}
    {resume : Mailbox → request.Answer → Task Turn} {trace : List Exchange}
    (reached : (Program.turn tree state begun).Reaches trace (.ask memory request resume)) :
    ∃ events position, Event.exchanges events = trace ∧
      Steps tree (.serving state (Program.serveReset begun)) events position ∧
      position.state = state ∧ position.memory = memory ∧ position.isSpent = false := by
  rcases Task.reaches_bind_ask reached with
    ⟨rest, serves, -⟩ | ⟨pulse, served, _, later, serves, rest, rfl⟩
  · exact ⟨_, _, Event.exchanges_asked _, serving serves, rfl, rfl, rfl⟩
  · rcases Task.reaches_bind_ask rest with
      ⟨left, works, -⟩ | ⟨_, worked, next, _, -, concludes, -⟩
    · refine ⟨pulse.map .asked ++ [.began state served] ++ later.map .asked, _, ?_,
        trans (.move (serving serves) .begin) (stepping works), rfl, rfl, rfl⟩
      simp only [Event.exchanges_append, Event.exchanges_asked, Event.exchanges_singleton,
        Event.exchange?, Option.toList_none, List.append_nil]
    · obtain ⟨final, turn, concluded⟩ := Program.conclude_done state next worked
      rw [concluded] at concludes
      exact absurd (Task.reaches_done_iff.mp concludes).2 nofun

/-- A turn that is answered in one way goes on where that leads. -/
theorem along {state : PowerState} {memory : Memory}
    (prior : Steps tree start events (.serving state (Program.serveReset memory)))
    (answer : (request : Request) → List Mailbox.Call × request.Answer) (next : PowerState)
    (leads : ((Program.turn tree state memory).follow answer).2.2 = .next next) :
    ∃ later, Event.exchanges later = ((Program.turn tree state memory).follow answer).1 ∧
      Steps tree start (events ++ later) (.serving next
        (Program.serveReset ((Program.turn tree state memory).follow answer).2.1)) := by
  have ran := (Program.turn tree state memory).runs_follow answer
  obtain ⟨later, exchanges, run⟩ := Steps.turn ran
  rw [leads] at run
  exact ⟨later, exchanges, prior.trans run⟩

/-- What is left of a step that is answered in one way ends it where that leads. -/
theorem finish {state next : PowerState} {task : Task PowerState} {memory : Memory}
    (answer : (request : Request) → List Mailbox.Call × request.Answer)
    (leads : (task.follow answer).2 = (memory, next)) (different : next ≠ state) :
    Steps tree (.stepping state task)
      ((task.follow answer).1.map .asked ++ [.ended next (memory.publish next)])
      (.serving next (Program.serveReset (memory.publish next))) := by
  have ran := task.runs_follow answer
  rw [leads] at ran
  have concluded : Program.conclude state next memory =
      .done (memory.publish next) (.next next) := by
    rw [Program.conclude_apply, if_neg different]
  have last : Move tree (.stepping state (.done memory next)) _
      (Turn.position (memory.publish next) (.next next)) := .conclude concluded
  exact .move (stepping ran) last

end Steps

/-- Conditions at the three points of the loop, on what was seen of a run, the state and the
memory, which the parts of a turn carry from one point to the next. -/
structure LoopInvariant (tree : PowerTree) where
  /-- At the top of a turn. -/
  top : List Event → PowerState → Memory → Prop
  /-- At the beginning of a step. -/
  begun : List Event → PowerState → Memory → Prop
  /-- At rest. -/
  rest : List Event → PowerState → Memory → Prop
  serve : ∀ {events state memory trace final}, top events state memory →
    (Program.serveReset memory).Runs trace final () →
    begun (events ++ trace.map .asked ++ [.began state final]) state final
  change : ∀ {events state memory trace worked next}, begun events state memory →
    (Program.step tree state memory).Runs trace worked next → next ≠ state →
    top (events ++ trace.map .asked ++ [.ended next (worked.publish next)]) next
      (worked.publish next)
  settle : ∀ {events state memory trace worked next}, begun events state memory →
    (Program.step tree state memory).Runs trace worked next → next = state →
    next.isStable = true → rest (events ++ trace.map .asked ++ [.ended next worked]) next worked
  retry : ∀ {events state memory trace worked next}, begun events state memory →
    (Program.step tree state memory).Runs trace worked next → next = state →
    next.isStable = false → top (events ++ trace.map .asked ++ [.ended next worked]) next worked
  hear : ∀ {events state memory call}, rest events state memory →
    rest (events ++ [.called call]) state (memory.hear [call])
  wake : ∀ {events state memory}, rest events state memory → memory.mailbox.woken = true →
    top (events ++ [.woke]) state memory.takeWake

namespace LoopInvariant

variable {tree : PowerTree} (invariant : LoopInvariant tree)

/-- What an invariant says in the middle of a part of a turn: it held where the part began. -/
def Holds (events : List Event) : Position → Prop
  | .serving state task => ∃ earlier memory trace, invariant.top earlier state memory ∧
      (Program.serveReset memory).Reaches trace task ∧ events = earlier ++ trace.map .asked
  | .stepping state task => ∃ earlier memory trace, invariant.begun earlier state memory ∧
      (Program.step tree state memory).Reaches trace task ∧ events = earlier ++ trace.map .asked
  | .resting state memory => invariant.rest events state memory

variable {invariant} {events later : List Event} {event : Event} {start position final : Position}

theorem holds_of_move (holds : invariant.Holds events position)
    (move : Move tree position event final) : invariant.Holds (events ++ [event]) final := by
  cases move with
  | serve calls answer =>
    obtain ⟨earlier, memory, trace, top, reached, rfl⟩ := holds
    exact ⟨earlier, memory, _, top, reached.answer calls answer, by simp⟩
  | begin =>
    obtain ⟨earlier, memory, trace, top, reached, rfl⟩ := holds
    exact ⟨_, _, [], invariant.serve top reached, .refl _, by simp⟩
  | work calls answer =>
    obtain ⟨earlier, memory, trace, begun, reached, rfl⟩ := holds
    exact ⟨earlier, memory, _, begun, reached.answer calls answer, by simp⟩
  | @conclude state next worked final turn concluded =>
    obtain ⟨earlier, memory, trace, begun, reached, rfl⟩ := holds
    rcases Program.conclude_cases concluded with
      ⟨same, stable, rfl, rfl⟩ | ⟨same, unstable, rfl, rfl⟩ | ⟨different, rfl, rfl⟩
    · exact invariant.settle begun reached same stable
    · exact ⟨_, _, [], invariant.retry begun reached same unstable, .refl _, by simp⟩
    · exact ⟨_, _, [], invariant.change begun reached different, .refl _, by simp⟩
  | hear call => exact invariant.hear holds
  | wake woken => exact ⟨_, _, [], invariant.wake holds woken, .refl _, by simp⟩

/-- An invariant that holds somewhere holds from there on. -/
theorem holds_of_steps (holds : invariant.Holds events start)
    (run : Steps tree start later final) : invariant.Holds (events ++ later) final := by
  induction run with
  | refl =>
    rw [List.append_nil]
    exact holds
  | move _ last inductionHypothesis =>
    rw [← List.append_assoc]
    exact holds_of_move inductionHypothesis last

/-- An invariant that holds when the power task is started holds in every run. -/
theorem holds_of_enter {state : PowerState} {memory : Memory}
    (entered : invariant.top [] state (memory.publish state))
    (run : Steps tree (.enter state memory) events final) : invariant.Holds events final := by
  have holds : invariant.Holds [] (.enter state memory) := ⟨[], _, [], entered, .refl _, rfl⟩
  exact holds_of_steps holds run

/-- The state of the loop is the one that others see. -/
def published (tree : PowerTree) : LoopInvariant tree where
  top _ state memory := memory.mailbox.published = state
  begun _ state memory := memory.mailbox.published = state
  rest _ state memory := memory.mailbox.published = state
  serve known served := (Program.serveReset_keeps served).published.trans known
  change _ _ _ := rfl
  settle known run same _ :=
    ((Program.step_keeps tree run).published.trans known).trans same.symm
  retry known run same _ :=
    ((Program.step_keeps tree run).published.trans known).trans same.symm
  hear known := (Memory.heard_hear _ _).published.trans known
  wake known _ := known

end LoopInvariant

/-- A condition on what was asked in a run and on the state of the loop, which reset pulses, however
far they have come, and whole steps carry on. -/
structure TraceInvariant (tree : PowerTree) where
  holds : List Exchange → PowerState → Prop
  pulse : ∀ {trace pulse state memory task}, holds trace state →
    (Program.serveReset memory).Reaches pulse task → holds (trace ++ pulse) state
  step : ∀ {trace work state next memory worked}, holds trace state →
    Transition tree memory state work worked next → holds (trace ++ work) next

namespace TraceInvariant

variable {tree : PowerTree} (invariant : TraceInvariant tree)

/-- The same condition at the three points of the loop. -/
def loop : LoopInvariant tree where
  top events state _ := invariant.holds (Event.exchanges events) state
  begun events state _ := invariant.holds (Event.exchanges events) state
  rest events state _ := invariant.holds (Event.exchanges events) state
  serve := by
    intro events state memory trace final before served
    rw [Event.exchanges_part rfl]
    exact invariant.pulse before served
  change := by
    intro events state memory trace worked next before run _
    rw [Event.exchanges_part rfl]
    exact invariant.step before (Program.step_runs run)
  settle := by
    intro events state memory trace worked next before run _ _
    rw [Event.exchanges_part rfl]
    exact invariant.step before (Program.step_runs run)
  retry := by
    intro events state memory trace worked next before run _ _
    rw [Event.exchanges_part rfl]
    exact invariant.step before (Program.step_runs run)
  hear := by
    intro events state memory call before
    rw [Event.exchanges_concat rfl]
    exact before
  wake := by
    intro events state memory before _
    rw [Event.exchanges_concat rfl]
    exact before

/-- A condition that holds when the power task is started holds between any two steps. -/
theorem between {state : PowerState} {memory : Memory} {events : List Event} {position : Position}
    (entered : invariant.holds [] state) (run : Steps tree (.enter state memory) events position)
    (boundary : position.isBoundary = true) :
    invariant.holds (Event.exchanges events) position.state := by
  have top : invariant.loop.top [] state (memory.publish state) := entered
  have holds := LoopInvariant.holds_of_enter top run
  cases position with
  | serving state task =>
    obtain ⟨earlier, memory, trace, before, reached, rfl⟩ := holds
    rw [Event.exchanges_append, Event.exchanges_asked]
    exact invariant.pulse before reached
  | stepping state task => exact absurd boundary Bool.false_ne_true
  | resting state memory => exact holds

end TraceInvariant

/-- Wherever the power task is in a step, that step has led there. -/
theorem Steps.reached_step {tree : PowerTree} {entered state : PowerState} {memory : Memory}
    {events : List Event} {task : Task PowerState}
    (run : Steps tree (.enter entered memory) events (.stepping state task)) :
    ∃ begun trace, (Program.step tree state begun).Reaches trace task := by
  have holds := LoopInvariant.holds_of_enter
    (show (LoopInvariant.published tree).top [] entered (memory.publish entered) from rfl) run
  obtain ⟨_, begun, trace, _, reached, -⟩ := holds
  exact ⟨begun, trace, reached⟩

/-- At every point of a run, also in the middle of a step, the state of the loop is the one that
others see. -/
theorem Steps.published {tree : PowerTree} {state : PowerState} {memory : Memory}
    {events : List Event} {position : Position}
    (run : Steps tree (.enter state memory) events position) :
    position.memory.mailbox.published = position.state := by
  have holds := LoopInvariant.holds_of_enter
    (show (LoopInvariant.published tree).top [] state (memory.publish state) from rfl) run
  cases position with
  | serving state task =>
    obtain ⟨_, memory, trace, known, reached, -⟩ := holds
    exact (Program.serveReset_keeps reached).published.trans known
  | stepping state task =>
    obtain ⟨_, memory, trace, known, reached, -⟩ := holds
    exact (Program.step_keeps tree reached).published.trans known
  | resting state memory => exact holds

end RailSequencer
