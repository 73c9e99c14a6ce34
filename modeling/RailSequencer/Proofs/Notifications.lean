import Mathlib.Computability.RegularExpressions
import RailSequencer.PowerTree.Revisions
import RailSequencer.Proofs.Loop

/-!
# Notifications are well bracketed

What subscribers are told in a run that starts hard off is the beginning of a word of
`((startup (resume suspend)*)? shutdown)*`, and in one that starts with the processor running the
beginning of `suspend (resume suspend)* shutdown` and such a word. `HookEvent.powerCycles` is that
expression.

`Phase` is what a subscriber can tell from the events alone. It is nearly a function of the state:
only S3S5 is entered both from S3 and by a power-up that failed before anybody was told. A resume
may be tried, and a suspend called off, any number of times without a further event.
-/

namespace RailSequencer

namespace HookEvent

/-- A processor that is resumed and suspended. -/
def excursion : RegularExpression HookEvent := .char .resume * .char .suspend

/-- From one hard off to the next; the power-up may fail before anybody is told of it. -/
def powerCycle : RegularExpression HookEvent :=
  (1 + .char .startup * excursion.star) * .char .shutdown

def powerCycles : RegularExpression HookEvent := powerCycle.star

/-- What is left of a power cycle in S3, and what follows. -/
def afterSuspend : RegularExpression HookEvent :=
  excursion.star * (.char .shutdown * powerCycles)

/-- What is left of a power cycle in S0, and what follows. -/
def afterResume : RegularExpression HookEvent := .char .suspend * afterSuspend

/-- Wherever `last` comes after `first`, `middle` comes between them. -/
def Separates (middle first last : HookEvent) (events : List HookEvent) : Prop :=
  ∀ before between after, events = before ++ first :: (between ++ last :: after) →
    middle ∈ between

end HookEvent

/-- What the events tell of the processor. -/
inductive Phase where
  /-- Nothing has been heard since the last shutdown. -/
  | off
  /-- Started up, and not resumed since. -/
  | suspended
  | running
deriving DecidableEq, Repr

namespace Phase

/-- What an event tells, where it may come. -/
def after : Phase → HookEvent → Option Phase
  | .off, .startup => some .suspended
  | .off, .shutdown => some .off
  | .suspended, .resume => some .running
  | .suspended, .shutdown => some .off
  | .running, .suspend => some .suspended
  | _, _ => none

/-- What events tell, the first one first. -/
def afterAll (phase : Phase) (events : List HookEvent) : Option Phase := events.foldlM after phase

/-- What may be told from here on. -/
def ahead : Phase → RegularExpression HookEvent
  | .off => HookEvent.powerCycles
  | .suspended => HookEvent.afterSuspend
  | .running => HookEvent.afterResume

/-- The states that go with a phase where a step begins. -/
def states : Phase → List PowerState
  | .off => [.g3, .g3s5, .s5, .s5s3, .s3s5, .s5g3]
  | .suspended => [.s3, .s3s0, .s3s5]
  | .running => [.s0, .s0s3]

variable {phase next : Phase} {event : HookEvent} {events first second word : List HookEvent}

theorem afterAll_append (phase : Phase) (first second : List HookEvent) :
    phase.afterAll (first ++ second) =
      (phase.afterAll first).bind fun next => next.afterAll second :=
  List.foldlM_append

theorem afterAll_cons (phase : Phase) (event : HookEvent) (events : List HookEvent) :
    phase.afterAll (event :: events) = (phase.after event).bind fun next => next.afterAll events :=
  List.foldlM_cons

/-- Events that may come one after the other may be cut anywhere. -/
theorem exists_afterAll_of_append (told : phase.afterAll (first ++ second) = some next) :
    ∃ middle, phase.afterAll first = some middle ∧ middle.afterAll second = some next := by
  rw [afterAll_append] at told
  exact Option.bind_eq_some_iff.mp told

theorem exists_after_of_cons (told : phase.afterAll (event :: events) = some next) :
    ∃ middle, phase.after event = some middle ∧ middle.afterAll events = some next := by
  rw [afterAll_cons] at told
  exact Option.bind_eq_some_iff.mp told

section Words

open Computability HookEvent Language

private theorem char_mem (event : HookEvent) : [event] ∈ (RegularExpression.char event).matches' :=
  rfl

/-- A word of a starred language, after one more. -/
private theorem append_mem_kstar {language : Language HookEvent} {first second : List HookEvent}
    (one : first ∈ language) (rest : second ∈ language∗) : first ++ second ∈ language∗ := by
  obtain ⟨words, rfl, all⟩ := mem_kstar.mp rest
  exact mem_kstar.mpr ⟨first :: words, rfl, List.forall_mem_cons.mpr ⟨one, all⟩⟩

/-- An excursion is followed by what may follow a suspend. -/
private theorem excursion_append_mem (rest : word ∈ afterSuspend.matches') :
    .resume :: .suspend :: word ∈ afterSuspend.matches' := by
  obtain ⟨excursions, starred, ending, down, rfl⟩ := mem_mul.mp rest
  have one : [HookEvent.resume, .suspend] ∈ excursion.matches' :=
    append_mem_mul (char_mem .resume) (char_mem .suspend)
  exact append_mem_mul (append_mem_kstar one starred) down

/-- A power-up that was told of is followed by what may follow a suspend. -/
private theorem startup_append_mem (rest : word ∈ afterSuspend.matches') :
    .startup :: word ∈ powerCycles.matches' := by
  obtain ⟨excursions, starred, ending, down, rfl⟩ := mem_mul.mp rest
  obtain ⟨shutdown, last, later, cycles, rfl⟩ := mem_mul.mp down
  have up : .startup :: excursions ∈
      (1 + .char .startup * excursion.star : RegularExpression HookEvent).matches' :=
    (mem_add _ _ _).mpr (.inr (append_mem_mul (char_mem .startup) starred))
  have cycle : .startup :: excursions ++ shutdown ∈ powerCycle.matches' := append_mem_mul up last
  rw [← List.append_assoc, ← List.cons_append]
  exact append_mem_kstar cycle cycles

/-- So is a shutdown by any number of power cycles, also where nobody was told of the power-up. -/
private theorem shutdown_append_mem (rest : word ∈ powerCycles.matches') :
    .shutdown :: word ∈ powerCycles.matches' := by
  have silent : [] ∈ (1 + .char .startup * excursion.star : RegularExpression HookEvent).matches' :=
    (mem_add _ _ _).mpr (.inl nil_mem_one)
  have cycle : [HookEvent.shutdown] ∈ powerCycle.matches' :=
    append_mem_mul silent (char_mem .shutdown)
  exact append_mem_kstar cycle rest

/-- An event that may come is the beginning of what may be told. -/
theorem cons_mem_ahead (told : phase.after event = some next)
    (rest : word ∈ next.ahead.matches') : event :: word ∈ phase.ahead.matches' := by
  cases phase with
  | off =>
    cases event with
    | startup =>
      obtain rfl : Phase.suspended = next := Option.some.inj told
      exact startup_append_mem rest
    | shutdown =>
      obtain rfl : Phase.off = next := Option.some.inj told
      exact shutdown_append_mem rest
    | resume | suspend => exact absurd told nofun
  | suspended =>
    cases event with
    | resume =>
      obtain rfl : Phase.running = next := Option.some.inj told
      obtain ⟨_, rfl, later, ending, rfl⟩ := mem_mul.mp rest
      exact excursion_append_mem ending
    | shutdown =>
      obtain rfl : Phase.off = next := Option.some.inj told
      exact append_mem_mul (nil_mem_kstar _) (append_mem_mul (char_mem .shutdown) rest)
    | startup | suspend => exact absurd told nofun
  | running =>
    cases event with
    | suspend =>
      obtain rfl : Phase.suspended = next := Option.some.inj told
      exact append_mem_mul (char_mem .suspend) rest
    | startup | resume | shutdown => exact absurd told nofun

/-- Something may always be told, if only that the processor shuts down. -/
theorem exists_mem_ahead (phase : Phase) : ∃ word, word ∈ phase.ahead.matches' := by
  have off : [] ∈ Phase.off.ahead.matches' := nil_mem_kstar _
  have suspended : [.shutdown] ∈ Phase.suspended.ahead.matches' := cons_mem_ahead rfl off
  have running : [.suspend, .shutdown] ∈ Phase.running.ahead.matches' :=
    cons_mem_ahead rfl suspended
  cases phase with
  | off => exact ⟨_, off⟩
  | suspended => exact ⟨_, suspended⟩
  | running => exact ⟨_, running⟩

/-- Events that may come one after the other are the beginning of a word. -/
theorem exists_word (told : phase.afterAll events = some next) :
    ∃ word ∈ phase.ahead.matches', events <+: word := by
  induction events generalizing phase with
  | nil =>
    obtain ⟨word, member⟩ := phase.exists_mem_ahead
    exact ⟨word, member, List.nil_prefix⟩
  | cons event events inductionHypothesis =>
    obtain ⟨middle, here, later⟩ := exists_after_of_cons told
    obtain ⟨word, member, begun⟩ := inductionHypothesis later
    exact ⟨event :: word, cons_mem_ahead here member, List.cons_prefix_cons.mpr ⟨rfl, begun⟩⟩

end Words

section Order

variable {last : HookEvent} {between rest : List HookEvent}

/-- Nothing but a suspend may be told of a running processor. -/
theorem eq_suspend_of_after (told : Phase.running.after event = some next) : event = .suspend := by
  cases event with
  | suspend => rfl
  | startup | resume | shutdown => exact absurd told nofun

/-- Nothing but a resume tells of a running processor. -/
theorem eq_resume_of_after (told : phase.after event = some .running) : event = .resume := by
  revert told
  cases phase <;> cases event <;> decide

/-- A running processor is suspended before anything else is told. -/
theorem suspend_mem (told : Phase.running.afterAll (between ++ last :: rest) = some next)
    (other : last ≠ .suspend) : .suspend ∈ between := by
  cases between with
  | nil =>
    obtain ⟨_, here, -⟩ := exists_after_of_cons told
    exact absurd (eq_suspend_of_after here) other
  | cons event between =>
    obtain ⟨_, here, -⟩ := exists_after_of_cons told
    rw [eq_suspend_of_after here]
    exact List.mem_cons_self

/-- A processor that does not run is resumed before it is suspended. -/
theorem resume_mem (told : phase.afterAll (between ++ .suspend :: rest) = some next)
    (asleep : phase ≠ .running) : .resume ∈ between := by
  induction between generalizing phase with
  | nil =>
    obtain ⟨_, here, -⟩ := exists_after_of_cons told
    cases phase with
    | running => exact absurd rfl asleep
    | off | suspended => exact absurd here nofun
  | cons event between inductionHypothesis =>
    obtain ⟨later, here, goesOn⟩ := exists_after_of_cons told
    by_cases resumed : later = .running
    · subst resumed
      rw [eq_resume_of_after here]
      exact List.mem_cons_self
    · exact List.mem_cons_of_mem _ (inductionHypothesis goesOn resumed)

/-- Resumes and suspends take turns, and no shutdown comes between a resume and its suspend. -/
theorem separates (told : phase.afterAll events = some next) :
    HookEvent.Separates .suspend .resume .resume events ∧
      HookEvent.Separates .resume .suspend .suspend events ∧
      HookEvent.Separates .suspend .resume .shutdown events := by
  have running {before between after : List HookEvent} {last : HookEvent}
      (whole : events = before ++ .resume :: (between ++ last :: after)) :
      Phase.running.afterAll (between ++ last :: after) = some next := by
    rw [whole] at told
    obtain ⟨middle, -, rest⟩ := exists_afterAll_of_append told
    obtain ⟨later, resumed, goesOn⟩ := exists_after_of_cons rest
    cases middle with
    | suspended =>
      obtain rfl := Option.some.inj resumed
      exact goesOn
    | off | running => exact absurd resumed nofun
  refine ⟨?_, ?_, ?_⟩
  · intro before between after whole
    exact suspend_mem (running whole) (by decide)
  · intro before between after whole
    rw [whole] at told
    obtain ⟨middle, -, rest⟩ := exists_afterAll_of_append told
    obtain ⟨later, suspended, goesOn⟩ := exists_after_of_cons rest
    cases middle with
    | running =>
      obtain rfl := Option.some.inj suspended
      exact resume_mem goesOn (by decide)
    | off | suspended => exact absurd suspended nofun
  · intro before between after whole
    exact suspend_mem (running whole) (by decide)

end Order

end Phase

/-- What a step from `state` to `next` tells subscribers. -/
def PowerState.notices (state next : PowerState) : List HookEvent :=
  match state, next with
  | .s5s3, .s3 => [.startup]
  | .s3s0, .s0 => [.resume]
  | .s0s3, _ => [.suspend]
  | .s3s5, _ => [.shutdown]
  | _, _ => []

/-- A step goes from a state that goes with a phase to one that goes with what it told. -/
theorem Phase.exists_notices {phase : Phase} {state next : PowerState}
    (fits : state ∈ phase.states) (edge : next ∈ state.successors) :
    ∃ later, phase.afterAll (state.notices next) = some later ∧ next ∈ later.states := by
  have all : ∀ state ∈ phase.states, ∀ next ∈ state.successors,
      (phase.afterAll (state.notices next)).any (fun later => next ∈ later.states) = true := by
    cases phase <;> decide
  have here := all state fits next edge
  cases told : phase.afterAll (state.notices next) with
  | none =>
    rw [told] at here
    exact absurd here Bool.false_ne_true
  | some later =>
    rw [told] at here
    exact ⟨later, rfl, of_decide_eq_true here⟩

theorem ChargerPolls.quiet {retries : Nat} {trace : List Exchange} {ready : Bool}
    (polls : ChargerPolls retries trace ready) :
    ∀ request ∈ Exchange.requests trace, request.IsQuiet := by
  induction polls with
  | last | agrees => simp [Exchange.requests, Request.IsQuiet]
  | again _ _ _ inductionHypothesis =>
    simp only [Exchange.requests_cons, List.forall_mem_cons]
    exact ⟨trivial, trivial, inductionHypothesis⟩

theorem ChargerPolls.notified {retries : Nat} {trace : List Exchange} {ready : Bool}
    (polls : ChargerPolls retries trace ready) : Exchange.notified trace = [] :=
  Exchange.notified_eq_nil polls.quiet

/-- Nobody is told that a table is written. -/
theorem quiet_replayed {table : List RailWrite} {trace : List Exchange}
    (asked : Exchange.requests trace = tableRequests sleepRequests table) :
    ∀ request ∈ Exchange.requests trace, request.IsQuiet :=
  forall_replayed asked (fun _ _ => trivial) (fun _ => trivial)

theorem notified_replayed {table : List RailWrite} {trace : List Exchange}
    (asked : Exchange.requests trace = tableRequests sleepRequests table) :
    Exchange.notified trace = [] :=
  Exchange.notified_eq_nil (quiet_replayed asked)

/-- Nor that a held reset is released. -/
theorem quiet_released {held : Bool} {trace : List Exchange}
    (release : Exchange.requests trace = releaseRequests held) :
    ∀ request ∈ Exchange.requests trace, request.IsQuiet :=
  forall_released release (fun _ _ => trivial) (fun _ => trivial)

theorem notified_released {held : Bool} {trace : List Exchange}
    (release : Exchange.requests trace = releaseRequests held) : Exchange.notified trace = [] :=
  Exchange.notified_eq_nil (quiet_released release)

/-- Nor what becomes of a suspend once it has begun. -/
theorem quiet_suspended {tree : PowerTree} {condition : AbortCondition} {memory final : Memory}
    {trace : List Exchange} {outcome : Outcome}
    (run : AbortableRun condition tree.suspendRequests memory trace final outcome) :
    ∀ request ∈ Exchange.requests trace, request.IsQuiet := by
  intro request member
  apply tree.forall_suspendRequests (fun _ _ => trivial) (fun _ => trivial) trivial
  exact run.begun.subset member

theorem notified_suspended {tree : PowerTree} {condition : AbortCondition} {memory final : Memory}
    {trace : List Exchange} {outcome : Outcome}
    (run : AbortableRun condition tree.suspendRequests memory trace final outcome) :
    Exchange.notified trace = [] :=
  Exchange.notified_eq_nil (quiet_suspended run)

namespace Transition

variable {tree : PowerTree} {memory final : Memory} {trace : List Exchange}
  {state next : PowerState}

/-- What a step tells follows from the states that it leads from and to. -/
theorem notified (transition : Transition tree memory state trace final next) :
    Exchange.notified trace = state.notices next := by
  cases transition with
  | fromS3 calls lines whole leads =>
    subst whole
    cases next <;> rfl
  | leavesS0 calls lines whole ends => exact whole ▸ rfl
  | staysInS0 calls lines whole quiet steady => exact whole ▸ rfl
  | losesDebounced calls waited lines error whole quiet debounced => exact whole ▸ rfl
  | looksAgain calls waited called lines again begun quiet debounced leads => exact begun ▸ rfl
  | asksCharger polled calls unwanted whole leads =>
    rw [whole, Exchange.notified_append, polled.notified]
    exact rfl
  | powersUp asked waited told whole =>
    rw [whole, Exchange.notified_append, notified_replayed asked]
    exact rfl
  | failsPowerUp asked waited error whole =>
    rw [whole, Exchange.notified_append, notified_replayed asked]
    exact rfl
  | resumes asked release waited told kept whole =>
    rw [whole, Exchange.notified_append, Exchange.notified_append, notified_replayed asked,
      notified_released release]
    exact rfl
  | failsResume asked release waited error whole =>
    rw [whole, Exchange.notified_append, Exchange.notified_append, notified_replayed asked,
      notified_released release]
    exact rfl
  | callsOffSuspend told aborted =>
    change .suspend :: Exchange.notified _ = _
    rw [notified_suspended aborted]
    exact rfl
  | suspends told completed idled looked pressed whole =>
    rw [whole, Exchange.notified_append]
    change .suspend :: Exchange.notified _ ++ [] = _
    rw [notified_suspended completed]
    exact rfl
  | powersDown told asked =>
    change .shutdown :: Exchange.notified _ = _
    rw [notified_replayed asked]
    exact rfl
  | fromG3 | fromS5 | turnsOff => exact rfl

end Transition

/-- Nobody is told of a reset pulse, however far it has come. -/
theorem Program.serveReset_quiet {memory : Memory} {trace : List Exchange} {task : Task Unit}
    (reached : (Program.serveReset memory).Reaches trace task) :
    ∀ request ∈ Exchange.requests trace, request.IsQuiet := by
  obtain ⟨rest, final, answer, run⟩ := reached.extend
  have whole : ∀ request ∈ Exchange.requests (trace ++ rest), request.IsQuiet := by
    rw [(Program.serveReset_runs run).1]
    split
    · exact quiet_pulseRequests
    · exact fun _ member => absurd member List.not_mem_nil
  rw [Exchange.requests_append] at whole
  exact (List.forall_mem_append.mp whole).1

theorem Program.serveReset_notified {memory : Memory} {trace : List Exchange} {task : Task Unit}
    (reached : (Program.serveReset memory).Reaches trace task) : Exchange.notified trace = [] :=
  Exchange.notified_eq_nil (Program.serveReset_quiet reached)

section Runs

variable {tree : PowerTree} {begun : Phase} {state next : PowerState} {memory worked : Memory}
  {events : List Event} {trace : List Exchange} {position : Position}

/-- What was told goes with the state that the power task is in. -/
def Phase.Fits (begun : Phase) (events : List Event) (state : PowerState) : Prop :=
  ∃ phase, begun.afterAll (Event.notified events) = some phase ∧ state ∈ phase.states

/-- Where nothing was told, nothing changes. -/
private theorem fits_of_quiet {quiet : List Event} (fits : begun.Fits events state)
    (silent : Event.notified quiet = []) : begun.Fits (events ++ quiet) state := by
  rw [Phase.Fits, Event.notified_append, silent, List.append_nil]
  exact fits

private theorem fits_of_step {event : Event} (fits : begun.Fits events state)
    (run : (Program.step tree state memory).Runs trace worked next)
    (silent : event.exchange? = none) :
    begun.Fits (events ++ trace.map .asked ++ [event]) next := by
  obtain ⟨phase, told, goes⟩ := fits
  have transition := Program.step_runs run
  obtain ⟨later, here, goesThen⟩ := Phase.exists_notices goes transition.mem_successors
  refine ⟨later, ?_, goesThen⟩
  rw [Event.notified_append, Event.notified_append, Event.notified_asked,
    Event.notified_singleton silent, List.append_nil, transition.notified, Phase.afterAll_append,
    told]
  exact here

/-- What was told goes with the state at every point of the loop. -/
def LoopInvariant.fits (tree : PowerTree) (begun : Phase) : LoopInvariant tree where
  top events state _ := begun.Fits events state
  begun events state _ := begun.Fits events state
  rest events state _ := begun.Fits events state
  serve fits served := by
    rw [List.append_assoc]
    apply fits_of_quiet fits
    rw [Event.notified_append, Event.notified_asked, Program.serveReset_notified served,
      Event.notified_singleton rfl]
    rfl
  change fits run _ := fits_of_step fits run rfl
  settle fits run _ _ := fits_of_step fits run rfl
  retry fits run _ _ := fits_of_step fits run rfl
  hear fits := fits_of_quiet fits (Event.notified_singleton rfl)
  wake fits _ := fits_of_quiet fits (Event.notified_singleton rfl)

/-- Between two steps, what was told goes with the state. -/
theorem LoopInvariant.fits_of_holds
    (holds : (LoopInvariant.fits tree begun).Holds events position)
    (boundary : position.isBoundary = true) : begun.Fits events position.state := by
  cases position with
  | serving state task =>
    obtain ⟨earlier, memory, trace, fits, reached, rfl⟩ := holds
    apply fits_of_quiet fits
    rw [Event.notified_asked, Program.serveReset_notified reached]
  | stepping state task => exact absurd boundary Bool.false_ne_true
  | resting state memory => exact holds

/-- In the middle of a step, what was told is the beginning of what will have been told. -/
theorem LoopInvariant.exists_phase_of_holds
    (holds : (LoopInvariant.fits tree begun).Holds events position) :
    ∃ phase, begun.afterAll (Event.notified events) = some phase := by
  cases position with
  | serving state task =>
    obtain ⟨phase, told, -⟩ := LoopInvariant.fits_of_holds holds rfl
    exact ⟨phase, told⟩
  | stepping state task =>
    obtain ⟨earlier, memory, trace, fits, reached, rfl⟩ := holds
    obtain ⟨rest, worked, next, run⟩ := reached.extend
    have silent : (Event.ended next worked).exchange? = none := rfl
    obtain ⟨phase, told, -⟩ := fits_of_step fits run silent
    rw [List.map_append, ← List.append_assoc, List.append_assoc, Event.notified_append] at told
    obtain ⟨middle, toldThen, -⟩ := Phase.exists_afterAll_of_append told
    exact ⟨middle, toldThen⟩
  | resting state memory =>
    obtain ⟨phase, told, -⟩ := LoopInvariant.fits_of_holds holds rfl
    exact ⟨phase, told⟩

/-- Whatever the board answers and other tasks call, subscribers are told the beginning of a word of
power cycles by a run that starts in G3, and by one that starts in S0 the beginning of what may
follow a resume. Between two steps they know where the processor is. So resumes and suspends take
turns, however often a suspend is called off and a resume tried again, and there is no shutdown
between a resume and its suspend. -/
theorem notifications_bracketed (run : Steps tree (.enter state memory) events position)
    (started : state = .g3 ∨ state = .s0) :
    (state = .g3 →
        (∃ word ∈ HookEvent.powerCycles.matches', Event.notified events <+: word) ∧
        (position.isBoundary = true → Phase.off.Fits events position.state)) ∧
      (state = .s0 →
        (∃ word ∈ HookEvent.afterResume.matches', Event.notified events <+: word) ∧
        (position.isBoundary = true → Phase.running.Fits events position.state)) ∧
      HookEvent.Separates .suspend .resume .resume (Event.notified events) ∧
      HookEvent.Separates .resume .suspend .suspend (Event.notified events) ∧
      HookEvent.Separates .suspend .resume .shutdown (Event.notified events) := by
  have holds (begun : Phase) (fits : state ∈ begun.states) :
      (LoopInvariant.fits tree begun).Holds events position := by
    have entered : (LoopInvariant.fits tree begun).top [] state (memory.publish state) :=
      ⟨begun, rfl, fits⟩
    exact LoopInvariant.holds_of_enter entered run
  have order : ∃ begun phase, Phase.afterAll begun (Event.notified events) = some phase := by
    rcases started with rfl | rfl
    · exact ⟨.off, LoopInvariant.exists_phase_of_holds (holds .off (by decide))⟩
    · exact ⟨.running, LoopInvariant.exists_phase_of_holds (holds .running (by decide))⟩
  obtain ⟨_, _, toldSo⟩ := order
  refine ⟨?_, ?_, Phase.separates toldSo⟩
  · rintro rfl
    have off := holds .off (by decide)
    obtain ⟨_, told⟩ := LoopInvariant.exists_phase_of_holds off
    exact ⟨Phase.exists_word told, LoopInvariant.fits_of_holds off⟩
  · rintro rfl
    have running := holds .running (by decide)
    obtain ⟨_, told⟩ := LoopInvariant.exists_phase_of_holds running
    exact ⟨Phase.exists_word told, LoopInvariant.fits_of_holds running⟩

/-- A suspend that is called off, and a resume that succeeds at the second try. -/
theorem notifications_bracketed_suspendCalledOff : ∃ events memory,
    Steps (.ofRevision .v2) (.enter .s0 {}) events (.serving .s0 (Program.serveReset memory)) ∧
      Event.notified events = [.suspend, .resume] ∧
      (∃ word ∈ HookEvent.afterResume.matches', Event.notified events <+: word) ∧
      Phase.running.Fits events .s0 := by
  let dark := fun request : Request => (([] : List Mailbox.Call), request.darkAnswer)
  let awake := fun request : Request =>
    (([] : List Mailbox.Call), request.steadyAnswer .suspendDeasserted)
  let supplied := fun request : Request =>
    (([] : List Mailbox.Call), request.steadyAnswer .allLines)
  have entered : Steps (.ofRevision .v2) (.enter .s0 {}) [] _ := .refl
  obtain ⟨leaving, askedFirst, leaves⟩ := entered.along dark .s0s3 (by decide +kernel)
  obtain ⟨aborting, askedThen, aborts⟩ := leaves.along awake .s3s0 (by decide +kernel)
  obtain ⟨failing, askedVainly, fails⟩ := aborts.along dark .s3s0 (by decide +kernel)
  obtain ⟨resuming, askedAgain, resumes⟩ := fails.along supplied .s0 (by decide +kernel)
  obtain ⟨begun, fits⟩ := (notifications_bracketed resumes (.inr rfl)).2.1 rfl
  refine ⟨_, _, resumes, ?_, begun, fits rfl⟩
  simp only [Event.notified, Event.exchanges_append, askedFirst, askedThen, askedVainly, askedAgain]
  decide +kernel

end Runs

end RailSequencer
