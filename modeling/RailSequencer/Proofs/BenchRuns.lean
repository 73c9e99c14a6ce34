import RailSequencer.Bench.Execution
import RailSequencer.Proofs.Exchange

/-!
# Runs on a bench

A bench answers every request, and whatever happens on it meanwhile reaches the power task through
calls on the mailbox. So the run of a task on a bench is a run like any other, and all that is said
of runs holds of it. Its record is made by the exchanges one after the other; only the actions that
are done at their time come in between.
-/

namespace RailSequencer

namespace Bench

/-- The record of what the power task did, oldest event first. -/
def shown (bench : Bench) : List Event :=
  bench.record.reverse.filter fun event => match event with
    | .timed _ => false
    | _ => true

/-- Other tasks have called, and the power task has done what is in `events`. -/
structure Follows (before : Bench) (events : List Event) (after : Bench) : Prop where
  setup : after.setup = before.setup
  mailbox : ∃ calls, after.mailbox = before.mailbox.performAll calls
  shown : after.shown = before.shown ++ events

/-- Other tasks have called, and the power task has done nothing. -/
def Waits (before after : Bench) : Prop := before.Follows [] after

variable {first middle last : Bench} {earlier later : List Event}

theorem Follows.trans (begun : first.Follows earlier middle) (rest : middle.Follows later last) :
    first.Follows (earlier ++ later) last where
  setup := rest.setup.trans begun.setup
  mailbox := by
    obtain ⟨before, called⟩ := begun.mailbox
    obtain ⟨after, calledThen⟩ := rest.mailbox
    exact ⟨before ++ after, by rw [calledThen, called, Mailbox.performAll_append]⟩
  shown := by rw [rest.shown, begun.shown, List.append_assoc]

theorem Follows.waits (begun : first.Follows earlier middle) (rest : middle.Waits last) :
    first.Follows earlier last :=
  List.append_nil earlier ▸ begun.trans rest

namespace Waits

/-- All that others did to the mailbox is that they called. -/
theorem of_calls (calls : List Mailbox.Call) (setup : last.setup = first.setup)
    (mailbox : last.mailbox = first.mailbox.performAll calls) (shown : last.shown = first.shown) :
    first.Waits last :=
  ⟨setup, ⟨calls, mailbox⟩, by rw [shown, List.append_nil]⟩

theorem refl (bench : Bench) : bench.Waits bench := of_calls [] rfl rfl rfl

theorem trans (begun : first.Waits middle) (rest : middle.Waits last) : first.Waits last :=
  Follows.waits begun rest

/-- Another task calls. -/
theorem call (bench : Bench) (call : Mailbox.Call) :
    bench.Waits (bench.onMailbox fun mailbox => mailbox.perform call) :=
  of_calls [call] rfl rfl rfl

/-- An action calls, or changes what nobody but the board knows. -/
theorem act (bench : Bench) (action : Action) : bench.Waits (bench.act action) := by
  cases action with
  | forceShutdown => exact call bench .requestShutdown
  | exitHardOff => exact call bench .requestPowerOn
  | requestReset kind => exact call bench (.requestReset kind)
  | powerButton pressed => exact of_calls [.powerButton pressed] rfl rfl rfl
  | buttonEvent pressed => exact call bench (.powerButton pressed)
  | lid isOpen => exact call bench (.lid isOpen)
  | setLongPress ms => exact call bench (.setLongPress ms)
  | wake => exact call bench .wake
  | timerSchedule ms => exact call bench (.schedule (ms * Timing.usPerMs))
  | timerCancel => exact call bench .cancelTimer
  | timerDefer ms => exact call bench (.deferTimer ms)
  | buttonLevel | suspendLine | stuckLow | stuckHigh | charger | setLevel | after =>
    exact of_calls [] rfl rfl rfl

/-- Two looks at the timer. -/
theorem pollTimer (bench : Bench) : bench.Waits bench.pollTimer :=
  of_calls [.turnTimer bench.now, .turnTimer bench.now] rfl rfl rfl

theorem doDueAction (done : first.doDueAction = some last) : first.Waits last := by
  unfold Bench.doDueAction at done
  split at done
  · exact absurd done nofun
  · split at done
    · exact absurd done nofun
    · next timed _ =>
      obtain rfl := Option.some.inj done
      have logged (timed : List Timed) (event : Action) :
          first.Waits ({ first with timed := timed }.log (.timed event)) :=
        of_calls [] rfl rfl (by simp [Bench.shown, log])
      exact (logged _ _).trans (act _ timed.action)

theorem doDueActions (bench : Bench) : bench.Waits bench.doDueActions := by
  have repeated (count : Nat) (bench : Bench) :
      bench.Waits (Bench.doDueActions.repeatDue count bench) := by
    induction count generalizing bench with
    | zero => exact refl bench
    | succ count inductionHypothesis =>
      simp only [Bench.doDueActions.repeatDue]
      split
      next => exact refl bench
      next done => exact (doDueAction done).trans (inductionHypothesis _)
  exact repeated _ bench

theorem passEvent (bench : Bench) (target : Nat) : bench.Waits (bench.passEvent target) := by
  have moved (now : Nat) : bench.Waits { bench with now := now } := of_calls [] rfl rfl rfl
  exact ((moved _).trans (doDueActions _)).trans (pollTimer _)

theorem passUntil (bench : Bench) (target : Nat) : bench.Waits (bench.passUntil target) := by
  have repeated (count : Nat) (bench : Bench) :
      bench.Waits (Bench.passUntil.repeatEvents target count bench) := by
    induction count generalizing bench with
    | zero => exact refl bench
    | succ count inductionHypothesis =>
      simp only [Bench.passUntil.repeatEvents]
      split
      · exact refl bench
      · exact (passEvent bench target).trans (inductionHypothesis _)
  exact (pollTimer bench).trans (repeated _ _)

/-- A wait for lines lets time pass from look to look. -/
theorem watch (wanted : SignalMask) (since timeoutUs looks : Nat) (bench : Bench) :
    bench.Waits (Bench.watch wanted since timeoutUs looks bench).1 := by
  induction looks generalizing bench with
  | zero => exact refl bench
  | succ looks inductionHypothesis =>
    simp only [Bench.watch]
    split
    · exact refl bench
    · exact (passUntil bench _).trans (inductionHypothesis _)

end Waits

/-- The power task does something that is recorded, and nobody calls. -/
private theorem follows_done (event : Event) (untimed : ∀ action, event ≠ .timed action)
    (setup : last.setup = first.setup) (mailbox : last.mailbox = first.mailbox)
    (record : last.record = event :: first.record) : first.Follows [event] last := by
  refine ⟨setup, ⟨[], mailbox⟩, ?_⟩
  cases event with
  | timed action => exact absurd rfl (untimed action)
  | _ => simp [shown, record]

private theorem follows_log (bench : Bench) (event : Event)
    (untimed : ∀ action, event ≠ .timed action) : bench.Follows [event] (bench.log event) :=
  follows_done event untimed rfl rfl rfl

/-- A subscriber that is told may do any number of things. -/
theorem follows_tell (event : HookEvent) (bench : Bench) (subscriber : Nat)
    (reactions : List (HookEvent × Action)) :
    bench.Follows [.notified subscriber event] (tell event bench subscriber reactions) := by
  have reacts (reactions : List (HookEvent × Action)) (bench : Bench) :
      bench.Waits (reactions.foldl (fun current reaction =>
        if reaction.1 = event then current.act reaction.2 else current) bench) := by
    induction reactions generalizing bench with
    | nil => exact .refl bench
    | cons reaction rest inductionHypothesis =>
      rw [List.foldl_cons]
      split
      · exact (Waits.act bench reaction.2).trans (inductionHypothesis _)
      · exact inductionHypothesis bench
  exact (follows_log bench (.notified subscriber event) nofun).waits (reacts reactions _)

/-- Every subscriber is told, once and in the order of the list, whatever the others do. -/
theorem follows_tellAll (event : HookEvent) (bench : Bench) :
    bench.Follows
      ((List.range bench.setup.subscribers.length).map fun place => .notified place event)
      (tellAll event bench) := by
  have tells (subscribers : List (List (HookEvent × Action))) (first : Nat) (bench : Bench) :
      bench.Follows
        ((List.range' first subscribers.length).map fun place => .notified place event)
        ((subscribers.zipIdx first).foldl
          (fun current subscriber => tell event current subscriber.2 subscriber.1) bench) := by
    induction subscribers generalizing first bench with
    | nil => exact Waits.refl bench
    | cons subscriber rest inductionHypothesis =>
      have told := follows_tell event bench first subscriber
      exact told.trans (inductionHypothesis (first + 1) _)
  rw [List.range_eq_range']
  exact tells bench.setup.subscribers 0 bench

end Bench

/-- What a bench with so many subscribers records of an exchange. -/
def Exchange.recorded (subscribers : Nat) : Exchange → List Bench.Event
  | ⟨.drive rail level, _, _⟩ => [.drove rail level]
  | ⟨.readLines, _, _⟩ => []
  | ⟨.waitForLines wanted timeoutUs, _, _⟩ => [.watched wanted timeoutUs]
  | ⟨.sleep us, _, _⟩ => [.slept us]
  | ⟨.spin us, _, _⟩ => [.spun (us * 1000)]
  | ⟨.powerOnBlocked, _, blocked⟩ => [.powerOnBlocked blocked]
  | ⟨.shutdownWanted, _, wanted⟩ => [.shutdownWanted wanted]
  | ⟨.buttonPressed, _, pressed⟩ => [.buttonPressed pressed]
  | ⟨.allowIdle allowed, _, _⟩ => [.allowedIdle allowed]
  | ⟨.notify event, _, _⟩ => (List.range subscribers).map fun place => .notified place event

/-- The subscriber that was told, and of what, if one was told. -/
def Bench.Event.told? : Bench.Event → Option (Nat × HookEvent)
  | .notified subscriber event => some (subscriber, event)
  | _ => none

/-- Of each event that is told, each subscriber hears once, in the order of the list. -/
theorem told_recorded (subscribers : Nat) (trace : List Exchange) :
    (trace.flatMap (Exchange.recorded subscribers)).filterMap Bench.Event.told? =
      (Exchange.notified trace).flatMap fun event => (List.range subscribers).map (·, event) := by
  induction trace with
  | nil => rfl
  | cons exchange rest inductionHypothesis =>
    rw [List.flatMap_cons, List.filterMap_append, inductionHypothesis, Exchange.notified_cons,
      List.flatMap_append]
    congr 1
    obtain ⟨request, calls, answer⟩ := exchange
    cases request with
    | notify event =>
      simp [Exchange.recorded, Request.event?, List.filterMap_map, Bench.Event.told?,
        Function.comp_def]
    | _ => rfl

/-- An answer of a bench comes with calls, like that of any board. -/
theorem Bench.follows_answer (bench : Bench) (request : Request) (calls : List Mailbox.Call) :
    bench.Follows
      (Exchange.recorded bench.setup.subscribers.length ⟨request, calls, (bench.answer request).2⟩)
      (bench.answer request).1 := by
  cases request with
  | drive rail level => exact follows_done (.drove rail level) nofun rfl rfl rfl
  | readLines => exact Waits.refl bench
  | waitForLines wanted timeoutUs =>
    have begun := follows_log bench (.watched wanted timeoutUs) nofun
    exact begun.waits (Waits.watch wanted bench.now timeoutUs _ _)
  | sleep us => exact (follows_log bench (.slept us) nofun).waits (Waits.passUntil _ _)
  | spin us => exact follows_log bench (.spun (us * 1000)) nofun
  | powerOnBlocked => exact follows_done (.powerOnBlocked bench.charger.poll.2) nofun rfl rfl rfl
  | shutdownWanted => exact follows_log bench (.shutdownWanted bench.charger.wantsShutdown) nofun
  | buttonPressed => exact follows_log bench (.buttonPressed bench.buttonPressed) nofun
  | allowIdle allowed => exact follows_done (.allowedIdle allowed) nofun rfl rfl rfl
  | notify event => exact follows_tellAll event bench

/-- A task on a bench is in a run, and what the bench records is what the exchanges of the run
say. -/
theorem Task.runs_on_bench {α : Type} (task : Task α) (bench : Bench) :
    ∃ trace, task.Runs trace (task.run Bench.board bench).2.1 (task.run Bench.board bench).2.2 ∧
      (task.run Bench.board bench).1.shown =
        bench.shown ++ trace.flatMap (Exchange.recorded bench.setup.subscribers.length) := by
  induction task generalizing bench with
  | done memory result => exact ⟨[], .refl _, (List.append_nil _).symm⟩
  | ask memory request resume inductionHypothesis =>
    let handed := bench.handOver memory.mailbox
    obtain ⟨calls, called⟩ := (handed.follows_answer request []).mailbox
    obtain ⟨setup, -, shown⟩ := handed.follows_answer request calls
    obtain ⟨trace, run, rest⟩ := inductionHypothesis (handed.answer request).1.mailbox
      (handed.answer request).2 (handed.answer request).1
    have heard : (memory.hear calls).mailbox = (handed.answer request).1.mailbox := called.symm
    refine ⟨⟨request, calls, (handed.answer request).2⟩ :: trace, .ask ?_, ?_⟩
    · rw [heard]
      exact run
    · rw [setup, shown, List.append_assoc, ← List.flatMap_cons] at rest
      exact rest

end RailSequencer
