import RailSequencer.Proofs.Agreement
import RailSequencer.Proofs.Notifications

/-!
# Power on the USB sockets

The four USB switches are set up on the level of the resume decision, and after that only the
startup and the shutdown that subscribers are told of move them. So they follow the phase that the
notifications tell, and with it the state (`Steps.usb`): the sockets have power from S3 up to S0 and
back, and none from hard off up to the power-up. S3S5 decides nothing, since it is also entered by a
power-up that failed before anybody was told.

While a step waits, the switches still have the level of the state that it began in: a startup is
the last thing that a power-up asks for, and is followed at once by the new state.
-/

namespace RailSequencer

/-- Only a power-up tells of a startup, and only the way down from S3 of a shutdown. -/
theorem PowerState.notices_between {state next : PowerState} (standing : state ≠ .s3s5)
    (asleep : ¬(state = .s5s3 ∧ next = .s3)) :
    ∀ event ∈ state.notices next, event = .resume ∨ event = .suspend := by
  unfold notices
  split
  · exact absurd ⟨rfl, rfl⟩ asleep
  · simp
  · simp
  · exact absurd rfl standing
  · exact nofun

/-- So does a step before the last thing that it asks for, which tells of a startup if any does. -/
theorem Transition.notified_dropLast {tree : PowerTree} {memory final : Memory}
    {trace : List Exchange} {state next : PowerState}
    (transition : Transition tree memory state trace final next) (standing : state ≠ .s3s5) :
    ∀ event ∈ Exchange.notified trace.dropLast, event = .resume ∨ event = .suspend := by
  by_cases powered : state = .s5s3 ∧ next = .s3
  · obtain ⟨rfl, rfl⟩ := powered
    cases transition with
    | powersUp asked waited told whole =>
      rw [whole, List.dropLast_append_of_ne_nil (List.cons_ne_nil _ _), Exchange.notified_append,
        notified_replayed asked]
      exact nofun
  · intro event early
    apply PowerState.notices_between standing powered
    rw [← transition.notified]
    exact (((List.dropLast_sublist trace).map Exchange.request).filterMap Request.event?).subset
      early

/-- A step that waits has more to ask, so what it has told so far is told before its last request. -/
theorem Program.notified_of_reaches {tree : PowerTree} {state : PowerState} {begun : Memory}
    {trace : List Exchange} {task : Task PowerState}
    (reached : (Program.step tree state begun).Reaches trace task)
    (unspent : (Position.stepping state task).isSpent = false) (standing : state ≠ .s3s5) :
    ∀ event ∈ Exchange.notified trace, event = .resume ∨ event = .suspend := by
  cases task with
  | done => exact absurd unspent.symm Bool.false_ne_true
  | ask memory request resume =>
    obtain ⟨rest, final, next, run, -⟩ :=
      Task.exists_runs (fun request => ([], request.darkAnswer)) (.ask memory request resume)
    obtain ⟨calls, answer, later, rfl, -⟩ := Task.runs_ask_iff.mp run
    have early := (Program.step_runs (reached.trans run)).notified_dropLast standing
    rw [List.dropLast_append_of_ne_nil (List.cons_ne_nil _ _), Exchange.notified_append] at early
    exact (List.forall_mem_append.mp early).1

namespace Controller

/-- The level of the USB switches in a phase. -/
def usbIn : Phase → Level
  | .off => .low
  | .suspended | .running => .high

/-- The level of the USB switches in a state, where the state decides it. -/
def usbOf? : PowerState → Option Level
  | .s3 | .s3s0 | .s0 | .s0s3 => some .high
  | .g3 | .g3s5 | .s5 | .s5s3 | .s5g3 => some .low
  | .s3s5 => none

theorem usbAfter_eq {phase next : Phase} {event : HookEvent}
    (told : phase.after event = some next) : usbAfter (usbIn phase) event = usbIn next := by
  have all : ∀ next ∈ phase.after event, usbAfter (usbIn phase) event = usbIn next := by
    cases phase <;> cases event <;> decide
  exact all next told

/-- The USB switches follow the phase. -/
theorem usbAfterAll_eq {begun phase : Phase} {events : List HookEvent}
    (told : begun.afterAll events = some phase) :
    usbAfterAll (usbIn begun) events = usbIn phase := by
  induction events generalizing begun with
  | nil =>
    obtain rfl := Option.some.inj told
    rfl
  | cons event rest inductionHypothesis =>
    obtain ⟨middle, here, later⟩ := Phase.exists_after_of_cons told
    rw [usbAfterAll, List.foldl_cons, usbAfter_eq here]
    exact inductionHypothesis later

/-- Resumes and suspends leave the USB switches alone. -/
theorem usbAfterAll_of_forall {events : List HookEvent}
    (quiet : ∀ event ∈ events, event = .resume ∨ event = .suspend) (level : Level) :
    usbAfterAll level events = level := by
  induction events with
  | nil => rfl
  | cons event rest inductionHypothesis =>
    obtain ⟨here, later⟩ := List.forall_mem_cons.mp quiet
    have kept : usbAfter level event = level := by
      rcases here with rfl | rfl <;> rfl
    rw [usbAfterAll, List.foldl_cons, kept]
    exact inductionHypothesis later

/-- A state that goes with a phase has its level, if it decides one. -/
theorem usbIn_of_mem {phase : Phase} {state : PowerState} (goes : state ∈ phase.states) :
    ∀ level ∈ usbOf? state, usbIn phase = level := by
  have all : ∀ state ∈ phase.states, ∀ level ∈ usbOf? state, usbIn phase = level := by
    cases phase <;> decide
  exact all state goes

/-- Wherever the power task is between two steps, or waits in one, the USB switches have the level of
its state, if they were set up with the state that it began in. -/
theorem usb_of_steps {tree : PowerTree} {resumes : Bool} {entered : Memory} {events : List Event}
    {position : Position}
    (run : Steps tree (.enter (if resumes then .s0 else .g3) entered) events position)
    (unspent : position.isSpent = false) :
    ∀ level ∈ usbOf? position.state,
      usbAfterAll (.ofBool resumes) (Event.notified events) = level := by
  obtain ⟨begun, set, fits⟩ : ∃ begun, usbIn begun = .ofBool resumes ∧
      (if resumes then PowerState.s0 else .g3) ∈ begun.states := by
    cases resumes with
    | true => exact ⟨.running, rfl, by decide⟩
    | false => exact ⟨.off, rfl, by decide⟩
  have entering : (LoopInvariant.fits tree begun).top [] (if resumes then .s0 else .g3)
      (entered.publish (if resumes then .s0 else .g3)) := ⟨begun, rfl, fits⟩
  have holds := LoopInvariant.holds_of_enter entering run
  intro level decided
  rw [← set]
  cases position with
  | serving state task =>
    obtain ⟨phase, told, goes⟩ := LoopInvariant.fits_of_holds holds rfl
    exact (usbAfterAll_eq told).trans (usbIn_of_mem goes level decided)
  | resting state memory =>
    obtain ⟨phase, told, goes⟩ := LoopInvariant.fits_of_holds holds rfl
    exact (usbAfterAll_eq told).trans (usbIn_of_mem goes level decided)
  | stepping state task =>
    obtain ⟨earlier, memory, trace, ⟨phase, told, goes⟩, reached, rfl⟩ := holds
    have standing : state ≠ .s3s5 := by
      rintro rfl
      exact absurd decided nofun
    rw [Event.notified_append, Event.notified_asked, usbAfterAll_append, usbAfterAll_eq told,
      usbAfterAll_of_forall (Program.notified_of_reaches reached unspent standing)]
    exact usbIn_of_mem goes level decided

/-- The USB sockets have power exactly while the processor does. Whatever is done since a boot, the
four switches of a controller have the level of the state that it publishes, and the power task
keeps to a run since that boot. At every step boundary of that run, also where several steps follow
one another at one look at the power task, the switches had the level of the state there. -/
theorem usb_follows_state {live : Live} (sinceBoot : live.SinceBoot) :
    (∀ level ∈ usbOf? live.ram.mailbox.published, live.ShowsUsb level) ∧
      ∃ before reason entered events position,
        Live.Since (boot before reason) live ∧
        Steps (before.treeAt reason) (.enter (if before.resumesAt reason then .s0 else .g3) entered)
          events position ∧
        live.ram.mailbox.published = position.state ∧
        live.ShowsUsb (usbAfterAll (.ofBool (before.resumesAt reason)) (Event.notified events)) ∧
        ∀ earlier later boundary, events = earlier ++ later →
          Steps (before.treeAt reason)
            (.enter (if before.resumesAt reason then .s0 else .g3) entered) earlier boundary →
          boundary.isBoundary = true → ∀ level ∈ usbOf? boundary.state,
            usbAfterAll (.ofBool (before.resumesAt reason)) (Event.notified earlier) = level := by
  obtain ⟨before, reason, since⟩ := sinceBoot
  obtain ⟨_, entered, _, -, rfl, begun⟩ := Live.onRun_boot before reason
  obtain ⟨-, trace, comes, -, shownUsb⟩ := since.onRun (PowerTree.pauses_ofRevision _) begun
  obtain ⟨events, position, run, rfl, published, unspent⟩ := comes.waits
  refine ⟨?_, before, reason, entered, events, position, since, run, published, shownUsb, ?_⟩
  · intro level decided
    rw [published] at decided
    rw [← usb_of_steps run unspent level decided]
    exact shownUsb
  · intro earlier later boundary _ passed between
    exact usb_of_steps passed (Position.not_isSpent_of_isBoundary between)

/-- The sockets of the controller that was powered up have power. -/
theorem usb_follows_state_poweredUp : ∃ live, poweredUp.power = .on live ∧ live.SinceBoot ∧
    live.ram.mailbox.published = .s0 ∧ live.ShowsUsb .high := by
  obtain ⟨live, memory, on, -, parked, -, -⟩ := Power.exists_of_runsAtRest poweredUp_runsAtRest
  have sinceBoot : live.SinceBoot := Session.sinceBoot_executeAll on
  have published := sinceBoot.published_eq parked
  refine ⟨live, on, sinceBoot, published, (usb_follows_state sinceBoot).1 .high ?_⟩
  rw [published]
  rfl

end Controller

end RailSequencer
