import RailSequencer.PowerTree.Revisions
import RailSequencer.Proofs.Loop

/-!
# No request is left behind

When the power task is at rest and nothing has woken it, there is nothing for it to do: no request
is pending, and it rests in a state in which it may stay. Requests may come during a pulse, a delay,
a wait or between two steps, and the wake that came with one may have been taken a turn ago.

What carries this through the loop is that a reset request seen at the beginning of a step has a
wake beside it, since the top of the turn took every earlier one; and that a power-on request is
accepted only where the state leads to G3.
-/

namespace RailSequencer

namespace Memory

/-- The state of the loop is the one that others see, and a power-on request is pending only in G3
or on the way there. -/
structure Current (memory : Memory) (state : PowerState) : Prop where
  published : memory.mailbox.published = state
  accepted : memory.mailbox.powerOnRequested = true → state = .g3 ∨ state = .s5g3

/-- Nothing is left to do, and the state is one to stay in. -/
structure Idle (memory : Memory) (state : PowerState) : Prop where
  stable : state = .g3 ∨ state = .s3 ∨ state = .s0
  reset : memory.mailbox.resetRequested = none
  shutdown : memory.mailbox.shutdownRequested = false
  powerOn : memory.mailbox.powerOnRequested = false
  forcing : memory.forcingShutdown = true → state = .g3

/-- A reset request is accompanied by a wake. -/
def Attended (memory : Memory) : Prop :=
  memory.mailbox.resetRequested.isSome = true → memory.mailbox.woken = true

variable {memory final : Memory} {state : PowerState}

theorem Current.of_keeps (current : memory.Current state)
    (keeps : memory.mailbox.Keeps final.mailbox) : final.Current state where
  published := keeps.published.trans current.published
  accepted := by
    intro accepted
    rcases keeps.accepted accepted with pending | onTheWay
    · exact current.accepted pending
    · rw [current.published] at onTheWay
      exact onTheWay

/-- Calls that woke nobody left nothing to do. -/
theorem Idle.of_heard (idle : memory.Idle state) (heard : memory.mailbox.Heard final.mailbox)
    (flag : final.forcingShutdown = memory.forcingShutdown)
    (asleep : final.mailbox.woken = false) : final.Idle state := by
  obtain ⟨shutdown, powerOn, reset⟩ := heard.asleep asleep
  exact
    { stable := idle.stable
      reset := reset.trans idle.reset
      shutdown := shutdown.trans idle.shutdown
      powerOn := powerOn.trans idle.powerOn
      forcing := fun forcing => idle.forcing (flag ▸ forcing) }

/-- A reset request that comes while an earlier one is served is accompanied by its own wake. -/
theorem attended_after_takeReset (memory : Memory) (trace : List Exchange) :
    (memory.takeReset.after trace).Attended := by
  intro pending
  cases woken : (memory.takeReset.after trace).mailbox.woken with
  | true => rfl
  | false =>
    have kept := (memory.takeReset.heard_after trace).asleep woken
    rw [kept.2.2] at pending
    exact absurd pending Bool.false_ne_true

/-- Without a wake there is no reset request. -/
theorem Attended.reset (attended : memory.Attended) (asleep : memory.mailbox.woken = false) :
    memory.mailbox.resetRequested = none := by
  cases reset : memory.mailbox.resetRequested with
  | none => rfl
  | some kind => exact absurd (attended (by rw [reset]; rfl)) (by rw [asleep]; decide)

end Memory

namespace Transition

variable {tree : PowerTree} {memory worked : Memory} {trace : List Exchange}
  {state next : PowerState}

/-- A step to another state leaves a power-on request only on the way to G3. -/
theorem current (transition : Transition tree memory state trace worked next)
    (current : worked.Current state) : (worked.publish next).Current next := by
  refine ⟨rfl, ?_⟩
  intro pending
  rcases current.accepted pending with rfl | rfl
  · cases transition
    exact absurd pending Bool.false_ne_true
  · exact .inl (List.mem_singleton.mp transition.mem_successors)

/-- A step that stays in a stable state, and during which nothing woke the power task, leaves
nothing to do. -/
theorem idle (transition : Transition tree memory state trace worked next) (same : next = state)
    (stable : next.isStable = true) (taken : memory.mailbox.shutdownRequested = false)
    (current : memory.Current state) (attended : memory.Attended)
    (asleep : worked.mailbox.woken = false) : worked.Idle next := by
  subst same
  have powerOn (apart : ¬(next = .g3 ∨ next = .s5g3)) :
      memory.mailbox.powerOnRequested = false :=
    eq_false_of_ne_true fun pending => apart (current.accepted pending)
  have remains (apart : next = .s3 ∨ next = .s0) (before : memory.mailbox.woken = false)
      (quiet : memory.forcingShutdown = false) : memory.Idle next :=
    { stable := .inr apart
      reset := attended.reset before
      shutdown := taken
      powerOn := powerOn (by rcases apart with rfl | rfl <;> decide)
      forcing := fun forcing => absurd (quiet.symm.trans forcing) Bool.false_ne_true }
  cases transition with
  | fromG3 leads =>
    exact
      { stable := .inl rfl
        reset := attended.reset asleep
        shutdown := taken
        powerOn := rfl
        forcing := fun _ => rfl }
  | fromS5 leads =>
    split at leads
    · exact absurd leads (by decide)
    · exact absurd leads (by decide)
  | fromS3 calls lines whole leads =>
    have heard := memory.heard_after trace
    obtain ⟨-, quiet, -⟩ := PowerTree.afterS3_eq_s3_iff.mp leads.symm
    exact (remains (.inl rfl) (heard.asleep_before asleep) quiet).of_heard heard rfl asleep
  | staysInS0 calls lines whole quiet steady =>
    have heard := memory.heard_after trace
    obtain ⟨-, quiet, -⟩ := PowerTree.endsS0_eq_false_iff.mp quiet
    exact (remains (.inr rfl) (heard.asleep_before asleep) quiet).of_heard heard rfl asleep
  | @looksAgain waiting calls waited called lines again _ _ begun quiet debounced leads =>
    -- The request that came during the wait is taken before the second look, which sees its flag.
    have looked := (memory.after waiting).takeShutdown.heard_hear called
    have heard := memory.heard_after waiting
    have asleepThen : (memory.after waiting).mailbox.woken = false := looked.asleep_before asleep
    obtain ⟨-, quietThen, -⟩ := PowerTree.endsS0_eq_false_iff.mp (by
      split at leads
      next => exact absurd leads (by decide)
      next quietThen => exact eq_false_of_ne_true quietThen)
    obtain ⟨-, powerOnThen, resetThen⟩ := heard.asleep asleepThen
    have idle : (memory.after waiting).takeShutdown.Idle .s0 :=
      { stable := .inr (.inr rfl)
        reset := resetThen.trans (attended.reset (heard.asleep_before asleepThen))
        shutdown := rfl
        powerOn := powerOnThen.trans (powerOn (by decide))
        forcing := fun forcing => absurd (quietThen.symm.trans forcing) Bool.false_ne_true }
    exact idle.of_heard looked rfl asleep
  | asksCharger | failsResume => exact absurd stable (by decide)

end Transition

/-- A boot at which the start asks for power-on. -/
def BootInfo.powersOn (boot : BootInfo) : Bool :=
  !boot.jumped && (boot.autoPowerOn && !boot.keepOff)

section Start

variable {tree : PowerTree} {boot : BootInfo} {trace : List Exchange} {memory : Memory}
  {state : PowerState}

/-- A start that nobody disturbs makes its state known, and asks for power-on where the boot is one
that does. -/
theorem Program.start_asks (run : (Program.start tree boot {}).Runs trace memory state)
    (undisturbed : ∀ exchange ∈ trace, exchange.calls = []) :
    memory.mailbox.published = state ∧
      (memory.mailbox.powerOnRequested = true ↔ boot.powersOn = true) ∧
      (boot.powersOn = true → state = .g3) := by
  obtain ⟨jumped, keepOff, autoPowerOn⟩ := boot
  cases jumped with
  | false =>
    cases autoPowerOn <;> cases keepOff
    all_goals
      obtain ⟨-, rfl, rfl⟩ := Task.runs_done_iff.mp run
      exact ⟨rfl, Iff.rfl, fun _ => rfl⟩
  | true =>
    obtain ⟨calls, lines, rest, rfl, seen⟩ := Task.runs_ask_iff.mp run
    obtain rfl : calls = [] := undisturbed _ List.mem_cons_self
    cases running : lines.contains tree.allS0 with
    | false =>
      simp only [Task.bind_done, running] at seen
      obtain ⟨-, rfl, rfl⟩ := Task.runs_done_iff.mp seen
      exact ⟨rfl, Iff.rfl, nofun⟩
    | true =>
      simp only [Task.bind_done, running] at seen
      obtain ⟨kept, _, rest, rfl, ended⟩ := Task.runs_ask_iff.mp seen
      obtain rfl : kept = [] := undisturbed _ (List.mem_cons_of_mem _ List.mem_cons_self)
      obtain ⟨-, rfl, rfl⟩ := Task.runs_done_iff.mp ended
      exact ⟨rfl, Iff.rfl, nofun⟩

theorem Program.start_current (run : (Program.start tree boot {}).Runs trace memory state)
    (undisturbed : ∀ exchange ∈ trace, exchange.calls = []) : memory.Current state := by
  obtain ⟨published, asks, off⟩ := Program.start_asks run undisturbed
  exact ⟨published, fun pending => .inl (off (asks.mp pending))⟩

end Start

/-- What holds of the requests at every point of the loop. -/
def LoopInvariant.attended (tree : PowerTree) : LoopInvariant tree where
  top _ state memory := memory.Current state
  begun _ state memory := memory.Current state ∧ memory.Attended
  rest _ state memory := memory.Current state ∧
    (memory.mailbox.woken = false → memory.Idle state)
  serve := by
    intro _ state memory trace final current served
    obtain ⟨-, rfl⟩ := Program.serveReset_runs served
    have taken : memory.takeReset.Current state := ⟨current.published, current.accepted⟩
    exact ⟨taken.of_keeps (memory.takeReset.heard_after trace).toKeeps,
      memory.attended_after_takeReset trace⟩
  change := by
    intro _ state memory trace worked next begun run different
    have current := begun.1.of_keeps (Program.step_keeps tree run)
    exact (Program.step_runs run).current current
  settle := by
    intro _ state memory trace worked next begun run same stable
    have current := begun.1.of_keeps (Program.step_keeps tree run)
    have taken : memory.takeShutdown.Current state := ⟨begun.1.published, begun.1.accepted⟩
    refine ⟨?_, (Program.step_runs run).idle same stable rfl taken begun.2⟩
    rw [same]
    exact current
  retry := by
    intro _ state memory trace worked next begun run same unstable
    rw [same]
    exact begun.1.of_keeps (Program.step_keeps tree run)
  hear := by
    intro _ state memory call resting
    refine ⟨resting.1.of_keeps (memory.heard_hear [call]).toKeeps, ?_⟩
    intro asleep
    have before := (memory.heard_hear [call]).asleep_before asleep
    exact (resting.2 before).of_heard (memory.heard_hear [call]) rfl asleep
  wake := by
    intro _ state memory resting woken
    exact ⟨resting.1.published, resting.1.accepted⟩

/-- No request is left behind: after a start that found a fresh mailbox, and however other tasks
call from then on, a power task that rests with no wake to take is in G3, S3 or S0, has no request
left to serve, and has a shutdown under way in G3 at most. -/
theorem nothing_pending_of_asleep {tree : PowerTree} {boot : BootInfo} {trace : List Exchange}
    {started memory : Memory} {entered state : PowerState} {calls : List Mailbox.Call}
    {events : List Event} (start : (Program.start tree boot {}).Runs trace started entered)
    (undisturbed : ∀ exchange ∈ trace, exchange.calls = [])
    (run : Steps tree (.enter entered (started.hear calls)) events (.resting state memory))
    (asleep : memory.mailbox.woken = false) :
    (memory.mailbox.published = .g3 ∨ memory.mailbox.published = .s3 ∨
        memory.mailbox.published = .s0) ∧
      memory.mailbox.resetRequested = none ∧
      memory.mailbox.shutdownRequested = false ∧
      memory.mailbox.powerOnRequested = false ∧
      (memory.forcingShutdown = true → memory.mailbox.published = .g3) := by
  have begun := Program.start_current start undisturbed
  have called := begun.of_keeps (started.heard_hear calls).toKeeps
  have entered : (LoopInvariant.attended tree).top [] entered
      ((started.hear calls).publish entered) := ⟨rfl, called.accepted⟩
  obtain ⟨current, idleIfAsleep⟩ := LoopInvariant.holds_of_enter entered run
  have idle := idleIfAsleep asleep
  rw [current.published]
  exact ⟨idle.stable, idle.reset, idle.shutdown, idle.powerOn, idle.forcing⟩

/-- A reset and a shutdown requested before the first turn: the wake they left behind is taken after
the turn that served them, and the power task rests in G3. -/
theorem nothing_pending_of_asleep_afterReset : ∃ events memory,
    Steps (.ofRevision .v1)
      (.enter .g3 (({} : Memory).hear [.requestReset .cold, .requestShutdown]))
      events (.resting .g3 memory) ∧
    Exchange.requests (Event.exchanges events) = pulseRequests ∧
    memory.mailbox.woken = false ∧ memory.forcingShutdown = true ∧
    memory.mailbox.resetRequested = none ∧ memory.mailbox.shutdownRequested = false := by
  have pulse : Steps (.ofRevision .v1)
      (.enter .g3 (({} : Memory).hear [.requestReset .cold, .requestShutdown])) _ _ :=
    .move (.move (.move .refl (.serve [] ())) (.serve [] ())) (.serve [] ())
  have rests := Steps.move (.move pulse .begin) (.conclude rfl)
  have again := Steps.move (.move (.move rests (.wake rfl)) .begin) (.conclude rfl)
  have fresh : (Program.start (.ofRevision .v1) {} {}).Runs [] {} .g3 := .refl _
  have nothing := nothing_pending_of_asleep fresh nofun again rfl
  exact ⟨_, _, again, rfl, rfl, rfl, nothing.2.1, nothing.2.2.1⟩

end RailSequencer
