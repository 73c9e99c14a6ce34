import RailSequencer.PowerTree.Revisions
import RailSequencer.Proofs.Loop

/-!
# Turns that take no time

A board may answer everything but a delay at once, and while no time passes nobody calls. How many
turns can follow one another so? Every table that moves a supply has a delay in it, and so has a
suspend and a reset pulse; what is left are the looks around the stable states. `Turn.ahead` counts
the turns that may still come, and `Turn.ahead_lt` says that each turn takes one off at least.
-/

namespace RailSequencer

/-- Answered without letting time pass, so that nobody calls meanwhile. -/
structure Exchange.AtOnce (exchange : Exchange) : Prop where
  uncalled : exchange.calls = []
  undelayed : ∀ us, exchange.request ≠ .sleep us

namespace Exchange

variable {trace : List Exchange}

/-- Nobody called. -/
theorem heard_eq_nil (atOnce : ∀ exchange ∈ trace, exchange.AtOnce) : heard trace = [] :=
  List.flatMap_eq_nil_iff.mpr fun exchange member => (atOnce exchange member).uncalled

/-- Where a delay is asked for, time passes. -/
theorem not_atOnce_of_sleep {us : Nat} (slept : .sleep us ∈ requests trace) :
    ¬∀ exchange ∈ trace, exchange.AtOnce := by
  intro atOnce
  obtain ⟨exchange, member, asked⟩ := List.mem_map.mp slept
  exact (atOnce exchange member).undelayed us asked

end Exchange

theorem Memory.after_of_atOnce {memory : Memory} {trace : List Exchange}
    (atOnce : ∀ exchange ∈ trace, exchange.AtOnce) : memory.after trace = memory := by
  rw [Memory.after, Exchange.heard_eq_nil atOnce]
  rfl

/-- Every table that is written in one go has a delay in it. -/
def PowerTree.Pauses (tree : PowerTree) : Prop :=
  ∀ state ∈ [PowerState.s5s3, .s3s0, .s3s5], ∃ write ∈ tree.tables.edge state, write.settleMs ≠ 0

instance (tree : PowerTree) : Decidable tree.Pauses :=
  inferInstanceAs (Decidable (∀ state ∈ _, ∃ write ∈ _, _))

theorem PowerTree.pauses_ofRevision (revision : Revision) : (ofRevision revision).Pauses := by
  cases revision <;> decide

/-- A table with a delay is not written at once. -/
theorem sleep_mem_tableRequests {table : List RailWrite}
    (pauses : ∃ write ∈ table, write.settleMs ≠ 0) :
    ∃ us, .sleep us ∈ tableRequests sleepRequests table := by
  obtain ⟨write, member, delay⟩ := pauses
  refine ⟨write.settleMs.toNat * Timing.usPerMs, List.mem_flatMap.mpr ⟨write, member, ?_⟩⟩
  rw [if_neg delay]
  simp [sleepRequests]

/-- A suspend asks for a delay before anything else. -/
theorem PowerTree.suspendRequests_cons (tree : PowerTree) :
    ∃ us rest, tree.suspendRequests = .sleep us :: rest :=
  ⟨_, _, rfl⟩

/-- Turns that may follow one another from a state without a power-on request or a wake. -/
def PowerState.turnsAhead : PowerState → Nat
  | .g3s5 => 4
  | .s5 => 3
  | .s5g3 | .s3 | .s0 => 2
  | .g3 | .s5s3 | .s3s0 | .s0s3 | .s3s5 => 1

theorem PowerState.turnsAhead_pos (state : PowerState) : 0 < state.turnsAhead := by
  cases state <;> decide

/-- Turns that a power-on request may add. -/
def Mailbox.turnsAhead (mailbox : Mailbox) : Nat := if mailbox.powerOnRequested then 4 else 0

/-- Turns that may follow the end of one. -/
def Turn.ahead (mailbox : Mailbox) : Turn → Nat
  | .next state => state.turnsAhead + mailbox.turnsAhead + if mailbox.woken then 9 else 0
  | .rest state => if mailbox.woken then state.turnsAhead + mailbox.turnsAhead else 0

theorem Turn.ahead_pos (mailbox : Mailbox) (state : PowerState) :
    0 < (Turn.next state).ahead mailbox := by
  have positive := state.turnsAhead_pos
  rw [ahead]
  omega

theorem Turn.ahead_le (mailbox : Mailbox) (turn : Turn) : turn.ahead mailbox ≤ 17 := by
  have states (state : PowerState) : state.turnsAhead ≤ 4 := by cases state <;> decide
  have requests : mailbox.turnsAhead ≤ 4 := by
    rw [Mailbox.turnsAhead]
    split <;> decide
  cases turn with
  | next state =>
    have most := states state
    rw [ahead]
    split <;> omega
  | rest state =>
    have most := states state
    rw [ahead]
    split <;> omega

namespace Transition

variable {tree : PowerTree} {memory final : Memory} {trace : List Exchange}
  {state next : PowerState}

/-- A step that takes no time neither wakes nor asks for power-on. -/
theorem mailbox_atOnce (transition : Transition tree memory state trace final next)
    (atOnce : ∀ exchange ∈ trace, exchange.AtOnce) :
    final.mailbox.woken = memory.mailbox.woken ∧
      final.mailbox.powerOnRequested =
        (memory.mailbox.powerOnRequested && decide (state ≠ .g3)) := by
  have same : memory.after trace = memory := Memory.after_of_atOnce atOnce
  cases transition with
  | fromG3 => exact ⟨rfl, by simp [Memory.dropPowerOn]⟩
  | suspends told completed idled looked pressed whole =>
    rw [same]
    cases pressed <;> simp [Memory.settled, Mailbox.cancelTimer]
  | asksCharger polled calls unwanted whole leads =>
    rw [same]
    simp [Memory.judged]
  | looksAgain calls waited called lines again begun quiet debounced leads =>
    rw [List.forall_mem_append, List.forall_mem_singleton] at atOnce
    rw [Memory.after_of_atOnce atOnce.1, show called = [] from atOnce.2.uncalled]
    simp [Memory.takeShutdown, Memory.hear, Mailbox.performAll]
  | powersUp | failsPowerUp | resumes | failsResume =>
    rw [Memory.after_of_atOnce atOnce]
    simp
  | _ => simp [same]

/-- Wherever supplies are moved, there is a delay. -/
theorem delays (transition : Transition tree memory state trace final next)
    (pauses : tree.Pauses) (moves : state ∈ [PowerState.s5s3, .s3s0, .s0s3, .s3s5]) :
    ∃ us, .sleep us ∈ Exchange.requests trace := by
  have table (state : PowerState) {first : List Exchange}
      (written : state ∈ [PowerState.s5s3, .s3s0, .s3s5])
      (asked : Exchange.requests first = tableRequests sleepRequests (tree.tables.edge state)) :
      ∃ us, .sleep us ∈ Exchange.requests first := by
    rw [asked]
    exact sleep_mem_tableRequests (pauses state written)
  obtain ⟨grace, rest, suspend⟩ := tree.suspendRequests_cons
  cases transition with
  | powersUp asked waited told whole =>
    obtain ⟨us, slept⟩ := table .s5s3 (by decide) asked
    exact ⟨us, by simp [whole, slept]⟩
  | failsPowerUp asked waited error whole =>
    obtain ⟨us, slept⟩ := table .s5s3 (by decide) asked
    exact ⟨us, by simp [whole, slept]⟩
  | resumes asked release waited told kept whole =>
    obtain ⟨us, slept⟩ := table .s3s0 (by decide) asked
    exact ⟨us, by simp [whole, slept]⟩
  | failsResume asked release waited error whole =>
    obtain ⟨us, slept⟩ := table .s3s0 (by decide) asked
    exact ⟨us, by simp [whole, slept]⟩
  | powersDown told asked =>
    obtain ⟨us, slept⟩ := table .s3s5 (by decide) asked
    exact ⟨us, List.mem_cons_of_mem _ slept⟩
  | @callsOffSuspend told trace _ aborted =>
    -- What ends a suspend early is a look, and the first of them comes after a delay.
    have begun := aborted.begun
    rw [suspend] at begun
    obtain ⟨earlier, last, looked, -, -⟩ := aborted.follows
    cases trace with
    | nil => exact absurd looked.symm (List.concat_ne_nil _ _)
    | cons exchange trace =>
      have first := (List.cons_prefix_cons.mp begun).1
      exact ⟨grace, List.mem_cons_of_mem _ (first ▸ List.mem_cons_self)⟩
  | suspends told completed idled looked pressed whole =>
    refine ⟨grace, ?_⟩
    simp [whole, completed.complete rfl, suspend]
  | fromG3 | fromS5 | fromS3 | leavesS0 | staysInS0 | losesDebounced | looksAgain | asksCharger
  | turnsOff => exact absurd moves (by decide)

/-- A step that takes no time moves no supply. -/
theorem still_of_atOnce (transition : Transition tree memory state trace final next)
    (pauses : tree.Pauses) (atOnce : ∀ exchange ∈ trace, exchange.AtOnce) :
    state ∉ [PowerState.s5s3, .s3s0, .s0s3, .s3s5] := by
  intro moves
  obtain ⟨us, slept⟩ := transition.delays pauses moves
  exact Exchange.not_atOnce_of_sleep slept atOnce

/-- A step that takes no time stays where it is, or leaves fewer turns ahead. -/
theorem turnsAhead_lt (transition : Transition tree memory state trace final next)
    (pauses : tree.Pauses) (atOnce : ∀ exchange ∈ trace, exchange.AtOnce) :
    next = state ∨ next.turnsAhead + final.mailbox.turnsAhead <
      state.turnsAhead + memory.mailbox.turnsAhead := by
  have powerOn := (transition.mailbox_atOnce atOnce).2
  have edge := transition.mem_successors
  have still := transition.still_of_atOnce pauses atOnce
  by_cases off : state = .g3
  · subst off
    cases transition with
    | fromG3 leads =>
      cases asked : memory.mailbox.powerOnRequested with
      | false =>
        rw [asked] at leads
        exact .inl leads
      | true =>
        rw [asked] at leads
        subst leads
        refine .inr ?_
        simp [Mailbox.turnsAhead, asked, Memory.dropPowerOn, PowerState.turnsAhead]
  · have kept : final.mailbox.turnsAhead = memory.mailbox.turnsAhead := by
      simp [Mailbox.turnsAhead, powerOn, off]
    rw [kept, Nat.add_lt_add_iff_right]
    revert edge still off
    cases state <;> cases next <;> decide

end Transition

/-- A turn that takes no time leaves fewer turns ahead. -/
theorem Turn.ahead_lt {tree : PowerTree} {state : PowerState} {memory final : Memory}
    {trace : List Exchange} {turn : Turn} (pauses : tree.Pauses)
    (run : (Program.turn tree state memory).Runs trace final turn)
    (atOnce : ∀ exchange ∈ trace, exchange.AtOnce) :
    turn.ahead final.mailbox < (Turn.next state).ahead memory.mailbox := by
  obtain ⟨pulse, served, work, worked, next, rfl, serves, works, concluded⟩ :=
    Program.turn_runs run
  rw [List.forall_mem_append] at atOnce
  have taken : served = memory.takeReset := by
    rw [(Program.serveReset_runs serves).2, Memory.after_of_atOnce atOnce.1]
  subst taken
  have transition := Program.step_runs works
  have still := transition.still_of_atOnce pauses atOnce.2
  have positive := state.turnsAhead_pos
  have woken : worked.mailbox.woken = memory.mailbox.woken :=
    (transition.mailbox_atOnce atOnce.2).1
  have powerOn : worked.mailbox.powerOnRequested = true →
      memory.mailbox.powerOnRequested = true := by
    intro pending
    rw [(transition.mailbox_atOnce atOnce.2).2] at pending
    exact (Bool.and_eq_true_iff.mp pending).1
  have pending : worked.mailbox.turnsAhead ≤ memory.mailbox.turnsAhead := by
    by_cases asked : worked.mailbox.powerOnRequested = true
    · simp [Mailbox.turnsAhead, asked, powerOn asked]
    · simp [Mailbox.turnsAhead, asked]
  have fewer : next = state ∨ next.turnsAhead + worked.mailbox.turnsAhead <
      state.turnsAhead + memory.mailbox.turnsAhead := transition.turnsAhead_lt pauses atOnce.2
  rcases Program.conclude_cases concluded with
    ⟨rfl, -, rfl, rfl⟩ | ⟨rfl, unstable, rfl, rfl⟩ | ⟨different, rfl, rfl⟩
  · simp only [Turn.ahead, woken]
    split <;> omega
  · have retries : next = .s3s0 := by
      have edge := transition.mem_successors
      revert edge unstable
      cases next <;> decide
    exact absurd (by simp [retries]) still
  · have less := fewer.resolve_left different
    change next.turnsAhead + worked.mailbox.turnsAhead + (if worked.mailbox.woken then 9 else 0) < _
    simp only [Turn.ahead, woken]
    omega

end RailSequencer
