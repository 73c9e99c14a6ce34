import RailSequencer.Proofs.ChargerGate

/-!
# A charger that refuses

A charger that refuses every poll inhibits a power-up, but not at once: an attempt polls it as often
as it may, with a pause after each refusal but the last. Two things follow for whoever sees that a
power-up is inhibited. In the run so far some attempt has spent its whole budget of polls
(`Steps.spentBudget`), and its pauses have taken their time, since the power task keeps its verdict
to itself until it has slept that long (`Task.Withholds`).

Nobody else judges the charger, so all other parts of a turn leave the verdict as it was.
-/

namespace RailSequencer

namespace Exchange

/-- The charger has refused, if it was polled. -/
def Refused : Exchange → Prop
  | ⟨.powerOnBlocked, _, blocked⟩ => blocked = true
  | _ => True

/-- A charger that has always refused has given no other answer to its polls. -/
theorem refusals_of_refused {trace : List Exchange}
    (refused : ∀ exchange ∈ trace, exchange.Refused) : ∀ answer ∈ refusals trace, answer = true := by
  intro answer member
  obtain ⟨⟨request, calls, reply⟩, asked, told⟩ := List.mem_filterMap.mp member
  cases request with
  | powerOnBlocked =>
    obtain rfl := Option.some.inj told
    exact refused _ asked
  | _ => exact absurd told nofun

/-- Some attempt at a power-up has polled the charger as often as it may, with a pause after each
refusal but the last, and has been refused each time. -/
def SpentBudget (trace : List Exchange) : Prop :=
  ∃ earlier polls later, trace = earlier ++ polls ++ later ∧
    requests polls =
      (List.replicate Timing.chargerRetries
        [.powerOnBlocked, .sleep (Timing.chargerRetryMs * Timing.usPerMs)]).flatten ++
        [.powerOnBlocked] ∧
    refusals polls = List.replicate (Timing.chargerRetries + 1) true

theorem SpentBudget.append {trace : List Exchange} (spent : SpentBudget trace)
    (more : List Exchange) : SpentBudget (trace ++ more) := by
  obtain ⟨earlier, polls, later, rfl, asked, answered⟩ := spent
  exact ⟨earlier, polls, later ++ more, List.append_assoc _ _ _, asked, answered⟩

theorem SpentBudget.prepend {trace : List Exchange} (spent : SpentBudget trace)
    (before : List Exchange) : SpentBudget (before ++ trace) := by
  obtain ⟨earlier, polls, later, rfl, asked, answered⟩ := spent
  exact ⟨before ++ earlier, polls, later, by simp, asked, answered⟩

end Exchange

/-- An attempt that is always refused spends its budget. -/
theorem ChargerPolls.spentBudget {trace : List Exchange} {ready : Bool}
    (polls : ChargerPolls Timing.chargerRetries trace ready)
    (refused : ∀ exchange ∈ trace, exchange.Refused) : Exchange.SpentBudget trace := by
  obtain ⟨pauses, -, asked, answered, exhausted⟩ := polls.polled
  have all := Exchange.refusals_of_refused refused
  rw [answered, List.forall_mem_append, List.forall_mem_singleton] at all
  obtain rfl := exhausted (Bool.not_eq_eq_eq_not.mp all.2)
  refine ⟨[], trace, [], by simp, asked.trans (chargerRequests_eq _), ?_⟩
  rw [answered, all.2, List.replicate_succ']

namespace Program

variable {tree : PowerTree} {state next : PowerState} {memory final : Memory}
  {trace : List Exchange}

/-- No step but the one out of G3 says anything of the charger. -/
theorem step_unjudged (elsewhere : state ≠ .g3s5)
    (run : (step tree state memory).Runs trace final next) :
    final.mailbox.inhibited = memory.mailbox.inhibited := by
  have stretches : (step tree state memory).Stretches state.turnsHold false memory.takeShutdown :=
    works_handle tree elsewhere memory.takeShutdown
  exact stretches.of_reaches respected_inhibited run

/-- However far the service of a reset request has come, the charger has not been judged. -/
theorem serveReset_unjudged {later : Task Unit} (reached : (serveReset memory).Reaches trace later) :
    later.memory.mailbox.inhibited = memory.mailbox.inhibited :=
  (works_serveReset memory).of_reaches respected_inhibited reached

/-- Nor does the start judge it. -/
theorem start_unjudged {boot : BootInfo} {later : Task PowerState}
    (reached : (start tree boot memory).Reaches trace later) :
    later.memory.mailbox.inhibited = memory.mailbox.inhibited := by
  obtain ⟨jumped, keepOff, autoPowerOn⟩ := boot
  cases jumped with
  | false =>
    cases keepOff <;> cases autoPowerOn <;>
      obtain ⟨-, rfl⟩ := Task.reaches_done_iff.mp reached <;> rfl
  | true =>
    rcases Task.reaches_ask_iff.mp reached with ⟨-, rfl⟩ | ⟨calls, lines, _, -, looked⟩
    · rfl
    · have heard := ((memory.publish .g3).heard_hear calls).inhibited
      change ((if SignalMask.contains lines tree.allS0 then
        (do ask (.allowIdle false); publish .s0; return .s0)
        else (do publish .g3; return .g3) : Program PowerState)
          ((memory.publish .g3).hear calls)).Reaches _ _ at looked
      split at looked
      · rcases Task.reaches_ask_iff.mp looked with ⟨-, rfl⟩ | ⟨kept, _, _, -, ended⟩
        · exact heard
        · obtain ⟨-, rfl⟩ := Task.reaches_done_iff.mp ended
          exact (((memory.publish .g3).hear calls).heard_hear kept).inhibited.trans heard
      · obtain ⟨-, rfl⟩ := Task.reaches_done_iff.mp looked
        exact heard

/-- Where the charger refuses, a step does not inhibit a power-up without having spent the budget. -/
theorem step_spentBudget (run : (step tree state memory).Runs trace final next)
    (refused : ∀ exchange ∈ trace, exchange.Refused)
    (inhibited : final.mailbox.inhibited = true) :
    memory.mailbox.inhibited = true ∨ Exchange.SpentBudget trace := by
  by_cases attempted : state = .g3s5
  · subst attempted
    cases step_runs run with
    | asksCharger polled calls unwanted whole =>
      subst whole
      rw [List.forall_mem_append] at refused
      exact .inr ((polled.spentBudget refused.1).append _)
  · exact .inl ((step_unjudged attempted run).symm.trans inhibited)

end Program

/-- Nobody is told that a power-up is inhibited without the budget having been spent, as long as the
charger refuses. -/
def Memory.Entitled (memory : Memory) (trace : List Exchange) : Prop :=
  (∀ exchange ∈ trace, exchange.Refused) → memory.mailbox.inhibited = true →
    Exchange.SpentBudget trace

namespace Memory.Entitled

variable {tree : PowerTree} {state next : PowerState} {memory final : Memory}
  {trace more : List Exchange}

/-- Where the charger is not judged, nothing is lost. -/
theorem keep (entitled : memory.Entitled trace)
    (same : final.mailbox.inhibited = memory.mailbox.inhibited) : final.Entitled (trace ++ more) := by
  intro refused inhibited
  rw [List.forall_mem_append] at refused
  exact (entitled refused.1 (same.symm.trans inhibited)).append more

theorem step (entitled : memory.Entitled trace)
    (run : (Program.step tree state memory).Runs more final next) :
    final.Entitled (trace ++ more) := by
  intro refused inhibited
  rw [List.forall_mem_append] at refused
  rcases Program.step_spentBudget run refused.2 inhibited with before | spent
  · exact (entitled refused.1 before).append more
  · exact spent.prepend trace

end Memory.Entitled

/-- This is so at every point of the loop. -/
def LoopInvariant.entitled (tree : PowerTree) : LoopInvariant tree where
  top events _ memory := memory.Entitled (Event.exchanges events)
  begun events _ memory := memory.Entitled (Event.exchanges events)
  rest events _ memory := memory.Entitled (Event.exchanges events)
  serve := by
    intro events state memory trace final entitled served
    rw [Event.exchanges_part rfl]
    exact entitled.keep (Program.serveReset_unjudged served)
  change := by
    intro events state memory trace worked next entitled run _
    rw [Event.exchanges_part rfl]
    have stepped : worked.Entitled (Event.exchanges events ++ trace) := entitled.step run
    exact stepped
  settle := by
    intro events state memory trace worked next entitled run _ _
    rw [Event.exchanges_part rfl]
    exact entitled.step run
  retry := by
    intro events state memory trace worked next entitled run _ _
    rw [Event.exchanges_part rfl]
    exact entitled.step run
  hear := by
    intro events state memory call entitled
    rw [Event.exchanges_append]
    exact entitled.keep (memory.heard_hear [call]).inhibited
  wake := by
    intro events state memory entitled _
    rw [Event.exchanges_append]
    exact entitled.keep rfl

/-- Where the charger has refused ever since the power task was started, a power-up is not inhibited
without the budget having been spent. In the middle of a step the verdict is still the old one. -/
theorem Steps.spentBudget {tree : PowerTree} {state : PowerState} {memory : Memory}
    {events : List Event} {position : Position}
    (run : Steps tree (.enter state memory) events position) (unspent : position.isSpent = false)
    (allowed : memory.mailbox.inhibited = false)
    (refused : ∀ exchange ∈ Event.exchanges events, exchange.Refused)
    (inhibited : position.memory.mailbox.inhibited = true) :
    Exchange.SpentBudget (Event.exchanges events) := by
  have entered : (LoopInvariant.entitled tree).top [] state (memory.publish state) := by
    intro _ inhibited
    exact absurd (allowed.symm.trans inhibited) Bool.false_ne_true
  have holds := LoopInvariant.holds_of_enter entered run
  suffices entitled : position.memory.Entitled (Event.exchanges events) from
    entitled refused inhibited
  cases position with
  | serving state task =>
    obtain ⟨earlier, memory, trace, entitled, reached, rfl⟩ := holds
    rw [Event.exchanges_append, Event.exchanges_asked]
    exact Memory.Entitled.keep entitled (Program.serveReset_unjudged reached)
  | stepping state task =>
    obtain ⟨earlier, memory, trace, entitled, reached, rfl⟩ := holds
    rw [Event.exchanges_append, Event.exchanges_asked]
    cases task with
    | done => exact absurd unspent.symm Bool.false_ne_true
    | ask => exact Memory.Entitled.keep entitled (Program.step_inhibited tree reached)
  | resting state memory => exact holds

/-- How long it takes at least until a request is answered. -/
def Request.pauseUs : Request → Nat
  | .sleep us => us
  | _ => 0

/-- How long an attempt at a power-up pauses that is always refused. -/
def Timing.chargerBudgetUs : Nat := Timing.chargerRetries * (Timing.chargerRetryMs * Timing.usPerMs)

namespace Task

variable {α β : Type}

/-- Where the charger refuses, a task keeps to itself that a power-up is inhibited until it has slept
for so long. -/
def Withholds (leftUs : Nat) : Task α → Prop
  | .done memory _ => memory.mailbox.inhibited = true → leftUs = 0
  | .ask memory request resume => (memory.mailbox.inhibited = true → leftUs = 0) ∧
    ∀ calls answer, Exchange.Refused ⟨request, calls, answer⟩ →
      (resume (memory.hear calls).mailbox answer).Withholds (leftUs - request.pauseUs)

variable {leftUs : Nat} {start : Memory} {task : Task α} {holding : Bool}

/-- When the time is over, there is nothing to withhold. -/
theorem withholds_zero (task : Task α) : task.Withholds 0 := by
  induction task with
  | done => exact fun _ => rfl
  | ask memory request resume inductionHypothesis =>
    refine ⟨fun _ => rfl, ?_⟩
    intro calls answer _
    rw [Nat.zero_sub]
    exact inductionHypothesis _ answer

/-- A task that does not judge the charger tells nothing new. -/
theorem withholds_of_unjudged
    (unjudged : ∀ trace later, task.Reaches trace later →
      later.memory.mailbox.inhibited = start.mailbox.inhibited)
    (untold : start.mailbox.inhibited = true → leftUs = 0) : task.Withholds leftUs := by
  induction task generalizing leftUs with
  | done memory result =>
    intro inhibited
    exact untold ((unjudged [] _ (.refl _)).symm.trans inhibited)
  | ask memory request resume inductionHypothesis =>
    refine ⟨fun inhibited => untold ((unjudged [] _ (.refl _)).symm.trans inhibited), ?_⟩
    intro calls answer _
    apply inductionHypothesis _ answer
    · exact fun trace later reached => unjudged _ later (.ask reached)
    · intro inhibited
      rw [untold inhibited, Nat.zero_sub]

theorem Stretches.withholds (stretches : task.Stretches holding false start)
    (untold : start.mailbox.inhibited = true → leftUs = 0) : task.Withholds leftUs :=
  withholds_of_unjudged (fun _ _ => stretches.of_reaches respected_inhibited) untold

theorem Withholds.bind {next : α → Program β} (first : task.Withholds leftUs)
    (second : ∀ value memory rest, rest ≤ leftUs → (memory.mailbox.inhibited = true → rest = 0) →
      (next value memory).Withholds rest) : (task.bind next).Withholds leftUs := by
  induction task generalizing leftUs with
  | done memory value => exact second value memory leftUs (Nat.le_refl _) first
  | ask memory request resume inductionHypothesis =>
    refine ⟨first.1, ?_⟩
    intro calls answer refused
    apply inductionHypothesis _ answer (first.2 calls answer refused)
    intro value memory rest within
    exact second value memory rest (Nat.le_trans within (Nat.sub_le _ _))

end Task

namespace Program

variable {memory : Memory} {leftUs : Nat}

/-- While the charger is polled, the pauses that are left cover the time that is left. -/
theorem withholds_pollCharger {α : Type} {retries : Nat} (rest : Bool → Program α)
    (within : leftUs ≤ retries * (Timing.chargerRetryMs * Timing.usPerMs))
    (untold : memory.mailbox.inhibited = true → leftUs = 0) :
    ((pollCharger retries >>= rest) memory).Withholds leftUs := by
  induction retries generalizing memory leftUs with
  | zero =>
    rw [Nat.zero_mul, Nat.le_zero] at within
    subst within
    exact Task.withholds_zero _
  | succ retries inductionHypothesis =>
    refine ⟨untold, ?_⟩
    rintro calls answer rfl
    have heard : (memory.hear calls).mailbox.inhibited = true → leftUs = 0 := by
      rwa [(memory.heard_hear calls).inhibited]
    refine ⟨heard, ?_⟩
    intro slept _ _
    apply inductionHypothesis
    · rw [Nat.succ_mul] at within
      exact Nat.sub_le_of_le_add within
    · intro inhibited
      have same := ((memory.hear calls).heard_hear slept).inhibited
      rw [heard (same.symm.trans inhibited), Nat.zero_sub, Nat.zero_sub]

theorem withholds_step (tree : PowerTree) (state : PowerState)
    (within : leftUs ≤ Timing.chargerBudgetUs)
    (untold : memory.mailbox.inhibited = true → leftUs = 0) :
    (step tree state memory).Withholds leftUs := by
  by_cases attempted : state = .g3s5
  · subst attempted
    have begun : ({ memory.takeShutdown with forcingShutdown := false } :
        Memory).mailbox.inhibited = true → leftUs = 0 := untold
    exact withholds_pollCharger _ within begun
  · exact Task.Stretches.withholds (works_handle tree attempted memory.takeShutdown) untold

/-- A turn does not tell that a power-up is inhibited before an attempt would have been over. -/
theorem withholds_turn (tree : PowerTree) (state : PowerState)
    (within : leftUs ≤ Timing.chargerBudgetUs)
    (untold : memory.mailbox.inhibited = true → leftUs = 0) :
    (turn tree state memory).Withholds leftUs := by
  have served : (serveReset memory).Withholds leftUs := (works_serveReset memory).withholds untold
  apply served.bind
  intro _ served rest less untold
  apply (withholds_step tree state (Nat.le_trans less within) untold).bind
  intro next worked rest _ untold
  obtain ⟨final, turn, concluded⟩ := conclude_done state next worked
  obtain ⟨known, rfl⟩ := conclude_publishes concluded
  rw [concluded]
  exact untold

end Program

end RailSequencer
