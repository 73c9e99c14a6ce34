import RailSequencer.Replay
import RailSequencer.Proofs.Exchange

/-!
# Runs of a replay

What the programs that write tables ask for, in which order, and how they end. A replay without a
condition asks for the same things in every run. One with a condition asks for a prefix of what it
would ask for undisturbed, and the looks that it takes on the way decide how it ends: `AbortableRun`
says so. `AbortableInvariant` carries what is known of one slice of a delay to a whole table.
-/

namespace RailSequencer

/-- What a table entry drives. -/
def RailWrite.output (write : RailWrite) : Rail × Level := (write.rail, write.level)

/-- What is asked for when a table is written and each delay is spent by `settle`. -/
def tableRequests (settle : Nat → List Request) (table : List RailWrite) : List Request :=
  table.flatMap fun write =>
    .drive write.rail write.level ::
      if write.settleMs = 0 then [] else settle write.settleMs.toNat

/-- A delay in one piece. -/
def sleepRequests (ms : Nat) : List Request := [.sleep (ms * Timing.usPerMs)]

/-- `slices` whole slices and then `lastMs`, with a look after each. -/
def sliceRequests (lastMs : Nat) : Nat → List Request
  | 0 => sleepRequests lastMs ++ [.readLines]
  | slices + 1 => sleepRequests Timing.abortSliceMs ++ [.readLines] ++ sliceRequests lastMs slices

/-- A delay in slices. -/
def slicedRequests (ms : Nat) : List Request :=
  let slices := (ms - 1) / Timing.abortSliceMs
  sliceRequests (ms - slices * Timing.abortSliceMs) slices

/-- What a reset pulse asks for. -/
def pulseRequests : List Request :=
  [.drive .sysRstL .low, .sleep Timing.resetPulseUs, .drive .sysRstL .high]

/-- An entry is driven, its delay spent, and then the rest of the table is written. -/
theorem tableRequests_cons (settle : Nat → List Request) (write : RailWrite)
    (rest : List RailWrite) :
    tableRequests settle (write :: rest) = .drive write.rail write.level ::
      (if write.settleMs = 0 then [] else settle write.settleMs.toNat) ++
        tableRequests settle rest :=
  List.flatMap_cons

theorem writes_sleepRequests (ms : Nat) : Request.writes (sleepRequests ms) = [] := rfl

theorem writes_sliceRequests (lastMs slices : Nat) :
    Request.writes (sliceRequests lastMs slices) = [] := by
  induction slices with
  | zero => rfl
  | succ slices inductionHypothesis =>
    rw [sliceRequests, Request.writes_append, inductionHypothesis]
    rfl

theorem writes_slicedRequests (ms : Nat) : Request.writes (slicedRequests ms) = [] :=
  writes_sliceRequests _ _

/-- A table is written entry by entry, however its delays are spent. -/
theorem writes_tableRequests {settle : Nat → List Request}
    (silent : ∀ ms, Request.writes (settle ms) = []) (table : List RailWrite) :
    Request.writes (tableRequests settle table) = table.map RailWrite.output := by
  induction table with
  | nil => rfl
  | cons write rest inductionHypothesis =>
    have delay : Request.writes
        (if write.settleMs = 0 then [] else settle write.settleMs.toNat) = [] := by
      split
      · rfl
      · exact silent _
    rw [List.map_cons, ← inductionHypothesis]
    change write.output :: Request.writes (_ ++ tableRequests settle rest) = _
    rw [Request.writes_append, delay, List.nil_append]

section Requests

variable {holds : Request → Prop}

theorem forall_sleepRequests (sleeps : ∀ us, holds (.sleep us)) (ms : Nat) :
    ∀ request ∈ sleepRequests ms, holds request :=
  List.forall_mem_singleton.mpr (sleeps _)

theorem forall_sliceRequests (sleeps : ∀ us, holds (.sleep us)) (looks : holds .readLines)
    (lastMs slices : Nat) : ∀ request ∈ sliceRequests lastMs slices, holds request := by
  have slice (ms : Nat) : ∀ request ∈ sleepRequests ms ++ [.readLines], holds request := by
    rw [List.forall_mem_append, List.forall_mem_singleton]
    exact ⟨forall_sleepRequests sleeps ms, looks⟩
  induction slices with
  | zero => exact slice lastMs
  | succ slices inductionHypothesis =>
    rw [sliceRequests, List.forall_mem_append]
    exact ⟨slice _, inductionHypothesis⟩

theorem forall_slicedRequests (sleeps : ∀ us, holds (.sleep us)) (looks : holds .readLines)
    (ms : Nat) : ∀ request ∈ slicedRequests ms, holds request :=
  forall_sliceRequests sleeps looks _ _

/-- What holds of every drive and of every delay holds of all that is asked for when a table is
written. -/
theorem forall_tableRequests {settle : Nat → List Request}
    (drives : ∀ rail level, holds (.drive rail level))
    (settles : ∀ ms, ∀ request ∈ settle ms, holds request) (table : List RailWrite) :
    ∀ request ∈ tableRequests settle table, holds request := by
  intro request member
  obtain ⟨write, -, member⟩ := List.mem_flatMap.mp member
  rcases List.mem_cons.mp member with rfl | member
  · exact drives _ _
  · split at member
    · exact absurd member List.not_mem_nil
    · exact settles _ request member

end Requests

theorem quiet_sleepRequests (ms : Nat) : ∀ request ∈ sleepRequests ms, request.IsQuiet :=
  forall_sleepRequests (fun _ => trivial) ms

theorem quiet_slicedRequests (ms : Nat) : ∀ request ∈ slicedRequests ms, request.IsQuiet :=
  forall_slicedRequests (fun _ => trivial) trivial ms

/-- Nobody is told that a table is written, however its delays are spent. -/
theorem quiet_tableRequests {settle : Nat → List Request}
    (quiet : ∀ ms, ∀ request ∈ settle ms, request.IsQuiet) (table : List RailWrite) :
    ∀ request ∈ tableRequests settle table, request.IsQuiet :=
  forall_tableRequests (fun _ _ => trivial) quiet table

theorem quiet_pulseRequests : ∀ request ∈ pulseRequests, request.IsQuiet := by
  simp [pulseRequests, Request.IsQuiet]

namespace Memory

/-- What is seen at each look at the input lines: the mailbox then, and the lines. -/
def looks : Memory → List Exchange → List (Mailbox × SignalMask)
  | _, [] => []
  | memory, ⟨.readLines, calls, lines⟩ :: rest =>
    ((memory.hear calls).mailbox, lines) :: (memory.hear calls).looks rest
  | memory, exchange :: rest => (memory.hear exchange.calls).looks rest

theorem looks_append (memory : Memory) (first second : List Exchange) :
    memory.looks (first ++ second) = memory.looks first ++ (memory.after first).looks second := by
  fun_induction looks memory first with
  | case1 => rfl
  | case2 memory calls lines rest inductionHypothesis => simp [looks, inductionHypothesis]
  | case3 memory exchange rest notLook inductionHypothesis => simp [looks, inductionHypothesis]

end Memory

/-- How looks decide the end of a replay: it completes when the condition held at none of them,
and is aborted by the first at which it held, which is the last one then. -/
def Outcome.Follows (condition : AbortCondition) (looks : List (Mailbox × SignalMask)) :
    Outcome → Prop
  | .completed => ∀ look ∈ looks, condition look.1 look.2 = false
  | .aborted => ∃ earlier last, looks = earlier ++ [last] ∧ condition last.1 last.2 = true ∧
    ∀ look ∈ earlier, condition look.1 look.2 = false

/-- The run of a program that asks for `expected` unless the condition ends it. -/
structure AbortableRun (condition : AbortCondition) (expected : List Request) (memory : Memory)
    (trace : List Exchange) (final : Memory) (outcome : Outcome) : Prop where
  final_eq : final = memory.after trace
  begun : Exchange.requests trace <+: expected
  complete : outcome = .completed → Exchange.requests trace = expected
  follows : outcome.Follows condition (memory.looks trace)

namespace AbortableRun

variable {condition : AbortCondition} {expected first second : List Request}
  {memory middle final : Memory} {trace earlier later : List Exchange} {outcome : Outcome}

/-- A program that was aborted would have asked for more. -/
theorem abort (run : AbortableRun condition first memory trace final .aborted)
    (second : List Request) :
    AbortableRun condition (first ++ second) memory trace final .aborted where
  final_eq := run.final_eq
  begun := run.begun.trans (List.prefix_append first second)
  complete := nofun
  follows := run.follows

/-- A program that completed hands over to the next. -/
theorem append (done : AbortableRun condition first memory earlier middle .completed)
    (run : AbortableRun condition second middle later final outcome) :
    AbortableRun condition (first ++ second) memory (earlier ++ later) final outcome where
  final_eq := by rw [run.final_eq, done.final_eq, Memory.after_append]
  begun := by
    rw [Exchange.requests_append, done.complete rfl]
    exact (List.prefix_append_right_inj _).mpr run.begun
  complete := by
    intro completed
    rw [Exchange.requests_append, done.complete rfl, run.complete completed]
  follows := by
    rw [Memory.looks_append, ← done.final_eq]
    have before := done.follows
    have after := run.follows
    cases outcome with
    | completed =>
      intro look member
      rcases List.mem_append.mp member with member | member
      · exact before look member
      · exact after look member
    | aborted =>
      obtain ⟨seen, last, split, held, never⟩ := after
      refine ⟨_ ++ seen, last, by rw [split, List.append_assoc], held, ?_⟩
      intro look member
      rcases List.mem_append.mp member with member | member
      · exact before look member
      · exact never look member

/-- What was written is a prefix of what the whole program would write. -/
theorem writes_prefix (run : AbortableRun condition expected memory trace final outcome) :
    Exchange.writes trace <+: Request.writes expected :=
  run.begun.filterMap _

end AbortableRun

/-- What holds of an abortable program, with all that it would ask for if nothing ended it. It holds
of nothing done, of a drive, and of a slice of a delay with the look at its end; a program that
completed hands it on to the next, and after one that was aborted nothing is missing. -/
structure AbortableInvariant (condition : AbortCondition) where
  holds : List Request → Memory → List Exchange → Outcome → Prop
  nil : ∀ memory, holds [] memory [] .completed
  drive : ∀ rail level memory calls,
    holds [.drive rail level] memory [⟨.drive rail level, calls, ()⟩] .completed
  slice : ∀ {ms outcome}, ms ≤ Timing.abortSliceMs → ∀ memory slept called lines,
    condition ((memory.hear slept).hear called).mailbox lines = decide (outcome = .aborted) →
    holds (sleepRequests ms ++ [.readLines]) memory
      [⟨.sleep (ms * Timing.usPerMs), slept, ()⟩, ⟨.readLines, called, lines⟩] outcome
  append : ∀ {first second memory earlier later outcome}, holds first memory earlier .completed →
    holds second (memory.after earlier) later outcome →
    holds (first ++ second) memory (earlier ++ later) outcome
  abort : ∀ {first memory trace}, holds first memory trace .aborted → ∀ second,
    holds (first ++ second) memory trace .aborted

/-- How a replay ends is decided as in each of its slices, by the look. -/
def AbortableRun.invariant (condition : AbortCondition) : AbortableInvariant condition where
  holds expected memory trace outcome :=
    AbortableRun condition expected memory trace (memory.after trace) outcome
  nil memory := ⟨rfl, List.prefix_rfl, fun _ => rfl, fun _ member => absurd member List.not_mem_nil⟩
  drive _ _ _ _ :=
    ⟨rfl, List.prefix_rfl, fun _ => rfl, fun _ member => absurd member List.not_mem_nil⟩
  slice := by
    intro ms outcome _ memory slept called lines judged
    refine ⟨rfl, List.prefix_rfl, fun _ => rfl, ?_⟩
    cases outcome with
    | completed => exact List.forall_mem_singleton.mpr judged
    | aborted => exact ⟨[], _, rfl, judged, fun _ member => absurd member List.not_mem_nil⟩
  append done run := by
    have whole := done.append run
    rwa [← Memory.after_append] at whole
  abort := AbortableRun.abort

namespace Program

variable {condition : AbortCondition} {table : List RailWrite} {memory final : Memory}
  {trace : List Exchange} {outcome : Outcome}

/-- A look at the input lines, judged by the condition. -/
theorem aborts_runs {answer : Bool} (run : (aborts condition memory).Runs trace final answer) :
    ∃ calls lines, trace = [⟨.readLines, calls, lines⟩] ∧ final = memory.hear calls ∧
      answer = condition (memory.hear calls).mailbox lines := by
  obtain ⟨calls, lines, rest, rfl, judged⟩ := runs_ask_bind_iff.mp run
  obtain ⟨rfl, rfl, rfl⟩ := runs_pure_iff.mp judged
  exact ⟨calls, lines, rfl, rfl, rfl⟩

/-- A slice of a delay ends with a look, which ends the program or lets it go on. -/
theorem slice_cases {ms : Nat} {rest : Program Outcome}
    (run : ((do
      sleepMs ms
      if ← aborts condition then return .aborted else rest : Program Outcome) memory).Runs
        trace final outcome) :
    ∃ slept called lines later,
      trace = ⟨.sleep (ms * Timing.usPerMs), slept, ()⟩ :: ⟨.readLines, called, lines⟩ :: later ∧
      (condition ((memory.hear slept).hear called).mailbox lines = true ∧ later = [] ∧
          final = (memory.hear slept).hear called ∧ outcome = .aborted ∨
        condition ((memory.hear slept).hear called).mailbox lines = false ∧
          (rest ((memory.hear slept).hear called)).Runs later final outcome) := by
  obtain ⟨slept, _, _, rfl, awake⟩ := runs_ask_bind_iff.mp run
  obtain ⟨_, middle, answer, later, looked, rested, rfl⟩ := runs_bind_iff.mp awake
  obtain ⟨called, lines, rfl, rfl, judged⟩ := aborts_runs looked
  refine ⟨slept, called, lines, later, rfl, ?_⟩
  cases answer with
  | true =>
    obtain ⟨rfl, rfl, rfl⟩ := runs_pure_iff.mp rested
    exact .inl ⟨judged.symm, rfl, rfl, rfl⟩
  | false => exact .inr ⟨judged.symm, rested⟩

end Program

namespace AbortableInvariant

variable {condition : AbortCondition} {table : List RailWrite} {memory final : Memory}
  {trace : List Exchange} {outcome : Outcome} (invariant : AbortableInvariant condition)

/-- One slice, and what follows unless the look at its end aborts. -/
private theorem of_slice {ms : Nat} (short : ms ≤ Timing.abortSliceMs) {rest : Program Outcome}
    {expected : List Request}
    (next : ∀ {memory trace}, (rest memory).Runs trace final outcome →
      final = memory.after trace ∧ invariant.holds expected memory trace outcome)
    (run : ((do
      Program.sleepMs ms
      if ← Program.aborts condition then return .aborted else rest : Program Outcome) memory).Runs
        trace final outcome) :
    final = memory.after trace ∧
      invariant.holds (sleepRequests ms ++ [.readLines] ++ expected) memory trace outcome := by
  obtain ⟨slept, called, lines, later, rfl, ⟨held, rfl, rfl, rfl⟩ | ⟨quiet, rested⟩⟩ :=
    Program.slice_cases run
  · have slice : invariant.holds _ memory _ .aborted :=
      invariant.slice short memory slept called lines held
    exact ⟨by simp, invariant.abort slice expected⟩
  · have slice : invariant.holds _ memory _ .completed :=
      invariant.slice short memory slept called lines quiet
    obtain ⟨rfl, after⟩ := next rested
    refine ⟨by simp, invariant.append slice ?_⟩
    rw [Memory.after_cons, Memory.after_cons, Memory.after_nil]
    exact after

theorem of_sleepSlices {lastMs slices : Nat} (short : lastMs ≤ Timing.abortSliceMs)
    (run : (Program.sleepSlices condition lastMs slices memory).Runs trace final outcome) :
    final = memory.after trace ∧
      invariant.holds (sliceRequests lastMs slices) memory trace outcome := by
  induction slices generalizing memory trace with
  | zero =>
    rw [Program.sleepSlices] at run
    rw [sliceRequests, ← List.append_nil (_ ++ _)]
    apply invariant.of_slice short _ run
    intro memory trace ended
    obtain ⟨rfl, rfl, rfl⟩ := Program.runs_pure_iff.mp ended
    exact ⟨rfl, invariant.nil final⟩
  | succ slices inductionHypothesis =>
    rw [Program.sleepSlices] at run
    exact invariant.of_slice (Nat.le_refl _) inductionHypothesis run

theorem of_sleepAbortable {ms : Nat}
    (run : (Program.sleepAbortable condition ms memory).Runs trace final outcome) :
    final = memory.after trace ∧ invariant.holds (slicedRequests ms) memory trace outcome := by
  have short : ms - (ms - 1) / Timing.abortSliceMs * Timing.abortSliceMs ≤
      Timing.abortSliceMs := by
    simp only [Timing.abortSliceMs]
    omega
  exact invariant.of_sleepSlices short run

/-- What holds of drives and slices holds of the replay of a whole table. -/
theorem of_replayAbortable
    (run : (Program.replayAbortable condition table memory).Runs trace final outcome) :
    final = memory.after trace ∧
      invariant.holds (tableRequests slicedRequests table) memory trace outcome := by
  induction table generalizing memory trace with
  | nil =>
    rw [Program.replayAbortable] at run
    obtain ⟨rfl, rfl, rfl⟩ := Program.runs_pure_iff.mp run
    exact ⟨rfl, invariant.nil final⟩
  | cons write rest inductionHypothesis =>
    rw [Program.replayAbortable] at run
    obtain ⟨called, _, later, rfl, driven⟩ := Program.runs_ask_bind_iff.mp run
    have drive := invariant.drive write.rail write.level memory called
    have behind {expected : List Request} {after : List Exchange}
        (spent : invariant.holds expected (memory.hear called) after outcome) :
        invariant.holds (.drive write.rail write.level :: expected) memory
          (⟨.drive write.rail write.level, called, ()⟩ :: after) outcome := by
      rw [← Memory.after_nil (memory.hear called),
        ← Memory.after_cons _ ⟨.drive write.rail write.level, called, ()⟩] at spent
      exact invariant.append drive spent
    rw [tableRequests_cons, List.cons_append, Memory.after_cons]
    split at driven
    next noDelay =>
      rw [if_pos noDelay]
      exact (inductionHypothesis driven).imp_right behind
    next delay =>
      rw [if_neg delay]
      obtain ⟨_, middle, verdict, after, slept, rested, rfl⟩ := Program.runs_bind_iff.mp driven
      obtain ⟨rfl, sliced⟩ := invariant.of_sleepAbortable slept
      cases verdict with
      | aborted =>
        obtain ⟨rfl, rfl, rfl⟩ := Program.runs_pure_iff.mp rested
        rw [List.append_nil]
        exact ⟨rfl, behind (invariant.abort sliced _)⟩
      | completed =>
        obtain ⟨rfl, replayed⟩ := inductionHypothesis rested
        exact ⟨(Memory.after_append _ _ _).symm, behind (invariant.append sliced replayed)⟩

end AbortableInvariant

namespace Program

variable {condition : AbortCondition} {table : List RailWrite} {memory final : Memory}
  {trace : List Exchange} {outcome : Outcome}

theorem sleepAbortable_runs {ms : Nat}
    (run : (sleepAbortable condition ms memory).Runs trace final outcome) :
    AbortableRun condition (slicedRequests ms) memory trace final outcome := by
  obtain ⟨rfl, slept⟩ := (AbortableRun.invariant condition).of_sleepAbortable run
  exact slept

theorem replayAbortable_runs
    (run : (replayAbortable condition table memory).Runs trace final outcome) :
    AbortableRun condition (tableRequests slicedRequests table) memory trace final outcome := by
  obtain ⟨rfl, replayed⟩ := (AbortableRun.invariant condition).of_replayAbortable run
  exact replayed

/-- A table with no way to stop it. -/
theorem replay_runs {answer : Unit} (run : (replay table memory).Runs trace final answer) :
    Exchange.requests trace = tableRequests sleepRequests table ∧ final = memory.after trace := by
  induction table generalizing memory trace with
  | nil =>
    rw [replay] at run
    obtain ⟨rfl, rfl, -⟩ := runs_pure_iff.mp run
    exact ⟨rfl, rfl⟩
  | cons write rest inductionHypothesis =>
    rw [replay] at run
    obtain ⟨called, _, after, rfl, driven⟩ := runs_ask_bind_iff.mp run
    change _ = .drive write.rail write.level :: (_ ++ tableRequests sleepRequests rest) ∧ _
    rw [Exchange.requests_cons, Memory.after_cons, List.cons_inj_right]
    split at driven
    next delay =>
      rw [if_neg delay]
      obtain ⟨slept, _, later, rfl, rested⟩ := runs_ask_bind_iff.mp driven
      obtain ⟨asked, final_eq⟩ := inductionHypothesis rested
      rw [Exchange.requests_cons, Memory.after_cons, asked]
      exact ⟨rfl, final_eq⟩
    next noDelay =>
      rw [if_pos (Decidable.not_not.mp noDelay)]
      exact inductionHypothesis driven

theorem pulseReset_runs {answer : Unit} (run : (pulseReset memory).Runs trace final answer) :
    Exchange.requests trace = pulseRequests ∧ final = memory.after trace := by
  obtain ⟨_, _, _, rfl, held⟩ := runs_ask_bind_iff.mp run
  obtain ⟨_, _, _, rfl, slept⟩ := runs_ask_bind_iff.mp held
  obtain ⟨_, rfl, rfl⟩ := runs_ask_iff.mp slept
  exact ⟨rfl, by simp⟩

end Program

end RailSequencer
