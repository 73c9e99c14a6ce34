import Mathlib.Algebra.Ring.Nat
import RailSequencer.Proofs.Suspending

/-!
# What an abortable replay does, and when

A replay that may be aborted is known by the looks that it takes: it goes on as long as the condition
holds at none of them, and ends at the first at which it does. There is a look after every slice of a
delay and none anywhere else, so a condition that has come to hold ends the replay within a slice.

Time is counted from the beginning of the replay as what has been slept: a delay takes as long as it
says, and nothing else that a replay asks for takes time.
-/

namespace RailSequencer

namespace Timing

/-- The longest time between two looks of an abortable delay. -/
def abortSliceUs : Nat := abortSliceMs * usPerMs

end Timing

namespace Request

/-- The time that a request takes. -/
def sleptUs : Request → Nat
  | .sleep us => us
  | _ => 0

/-- The time that requests take one after another. -/
def elapsedUs (requests : List Request) : Nat := (requests.map sleptUs).sum

theorem elapsedUs_cons (request : Request) (rest : List Request) :
    elapsedUs (request :: rest) = request.sleptUs + elapsedUs rest :=
  List.sum_cons

theorem elapsedUs_append (first second : List Request) :
    elapsedUs (first ++ second) = elapsedUs first + elapsedUs second := by
  rw [elapsedUs, List.map_append, List.sum_append_nat]
  rfl

end Request

namespace Exchange

/-- The time that has passed at the end of a run. -/
def elapsedUs (trace : List Exchange) : Nat := Request.elapsedUs (requests trace)

theorem elapsedUs_append (first second : List Exchange) :
    elapsedUs (first ++ second) = elapsedUs first + elapsedUs second := by
  rw [elapsedUs, requests_append, Request.elapsedUs_append]
  rfl

end Exchange

/-- Every slice of a delay but the last is a whole one, and each is followed by a look. -/
theorem sliceRequests_eq (lastMs slices : Nat) :
    sliceRequests lastMs slices =
      (List.replicate slices [.sleep Timing.abortSliceUs, .readLines]).flatten ++
        [.sleep (lastMs * Timing.usPerMs), .readLines] := by
  induction slices with
  | zero => rfl
  | succ slices inductionHypothesis =>
    rw [sliceRequests, inductionHypothesis, List.replicate_succ, List.flatten_cons,
      List.append_assoc]
    rfl

theorem elapsedUs_sliceRequests (lastMs slices : Nat) :
    Request.elapsedUs (sliceRequests lastMs slices) =
      (slices * Timing.abortSliceMs + lastMs) * Timing.usPerMs := by
  induction slices with
  | zero =>
    rw [Nat.zero_mul, Nat.zero_add]
    exact Nat.add_zero _
  | succ slices inductionHypothesis =>
    have slice : Request.elapsedUs (sleepRequests Timing.abortSliceMs ++ [.readLines]) =
        Timing.abortSliceMs * Timing.usPerMs := rfl
    rw [sliceRequests, Request.elapsedUs_append, slice, inductionHypothesis, ← Nat.add_mul,
      Nat.succ_mul]
    congr 1
    omega

/-- A delay in slices takes as long as in one piece. -/
theorem elapsedUs_slicedRequests (ms : Nat) :
    Request.elapsedUs (slicedRequests ms) = ms * Timing.usPerMs := by
  have split : (ms - 1) / Timing.abortSliceMs * Timing.abortSliceMs +
      (ms - (ms - 1) / Timing.abortSliceMs * Timing.abortSliceMs) = ms := by
    simp only [Timing.abortSliceMs]
    omega
  rw [slicedRequests, elapsedUs_sliceRequests, split]

/-- A table takes as long as its delays together. -/
theorem elapsedUs_tableRequests {settle : Nat → List Request}
    (lasts : ∀ ms, Request.elapsedUs (settle ms) = ms * Timing.usPerMs) (table : List RailWrite) :
    Request.elapsedUs (tableRequests settle table) =
      (table.map fun write => write.settleMs.toNat).sum * Timing.usPerMs := by
  induction table with
  | nil => exact (Nat.zero_mul _).symm
  | cons write rest inductionHypothesis =>
    have delay : Request.elapsedUs
        (if write.settleMs = 0 then [] else settle write.settleMs.toNat) =
          write.settleMs.toNat * Timing.usPerMs := by
      split
      next none =>
        rw [none]
        rfl
      next => exact lasts _
    rw [tableRequests_cons, List.cons_append, Request.elapsedUs_cons, Request.elapsedUs_append,
      inductionHypothesis, delay, List.map_cons, List.sum_cons, Nat.add_mul]
    exact Nat.zero_add _

/-- The condition holds at every look that is taken after so much time. -/
def HoldsFrom (condition : AbortCondition) (sinceUs : Nat) (memory : Memory)
    (trace : List Exchange) : Prop :=
  ∀ earlier calls lines later, trace = earlier ++ ⟨.readLines, calls, lines⟩ :: later →
    sinceUs ≤ Exchange.elapsedUs earlier →
    condition ((memory.after earlier).hear calls).mailbox lines = true

/-- The run of a program that its condition ends within a slice. A program that goes on to its end
has taken its last look before the condition came to hold. -/
structure PromptRun (condition : AbortCondition) (memory : Memory) (trace : List Exchange)
    (outcome : Outcome) : Prop where
  ends : ∀ sinceUs, HoldsFrom condition sinceUs memory trace →
    Exchange.elapsedUs trace ≤ sinceUs + Timing.abortSliceUs
  complete : outcome = .completed → ∀ sinceUs, HoldsFrom condition sinceUs memory trace →
    Exchange.elapsedUs trace ≤ sinceUs

section Prompt

variable {condition : AbortCondition} {sinceUs : Nat} {memory final : Memory} {outcome : Outcome}
  {trace earlier later : List Exchange} {table : List RailWrite}

theorem HoldsFrom.left (holds : HoldsFrom condition sinceUs memory (earlier ++ later)) :
    HoldsFrom condition sinceUs memory earlier := by
  intro before calls lines after whole
  apply holds before calls lines (after ++ later)
  rw [whole, List.append_assoc, List.cons_append]

/-- What is left of a run is counted from the time at which it begins. -/
theorem HoldsFrom.right (holds : HoldsFrom condition sinceUs memory (earlier ++ later)) :
    HoldsFrom condition (sinceUs - Exchange.elapsedUs earlier) (memory.after earlier) later := by
  intro before calls lines after whole held
  rw [← Memory.after_append]
  apply holds (earlier ++ before) calls lines after
  · rw [whole, List.append_assoc]
  · rw [Exchange.elapsedUs_append]
    omega

namespace PromptRun

theorem nil (condition : AbortCondition) (memory : Memory) :
    PromptRun condition memory [] .completed where
  ends _ _ := Nat.zero_le _
  complete _ _ _ := Nat.zero_le _

/-- Driving a rail takes no time. -/
theorem drive (condition : AbortCondition) (rail : Rail) (level : Level) (memory : Memory)
    (calls : List Mailbox.Call) :
    PromptRun condition memory [⟨.drive rail level, calls, ()⟩] .completed where
  ends _ _ := Nat.zero_le _
  complete _ _ _ := Nat.zero_le _

/-- The look at the end of a slice tells whether the condition had come to hold by then. -/
theorem slice {ms : Nat} (short : ms ≤ Timing.abortSliceMs) (memory : Memory)
    (slept called : List Mailbox.Call) (lines : SignalMask)
    (verdict : condition ((memory.hear slept).hear called).mailbox lines =
      decide (outcome = .aborted)) :
    PromptRun condition memory
      [⟨.sleep (ms * Timing.usPerMs), slept, ()⟩, ⟨.readLines, called, lines⟩] outcome := by
  have asleep : Exchange.elapsedUs [⟨.sleep (ms * Timing.usPerMs), slept, ()⟩] =
      ms * Timing.usPerMs := Nat.add_zero _
  have whole : Exchange.elapsedUs
      [⟨.sleep (ms * Timing.usPerMs), slept, ()⟩, ⟨.readLines, called, lines⟩] =
        ms * Timing.usPerMs := Nat.add_zero _
  constructor
  · intro sinceUs _
    have most : ms * Timing.usPerMs ≤ Timing.abortSliceUs := Nat.mul_le_mul_right _ short
    omega
  · intro completed sinceUs holds
    rw [whole, ← asleep]
    apply Nat.le_of_not_lt
    intro passed
    have held := holds [_] called lines [] rfl (Nat.le_of_lt passed)
    rw [Memory.after_cons, Memory.after_nil, verdict, completed] at held
    exact absurd held nofun

/-- A program that completed hands over to the next. -/
theorem append (done : PromptRun condition memory earlier .completed)
    (rest : PromptRun condition (memory.after earlier) later outcome) :
    PromptRun condition memory (earlier ++ later) outcome := by
  have first {sinceUs : Nat} (holds : HoldsFrom condition sinceUs memory (earlier ++ later)) :=
    done.complete rfl sinceUs holds.left
  constructor
  · intro sinceUs holds
    have begun := first holds
    have ended := rest.ends _ holds.right
    rw [Exchange.elapsedUs_append]
    omega
  · intro completed sinceUs holds
    have begun := first holds
    have ended := rest.complete completed _ holds.right
    rw [Exchange.elapsedUs_append]
    omega

end PromptRun

/-- A replay ends in time because each of its slices does. -/
def PromptRun.invariant (condition : AbortCondition) : AbortableInvariant condition where
  holds _ := PromptRun condition
  nil := .nil condition
  drive := .drive condition
  slice := .slice
  append := .append
  abort prompt _ := prompt

/-- The run of a replay that goes on unless a look ends it. -/
structure AbortableReplay (condition : AbortCondition) (table : List RailWrite) (memory : Memory)
    (trace : List Exchange) (outcome : Outcome) : Prop where
  /-- The entries are written in order, each followed by its delay in slices with a look after each;
  after an entry without a delay comes the next entry. -/
  begun : Exchange.requests trace <+: tableRequests slicedRequests table
  writes : Exchange.writes trace <+: table.map RailWrite.output
  completed_iff : outcome = .completed ↔
    ∀ look ∈ memory.looks trace, condition look.1 look.2 = false
  whole : outcome = .completed →
    Exchange.requests trace = tableRequests slicedRequests table ∧
      Exchange.writes trace = table.map RailWrite.output ∧
      Exchange.elapsedUs trace =
        (table.map fun write => write.settleMs.toNat).sum * Timing.usPerMs
  /-- The first look at which the condition holds is the last thing that is asked for. -/
  cut : outcome = .aborted → ∃ earlier calls lines, trace = earlier ++ [⟨.readLines, calls, lines⟩] ∧
    condition ((memory.after earlier).hear calls).mailbox lines = true ∧
    ∀ look ∈ memory.looks earlier, condition look.1 look.2 = false
  prompt : ∀ sinceUs, HoldsFrom condition sinceUs memory trace →
    Exchange.elapsedUs trace ≤ sinceUs + Timing.abortSliceUs

theorem Program.abortableReplay
    (run : (replayAbortable condition table memory).Runs trace final outcome) :
    AbortableReplay condition table memory trace outcome := by
  have replayed := replayAbortable_runs run
  have prefixed := replayed.writes_prefix
  rw [writes_tableRequests writes_slicedRequests] at prefixed
  have prompt := ((PromptRun.invariant condition).of_replayAbortable run).2
  refine ⟨replayed.begun, prefixed, ?_, ?_, ?_, prompt.ends⟩
  · have follows := replayed.follows
    cases outcome with
    | completed => exact iff_of_true rfl follows
    | aborted =>
      obtain ⟨earlier, last, split, held, -⟩ := follows
      refine iff_of_false nofun fun never => ?_
      have quiet := never last (split ▸ List.mem_append_right _ List.mem_cons_self)
      exact absurd (held.symm.trans quiet) nofun
  · intro completed
    have asked := replayed.complete completed
    refine ⟨asked, ?_, ?_⟩
    · rw [Exchange.writes, asked, writes_tableRequests writes_slicedRequests]
    · rw [Exchange.elapsedUs, asked, elapsedUs_tableRequests elapsedUs_slicedRequests]
  · rintro rfl
    obtain ⟨_, _, _, _, -, -, -, shortened⟩ := replayAbortable_cutShort run
    obtain ⟨earlier, calls, lines, rfl, -⟩ := shortened.look
    obtain ⟨before, last, split, held, never⟩ := replayed.follows
    rw [Memory.looks_append] at split
    obtain ⟨rfl, same⟩ := List.append_inj' split rfl
    obtain rfl := List.singleton_inj.mp same
    exact ⟨earlier, calls, lines, rfl, held, never⟩

/-- A table that is written until a condition is seen to hold, for any table, condition and history of
what the looks find, is written from the top: entry by entry, each delay in whole slices of 5 ms and
what remains, with one look after each slice, and no look or sleep where there is no delay. It is
written to its end exactly if the condition held at none of the looks, which takes as long as its
delays together; otherwise the first look at which it held is the end. So a condition that holds from
some time on ends the replay within 5 ms. Every history leads to an end. -/
theorem replay_aborted_within_slice (condition : AbortCondition) (table : List RailWrite)
    (memory : Memory) :
    (∀ trace final outcome,
      (Program.replayAbortable condition table memory).Runs trace final outcome →
        AbortableReplay condition table memory trace outcome) ∧
    (∀ ms, 0 < ms → ∃ lastMs, 1 ≤ lastMs ∧ lastMs ≤ 5 ∧ ((ms + 4) / 5 - 1) * 5 + lastMs = ms ∧
      slicedRequests ms =
        (List.replicate ((ms + 4) / 5 - 1) [.sleep 5000, .readLines]).flatten ++
          [.sleep (lastMs * 1000), .readLines]) ∧
    ∀ react : Reaction, ∃ trace final outcome,
      (Program.replayAbortable condition table memory).Runs trace final outcome ∧
        react.Yields trace := by
  refine ⟨fun _ _ _ => Program.abortableReplay, ?_, fun react => Task.exists_runs_reacting react _⟩
  intro ms some
  have whole : (ms - 1) / 5 = (ms + 4) / 5 - 1 := by omega
  refine ⟨ms - (ms - 1) / 5 * 5, by omega, by omega, by omega, ?_⟩
  rw [← whole]
  exact sliceRequests_eq _ _

end Prompt

/-- The processor changes its mind 7 ms into a suspend of the simplified tree, in the middle of a
delay: the replay is aborted by 12 ms, far from the 43 ms of the whole table. -/
theorem replay_aborted_within_slice_changedMind : ∃ trace final,
    (Program.replayAbortable (fun _ lines => lines.contains .suspendDeasserted)
      (PowerTree.ofRevision .v2).tables.s0s3 {}).Runs trace final .aborted ∧
    HoldsFrom (fun _ lines => lines.contains .suspendDeasserted) 7000 {} trace ∧
    Exchange.elapsedUs trace ≤ 12000 := by
  let react : Reaction := fun earlier request =>
    if 7000 ≤ Exchange.elapsedUs earlier then ([], request.steadyAnswer .suspendDeasserted)
    else ([], request.darkAnswer)
  obtain ⟨replayed, -, ends⟩ :=
    replay_aborted_within_slice (fun _ lines => lines.contains .suspendDeasserted)
      (PowerTree.ofRevision .v2).tables.s0s3 {}
  obtain ⟨trace, final, outcome, run, yields⟩ := ends react
  have replay := replayed trace final outcome run
  have holds : HoldsFrom (fun _ lines => lines.contains .suspendDeasserted) 7000 {} trace := by
    intro earlier calls lines later whole since
    have answered := yields earlier _ later whole
    obtain ⟨-, rfl⟩ : calls = [] ∧ lines = .suspendDeasserted := by
      simpa [react, since, Request.steadyAnswer] using answered
    exact (by decide : SignalMask.suspendDeasserted.contains .suspendDeasserted = true)
  have inTime := replay.prompt 7000 holds
  cases outcome with
  | completed =>
    have late := (replay.whole rfl).2.2
    exact absurd (late ▸ inTime) (by decide)
  | aborted => exact ⟨trace, final, run, holds, inTime⟩

end RailSequencer
