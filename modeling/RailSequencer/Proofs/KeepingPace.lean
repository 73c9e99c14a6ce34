import Mathlib.Data.Nat.Basic
import RailSequencer.Board
import RailSequencer.PowerTree.Revisions
import RailSequencer.Proofs.Replay

/-!
# An abortable replay keeps the pace of a plain one

A replay that may be aborted sleeps each delay in slices, a plain one in a single sleep. On a board
on which sleeping in parts is sleeping the whole, that makes no difference: as long as the condition
is not seen to hold, both replays drive the same lines at the same times and leave the board and the
memory alike. A replay that is aborted has done the beginning of what the plain one does, and is not
later.

What a board does may depend on its state in any way, and with it the input lines and what other
tasks do to the mailbox. `KeepsPace` is the relation between the two replays; it is shown of one
slice, and carried along delays and tables by `KeepsPace.andThen`.
-/

namespace RailSequencer

variable {State Time α β : Type}

/-- What was seen by a request, if it was a look at the input lines: the mailbox then, and the
lines. -/
def Request.sight? : (request : Request) → Mailbox → request.Answer → Option (Mailbox × SignalMask)
  | .readLines, mailbox, lines => some (mailbox, lines)
  | _, _, _ => none

namespace Task

variable (board : Board State) (clock : State → Time)

/-- The output lines that a task drives on a board, in order, each with the time of it. -/
def drives : Task α → State → List (Time × Rail × Level)
  | .done _ _, _ => []
  | .ask memory request resume, state =>
    let (next, mailbox, answer) := board.answer request memory.mailbox state
    (request.write?.map (clock state, ·)).toList ++ (resume mailbox answer).drives next

/-- What a task sees on a board at each of its looks at the input lines. -/
def sights : Task α → State → List (Mailbox × SignalMask)
  | .done _ _, _ => []
  | .ask memory request resume, state =>
    let (next, mailbox, answer) := board.answer request memory.mailbox state
    (request.sight? mailbox answer).toList ++ (resume mailbox answer).sights next

section Simp

variable (memory : Memory) (result : α) (request : Request)
  (resume : Mailbox → request.Answer → Task α) (state : State)

@[simp]
theorem run_done : (Task.done memory result).run board state = (state, memory, result) := rfl

@[simp]
theorem run_ask : (Task.ask memory request resume).run board state =
    let reply := board.answer request memory.mailbox state
    (resume reply.2.1 reply.2.2).run board reply.1 := rfl

@[simp]
theorem drives_done : (Task.done memory result).drives board clock state = [] := rfl

@[simp]
theorem drives_ask : (Task.ask memory request resume).drives board clock state =
    let reply := board.answer request memory.mailbox state
    (request.write?.map (clock state, ·)).toList ++
      (resume reply.2.1 reply.2.2).drives board clock reply.1 := rfl

@[simp]
theorem sights_done : (Task.done memory result).sights board state = [] := rfl

@[simp]
theorem sights_ask : (Task.ask memory request resume).sights board state =
    let reply := board.answer request memory.mailbox state
    (request.sight? reply.2.1 reply.2.2).toList ++
      (resume reply.2.1 reply.2.2).sights board reply.1 := rfl

end Simp

theorem drives_bind (task : Task α) (next : α → Program β) (state : State) :
    (task.bind next).drives board clock state = task.drives board clock state ++
      let first := task.run board state
      (next first.2.2 first.2.1).drives board clock first.1 := by
  induction task generalizing state with
  | done memory result => simp
  | ask memory request resume inductionHypothesis => simp [inductionHypothesis]

theorem sights_bind (task : Task α) (next : α → Program β) (state : State) :
    (task.bind next).sights board state = task.sights board state ++
      let first := task.run board state
      (next first.2.2 first.2.1).sights board first.1 := by
  induction task generalizing state with
  | done memory result => simp
  | ask memory request resume inductionHypothesis => simp [inductionHypothesis]

end Task

namespace Board

/-- What becomes of the state and of the mailbox while a task sleeps. -/
def sleep (board : Board State) (us : Nat) (point : State × Mailbox) : State × Mailbox :=
  let reply := board.answer (.sleep us) point.2 point.1
  (reply.1, reply.2.1)

/-- Sleeping in two parts is sleeping for as long as both together, and to look at the input lines
changes nothing. -/
structure Additive (board : Board State) : Prop where
  sleep : ∀ first second point,
    board.sleep second (board.sleep first point) = board.sleep (first + second) point
  look : ∀ mailbox state, ∃ lines, board.answer .readLines mailbox state = (state, mailbox, lines)

/-- Whatever is asked, time does not go back. -/
def Forward [Preorder Time] (board : Board State) (clock : State → Time) : Prop :=
  ∀ request mailbox state, clock state ≤ clock (board.answer request mailbox state).1

theorem Forward.run [Preorder Time] {board : Board State} {clock : State → Time}
    (forward : board.Forward clock) (task : Task α) (state : State) :
    clock state ≤ clock (task.run board state).1 := by
  induction task generalizing state with
  | done memory result => exact le_refl _
  | ask memory request resume inductionHypothesis =>
    exact le_trans (forward request memory.mailbox state) (inductionHypothesis _ _ _)

end Board

namespace Program

variable {condition : AbortCondition} {board : Board State} {memory left : Memory}
  {state middle : State} {first rest : Program Outcome}

/-- Go on with `rest` unless `first` was aborted. -/
def andThen (first rest : Program Outcome) : Program Outcome := do
  match ← first with
  | .aborted => return .aborted
  | .completed => rest

/-- One slice of a delay, and the look at its end. -/
def slice (condition : AbortCondition) (ms : Nat) : Program Outcome := do
  sleepMs ms
  if ← aborts condition then return .aborted else return .completed

/-- A slice sleeps and looks, and the condition decides what comes of it. -/
theorem slice_apply (condition : AbortCondition) (ms : Nat) (memory : Memory) :
    slice condition ms memory =
      .ask memory (.sleep (ms * Timing.usPerMs)) fun mailbox _ =>
        .ask { memory with mailbox := mailbox } .readLines fun mailbox lines =>
          .done { memory with mailbox := mailbox }
            (if condition mailbox lines then .aborted else .completed) := by
  simp only [slice, aborts, sleepMs, ask, read, bind_apply, pure_apply, Task.bind_ask,
    Task.bind_done]
  congr
  funext _ _
  congr
  funext mailbox lines
  cases condition mailbox lines <;> rfl

theorem sleepSlices_succ (condition : AbortCondition) (lastMs slices : Nat) :
    sleepSlices condition lastMs (slices + 1) =
      (slice condition Timing.abortSliceMs).andThen (sleepSlices condition lastMs slices) := by
  simp only [sleepSlices, slice, andThen, bind_assoc]
  congr 1
  funext _
  congr 1
  funext held
  cases held <;> rfl

/-- After a program that was aborted nothing more is asked. -/
theorem andThen_of_aborted (clock : State → Time) (rest : Program Outcome)
    (ended : (first memory).run board state = (middle, left, .aborted)) :
    (first.andThen rest memory).run board state = (middle, left, .aborted) ∧
      (first.andThen rest memory).drives board clock state =
        (first memory).drives board clock state ∧
      (first.andThen rest memory).sights board state = (first memory).sights board state := by
  refine ⟨?_, ?_, ?_⟩
  · rw [andThen, bind_apply, Task.run_bind, ended]
    rfl
  · rw [andThen, bind_apply, Task.drives_bind, ended]
    exact List.append_nil _
  · rw [andThen, bind_apply, Task.sights_bind, ended]
    exact List.append_nil _

/-- A program that completed hands over to the next. -/
theorem andThen_of_completed (clock : State → Time) (rest : Program Outcome)
    (ended : (first memory).run board state = (middle, left, .completed)) :
    (first.andThen rest memory).run board state = (rest left).run board middle ∧
      (first.andThen rest memory).drives board clock state =
        (first memory).drives board clock state ++ (rest left).drives board clock middle ∧
      (first.andThen rest memory).sights board state =
        (first memory).sights board state ++ (rest left).sights board middle := by
  refine ⟨?_, ?_, ?_⟩
  · rw [andThen, bind_apply, Task.run_bind, ended]
  · rw [andThen, bind_apply, Task.drives_bind, ended]
  · rw [andThen, bind_apply, Task.sights_bind, ended]

end Program

/-- A program that may be aborted, next to one that may not, on a board. The first completes exactly
if the condition is not seen to hold. Then both drive the same lines at the same times and leave the
board and the memory alike. Aborted, it has driven the first of those lines, and is not later. -/
structure KeepsPace [LE Time] (board : Board State) (clock : State → Time)
    (condition : AbortCondition) (abortable : Task Outcome) (plain : Task Unit) (state : State) :
    Prop where
  completed_iff : (abortable.run board state).2.2 = .completed ↔
    ∀ sight ∈ abortable.sights board state, condition sight.1 sight.2 = false
  alike : (abortable.run board state).2.2 = .completed →
    abortable.drives board clock state = plain.drives board clock state ∧
      abortable.run board state =
        ((plain.run board state).1, (plain.run board state).2.1, .completed)
  early : (abortable.run board state).2.2 = .aborted →
    abortable.drives board clock state <+: plain.drives board clock state ∧
      clock (abortable.run board state).1 ≤ clock (plain.run board state).1

namespace KeepsPace

variable [Preorder Time] {board : Board State} {clock : State → Time} {condition : AbortCondition}
  {first rest : Program Outcome} {plainFirst plainRest : Program Unit} {memory : Memory}
  {state : State}

/-- What follows a program that was aborted is not begun, and what follows one that completed goes
on from there. -/
theorem andThen (forward : board.Forward clock)
    (head : KeepsPace board clock condition (first memory) (plainFirst memory) state)
    (tail : ∀ memory state,
      KeepsPace board clock condition (rest memory) (plainRest memory) state) :
    KeepsPace board clock condition (first.andThen rest memory)
      ((do plainFirst; plainRest : Program Unit) memory) state := by
  rcases ended : (first memory).run board state with ⟨middle, left, outcome⟩
  rw [Program.bind_apply]
  cases outcome with
  | aborted =>
    obtain ⟨run, drives, sights⟩ := Program.andThen_of_aborted clock rest ended
    obtain ⟨begun, inTime⟩ := head.early (by rw [ended])
    have judged := head.completed_iff
    rw [ended] at judged inTime
    refine ⟨?_, ?_, fun _ => ⟨?_, ?_⟩⟩
    · rw [run, sights]
      exact judged
    · intro completed
      rw [run] at completed
      exact absurd completed nofun
    · rw [drives, Task.drives_bind]
      exact begun.trans (List.prefix_append _ _)
    · rw [run, Task.run_bind]
      exact le_trans inTime (forward.run _ _)
  | completed =>
    obtain ⟨run, drives, sights⟩ := Program.andThen_of_completed clock rest ended
    obtain ⟨drivesFirst, same⟩ := head.alike (by rw [ended])
    have never := head.completed_iff.mp (by rw [ended])
    obtain ⟨rfl, rfl⟩ : middle = ((plainFirst memory).run board state).1 ∧
        left = ((plainFirst memory).run board state).2.1 := by
      rw [ended] at same
      simpa using same
    have rested := tail ((plainFirst memory).run board state).2.1
      ((plainFirst memory).run board state).1
    rw [drivesFirst] at drives
    refine ⟨?_, ?_, ?_⟩
    · rw [run, sights, rested.completed_iff, List.forall_mem_append, and_iff_right never]
    · rw [run, drives, Task.run_bind, Task.drives_bind]
      intro completed
      obtain ⟨drivesRest, sameRest⟩ := rested.alike completed
      exact ⟨by rw [drivesRest], sameRest⟩
    · rw [run, drives, Task.run_bind, Task.drives_bind]
      intro aborted
      obtain ⟨begun, inTime⟩ := rested.early aborted
      exact ⟨(List.prefix_append_right_inj _).mpr begun, inTime⟩

/-- A slice with its look takes as long as the sleep alone. -/
theorem slice (additive : board.Additive) (clock : State → Time) (condition : AbortCondition)
    (ms : Nat) (memory : Memory) (state : State) :
    KeepsPace board clock condition (Program.slice condition ms memory)
      (Program.sleepMs ms memory) state := by
  rw [Program.slice_apply, Program.sleepMs, Program.ask]
  rcases slept : board.answer (.sleep (ms * Timing.usPerMs)) memory.mailbox state with
    ⟨awake, mailbox, answer⟩
  obtain ⟨lines, looked⟩ := additive.look mailbox awake
  cases held : condition mailbox lines with
  | true => constructor <;> simp [slept, looked, held, Request.write?, Request.sight?]
  | false => constructor <;> simp [slept, looked, held, Request.write?, Request.sight?]

/-- Two sleeps one after the other may be one sleep. -/
theorem sleep_add (additive : board.Additive) {abortable : Task Outcome} {firstMs restMs : Nat}
    (paced : KeepsPace board clock condition abortable
      ((do Program.sleepMs firstMs; Program.sleepMs restMs : Program Unit) memory) state) :
    KeepsPace board clock condition abortable (Program.sleepMs (firstMs + restMs) memory)
      state := by
  have whole := additive.sleep (firstMs * Timing.usPerMs) (restMs * Timing.usPerMs)
    (state, memory.mailbox)
  rw [← Nat.add_mul, Prod.ext_iff] at whole
  simp only [Board.sleep] at whole
  have run : (Program.sleepMs (firstMs + restMs) memory).run board state =
      ((do Program.sleepMs firstMs; Program.sleepMs restMs : Program Unit) memory).run board
        state := by
    simp [Program.sleepMs, Program.ask, whole.1, whole.2]
  have drives : (Program.sleepMs (firstMs + restMs) memory).drives board clock state =
      ((do Program.sleepMs firstMs; Program.sleepMs restMs : Program Unit) memory).drives board
        clock state := by
    simp [Program.sleepMs, Program.ask, Request.write?]
  exact ⟨paced.completed_iff, by rw [run, drives]; exact paced.alike,
    by rw [run, drives]; exact paced.early⟩

/-- A delay in slices takes as long as in one piece. -/
theorem sleepSlices (additive : board.Additive) (forward : board.Forward clock)
    (condition : AbortCondition) (lastMs slices : Nat) (memory : Memory) (state : State) :
    KeepsPace board clock condition (Program.sleepSlices condition lastMs slices memory)
      (Program.sleepMs (slices * Timing.abortSliceMs + lastMs) memory) state := by
  induction slices generalizing memory state with
  | zero =>
    rw [Nat.zero_mul, Nat.zero_add]
    exact slice additive clock condition lastMs memory state
  | succ slices inductionHypothesis =>
    have whole : (slices + 1) * Timing.abortSliceMs + lastMs =
        Timing.abortSliceMs + (slices * Timing.abortSliceMs + lastMs) := by
      rw [Nat.succ_mul]
      omega
    rw [whole, Program.sleepSlices_succ]
    apply sleep_add additive
    exact andThen forward (slice additive clock condition _ memory state) inductionHypothesis

/-- The whole slices and what remains after them are the delay, so nothing is slept too much or too
little. -/
theorem sleepAbortable (additive : board.Additive) (forward : board.Forward clock)
    (condition : AbortCondition) (ms : Nat) (memory : Memory) (state : State) :
    KeepsPace board clock condition (Program.sleepAbortable condition ms memory)
      (Program.sleepMs ms memory) state := by
  have whole : (ms - 1) / Timing.abortSliceMs * Timing.abortSliceMs +
      (ms - (ms - 1) / Timing.abortSliceMs * Timing.abortSliceMs) = ms := by
    simp only [Timing.abortSliceMs]
    omega
  have paced := sleepSlices additive forward condition
    (ms - (ms - 1) / Timing.abortSliceMs * Timing.abortSliceMs) ((ms - 1) / Timing.abortSliceMs)
    memory state
  rwa [whole] at paced

/-- A line is driven by both alike. -/
theorem drive {abortable : Program Outcome} {plain : Program Unit} (rail : Rail) (level : Level)
    (paced : ∀ memory state,
      KeepsPace board clock condition (abortable memory) (plain memory) state)
    (memory : Memory) (state : State) :
    KeepsPace board clock condition
      ((do Program.ask (.drive rail level); abortable : Program Outcome) memory)
      ((do Program.ask (.drive rail level); plain : Program Unit) memory) state := by
  rcases driven : board.answer (.drive rail level) memory.mailbox state with ⟨next, mailbox, answer⟩
  obtain ⟨completed_iff, alike, early⟩ := paced { memory with mailbox := mailbox } next
  constructor
  · simpa [Program.ask, driven, Request.sight?] using completed_iff
  · simpa [Program.ask, driven, Request.write?] using alike
  · simpa [Program.ask, driven, Request.write?] using early

/-- What holds of drives and delays holds of a whole table. -/
theorem replayAbortable (additive : board.Additive) (forward : board.Forward clock)
    (condition : AbortCondition) (table : List RailWrite) (memory : Memory) (state : State) :
    KeepsPace board clock condition (Program.replayAbortable condition table memory)
      (Program.replay table memory) state := by
  induction table generalizing memory state with
  | nil =>
    rw [Program.replayAbortable, Program.replay]
    constructor <;> simp
  | cons write rest inductionHypothesis =>
    rw [Program.replayAbortable, Program.replay]
    apply drive
    intro memory state
    by_cases none : write.settleMs = 0
    · simpa [none] using inductionHypothesis memory state
    · rw [if_neg none, if_pos none]
      have delay := sleepAbortable additive forward condition write.settleMs.toNat memory state
      exact delay.andThen forward inductionHypothesis

end KeepsPace

/-- A plain replay drives the whole table, in order. -/
theorem Task.drives_replay (board : Board State) (clock : State → Time) (table : List RailWrite)
    (memory : Memory) (state : State) :
    ((Program.replay table memory).drives board clock state).map Prod.snd =
      table.map RailWrite.output := by
  induction table generalizing memory state with
  | nil => rfl
  | cons write rest inductionHypothesis =>
    rw [Program.replay]
    by_cases none : write.settleMs = 0
    · simp [none, Program.ask, Request.write?, inductionHypothesis, RailWrite.output]
    · simp [none, Program.sleepMs, Program.ask, Request.write?, inductionHypothesis,
        RailWrite.output]

/-- On a board on which sleeping in parts is sleeping the whole, a table that is written with an
abort condition is written as it would be without one. If the condition holds at no look, which is
when the replay completes, the same lines are driven at the same times, and the board and the memory
are left alike, in the same time. If it is aborted, the lines that were driven, and the times of
them, are the first of those, and it ends no later. -/
theorem abortable_keeps_pace [Preorder Time] {board : Board State} {clock : State → Time}
    (additive : board.Additive) (forward : board.Forward clock) (condition : AbortCondition)
    (table : List RailWrite) (memory : Memory) (state : State) :
    let plain := Program.replay table memory
    let abortable := Program.replayAbortable condition table memory
    let plainEnd := plain.run board state
    let abortableEnd := abortable.run board state
    (plain.drives board clock state).map Prod.snd = table.map RailWrite.output ∧
      (abortableEnd.2.2 = .completed ↔
        ∀ sight ∈ abortable.sights board state, condition sight.1 sight.2 = false) ∧
      (abortableEnd.2.2 = .completed →
        abortable.drives board clock state = plain.drives board clock state ∧
          abortableEnd.1 = plainEnd.1 ∧ abortableEnd.2.1 = plainEnd.2.1) ∧
      (abortableEnd.2.2 = .aborted →
        abortable.drives board clock state <+: plain.drives board clock state ∧
          clock abortableEnd.1 ≤ clock plainEnd.1) := by
  intro plain abortable plainEnd abortableEnd
  have paced : KeepsPace board clock condition abortable plain state :=
    .replayAbortable additive forward condition table memory state
  refine ⟨Task.drives_replay board clock table memory state, paced.completed_iff, ?_, paced.early⟩
  intro completed
  obtain ⟨drives, same⟩ := paced.alike completed
  exact ⟨drives, by simp [abortableEnd, same, plainEnd], by simp [abortableEnd, same, plainEnd]⟩

/-- A board that counts the time and the levels, on which the processor wakes at a time. -/
def Board.wakingAt (wakesAt : Nat) : Board (Nat × RailAssignment Level) where
  answer
    | .drive rail level, mailbox, (now, levels) => ((now, levels.set rail level), mailbox, ())
    | .sleep us, mailbox, (now, levels) => ((now + us, levels), mailbox, ())
    | .readLines, mailbox, (now, levels) =>
      ((now, levels), mailbox, if wakesAt ≤ now then .suspendDeasserted else .empty)
    | request, mailbox, state => (state, mailbox, request.darkAnswer)

theorem Board.additive_wakingAt (wakesAt : Nat) : (wakingAt wakesAt).Additive where
  sleep first second point := by simp [sleep, wakingAt, Nat.add_assoc]
  look _ _ := ⟨_, rfl⟩

theorem Board.forward_wakingAt (wakesAt : Nat) : (wakingAt wakesAt).Forward Prod.fst := by
  intro request mailbox state
  cases request with
  | sleep us => exact Nat.le_add_right _ _
  | _ => exact Nat.le_refl _

/-- The suspend of the simplified tree, without a way to stop it. -/
def plainSuspend : Task Unit := Program.replay (EdgeTables.ofRevision .v2).s0s3 {}

/-- The same suspend, which the processor calls off by waking. -/
def abortableSuspend : Task Outcome :=
  Program.replayAbortable (fun _ lines => lines.contains .suspendDeasserted)
    (EdgeTables.ofRevision .v2).s0s3 {}

/-- The processor wakes 7 ms into the suspend. The first two of five lines have been driven when
that is seen, at 11 ms, where the plain suspend takes 43 ms. If the processor wakes later than that,
both take as long. -/
theorem abortable_keeps_pace_wakingPartway :
    abortableSuspend.drives (.wakingAt 7000) Prod.fst (0, .constant .high) =
        [(0, .pp1800S0En, .low), (1000, .apCoreEn, .low)] ∧
      abortableSuspend.drives (.wakingAt 7000) Prod.fst (0, .constant .high) <+:
        plainSuspend.drives (.wakingAt 7000) Prod.fst (0, .constant .high) ∧
      (abortableSuspend.run (.wakingAt 7000) (0, .constant .high)).1.1 = 11000 ∧
      11000 ≤ (plainSuspend.run (.wakingAt 7000) (0, .constant .high)).1.1 ∧
    abortableSuspend.drives (.wakingAt 50000) Prod.fst (0, .constant .high) =
        plainSuspend.drives (.wakingAt 50000) Prod.fst (0, .constant .high) ∧
      (abortableSuspend.run (.wakingAt 50000) (0, .constant .high)).1 =
        (plainSuspend.run (.wakingAt 50000) (0, .constant .high)).1 := by
  obtain ⟨-, -, -, early⟩ := abortable_keeps_pace (Board.additive_wakingAt 7000)
    (Board.forward_wakingAt 7000) (fun _ lines => lines.contains .suspendDeasserted)
    (EdgeTables.ofRevision .v2).s0s3 {} (0, .constant .high)
  obtain ⟨-, -, late, -⟩ := abortable_keeps_pace (Board.additive_wakingAt 50000)
    (Board.forward_wakingAt 50000) (fun _ lines => lines.contains .suspendDeasserted)
    (EdgeTables.ofRevision .v2).s0s3 {} (0, .constant .high)
  obtain ⟨begun, inTime⟩ := early (by decide +kernel)
  obtain ⟨same, left, -⟩ := late (by decide +kernel)
  have ended : (abortableSuspend.run (.wakingAt 7000) (0, .constant .high)).1.1 = 11000 := by
    decide +kernel
  refine ⟨by decide +kernel, begun, ended, ?_, same, left⟩
  rw [← ended]
  exact inTime

end RailSequencer
