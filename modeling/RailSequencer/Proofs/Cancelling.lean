import Mathlib.Data.List.Induction
import RailSequencer.OneShot.Trial

/-!
# Calls after a cancel

A timer is used by clients, who fill its slot, and polled by its own task, which may come late. A
poll looks at the deadline before it takes the command, so a cancel counts from the first poll that
finds the deadline ahead. `call_after_cancel` says what is left of it otherwise: the call that was
cancelled is made once, by a first poll that comes at the deadline or later, and by no other. Every
other call was asked for after the cancel, by a schedule that has run out.

When the task of a timer is polled is not described here.
-/

namespace RailSequencer.OneShot

/-- What can be done to a timer. -/
inductive Act where
  | schedule (delayUs : Nat)
  | cancel
  | defer (delayMs : Int)
  /-- The timer's own task is polled. -/
  | poll
deriving DecidableEq, Repr

namespace Act

/-- The delay of an act that schedules a call. -/
def delay? : Act → Option Nat
  | .schedule delayUs => some delayUs
  | .defer (.ofNat delayMs) => some (delayMs * 1000)
  | .defer (.negSucc _) | .cancel | .poll => none

/-- Acts that cancel: a negative delay does. -/
def Cancels : Act → Prop
  | .cancel => True
  | .defer delayMs => delayMs < 0
  | .schedule _ | .poll => False

/-- The command that an act leaves in the slot. -/
def command? : Act → Option Command
  | .schedule delayUs => some (.schedule delayUs)
  | .cancel | .defer (.negSucc _) => some .cancel
  | .defer (.ofNat delayMs) => some (.schedule (delayMs * 1000))
  | .poll => none

theorem command?_of_cancels {act : Act} (cancels : act.Cancels) : act.command? = some .cancel := by
  cases act with
  | cancel => rfl
  | defer delayMs =>
    cases delayMs with
    | ofNat delay => exact absurd cancels (Int.not_lt.mpr (Int.natCast_nonneg delay))
    | negSucc delay => rfl
  | schedule | poll => exact absurd cancels id

theorem ne_poll_of_cancels {act : Act} (cancels : act.Cancels) : act ≠ .poll := by
  rintro rfl
  exact cancels

theorem delay?_of_command? {act : Act} {delayUs : Nat}
    (schedules : act.command? = some (.schedule delayUs)) : act.delay? = some delayUs := by
  cases act with
  | schedule delay =>
    obtain ⟨⟩ := schedules
    rfl
  | defer delayMs =>
    cases delayMs with
    | ofNat delay =>
      obtain ⟨⟩ := schedules
      rfl
    | negSucc => exact absurd schedules nofun
  | cancel | poll => exact absurd schedules nofun

end Act

/-- An act at a time. -/
structure Use where
  time : Nat
  act : Act
deriving DecidableEq, Repr

/-- The timer after one act. -/
def use (timer : OneShot) (next : Use) : OneShot :=
  match next.act with
  | .schedule delayUs => timer.schedule delayUs
  | .cancel => timer.cancel
  | .defer delayMs => timer.defer delayMs
  | .poll => (timer.poll next.time).1

/-- The timer after acts, the first one first. -/
def used (timer : OneShot) (uses : List Use) : OneShot := uses.foldl use timer

variable {timer : OneShot} {uses : List Use} {deadline time : Nat}

theorem used_concat (timer : OneShot) (uses : List Use) (last : Use) :
    timer.used (uses ++ [last]) = (timer.used uses).use last :=
  List.foldl_append

theorem isDue_iff {now : Nat} :
    timer.isDue now = true ↔ ∃ deadline, timer.deadline = some deadline ∧ deadline ≤ now := by
  simp [isDue, Option.any_eq_true]

/-- Whoever does not poll only fills the slot. -/
theorem use_of_ne_poll {next : Use} (client : next.act ≠ .poll) :
    timer.use next = { timer with command := next.act.command? } := by
  obtain ⟨time, act⟩ := next
  cases act with
  | defer delayMs => cases delayMs <;> rfl
  | schedule | cancel => rfl
  | poll => exact absurd rfl client

/-- A poll that finds no command makes the call that is due. -/
theorem poll_none (before : Option Nat) (now : Nat) :
    (⟨none, before⟩ : OneShot).poll now =
      if before.any (· ≤ now) then ({}, 1) else (⟨none, before⟩, 0) := by
  cases due : before.any (· ≤ now) with
  | true => simp [poll, turn, isDue, due]
  | false => simp [poll, turn, isDue, due]

/-- A cancel does not keep a poll from making a call that is due. -/
theorem poll_cancel (before : Option Nat) (now : Nat) :
    (⟨some .cancel, before⟩ : OneShot).poll now = ({}, (before.any (· ≤ now)).toNat) := by
  simp [poll, turn, isDue]

/-- A delay counts from the poll that finds it, and one of zero is over at once. -/
theorem poll_schedule (before : Option Nat) (now delayUs : Nat) :
    (⟨some (.schedule delayUs), before⟩ : OneShot).poll now =
      if delayUs = 0 then ({}, (before.any (· ≤ now)).toNat + 1)
      else (⟨none, some (now + delayUs)⟩, (before.any (· ≤ now)).toNat) := by
  by_cases zero : delayUs = 0
  · simp [poll, turn, isDue, zero]
  · have ahead : ¬now + delayUs ≤ now := by omega
    simp [poll, turn, isDue, zero, ahead]

/-- A poll calls when the deadline has been reached, and when it finds a delay of zero. -/
theorem poll_calls_iff (timer : OneShot) (now : Nat) :
    0 < (timer.poll now).2 ↔ timer.isDue now = true ∨ timer.command = some (.schedule 0) := by
  obtain ⟨command, before⟩ := timer
  cases command with
  | none =>
    rw [poll_none]
    cases due : before.any (· ≤ now) <;> simp [isDue, due]
  | some command =>
    cases command with
    | cancel =>
      rw [poll_cancel]
      cases due : before.any (· ≤ now) <;> simp [isDue, due]
    | schedule delayUs =>
      rw [poll_schedule]
      cases due : before.any (· ≤ now) <;> by_cases zero : delayUs = 0 <;>
        simp [isDue, due, zero]

/-- A poll takes the command, and leaves the timer armed by it, or without one as it was. -/
theorem armed_of_poll {now : Nat} (armed : (timer.poll now).1.deadline = some deadline) :
    (∃ delayUs, timer.command = some (.schedule delayUs) ∧ deadline = now + delayUs) ∨
      timer.command = none ∧ timer.deadline = some deadline := by
  obtain ⟨command, before⟩ := timer
  cases command with
  | none =>
    rw [poll_none] at armed
    split at armed
    · exact absurd armed nofun
    · exact .inr ⟨rfl, armed⟩
  | some command =>
    cases command with
    | cancel =>
      rw [poll_cancel] at armed
      exact absurd armed nofun
    | schedule delayUs =>
      rw [poll_schedule] at armed
      split at armed
      · exact absurd armed nofun
      · exact .inl ⟨delayUs, rfl, (Option.some.inj armed).symm⟩

/-- One of these acts schedules a call, and its delay is over. -/
def RunsOut (uses : List Use) (time : Nat) : Prop :=
  ∃ asked ∈ uses, ∃ delayUs, asked.act.delay? = some delayUs ∧ asked.time + delayUs ≤ time

/-- The task of the timer was not polled. -/
def Unpolled (uses : List Use) : Prop := ∀ done ∈ uses, done.act ≠ .poll

theorem RunsOut.concat (runsOut : RunsOut uses time) (last : Use) :
    RunsOut (uses ++ [last]) time := by
  obtain ⟨asked, member, delay⟩ := runsOut
  exact ⟨asked, List.mem_append_left _ member, delay⟩

theorem RunsOut.later {later : Nat} (runsOut : RunsOut uses time) (order : time ≤ later) :
    RunsOut uses later := by
  obtain ⟨asked, member, delayUs, delays, past⟩ := runsOut
  exact ⟨asked, member, delayUs, delays, Nat.le_trans past order⟩

/-- The deadline is moved by polls alone. -/
theorem deadline_used (unpolled : Unpolled uses) :
    (timer.used uses).deadline = timer.deadline := by
  induction uses generalizing timer with
  | nil => rfl
  | cons next rest inductionHypothesis =>
    obtain ⟨client, later⟩ := List.forall_mem_cons.mp unpolled
    rw [used, List.foldl_cons]
    refine (inductionHypothesis later).trans ?_
    rw [use_of_ne_poll client]

/-- What holds of a timer that was armed for `old` when it was cancelled, after further acts. What
it holds has been asked for since, except for the old deadline as long as nobody has looked. -/
structure Cancelled (old : Nat) (uses : List Use) (timer : OneShot) : Prop where
  command : ∀ delayUs, timer.command = some (.schedule delayUs) →
    ∃ asked ∈ uses, asked.act.delay? = some delayUs
  deadline : ∀ deadline, timer.deadline = some deadline →
    RunsOut uses deadline ∨ Unpolled uses ∧ deadline = old
  unpolled : Unpolled uses → timer.command.isSome = true

namespace Cancelled

variable {old : Nat} {last : Use}

/-- A client leaves a command in the slot. -/
theorem client (cancelled : Cancelled old uses timer) (client : last.act ≠ .poll) :
    Cancelled old (uses ++ [last]) (timer.use last) := by
  rw [use_of_ne_poll client]
  refine ⟨?_, ?_, ?_⟩
  · intro delayUs schedules
    exact ⟨last, List.mem_concat_self, Act.delay?_of_command? schedules⟩
  · intro deadline armed
    rcases cancelled.deadline deadline armed with runsOut | ⟨unpolled, same⟩
    · exact .inl (runsOut.concat last)
    · refine .inr ⟨?_, same⟩
      exact List.forall_mem_append.mpr ⟨unpolled, List.forall_mem_singleton.mpr client⟩
  · intro _
    obtain ⟨time, act⟩ := last
    cases act with
    | defer delayMs => cases delayMs <;> rfl
    | schedule | cancel => rfl
    | poll => exact absurd rfl client

/-- What a schedule has left in the slot runs out its delay after a poll, or later. -/
theorem runsOut_of_command (cancelled : Cancelled old uses timer)
    (order : ∀ done ∈ uses, done.time ≤ time) {delayUs : Nat}
    (schedules : timer.command = some (.schedule delayUs)) : RunsOut uses (time + delayUs) := by
  obtain ⟨asked, member, delays⟩ := cancelled.command delayUs schedules
  exact ⟨asked, member, delayUs, delays, Nat.add_le_add_right (order asked member) delayUs⟩

/-- A poll leaves nothing but what has been asked for since the cancel. -/
theorem poll (cancelled : Cancelled old uses timer) (order : ∀ done ∈ uses, done.time ≤ time) :
    Cancelled old (uses ++ [⟨time, .poll⟩]) (timer.poll time).1 := by
  refine ⟨fun _ schedules => absurd schedules nofun, ?_, ?_⟩
  · intro deadline armed
    left
    rcases armed_of_poll armed with ⟨delayUs, schedules, rfl⟩ | ⟨empty, same⟩
    · exact (cancelled.runsOut_of_command order schedules).concat _
    · rcases cancelled.deadline deadline same with runsOut | ⟨unpolled, -⟩
      · exact runsOut.concat _
      · -- As long as nobody has looked, the slot is not empty.
        have full := cancelled.unpolled unpolled
        rw [empty] at full
        exact absurd full Bool.false_ne_true
  · intro unpolled
    exact absurd rfl (unpolled ⟨time, .poll⟩ List.mem_concat_self)

/-- A cancel, and any acts after it. -/
theorem of_used {cancel : Use} (armed : timer.deadline = some old) (cancels : cancel.act.Cancels)
    (order : (uses.map Use.time).Pairwise (· ≤ ·)) :
    Cancelled old uses ((timer.use cancel).used uses) := by
  induction uses using List.reverseRecOn with
  | nil =>
    have client : cancel.act ≠ .poll := Act.ne_poll_of_cancels cancels
    rw [used, List.foldl_nil, use_of_ne_poll client, Act.command?_of_cancels cancels]
    refine ⟨fun _ schedules => absurd schedules nofun, ?_, fun _ => rfl⟩
    intro deadline same
    exact .inr ⟨fun _ member => absurd member List.not_mem_nil,
      Option.some.inj (same.symm.trans armed)⟩
  | append_singleton uses last inductionHypothesis =>
    rw [List.map_append, List.pairwise_append] at order
    have cancelled := inductionHypothesis order.1
    rw [used_concat]
    by_cases polls : last.act = .poll
    · obtain ⟨time, act⟩ := last
      obtain rfl : act = .poll := polls
      apply cancelled.poll
      intro done member
      exact order.2.2 done.time (List.mem_map_of_mem member) time List.mem_cons_self
    · exact cancelled.client polls

end Cancelled

/-- A timer that is armed is cancelled, and used any further at times that do not go back. A poll
calls only for a schedule that came after the cancel and has run out; except that the first poll
after the cancel makes the cancelled call when it comes at the deadline or later, and then it always
does. -/
theorem call_after_cancel {cancel : Use} (armed : timer.deadline = some deadline)
    (cancels : cancel.act.Cancels)
    (order : (uses.map Use.time ++ [time]).Pairwise (· ≤ ·)) :
    let left := (timer.use cancel).used uses
    (0 < (left.poll time).2 → RunsOut uses time ∨ Unpolled uses ∧ deadline ≤ time) ∧
      (Unpolled uses → deadline ≤ time → 0 < (left.poll time).2) := by
  intro left
  rw [List.pairwise_append] at order
  have cancelled : Cancelled deadline uses left := .of_used armed cancels order.1
  have before : ∀ done ∈ uses, done.time ≤ time := fun done member =>
    order.2.2 done.time (List.mem_map_of_mem member) time List.mem_cons_self
  constructor
  · intro calls
    rcases (poll_calls_iff left time).mp calls with due | schedules
    · obtain ⟨reached, held, past⟩ := isDue_iff.mp due
      rcases cancelled.deadline reached held with runsOut | ⟨unpolled, rfl⟩
      · exact .inl (runsOut.later past)
      · exact .inr ⟨unpolled, past⟩
    · exact .inl (cancelled.runsOut_of_command before schedules)
  · intro unpolled past
    have client : cancel.act ≠ .poll := Act.ne_poll_of_cancels cancels
    have kept : left.deadline = some deadline := by
      rw [deadline_used unpolled, use_of_ne_poll client]
      exact armed
    exact (poll_calls_iff left time).mpr (.inl (isDue_iff.mpr ⟨deadline, kept, past⟩))

/-- A timer that is armed for 30 ms. -/
def armedFor30ms : OneShot := ({} : OneShot).used [⟨0, .schedule 30000⟩, ⟨0, .poll⟩]

/-- It is cancelled by a negative delay, polled in time, and scheduled once more: that call is
made. -/
theorem call_after_cancel_scheduledAgain :
    let uses : List Use := [⟨20000, .poll⟩, ⟨40000, .schedule 5000⟩, ⟨41000, .poll⟩]
    armedFor30ms.deadline = some 30000 ∧
      0 < (((armedFor30ms.use ⟨10000, .defer (-1)⟩).used uses).poll 46000).2 ∧
      RunsOut uses 46000 := by
  intro uses
  have armed : armedFor30ms.deadline = some 30000 := by decide
  have calls : 0 < (((armedFor30ms.use ⟨10000, .defer (-1)⟩).used uses).poll 46000).2 := by decide
  have cancels : (Act.defer (-1)).Cancels := Int.negSucc_lt_zero 0
  have either := (call_after_cancel armed cancels (by decide)).1 calls
  have polled : ¬Unpolled uses := fun unpolled => unpolled ⟨20000, .poll⟩ List.mem_cons_self rfl
  exact ⟨armed, calls, either.resolve_right fun late => polled late.1⟩

/-- It is cancelled 20 ms before its deadline, nothing is scheduled after that, and it calls all the
same, because its task is not polled before the deadline. -/
theorem call_after_cancel_polledLate :
    armedFor30ms.deadline = some 30000 ∧
      ((armedFor30ms.use ⟨10000, .cancel⟩).poll 30000).2 = 1 ∧ ¬RunsOut [] 30000 ∧
      ([.schedule 30, .poll, .jump 10, .cancel, .jump 20, .poll].foldl Trial.carryOut
        {}).lastFired = some 30000 := by
  refine ⟨by decide, by decide, ?_, by decide⟩
  rintro ⟨asked, member, -⟩
  exact absurd member List.not_mem_nil

end RailSequencer.OneShot
