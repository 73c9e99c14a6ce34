import RailSequencer.Proofs.Cancelling

/-!
# Calls of a timer that is polled in time

The task of a timer that is polled after every command and at every deadline makes the calls that
were asked for, each at its time, and no others. `due` reads those times off the commands alone:
the end of each delay that no further command comes before. `calls` reads them off the polls. That
both give the same list, with one entry for each call, is `calls_exact`.

A deadline stands as long as no command comes before it, and that is the invariant: what is still
to be called is the deadline, if it stands, and what the commands ahead ask for.
-/

namespace RailSequencer.OneShot

namespace Act

theorem command?_of_delay? {act : Act} {delayUs : Nat} (schedules : act.delay? = some delayUs) :
    act.command? = some (.schedule delayUs) := by
  cases act with
  | schedule delay => exact congrArg (Option.map Command.schedule) schedules
  | defer delayMs =>
    cases delayMs with
    | ofNat delay => exact congrArg (Option.map Command.schedule) schedules
    | negSucc => exact absurd schedules nofun
  | cancel | poll => exact absurd schedules nofun

/-- A command that schedules nothing cancels. -/
theorem command?_of_delay?_none {act : Act} (client : act ≠ .poll)
    (unscheduled : act.delay? = none) : act.command? = some .cancel := by
  cases act with
  | cancel => rfl
  | defer delayMs =>
    cases delayMs with
    | ofNat => exact absurd unscheduled nofun
    | negSucc => rfl
  | schedule => exact absurd unscheduled nofun
  | poll => exact absurd rfl client

end Act

/-- The commands among some acts. -/
def commands (uses : List Use) : List Use := uses.filter fun done => done.act ≠ .poll

/-- The times at which a timer calls while it is used, once for each call. -/
def calls (timer : OneShot) : List Use → List Nat
  | [] => []
  | next :: rest =>
    (if next.act = .poll then List.replicate (timer.poll next.time).2 next.time else []) ++
      (timer.use next).calls rest

/-- A deadline stands if none of the commands ahead comes before it. -/
def standing (deadline : Option Nat) (ahead : List Use) : List Nat :=
  (deadline.filter fun time => ahead.all fun later => time ≤ later.time).toList

/-- The times for which commands ask for a call: the end of each delay, if it stands. A command at
that very time comes too late to prevent the call. -/
def due : List Use → List Nat
  | [] => []
  | command :: ahead => standing (command.act.delay?.map (command.time + ·)) ahead ++ due ahead

/-- The task of the timer is polled right after every command, and nothing is done later than at a
deadline until it is polled there; in the end nothing is left to wait for. It may be polled at any
other time as well. -/
inductive Prompt : OneShot → List Use → Prop where
  | settled : Prompt {} []
  | poll {timer : OneShot} {time : Nat} {rest : List Use}
      (inTime : ∀ deadline ∈ timer.deadline, time ≤ deadline)
      (later : Prompt (timer.poll time).1 rest) :
      Prompt timer (⟨time, .poll⟩ :: rest)
  | command {timer : OneShot} {command : Use} {rest : List Use} (client : command.act ≠ .poll)
      (inTime : ∀ deadline ∈ timer.deadline, command.time ≤ deadline)
      (later : Prompt ((timer.use command).poll command.time).1 rest) :
      Prompt timer (command :: ⟨command.time, .poll⟩ :: rest)

variable {timer : OneShot} {uses ahead asked : List Use} {deadline time : Nat} {command : Use}

/-- The acts come in the order of their times. -/
def Ordered (uses : List Use) : Prop := (uses.map Use.time).Pairwise (· ≤ ·)

instance (uses : List Use) : Decidable (Ordered uses) :=
  inferInstanceAs (Decidable (List.Pairwise _ _))

theorem ordered_cons {next : Use} {rest : List Use} :
    Ordered (next :: rest) ↔ (∀ later ∈ rest, next.time ≤ later.time) ∧ Ordered rest := by
  simp [Ordered]

@[simp]
theorem commands_poll (time : Nat) (rest : List Use) :
    commands (⟨time, .poll⟩ :: rest) = commands rest := by
  simp [commands]

theorem commands_client (client : command.act ≠ .poll) (rest : List Use) :
    commands (command :: rest) = command :: commands rest := by
  simp [commands, client]

/-- Commands come in the order of all acts. -/
theorem le_of_mem_commands {rest : List Use} (order : ∀ later ∈ rest, time ≤ later.time) :
    ∀ later ∈ commands rest, time ≤ later.time :=
  fun later member => order later (List.mem_filter.mp member).1

theorem standing_of_le (order : ∀ later ∈ ahead, deadline ≤ later.time) :
    standing (some deadline) ahead = [deadline] := by
  have stands : ahead.all (fun later => deadline ≤ later.time) = true := by simpa using order
  simp [standing, stands]

theorem standing_of_lt (early : command.time < deadline) (ahead : List Use) :
    standing (some deadline) (command :: ahead) = [] := by
  simp [standing, Nat.not_le.mpr early]

/-- What a poll in time finds due is the deadline that stands. -/
theorem replicate_due {before : Option Nat} (inTime : ∀ deadline ∈ before, time ≤ deadline)
    (order : ∀ later ∈ ahead, time ≤ later.time) :
    List.replicate (before.any (· ≤ time)).toNat time ++
        standing (if before.any (· ≤ time) then none else before) ahead =
      standing before ahead := by
  cases before with
  | none => rfl
  | some deadline =>
    have notPast := inTime deadline rfl
    by_cases reached : deadline ≤ time
    · obtain rfl : deadline = time := Nat.le_antisymm reached notPast
      rw [standing_of_le order]
      simp [standing]
    · simp [reached]

/-- A command at the time of the deadline lets it stand, and an earlier one does not. -/
theorem replicate_due_command {before : Option Nat}
    (inTime : ∀ deadline ∈ before, command.time ≤ deadline)
    (order : ∀ later ∈ ahead, command.time ≤ later.time) :
    List.replicate (before.any (· ≤ command.time)).toNat command.time =
      standing before (command :: ahead) := by
  cases before with
  | none => rfl
  | some deadline =>
    have notPast := inTime deadline rfl
    by_cases reached : deadline ≤ command.time
    · obtain rfl : deadline = command.time := Nat.le_antisymm reached notPast
      rw [standing_of_le (List.forall_mem_cons.mpr ⟨Nat.le_refl _, order⟩)]
      simp
    · rw [standing_of_lt (Nat.lt_of_not_le reached)]
      simp [reached]

/-- A poll leaves no command in the slot. -/
theorem command_poll (timer : OneShot) (now : Nat) : (timer.poll now).1.command = none := rfl

/-- A poll that finds no command makes the call that stands, or leaves it ahead. -/
theorem calls_poll {before : Option Nat} (inTime : ∀ deadline ∈ before, time ≤ deadline)
    (order : ∀ later ∈ ahead, time ≤ later.time) :
    List.replicate ((⟨none, before⟩ : OneShot).poll time).2 time ++
        standing ((⟨none, before⟩ : OneShot).poll time).1.deadline ahead =
      standing before ahead := by
  rw [poll_none, ← replicate_due inTime order]
  split
  next reached => simp [reached]
  next notYet => simp [notYet]

/-- A poll right after a command makes the call that stands, and what the command asks for is done
at once or left ahead. -/
theorem calls_command {before : Option Nat} (client : command.act ≠ .poll)
    (inTime : ∀ deadline ∈ before, command.time ≤ deadline)
    (order : ∀ later ∈ ahead, command.time ≤ later.time) :
    List.replicate ((⟨command.act.command?, before⟩ : OneShot).poll command.time).2 command.time ++
        standing ((⟨command.act.command?, before⟩ : OneShot).poll command.time).1.deadline ahead =
      standing before (command :: ahead) ++
        standing (command.act.delay?.map (command.time + ·)) ahead := by
  rw [← replicate_due_command inTime order]
  cases schedules : command.act.delay? with
  | none =>
    rw [Act.command?_of_delay?_none client schedules, poll_cancel]
    rfl
  | some delayUs =>
    rw [Act.command?_of_delay? schedules, poll_schedule]
    by_cases zero : delayUs = 0
    · subst zero
      have atOnce : standing (some (command.time + 0)) ahead = [command.time] :=
        standing_of_le order
      rw [if_pos rfl, Option.map_some, atOnce, ← List.replicate_succ']
      exact List.append_nil _
    · rw [if_neg zero]
      rfl

/-- What is called is the deadline that stands and what the commands ahead ask for. -/
theorem calls_of_prompt (prompt : Prompt timer uses) (empty : timer.command = none)
    (order : Ordered uses) :
    timer.calls uses = standing timer.deadline (commands uses) ++ due (commands uses) := by
  induction prompt with
  | settled => rfl
  | @poll timer time rest inTime later inductionHypothesis =>
    obtain ⟨slot, before⟩ := timer
    obtain rfl : slot = none := empty
    obtain ⟨after, order⟩ := ordered_cons.mp order
    have rest_eq := inductionHypothesis (command_poll _ time) order
    rw [commands_poll, ← calls_poll inTime (le_of_mem_commands after), List.append_assoc, ← rest_eq]
    rfl
  | @command timer command rest client inTime later inductionHypothesis =>
    obtain ⟨slot, before⟩ := timer
    obtain rfl : slot = none := empty
    obtain ⟨after, order⟩ := ordered_cons.mp order
    obtain ⟨afterPoll, order⟩ := ordered_cons.mp order
    have rest_eq := inductionHypothesis (command_poll _ command.time) order
    rw [use_of_ne_poll client] at rest_eq
    rw [commands_client client, commands_poll, due, ← List.append_assoc,
      ← calls_command client inTime (le_of_mem_commands afterPoll), List.append_assoc, ← rest_eq]
    simp only [calls, if_neg client, List.nil_append]
    rw [use_of_ne_poll client]
    rfl

/-- A poll leaves no deadline behind. -/
theorem le_deadline_of_poll (timer : OneShot) (now : Nat) :
    ∀ deadline ∈ (timer.poll now).1.deadline, now ≤ deadline := by
  intro deadline armed
  obtain ⟨command, before⟩ := timer
  rcases armed_of_poll armed with ⟨delayUs, -, rfl⟩ | ⟨empty, same⟩
  · exact Nat.le_add_right now delayUs
  · obtain rfl : command = none := empty
    obtain rfl : before = some deadline := same
    rw [poll_none] at armed
    split at armed
    next => exact absurd armed nofun
    next ahead => exact Nat.le_of_not_le (by simpa using ahead)

/-- A poll at the deadline makes the call and leaves nothing. -/
theorem poll_deadline (deadline : Nat) :
    ((⟨none, some deadline⟩ : OneShot).poll deadline).1 = {} := by
  simp [poll_none]

/-- A task that is not behind can be polled in time, whatever is asked for. -/
theorem exists_prompt (clients : ∀ command ∈ asked, command.act ≠ .poll) (order : Ordered asked)
    (empty : timer.command = none) (ahead : ∀ deadline ∈ timer.deadline, time ≤ deadline)
    (after : ∀ command ∈ asked, time ≤ command.time) :
    ∃ uses, commands uses = asked ∧ Ordered uses ∧ (∀ done ∈ uses, time ≤ done.time) ∧
      Prompt timer uses := by
  induction asked generalizing timer time with
  | nil =>
    obtain ⟨slot, before⟩ := timer
    obtain rfl : slot = none := empty
    cases before with
    | none => exact ⟨[], rfl, by decide, fun _ member => absurd member List.not_mem_nil, .settled⟩
    | some deadline =>
      refine ⟨[⟨deadline, .poll⟩], commands_poll _ _, List.pairwise_singleton _ _, ?_, ?_⟩
      · exact List.forall_mem_singleton.mpr (ahead deadline rfl)
      · exact .poll (by simp) (poll_deadline deadline ▸ .settled)
  | cons command rest inductionHypothesis =>
    obtain ⟨client, clients⟩ := List.forall_mem_cons.mp clients
    obtain ⟨following, order⟩ := ordered_cons.mp order
    obtain ⟨notPast, after⟩ := List.forall_mem_cons.mp after
    -- The command, the poll right after it, and what is done from there.
    have inOrder (timer : OneShot) (inTime : ∀ deadline ∈ timer.deadline, command.time ≤ deadline) :
        ∃ uses, commands uses = command :: rest ∧ Ordered uses ∧
          (∀ done ∈ uses, command.time ≤ done.time) ∧ Prompt timer uses := by
      obtain ⟨uses, rfl, ordered, later, prompt⟩ :=
        inductionHypothesis clients order (command_poll (timer.use command) command.time)
          (le_deadline_of_poll _ _) following
      have polled : ∀ done ∈ (⟨command.time, .poll⟩ :: uses : List Use), command.time ≤ done.time :=
        List.forall_mem_cons.mpr ⟨Nat.le_refl _, later⟩
      refine ⟨command :: ⟨command.time, .poll⟩ :: uses, ?_, ?_, ?_, .command client inTime prompt⟩
      · rw [commands_client client, commands_poll]
      · exact ordered_cons.mpr ⟨polled, ordered_cons.mpr ⟨later, ordered⟩⟩
      · exact List.forall_mem_cons.mpr ⟨Nat.le_refl _, polled⟩
    obtain ⟨slot, before⟩ := timer
    obtain rfl : slot = none := empty
    by_cases inTime : ∀ deadline ∈ before, command.time ≤ deadline
    · obtain ⟨uses, asked, ordered, later, prompt⟩ := inOrder ⟨none, before⟩ inTime
      exact ⟨uses, asked, ordered, fun done member =>
        Nat.le_trans notPast (later done member), prompt⟩
    · -- The deadline comes first, and is polled there.
      simp only [not_forall, Nat.not_le] at inTime
      obtain ⟨deadline, rfl, early⟩ := inTime
      obtain ⟨uses, asked, ordered, later, prompt⟩ := inOrder {} (by simp)
      have past : ∀ done ∈ uses, deadline ≤ done.time := fun done member =>
        Nat.le_trans (Nat.le_of_lt early) (later done member)
      have begun : time ≤ deadline := ahead deadline rfl
      refine ⟨⟨deadline, .poll⟩ :: uses, ?_, ordered_cons.mpr ⟨past, ordered⟩, ?_, ?_⟩
      · rw [commands_poll, asked]
      · exact List.forall_mem_cons.mpr ⟨begun, fun done member =>
          Nat.le_trans begun (past done member)⟩
      · exact .poll (by simp) (poll_deadline deadline ▸ prompt)

/-- Commands at times that do not go back are answered exactly: whoever polls the task of a new
timer right after each of them and at every deadline sees one call for each schedule, at its time
plus its delay, unless another command comes before that time, and no other call. However the
commands come, the task can be polled so. -/
theorem calls_exact (clients : ∀ command ∈ asked, command.act ≠ .poll) (order : Ordered asked) :
    (∀ uses, commands uses = asked → Ordered uses → Prompt {} uses → calls {} uses = due asked) ∧
      ∃ uses, commands uses = asked ∧ Ordered uses ∧ Prompt {} uses := by
  constructor
  · rintro uses rfl ordered prompt
    exact calls_of_prompt prompt rfl ordered
  · have empty : ({} : OneShot).command = none := rfl
    obtain ⟨uses, same, ordered, -, prompt⟩ := exists_prompt clients order empty (by simp)
      fun command _ => Nat.zero_le command.time
    exact ⟨uses, same, ordered, prompt⟩

/-- A delay of 30 ms is followed by one of zero at the very time of its call, a cancel comes while
the timer is idle, and the last delay is moved before it is over. -/
theorem calls_exact_atTheDeadline :
    let asked : List Use := [⟨0, .schedule 30000⟩, ⟨30000, .defer 0⟩, ⟨31000, .cancel⟩,
      ⟨40000, .schedule 5000⟩, ⟨44000, .defer 20⟩]
    Ordered asked ∧ (∀ command ∈ asked, command.act ≠ .poll) ∧
      ∃ uses, commands uses = asked ∧ calls {} uses = [30000, 30000, 64000] := by
  intro asked
  have clients : ∀ command ∈ asked, command.act ≠ .poll := by decide
  have order : Ordered asked := by decide
  obtain ⟨exact, uses, same, ordered, prompt⟩ := calls_exact clients order
  exact ⟨order, clients, uses, same, (exact uses same ordered prompt).trans (by decide)⟩

end RailSequencer.OneShot
