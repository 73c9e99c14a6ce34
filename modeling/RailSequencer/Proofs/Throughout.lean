import RailSequencer.Sequencer
import RailSequencer.Proofs.Exchange

/-!
# What holds throughout a turn

What a step leaves behind says nothing of the middle of it, which is where other tasks call. The
power task changes its memory in few ways, which `Memory.Works` lists, so a relation between an
earlier and a later memory that is `Respected` by each of them, and by calls, holds between any two
points of a turn.

The one exception is the clean flag with which the step out of G3 begins: `Memory.stepStart` is the
memory from which a step counts.
-/

namespace RailSequencer

/-- The steps that take or release the hold of the reset line. -/
def PowerState.turnsHold : PowerState → Bool
  | .s5s3 | .s3s0 => true
  | _ => false

namespace Memory

/-- A shutdown request, if there is one, has become the flag that acts on it. -/
def takeShutdown (memory : Memory) : Memory :=
  { memory with
    forcingShutdown := memory.forcingShutdown || memory.mailbox.shutdownRequested
    mailbox := { memory.mailbox with shutdownRequested := false } }

/-- A reset request, if there was one, has been taken. -/
def takeReset (memory : Memory) : Memory :=
  { memory with mailbox := { memory.mailbox with resetRequested := none } }

/-- A power-on request, if there was one, is no longer there. -/
def dropPowerOn (memory : Memory) : Memory :=
  { memory with mailbox := { memory.mailbox with powerOnRequested := false } }

/-- What a step has in memory when it has begun. -/
def stepStart (memory : Memory) : PowerState → Memory
  | .g3s5 => { memory.takeShutdown with forcingShutdown := false }
  | _ => memory.takeShutdown

theorem mailbox_stepStart (memory : Memory) (state : PowerState) :
    (memory.stepStart state).mailbox = { memory.mailbox with shutdownRequested := false } := by
  cases state <;> rfl

/-- What the power task does to its memory between two requests. Only where it is `holding` may it
change the flag of the held reset line, and only where it is `judging` may it say whether the charger
has refused a power-up. -/
inductive Works (holding judging : Bool) : Memory → Memory → Prop where
  | refl (memory : Memory) : Works holding judging memory memory
  | trans {first middle last : Memory} (earlier : Works holding judging first middle)
      (later : Works holding judging middle last) : Works holding judging first last
  | takeShutdown (memory : Memory) : Works holding judging memory memory.takeShutdown
  | takeReset (memory : Memory) : Works holding judging memory memory.takeReset
  | dropPowerOn (memory : Memory) : Works holding judging memory memory.dropPowerOn
  | force (memory : Memory) : Works holding judging memory { memory with forcingShutdown := true }
  | hold (may : holding = true) (memory : Memory) (held : Bool) :
      Works holding judging memory { memory with resetHeld := held }
  | inhibit (may : judging = true) (memory : Memory) (refused : Bool) : Works holding judging memory
      { memory with mailbox := { memory.mailbox with inhibited := refused } }
  | cancelTimer (memory : Memory) :
      Works holding judging memory { memory with mailbox := memory.mailbox.cancelTimer }

variable {holding judging : Bool}

/-- Who does not judge may as well be where one may. -/
theorem Works.weaken {earlier later : Memory} (works : Works holding false earlier later) :
    Works holding judging earlier later := by
  induction works with
  | refl memory => exact .refl memory
  | trans _ _ first second => exact first.trans second
  | takeShutdown memory => exact .takeShutdown memory
  | takeReset memory => exact .takeReset memory
  | dropPowerOn memory => exact .dropPowerOn memory
  | force memory => exact .force memory
  | hold may memory held => exact .hold may memory held
  | inhibit may => exact absurd may Bool.false_ne_true
  | cancelTimer memory => exact .cancelTimer memory

/-- The power task asks nobody for power-on. -/
theorem Works.powerOnRequested {earlier later : Memory} (works : Works holding judging earlier later)
    (pending : later.mailbox.powerOnRequested = true) :
    earlier.mailbox.powerOnRequested = true := by
  induction works with
  | trans _ _ first second => exact first (second pending)
  | dropPowerOn => exact absurd pending Bool.false_ne_true
  | refl | takeShutdown | takeReset | force | hold | inhibit | cancelTimer => exact pending

/-- Nor does it ask anybody for a reset. -/
theorem Works.resetRequested {earlier later : Memory} (works : Works holding judging earlier later)
    (quiet : earlier.mailbox.resetRequested = none) : later.mailbox.resetRequested = none := by
  induction works with
  | trans _ _ first second => exact second (first quiet)
  | takeReset => rfl
  | refl | takeShutdown | dropPowerOn | force | hold | inhibit | cancelTimer => exact quiet

end Memory

/-- A relation between an earlier and a later memory that nothing in a turn breaks, as far as the
turn may change the flag of the held reset line and judge the charger. -/
structure Respected (holding judging : Bool) (relation : Memory → Memory → Prop) : Prop where
  trans : ∀ {first middle last}, relation first middle → relation middle last → relation first last
  hear : ∀ memory calls, relation memory (memory.hear calls)
  works : ∀ {earlier later}, Memory.Works holding judging earlier later → relation earlier later

/-- Publications are made between the parts of a turn, and no power-on request is made where it
would not be accepted. -/
theorem respected_keeps {holding judging : Bool} :
    Respected holding judging fun earlier later => earlier.mailbox.Keeps later.mailbox where
  trans := .trans
  hear memory calls := (memory.heard_hear calls).toKeeps
  works := by
    intro earlier later works
    induction works with
    | trans _ _ first second => exact first.trans second
    | dropPowerOn => exact ⟨rfl, nofun⟩
    | refl | takeShutdown | takeReset | force | hold | inhibit | cancelTimer => exact ⟨rfl, .inl⟩

/-- Where the power task may not change it, the flag of the held reset line stays as it is. -/
theorem respected_resetHeld {judging : Bool} :
    Respected false judging fun earlier later => later.resetHeld = earlier.resetHeld where
  trans first second := second.trans first
  hear _ _ := rfl
  works := by
    intro earlier later works
    induction works with
    | trans _ _ first second => exact second.trans first
    | hold may => exact absurd may Bool.false_ne_true
    | refl | takeShutdown | takeReset | dropPowerOn | force | inhibit | cancelTimer => rfl

/-- Where it does not judge the charger, what is said of the charger stays as it is. -/
theorem respected_inhibited {holding : Bool} : Respected holding false fun earlier later =>
    later.mailbox.inhibited = earlier.mailbox.inhibited where
  trans first second := second.trans first
  hear memory calls := (memory.heard_hear calls).inhibited
  works := by
    intro earlier later works
    induction works with
    | trans _ _ first second => exact second.trans first
    | inhibit may => exact absurd may Bool.false_ne_true
    | refl | takeShutdown | takeReset | dropPowerOn | force | hold | cancelTimer => rfl

namespace Task

variable {α β : Type}

/-- In each stretch, from the start or an answer to the next request or the end, a task does what
the power task does. The charger is judged in the last stretch only. -/
def Stretches (holding judging : Bool) (start : Memory) : Task α → Prop
  | .done memory _ => start.Works holding judging memory
  | .ask memory _ resume => start.Works holding false memory ∧
    ∀ calls answer,
      (resume (memory.hear calls).mailbox answer).Stretches holding judging (memory.hear calls)

variable {relation : Memory → Memory → Prop} {start middle : Memory} {task later : Task α}
  {trace : List Exchange} {holding judging : Bool}

/-- The first stretch of a task. -/
theorem Stretches.begins (stretches : task.Stretches holding judging start) :
    start.Works holding judging task.memory := by
  cases task with
  | done memory result => exact stretches
  | ask memory request resume => exact stretches.1.weaken

/-- What is respected holds from the start to any later point. -/
theorem Stretches.of_reaches (respected : Respected holding judging relation)
    (stretches : task.Stretches holding judging start)
    (reached : task.Reaches trace later) : relation start later.memory := by
  induction reached generalizing start with
  | refl later => exact respected.works stretches.begins
  | @ask memory _ _ calls answer _ _ _ inductionHypothesis =>
    have asked := respected.trans (respected.works stretches.1.weaken)
      (respected.hear memory calls)
    exact respected.trans asked (inductionHypothesis (stretches.2 calls answer))

/-- What is left of a task after an answer. -/
theorem Stretches.rest {memory : Memory} {request : Request}
    {resume : Mailbox → request.Answer → Task α} (stretches : task.Stretches holding judging start)
    (reached : task.Reaches trace (.ask memory request resume)) (calls : List Mailbox.Call)
    (answer : request.Answer) :
    (resume (memory.hear calls).mailbox answer).Stretches holding judging (memory.hear calls) := by
  generalize target : Task.ask memory request resume = later at reached
  induction reached generalizing start with
  | refl =>
    subst target
    exact stretches.2 calls answer
  | ask _ inductionHypothesis => exact inductionHypothesis (stretches.2 _ _) target

/-- As long as there is more to ask, the charger has not been judged. -/
theorem Stretches.inhibited {memory : Memory} {request : Request}
    {resume : Mailbox → request.Answer → Task α} (stretches : task.Stretches holding judging start)
    (reached : task.Reaches trace (.ask memory request resume)) :
    memory.mailbox.inhibited = start.mailbox.inhibited := by
  generalize target : Task.ask memory request resume = later at reached
  induction reached generalizing start with
  | refl =>
    subst target
    exact respected_inhibited.works stretches.1
  | @ask asked _ _ calls answer _ _ _ inductionHypothesis =>
    have same : asked.mailbox.inhibited = start.mailbox.inhibited :=
      respected_inhibited.works stretches.1
    have heard := (asked.heard_hear calls).inhibited.trans same
    exact (inductionHypothesis (stretches.2 calls answer) target).trans heard

/-- The first stretch may begin earlier. -/
theorem Stretches.precede (works : start.Works holding false middle)
    (stretches : task.Stretches holding judging middle) :
    task.Stretches holding judging start := by
  cases task with
  | done memory result => exact works.weaken.trans stretches
  | ask memory request resume => exact ⟨works.trans stretches.1, stretches.2⟩

theorem Stretches.bind {next : α → Program β} (first : task.Stretches holding false start)
    (second : ∀ value memory, (next value memory).Stretches holding judging memory) :
    (task.bind next).Stretches holding judging start := by
  induction task generalizing start with
  | done memory value => exact (second value memory).precede first
  | ask memory request resume inductionHypothesis =>
    refine ⟨first.1, ?_⟩
    intro calls answer
    exact inductionHypothesis _ _ (first.2 calls answer)

end Task

namespace Program

variable {α β : Type} {holding judging : Bool}

/-- A program does what the power task does, from whatever memory it starts. -/
def Works (holding judging : Bool) (program : Program α) : Prop :=
  ∀ memory, (program memory).Stretches holding judging memory

theorem works_pure (value : α) : (pure value : Program α).Works holding judging :=
  fun memory => .refl memory

theorem works_read : read.Works holding judging :=
  fun memory => .refl memory

theorem Works.bind {program : Program α} {next : α → Program β}
    (first : program.Works holding false) (second : ∀ value, (next value).Works holding judging) :
    (program >>= next).Works holding judging := by
  intro memory
  exact (first memory).bind second

theorem works_ask (request : Request) : (ask request).Works holding judging := by
  intro memory
  refine ⟨.refl memory, ?_⟩
  intro calls answer
  exact .refl (memory.hear calls)

theorem works_modify_bind {change : Memory → Memory} {next : Unit → Program β}
    (change_works : ∀ memory : Memory, memory.Works holding false (change memory))
    (second : (next ()).Works holding judging) : (modify change >>= next).Works holding judging := by
  intro memory
  exact (second (change memory)).precede (change_works memory)

theorem works_takeShutdownRequest : takeShutdownRequest.Works holding judging :=
  .takeShutdown

theorem works_forceShutdown : forceShutdown.Works holding judging :=
  .force

theorem works_takePowerOnRequest : takePowerOnRequest.Works holding judging :=
  works_read.bind fun _ => works_modify_bind .dropPowerOn (works_pure _)

theorem works_takeResetRequest : takeResetRequest.Works holding judging :=
  works_read.bind fun _ => works_modify_bind .takeReset (works_pure _)

theorem works_replay (table : List RailWrite) : (replay table).Works holding judging := by
  induction table with
  | nil => exact works_pure ()
  | cons write rest inductionHypothesis =>
    apply (works_ask _).bind
    intro _
    split
    · exact (works_ask _).bind fun _ => inductionHypothesis
    · exact inductionHypothesis

variable (condition : AbortCondition)

theorem works_aborts : (aborts condition).Works holding judging :=
  (works_ask .readLines).bind fun _ => works_read.bind fun _ => works_pure _

theorem works_sleepSlices (lastMs slices : Nat) :
    (sleepSlices condition lastMs slices).Works holding judging := by
  induction slices with
  | zero =>
    apply (works_ask _).bind
    intro _
    apply (works_aborts condition).bind
    intro aborted
    split
    · exact works_pure _
    · exact works_pure _
  | succ slices inductionHypothesis =>
    apply (works_ask _).bind
    intro _
    apply (works_aborts condition).bind
    intro aborted
    split
    · exact works_pure _
    · exact inductionHypothesis

theorem works_replayAbortable (table : List RailWrite) :
    (replayAbortable condition table).Works holding judging := by
  induction table with
  | nil => exact works_pure _
  | cons write rest inductionHypothesis =>
    apply (works_ask _).bind
    intro _
    split
    · exact inductionHypothesis
    · apply (works_sleepSlices condition _ _).bind
      intro outcome
      cases outcome with
      | aborted => exact works_pure _
      | completed => exact inductionHypothesis

theorem works_pollCharger (retries : Nat) : (pollCharger retries).Works holding judging := by
  induction retries with
  | zero => exact (works_ask .powerOnBlocked).bind fun _ => works_pure _
  | succ retries inductionHypothesis =>
    apply (works_ask .powerOnBlocked).bind
    intro blocked
    split
    · exact (works_ask _).bind fun _ => inductionHypothesis
    · exact works_pure _

variable (tree : PowerTree)

theorem works_leavesS0 : (leavesS0 tree).Works holding judging :=
  (works_ask .readLines).bind fun _ => works_read.bind fun _ => works_pure _

theorem works_stepS0 : (stepS0 tree).Works holding judging := by
  apply (works_leavesS0 tree).bind
  intro leaves
  split
  · exact works_pure _
  · split
    · exact works_pure _
    · apply (works_ask _).bind
      intro answer
      cases answer with
      | error error => exact works_pure _
      | ok =>
        apply works_takeShutdownRequest.bind
        intro _
        apply (works_leavesS0 tree).bind
        intro leavesNow
        split
        · exact works_pure _
        · exact works_pure _

/-- After the flag has been cleared. -/
theorem stretches_stepG3S5 (memory : Memory) :
    (stepG3S5 memory).Stretches holding true { memory with forcingShutdown := false } := by
  apply (works_pollCharger _ _).bind
  intro ready
  apply (works_ask .shutdownWanted).bind
  intro refused
  split
  · exact fun memory => (Memory.Works.inhibit rfl memory true).trans (.force _)
  · exact fun memory => .inhibit rfl memory false

theorem works_stepS5S3 : (stepS5S3 tree).Works true judging := by
  apply (works_replay _).bind
  intro _
  refine works_modify_bind (fun _ => .hold rfl _ _) ?_
  apply (works_ask _).bind
  intro answer
  cases answer with
  | error error => exact works_forceShutdown.bind fun _ => works_pure _
  | ok => exact (works_ask _).bind fun _ => works_pure _

/-- The release of a held reset, before the rest of a step. -/
theorem works_release {rest : Program PowerState} (later : rest.Works true judging) :
    (do
      if (← read).resetHeld then
        sleepMs Timing.resetReleaseMs
        ask (.drive .sysRstL .high)
        modify fun memory => { memory with resetHeld := false }
      rest : Program PowerState).Works true judging := by
  apply works_read.bind
  intro memory
  dsimp only
  split
  · apply (works_ask _).bind
    intro _
    apply (works_ask _).bind
    intro _
    exact works_modify_bind (fun _ => .hold rfl _ _) later
  · exact later

theorem works_stepS3S0 : (stepS3S0 tree).Works true judging := by
  apply (works_replay _).bind
  intro _
  apply works_release
  apply (works_ask _).bind
  intro answer
  cases answer with
  | error error => exact works_forceShutdown.bind fun _ => works_pure _
  | ok => exact (works_ask _).bind fun _ => (works_ask _).bind fun _ => works_pure _

theorem works_settleS3 : settleS3.Works holding judging := by
  apply (works_ask _).bind
  intro _
  apply (works_ask .buttonPressed).bind
  intro pressed
  dsimp only
  split
  · apply works_forceShutdown.bind
    intro _
    exact works_modify_bind .cancelTimer (works_pure _)
  · exact works_pure _

theorem works_stepS0S3 : (stepS0S3 tree).Works holding judging := by
  apply (works_ask _).bind
  intro _
  apply works_read.bind
  intro memory
  apply (works_sleepSlices _ _ _).bind
  intro outcome
  cases outcome with
  | aborted => exact works_pure _
  | completed =>
    apply (works_replayAbortable _ _).bind
    intro outcome
    cases outcome with
    | aborted => exact works_pure _
    | completed => exact works_settleS3

theorem works_handle {state : PowerState} (started : state ≠ .g3s5) :
    (handle tree state).Works state.turnsHold judging := by
  cases state with
  | g3 =>
    apply works_takePowerOnRequest.bind
    intro asked
    split
    · exact works_pure _
    · exact works_pure _
  | s5 =>
    apply works_read.bind
    intro memory
    split
    · exact works_pure _
    · exact works_pure _
  | s3 =>
    apply (works_ask .readLines).bind
    intro lines
    apply works_read.bind
    intro memory
    split
    · exact works_pure _
    · split
      · exact works_pure _
      · exact works_pure _
  | s0 => exact works_stepS0 tree
  | g3s5 => exact absurd rfl started
  | s5s3 => exact works_stepS5S3 tree
  | s3s0 => exact works_stepS3S0 tree
  | s0s3 => exact works_stepS0S3 tree
  | s3s5 =>
    apply (works_ask _).bind
    intro _
    exact (works_replay _).bind fun _ => works_pure _
  | s5g3 => exact works_pure _

/-- A step, counted from where it has begun. -/
theorem stretches_step (state : PowerState) (memory : Memory) :
    (step tree state memory).Stretches state.turnsHold true (memory.stepStart state) := by
  by_cases started : state = .g3s5
  · subst started
    exact stretches_stepG3S5 memory.takeShutdown
  · have start : memory.stepStart state = memory.takeShutdown := by
      cases state with
      | g3s5 => exact absurd rfl started
      | _ => rfl
    rw [start]
    exact works_handle tree started memory.takeShutdown

theorem works_serveReset : serveReset.Works false false := by
  apply works_takeResetRequest.bind
  intro asked
  split
  · apply (works_ask _).bind
    intro _
    exact (works_ask _).bind fun _ => works_ask _
  · exact works_pure _

variable {memory : Memory} {trace : List Exchange}

/-- Nothing is published in the middle of a step. -/
theorem step_keeps {state : PowerState} {later : Task PowerState}
    (reached : (step tree state memory).Reaches trace later) :
    memory.mailbox.Keeps later.memory.mailbox := by
  have begun : memory.mailbox.Keeps (memory.stepStart state).mailbox := by
    rw [Memory.mailbox_stepStart]
    exact ⟨rfl, .inl⟩
  exact begun.trans ((stretches_step tree state memory).of_reaches respected_keeps reached)

/-- Nor while a reset request is served. -/
theorem serveReset_keeps {later : Task Unit} (reached : (serveReset memory).Reaches trace later) :
    memory.mailbox.Keeps later.memory.mailbox :=
  (works_serveReset memory).of_reaches respected_keeps reached

/-- Nothing is said of the charger as long as a step has more to ask. -/
theorem step_inhibited {state : PowerState} {begun : Memory} {request : Request}
    {resume : Mailbox → request.Answer → Task PowerState}
    (reached : (step tree state memory).Reaches trace (.ask begun request resume)) :
    begun.mailbox.inhibited = memory.mailbox.inhibited := by
  have same := (stretches_step tree state memory).inhibited reached
  rwa [Memory.mailbox_stepStart] at same

/-- Only power-up and resume turn the flag of the held reset line, and no other step does so even
for a while. -/
theorem step_resetHeld {state : PowerState} {later : Task PowerState}
    (neither : state.turnsHold = false) (reached : (step tree state memory).Reaches trace later) :
    later.memory.resetHeld = memory.resetHeld := by
  have stretches := stretches_step tree state memory
  rw [neither] at stretches
  have begun : (memory.stepStart state).resetHeld = memory.resetHeld := by
    cases state <;> rfl
  exact (stretches.of_reaches respected_resetHeld reached).trans begun

end Program

end RailSequencer
