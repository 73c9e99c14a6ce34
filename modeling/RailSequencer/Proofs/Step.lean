import RailSequencer.Proofs.Replay
import RailSequencer.Proofs.Throughout

/-!
# What a step can do

`Transition` lists every way through a step, with all that is asked on the way, the memory that is
left and the state that comes next; `step_runs` says that there is no other. A transition starts
from the memory in which the shutdown request has been taken, so it says nothing of the request.
Statements about steps are case splits on a transition and do not open the programs again.
-/

namespace RailSequencer

namespace Memory

/-- The charger has been heard about powering on. -/
def judged (memory : Memory) (refused : Bool) : Memory :=
  { memory with
    forcingShutdown := refused
    mailbox := { memory.mailbox with inhibited := refused } }

/-- The button was found held or not at the end of a suspend. -/
def settled (memory : Memory) (pressed : Bool) : Memory :=
  if pressed then
    { memory with forcingShutdown := true, mailbox := memory.mailbox.cancelTimer }
  else
    memory

end Memory

namespace PowerTree

/-- Do these lines, or a shutdown under way, speak against S0? -/
def endsS0 (tree : PowerTree) (forcing : Bool) (lines : SignalMask) : Bool :=
  !lines.contains tree.pgoodS3 || forcing || !lines.contains .suspendDeasserted

/-- Where S3 leads. -/
def afterS3 (tree : PowerTree) (forcing : Bool) (lines : SignalMask) : PowerState :=
  if !lines.contains tree.pgoodS3 || forcing then .s3s5
  else if lines.contains .suspendDeasserted then .s3s0
  else .s3

theorem endsS0_eq_false_iff {tree : PowerTree} {forcing : Bool} {lines : SignalMask} :
    tree.endsS0 forcing lines = false ↔
      lines.contains tree.pgoodS3 = true ∧ forcing = false ∧
        lines.contains .suspendDeasserted = true := by
  simp [endsS0, and_assoc]

theorem afterS3_eq_s3_iff {tree : PowerTree} {forcing : Bool} {lines : SignalMask} :
    tree.afterS3 forcing lines = .s3 ↔
      lines.contains tree.pgoodS3 = true ∧ forcing = false ∧
        lines.contains .suspendDeasserted = false := by
  cases supplied : lines.contains tree.pgoodS3 <;>
    cases forcing <;>
      cases awake : lines.contains .suspendDeasserted <;>
        simp [afterS3, supplied, awake]

/-- What a suspend asks for between its notification and its end. -/
def suspendRequests (tree : PowerTree) : List Request :=
  slicedRequests Timing.suspendGraceMs ++ tableRequests slicedRequests tree.tables.s0s3

end PowerTree

/-- What the release of a held reset asks for. -/
def releaseRequests (held : Bool) : List Request :=
  if held then sleepRequests Timing.resetReleaseMs ++ [.drive .sysRstL .high] else []

/-- Polls of the charger with pauses left between them, and whether it agreed in the end. -/
inductive ChargerPolls : (retries : Nat) → List Exchange → Bool → Prop where
  | last (calls : List Mailbox.Call) (blocked : Bool) :
      ChargerPolls 0 [⟨.powerOnBlocked, calls, blocked⟩] !blocked
  | agrees {retries : Nat} (calls : List Mailbox.Call) :
      ChargerPolls (retries + 1) [⟨.powerOnBlocked, calls, false⟩] true
  | again {retries : Nat} (calls slept : List Mailbox.Call) {rest : List Exchange} {ready : Bool}
      (later : ChargerPolls retries rest ready) :
      ChargerPolls (retries + 1)
        (⟨.powerOnBlocked, calls, true⟩ ::
          ⟨.sleep (Timing.chargerRetryMs * Timing.usPerMs), slept, ()⟩ :: rest) ready

/-- The charger is polled and slept on; nothing is driven. -/
theorem ChargerPolls.writes {retries : Nat} {trace : List Exchange} {ready : Bool}
    (polls : ChargerPolls retries trace ready) : Exchange.writes trace = [] := by
  induction polls with
  | last => rfl
  | agrees => rfl
  | again _ _ _ inductionHypothesis => exact inductionHypothesis

/-- The ways through a step: the memory without its shutdown request, the state, everything that
is asked, the memory that is left, and the next state. -/
inductive Transition (tree : PowerTree) (memory : Memory) :
    PowerState → List Exchange → Memory → PowerState → Prop where
  | fromG3 {next : PowerState}
      (leads : next = if memory.mailbox.powerOnRequested then .g3s5 else .g3) :
      Transition tree memory .g3 [] memory.dropPowerOn next
  | fromS5 {next : PowerState} (leads : next = if memory.forcingShutdown then .s5g3 else .s5s3) :
      Transition tree memory .s5 [] memory next
  | fromS3 {trace : List Exchange} (calls : List Mailbox.Call) (lines : SignalMask)
      {next : PowerState} (whole : trace = [⟨.readLines, calls, lines⟩])
      (leads : next = tree.afterS3 memory.forcingShutdown lines) :
      Transition tree memory .s3 trace (memory.after trace) next
  | leavesS0 {trace : List Exchange} (calls : List Mailbox.Call) (lines : SignalMask)
      (whole : trace = [⟨.readLines, calls, lines⟩])
      (ends : tree.endsS0 memory.forcingShutdown lines = true) :
      Transition tree memory .s0 trace (memory.after trace) .s0s3
  | staysInS0 {trace : List Exchange} (calls : List Mailbox.Call) (lines : SignalMask)
      (whole : trace = [⟨.readLines, calls, lines⟩])
      (quiet : tree.endsS0 memory.forcingShutdown lines = false) (steady : tree.debounce = none) :
      Transition tree memory .s0 trace (memory.after trace) .s0
  | losesDebounced {trace : List Exchange} (calls waited : List Mailbox.Call) (lines : SignalMask)
      (error : PowerError) {window : SignalMask}
      (whole : trace = [⟨.readLines, calls, lines⟩,
        ⟨.waitForLines window Timing.debounceUs, waited, .error error⟩])
      (quiet : tree.endsS0 memory.forcingShutdown lines = false)
      (debounced : tree.debounce = some window) :
      Transition tree memory .s0 trace (memory.after trace) .s0s3
  | looksAgain {waiting : List Exchange} (calls waited called : List Mailbox.Call)
      (lines again : SignalMask) {window : SignalMask} {next : PowerState}
      (begun : waiting = [⟨.readLines, calls, lines⟩,
        ⟨.waitForLines window Timing.debounceUs, waited, .ok ()⟩])
      (quiet : tree.endsS0 memory.forcingShutdown lines = false)
      (debounced : tree.debounce = some window)
      (leads : next =
        if tree.endsS0 (memory.after waiting).takeShutdown.forcingShutdown again
          then .s0s3 else .s0) :
      Transition tree memory .s0 (waiting ++ [⟨.readLines, called, again⟩])
        ((memory.after waiting).takeShutdown.hear called) next
  | asksCharger {polls trace : List Exchange} {ready : Bool} {next : PowerState}
      (polled : ChargerPolls Timing.chargerRetries polls ready) (calls : List Mailbox.Call)
      (unwanted : Bool) (whole : trace = polls ++ [⟨.shutdownWanted, calls, unwanted⟩])
      (leads : next = if unwanted || !ready then .g3 else .s5) :
      Transition tree memory .g3s5 trace ((memory.after trace).judged (unwanted || !ready)) next
  | powersUp {replayed trace : List Exchange}
      (asked : Exchange.requests replayed = tableRequests sleepRequests tree.tables.s5s3)
      (waited told : List Mailbox.Call)
      (whole : trace = replayed ++
        [⟨.waitForLines tree.pgoodS3 Timing.supplyTimeoutUs, waited, .ok ()⟩,
         ⟨.notify .startup, told, ()⟩]) :
      Transition tree memory .s5s3 trace ({ memory with resetHeld := true }.after trace) .s3
  | failsPowerUp {replayed trace : List Exchange}
      (asked : Exchange.requests replayed = tableRequests sleepRequests tree.tables.s5s3)
      (waited : List Mailbox.Call) (error : PowerError)
      (whole : trace = replayed ++
        [⟨.waitForLines tree.pgoodS3 Timing.supplyTimeoutUs, waited, .error error⟩]) :
      Transition tree memory .s5s3 trace
        ({ memory with resetHeld := true, forcingShutdown := true }.after trace) .s3s5
  | resumes {replayed released trace : List Exchange}
      (asked : Exchange.requests replayed = tableRequests sleepRequests tree.tables.s3s0)
      (release : Exchange.requests released = releaseRequests memory.resetHeld)
      (waited told kept : List Mailbox.Call)
      (whole : trace = replayed ++ released ++
        [⟨.waitForLines tree.pgoodS0 Timing.supplyTimeoutUs, waited, .ok ()⟩,
         ⟨.notify .resume, told, ()⟩, ⟨.allowIdle false, kept, ()⟩]) :
      Transition tree memory .s3s0 trace ({ memory with resetHeld := false }.after trace) .s0
  | failsResume {replayed released trace : List Exchange}
      (asked : Exchange.requests replayed = tableRequests sleepRequests tree.tables.s3s0)
      (release : Exchange.requests released = releaseRequests memory.resetHeld)
      (waited : List Mailbox.Call) (error : PowerError)
      (whole : trace = replayed ++ released ++
        [⟨.waitForLines tree.pgoodS0 Timing.supplyTimeoutUs, waited, .error error⟩]) :
      Transition tree memory .s3s0 trace
        ({ memory with resetHeld := false, forcingShutdown := true }.after trace) .s3s0
  | callsOffSuspend (told : List Mailbox.Call) {trace : List Exchange} {final : Memory}
      (aborted : AbortableRun (Program.suspendCancelled memory.forcingShutdown)
        tree.suspendRequests (memory.hear told) trace final .aborted) :
      Transition tree memory .s0s3 (⟨.notify .suspend, told, ()⟩ :: trace)
        (memory.after (⟨.notify .suspend, told, ()⟩ :: trace)) .s3s0
  | suspends (told : List Mailbox.Call) {suspended trace : List Exchange} {final : Memory}
      (completed : AbortableRun (Program.suspendCancelled memory.forcingShutdown)
        tree.suspendRequests (memory.hear told) suspended final .completed)
      (idled looked : List Mailbox.Call) (pressed : Bool)
      (whole : trace = ⟨.notify .suspend, told, ()⟩ :: suspended ++
        [⟨.allowIdle true, idled, ()⟩, ⟨.buttonPressed, looked, pressed⟩]) :
      Transition tree memory .s0s3 trace ((memory.after trace).settled pressed) .s3
  | powersDown (told : List Mailbox.Call) {replayed : List Exchange}
      (asked : Exchange.requests replayed = tableRequests sleepRequests tree.tables.s3s5) :
      Transition tree memory .s3s5 (⟨.notify .shutdown, told, ()⟩ :: replayed)
        (memory.after (⟨.notify .shutdown, told, ()⟩ :: replayed)) .s5
  | turnsOff :
      Transition tree memory .s5g3 [] memory .g3

/-- The table that the step from a state writes. -/
def EdgeTables.edge (tables : EdgeTables) : PowerState → List RailWrite
  | .s5s3 => tables.s5s3
  | .s3s0 => tables.s3s0
  | .s0s3 => tables.s0s3
  | .s3s5 => tables.s3s5
  | _ => []

/-- What the step from a state drives after its table: a resume releases the reset line, if it was
held. -/
def PowerState.release (state : PowerState) (held : Bool) : List (Rail × Level) :=
  if state = .s3s0 ∧ held = true then [(.sysRstL, .high)] else []

namespace PowerTree

/-- What a step from `state` to `next` drives; a suspend that was called off drove the beginning of
its table. -/
def Drives (tree : PowerTree) (held : Bool) (state next : PowerState)
    (writes : List (Rail × Level)) : Prop :=
  match state with
  | .s5s3 => writes = tree.tables.s5s3.map RailWrite.output
  | .s3s0 => writes =
    tree.tables.s3s0.map RailWrite.output ++ if held then [(.sysRstL, .high)] else []
  | .s0s3 => writes <+: tree.tables.s0s3.map RailWrite.output ∧
    (next = .s3 → writes = tree.tables.s0s3.map RailWrite.output)
  | .s3s5 => writes = tree.tables.s3s5.map RailWrite.output
  | _ => writes = []

theorem writes_suspendRequests (tree : PowerTree) :
    Request.writes tree.suspendRequests = tree.tables.s0s3.map RailWrite.output := by
  rw [suspendRequests, Request.writes_append, writes_slicedRequests,
    writes_tableRequests writes_slicedRequests]
  rfl

end PowerTree

/-- What holds of drives, sleeps and looks holds of all that a suspend asks for. -/
theorem PowerTree.forall_suspendRequests (tree : PowerTree) {holds : Request → Prop}
    (drives : ∀ rail level, holds (.drive rail level)) (sleeps : ∀ us, holds (.sleep us))
    (looks : holds .readLines) : ∀ request ∈ tree.suspendRequests, holds request := by
  have slices := forall_slicedRequests sleeps looks
  rw [suspendRequests, List.forall_mem_append]
  exact ⟨slices _, forall_tableRequests drives slices _⟩

/-- What holds of drives and sleeps holds of all that is asked for when a table is written. -/
theorem forall_replayed {table : List RailWrite} {trace : List Exchange} {holds : Request → Prop}
    (asked : Exchange.requests trace = tableRequests sleepRequests table)
    (drives : ∀ rail level, holds (.drive rail level)) (sleeps : ∀ us, holds (.sleep us)) :
    ∀ request ∈ Exchange.requests trace, holds request := by
  rw [asked]
  exact forall_tableRequests drives (forall_sleepRequests sleeps) table

/-- And of the release of a held reset. -/
theorem forall_released {held : Bool} {trace : List Exchange} {holds : Request → Prop}
    (release : Exchange.requests trace = releaseRequests held)
    (drives : ∀ rail level, holds (.drive rail level)) (sleeps : ∀ us, holds (.sleep us)) :
    ∀ request ∈ Exchange.requests trace, holds request := by
  rw [release]
  cases held with
  | false => exact fun _ member => absurd member List.not_mem_nil
  | true =>
    rw [releaseRequests, if_pos rfl, List.forall_mem_append, List.forall_mem_singleton]
    exact ⟨forall_sleepRequests sleeps _, drives _ _⟩

/-- A table without a condition is written as it stands. -/
theorem writes_replayed {table : List RailWrite} {trace : List Exchange}
    (asked : Exchange.requests trace = tableRequests sleepRequests table) :
    Exchange.writes trace = table.map RailWrite.output := by
  rw [Exchange.writes, asked, writes_tableRequests writes_sleepRequests]

theorem writes_released {held : Bool} {trace : List Exchange}
    (release : Exchange.requests trace = releaseRequests held) :
    Exchange.writes trace = if held then [(.sysRstL, .high)] else [] := by
  rw [Exchange.writes, release]
  cases held with
  | false => rfl
  | true => rfl

/-- A suspend is called off only where no shutdown was under way when it began. -/
theorem AbortableRun.unforced {forcing : Bool} {expected : List Request} {memory final : Memory}
    {trace : List Exchange}
    (aborted : AbortableRun (Program.suspendCancelled forcing) expected memory trace final
      .aborted) : forcing = false := by
  obtain ⟨_, last, -, held, -⟩ := aborted.follows
  cases forcing with
  | false => rfl
  | true => exact absurd held Bool.false_ne_true

namespace Transition

variable {tree : PowerTree} {memory final : Memory} {trace : List Exchange}
  {state next : PowerState}

/-- A step follows the edges of the state graph. -/
theorem mem_successors (transition : Transition tree memory state trace final next) :
    next ∈ state.successors := by
  cases transition with
  | fromG3 leads =>
    subst leads
    split <;> decide
  | fromS5 leads =>
    subst leads
    split <;> decide
  | fromS3 calls lines whole leads =>
    subst leads
    rw [PowerTree.afterS3]
    split
    · decide
    · split <;> decide
  | looksAgain calls waited called lines again begun quiet debounced leads =>
    subst leads
    split <;> decide
  | asksCharger polled calls unwanted whole leads =>
    subst leads
    split <;> decide
  | _ => decide

/-- Only the step from G3 leads to G3S5. -/
theorem ne_g3s5 (transition : Transition tree memory state trace final next)
    (away : state ≠ .g3) : next ≠ .g3s5 := by
  rintro rfl
  have edge := transition.mem_successors
  cases state with
  | g3 => exact away rfl
  | _ => exact absurd edge (by decide)

theorem drives (transition : Transition tree memory state trace final next) :
    tree.Drives memory.resetHeld state next (Exchange.writes trace) := by
  cases transition with
  | fromS3 calls lines whole leads => exact whole ▸ rfl
  | leavesS0 calls lines whole ends => exact whole ▸ rfl
  | staysInS0 calls lines whole quiet steady => exact whole ▸ rfl
  | losesDebounced calls waited lines error whole quiet debounced => exact whole ▸ rfl
  | looksAgain calls waited called lines again begun quiet debounced leads => exact begun ▸ rfl
  | asksCharger polled calls unwanted whole leads =>
    rw [whole, Exchange.writes_append, polled.writes]
    exact rfl
  | powersUp asked waited told whole =>
    rw [whole, Exchange.writes_append, writes_replayed asked]
    exact List.append_nil _
  | failsPowerUp asked waited error whole =>
    rw [whole, Exchange.writes_append, writes_replayed asked]
    exact List.append_nil _
  | resumes asked release waited told kept whole =>
    rw [whole, Exchange.writes_append, Exchange.writes_append, writes_replayed asked,
      writes_released release]
    exact List.append_nil _
  | failsResume asked release waited error whole =>
    rw [whole, Exchange.writes_append, Exchange.writes_append, writes_replayed asked,
      writes_released release]
    exact List.append_nil _
  | callsOffSuspend told aborted =>
    have begun := aborted.writes_prefix
    rw [tree.writes_suspendRequests] at begun
    exact ⟨begun, nofun⟩
  | @suspends told suspended trace _ completed idled looked pressed whole =>
    have written : Exchange.writes suspended = tree.tables.s0s3.map RailWrite.output := by
      rw [Exchange.writes, completed.complete rfl, tree.writes_suspendRequests]
    have all : Exchange.writes trace = tree.tables.s0s3.map RailWrite.output := by
      rw [whole, Exchange.writes_append, ← written]
      exact List.append_nil _
    rw [all]
    exact ⟨List.prefix_rfl, fun _ => rfl⟩
  | powersDown told asked =>
    have replayed := writes_replayed asked
    exact replayed
  | _ => rfl

/-- A step drives its table, or the beginning of it, and then perhaps releases the reset line. -/
theorem writes_eq (transition : Transition tree memory state trace final next) :
    ∃ tabled, tabled <+: (tree.tables.edge state).map RailWrite.output ∧
      Exchange.writes trace = tabled ++ state.release memory.resetHeld := by
  have drives := transition.drives
  cases state with
  | s3s0 =>
    have released : PowerState.release .s3s0 memory.resetHeld =
        if memory.resetHeld then [(.sysRstL, .high)] else [] := by
      simp [PowerState.release]
    exact ⟨_, List.prefix_rfl, released ▸ drives⟩
  | s0s3 => exact ⟨_, drives.1, (List.append_nil _).symm⟩
  | _ => exact ⟨_, List.prefix_rfl, drives.trans (List.append_nil _).symm⟩

/-- Only the step out of G3 forgets a shutdown that is under way. -/
theorem forcing_kept (transition : Transition tree memory state trace final next)
    (forcing : memory.forcingShutdown = true) (started : state ≠ .g3s5) :
    final.forcingShutdown = true := by
  cases transition with
  | asksCharger => exact absurd rfl started
  | looksAgain => simp [Memory.takeShutdown, forcing]
  | suspends told completed idled looked pressed whole =>
    cases pressed with
    | false => exact forcing
    | true => rfl
  | failsPowerUp | failsResume => rfl
  | fromG3 | fromS5 | fromS3 | leavesS0 | staysInS0 | losesDebounced | powersUp | resumes
  | callsOffSuspend | powersDown | turnsOff => exact forcing

end Transition

namespace Program

variable {tree : PowerTree} {memory final : Memory} {trace : List Exchange} {next : PowerState}

theorem pollCharger_runs {retries : Nat} {ready : Bool}
    (run : (pollCharger retries memory).Runs trace final ready) :
    ChargerPolls retries trace ready ∧ final = memory.after trace := by
  induction retries generalizing memory trace with
  | zero =>
    rw [pollCharger] at run
    obtain ⟨calls, blocked, _, rfl, answered⟩ := runs_ask_bind_iff.mp run
    obtain ⟨rfl, rfl, rfl⟩ := runs_pure_iff.mp answered
    exact ⟨.last calls blocked, by simp⟩
  | succ retries inductionHypothesis =>
    rw [pollCharger] at run
    obtain ⟨calls, blocked, _, rfl, answered⟩ := runs_ask_bind_iff.mp run
    cases blocked with
    | false =>
      obtain ⟨rfl, rfl, rfl⟩ := runs_pure_iff.mp answered
      exact ⟨.agrees calls, by simp⟩
    | true =>
      obtain ⟨slept, _, rest, rfl, awake⟩ := runs_ask_bind_iff.mp answered
      obtain ⟨polls, rfl⟩ := inductionHypothesis awake
      exact ⟨.again calls slept polls, by simp⟩

theorem leavesS0_runs {answer : Bool} (run : (leavesS0 tree memory).Runs trace final answer) :
    ∃ calls lines, trace = [⟨.readLines, calls, lines⟩] ∧ final = memory.hear calls ∧
      answer = tree.endsS0 memory.forcingShutdown lines := by
  obtain ⟨calls, lines, _, rfl, judged⟩ := runs_ask_bind_iff.mp run
  obtain ⟨rfl, rfl, rfl⟩ := runs_pure_iff.mp judged
  exact ⟨calls, lines, rfl, rfl, rfl⟩

private theorem stepS0_runs (run : (stepS0 tree memory).Runs trace final next) :
    Transition tree memory .s0 trace final next := by
  obtain ⟨_, _, ends, _, looked, judged, rfl⟩ := runs_bind_iff.mp run
  obtain ⟨calls, lines, rfl, rfl, rfl⟩ := leavesS0_runs looked
  cases ends : tree.endsS0 memory.forcingShutdown lines with
  | true =>
    rw [ends] at judged
    obtain ⟨rfl, rfl, rfl⟩ := runs_pure_iff.mp judged
    have step : Transition tree memory _ _ _ _ := .leavesS0 calls lines rfl ends
    rw [Memory.after_cons, Memory.after_nil] at step
    exact step
  | false =>
    rw [ends] at judged
    cases debounced : tree.debounce with
    | none =>
      simp only [debounced] at judged
      obtain ⟨rfl, rfl, rfl⟩ := runs_pure_iff.mp judged
      have step : Transition tree memory _ _ _ _ := .staysInS0 calls lines rfl ends debounced
      rw [Memory.after_cons, Memory.after_nil] at step
      exact step
    | some window =>
      simp only [debounced] at judged
      obtain ⟨waited, answer, _, rfl, settled⟩ := runs_ask_bind_iff.mp judged
      cases answer with
      | error error =>
        obtain ⟨rfl, rfl, rfl⟩ := runs_pure_iff.mp settled
        have step : Transition tree memory _ _ _ _ :=
          .losesDebounced calls waited lines error rfl ends debounced
        rw [Memory.after_cons, Memory.after_cons, Memory.after_nil] at step
        exact step
      | ok =>
        obtain ⟨_, _, _, _, lookedAgain, judgedAgain, rfl⟩ :=
          runs_bind_iff.mp (runs_modify_bind_iff.mp settled)
        obtain ⟨called, again, rfl, rfl, rfl⟩ := leavesS0_runs lookedAgain
        obtain ⟨rfl, rfl, rfl⟩ := runs_ite_iff.mp judgedAgain
        have step : Transition tree memory _ _ _ _ :=
          .looksAgain calls waited called lines again rfl ends debounced rfl
        rw [Memory.after_cons, Memory.after_cons, Memory.after_nil] at step
        exact step

private theorem stepG3S5_runs (run : (stepG3S5 memory).Runs trace final next) :
    Transition tree memory .g3s5 trace final next := by
  obtain ⟨_, _, ready, _, polled, asked, rfl⟩ := runs_bind_iff.mp (runs_modify_bind_iff.mp run)
  obtain ⟨polls, rfl⟩ := pollCharger_runs polled
  obtain ⟨calls, unwanted, _, rfl, judged⟩ := runs_ask_bind_iff.mp asked
  have step : Transition tree memory _ _ _ _ := .asksCharger polls calls unwanted rfl rfl
  rw [Memory.after_append, Memory.after_cons, Memory.after_nil] at step
  split at judged
  next refused =>
    rw [if_pos refused, refused] at step
    obtain ⟨rfl, rfl, rfl⟩ := Task.runs_done_iff.mp judged
    exact step
  next agreed =>
    rw [if_neg agreed, eq_false_of_ne_true agreed] at step
    obtain ⟨rfl, rfl, rfl⟩ := Task.runs_done_iff.mp judged
    exact step

private theorem stepS5S3_runs (run : (stepS5S3 tree memory).Runs trace final next) :
    Transition tree memory .s5s3 trace final next := by
  obtain ⟨_, _, _, _, replayed, held, rfl⟩ := runs_bind_iff.mp run
  obtain ⟨asked, rfl⟩ := replay_runs replayed
  obtain ⟨waited, answer, _, rfl, judged⟩ := runs_ask_bind_iff.mp (runs_modify_bind_iff.mp held)
  cases answer with
  | error error =>
    obtain ⟨rfl, rfl, rfl⟩ := Task.runs_done_iff.mp judged
    have step : Transition tree memory _ _ _ _ := .failsPowerUp asked waited error rfl
    rw [Memory.after_append, Memory.after_cons, Memory.after_nil] at step
    exact step
  | ok =>
    obtain ⟨told, _, _, rfl, ended⟩ := runs_ask_bind_iff.mp judged
    obtain ⟨rfl, rfl, rfl⟩ := runs_pure_iff.mp ended
    have step : Transition tree memory _ _ _ _ := .powersUp asked waited told rfl
    rw [Memory.after_append, Memory.after_cons, Memory.after_cons, Memory.after_nil] at step
    exact step

/-- The release of a held reset, after which it is not held. -/
private theorem release_runs {rest : Program PowerState}
    (run : ((do
      if (← read).resetHeld then
        sleepMs Timing.resetReleaseMs
        ask (.drive .sysRstL .high)
        modify fun memory => { memory with resetHeld := false }
      rest : Program PowerState) memory).Runs trace final next) :
    ∃ released later, Exchange.requests released = releaseRequests memory.resetHeld ∧
      (rest ({ memory with resetHeld := false }.after released)).Runs later final next ∧
      trace = released ++ later := by
  have run' := runs_read_bind_iff.mp run
  cases held : memory.resetHeld with
  | false =>
    rw [held] at run'
    have cleared : { memory with resetHeld := false } = memory := by rw [← held]
    refine ⟨[], trace, rfl, ?_, rfl⟩
    rw [cleared]
    exact run'
  | true =>
    rw [held] at run'
    obtain ⟨slept, _, _, rfl, awake⟩ := runs_ask_bind_iff.mp run'
    obtain ⟨driven, _, later, rfl, rested⟩ := runs_ask_bind_iff.mp awake
    refine ⟨[⟨.sleep (Timing.resetReleaseMs * Timing.usPerMs), slept, ()⟩,
      ⟨.drive .sysRstL .high, driven, ()⟩], later, rfl, ?_, rfl⟩
    rw [Memory.after_cons, Memory.after_cons, Memory.after_nil]
    exact rested

private theorem stepS3S0_runs (run : (stepS3S0 tree memory).Runs trace final next) :
    Transition tree memory .s3s0 trace final next := by
  obtain ⟨_, _, _, _, replayed, begun, rfl⟩ := runs_bind_iff.mp run
  obtain ⟨asked, rfl⟩ := replay_runs replayed
  obtain ⟨released, _, release, held, rfl⟩ := release_runs begun
  obtain ⟨waited, answer, _, rfl, judged⟩ := runs_ask_bind_iff.mp held
  cases answer with
  | error error =>
    obtain ⟨rfl, rfl, rfl⟩ := Task.runs_done_iff.mp judged
    have step : Transition tree memory _ _ _ _ := .failsResume asked release waited error rfl
    simp only [Memory.after_append, Memory.after_cons, Memory.after_nil] at step
    rw [List.append_assoc] at step
    exact step
  | ok =>
    obtain ⟨told, _, _, rfl, running⟩ := runs_ask_bind_iff.mp judged
    obtain ⟨kept, _, _, rfl, ended⟩ := runs_ask_bind_iff.mp running
    obtain ⟨rfl, rfl, rfl⟩ := runs_pure_iff.mp ended
    have step : Transition tree memory _ _ _ _ := .resumes asked release waited told kept rfl
    simp only [Memory.after_append, Memory.after_cons, Memory.after_nil] at step
    rw [List.append_assoc] at step
    exact step

private theorem settleS3_runs (run : (settleS3 memory).Runs trace final next) :
    ∃ idled looked pressed,
      trace = [⟨.allowIdle true, idled, ()⟩, ⟨.buttonPressed, looked, pressed⟩] ∧
      final = ((memory.hear idled).hear looked).settled pressed ∧ next = .s3 := by
  obtain ⟨idled, _, _, rfl, asked⟩ := runs_ask_bind_iff.mp run
  obtain ⟨looked, pressed, _, rfl, settled⟩ := runs_ask_bind_iff.mp asked
  refine ⟨idled, looked, pressed, ?_⟩
  cases pressed with
  | false =>
    obtain ⟨rfl, rfl, rfl⟩ := Task.runs_done_iff.mp settled
    exact ⟨rfl, rfl, rfl⟩
  | true =>
    obtain ⟨rfl, rfl, rfl⟩ := Task.runs_done_iff.mp settled
    exact ⟨rfl, rfl, rfl⟩

private theorem stepS0S3_runs (run : (stepS0S3 tree memory).Runs trace final next) :
    Transition tree memory .s0s3 trace final next := by
  obtain ⟨told, _, _, rfl, begun⟩ := runs_ask_bind_iff.mp run
  obtain ⟨_, _, outcome, _, slept, written, rfl⟩ :=
    runs_bind_iff.mp (runs_read_bind_iff.mp begun)
  have grace := sleepAbortable_runs slept
  cases outcome with
  | aborted =>
    obtain ⟨rfl, rfl, rfl⟩ := runs_pure_iff.mp written
    have aborted := grace.abort (tableRequests slicedRequests tree.tables.s0s3)
    have step : Transition tree memory _ _ _ _ := .callsOffSuspend told aborted
    rw [Memory.after_cons, ← aborted.final_eq] at step
    rw [List.append_nil]
    exact step
  | completed =>
    obtain ⟨_, _, outcome, _, replayed, settled, rfl⟩ := runs_bind_iff.mp written
    have table := grace.append (replayAbortable_runs replayed)
    cases outcome with
    | aborted =>
      obtain ⟨rfl, rfl, rfl⟩ := runs_pure_iff.mp settled
      have step : Transition tree memory _ _ _ _ := .callsOffSuspend told table
      rw [Memory.after_cons, ← table.final_eq] at step
      rw [List.append_nil]
      exact step
    | completed =>
      obtain ⟨idled, looked, pressed, rfl, rfl, rfl⟩ := settleS3_runs settled
      have step : Transition tree memory _ _ _ _ := .suspends told table idled looked pressed rfl
      rw [List.cons_append, Memory.after_cons, Memory.after_append, ← table.final_eq,
        Memory.after_cons, Memory.after_cons, Memory.after_nil] at step
      rw [← List.append_assoc]
      exact step

theorem handle_runs {state : PowerState}
    (run : (handle tree state memory).Runs trace final next) :
    Transition tree memory state trace final next := by
  cases state with
  | g3 =>
    have answered : ((if memory.mailbox.powerOnRequested then pure .g3s5 else pure .g3 :
        Program PowerState) memory.dropPowerOn).Runs trace final next := run
    obtain ⟨rfl, rfl, rfl⟩ := runs_ite_iff.mp answered
    exact .fromG3 rfl
  | s5 =>
    obtain ⟨rfl, rfl, rfl⟩ := runs_ite_iff.mp (runs_read_bind_iff.mp run)
    exact .fromS5 rfl
  | s3 =>
    obtain ⟨calls, lines, _, rfl, seen⟩ := runs_ask_bind_iff.mp run
    have step : Transition tree memory _ _ _ _ := .fromS3 calls lines rfl rfl
    rw [PowerTree.afterS3, Memory.after_cons, Memory.after_nil] at step
    replace seen := runs_read_bind_iff.mp seen
    rw [Memory.forcingShutdown_hear] at seen
    split at seen
    next down =>
      rw [if_pos down] at step
      obtain ⟨rfl, rfl, rfl⟩ := runs_pure_iff.mp seen
      exact step
    next up =>
      rw [if_neg up] at step
      obtain ⟨rfl, rfl, rfl⟩ := runs_ite_iff.mp seen
      exact step
  | s0 => exact stepS0_runs run
  | g3s5 => exact stepG3S5_runs run
  | s5s3 => exact stepS5S3_runs run
  | s3s0 => exact stepS3S0_runs run
  | s0s3 => exact stepS0S3_runs run
  | s3s5 =>
    obtain ⟨told, _, _, rfl, begun⟩ := runs_ask_bind_iff.mp run
    obtain ⟨_, _, _, _, replayed, ended, rfl⟩ := runs_bind_iff.mp begun
    obtain ⟨asked, rfl⟩ := replay_runs replayed
    obtain ⟨rfl, rfl, rfl⟩ := runs_pure_iff.mp ended
    rw [List.append_nil]
    have step : Transition tree memory _ _ _ _ := .powersDown told asked
    rw [Memory.after_cons] at step
    exact step
  | s5g3 =>
    obtain ⟨rfl, rfl, rfl⟩ := runs_pure_iff.mp run
    exact .turnsOff

/-- There is no other way through a step. -/
theorem step_runs {state : PowerState} (run : (step tree state memory).Runs trace final next) :
    Transition tree memory.takeShutdown state trace final next :=
  handle_runs (runs_modify_bind_iff.mp run)

/-- However far a step has come, what it has driven is an entry of its table, or the release of the
reset line by a resume. -/
theorem write_of_reaches {state : PowerState} {task : Task PowerState} {write : Rail × Level}
    (reached : (step tree state memory).Reaches trace task)
    (driven : write ∈ Exchange.writes trace) :
    write ∈ (tree.tables.edge state).map RailWrite.output ∨
      state = .s3s0 ∧ write = (.sysRstL, .high) := by
  obtain ⟨rest, final, next, run⟩ := reached.extend
  obtain ⟨tabled, begun, whole⟩ := (step_runs run).writes_eq
  have member : write ∈ tabled ++ state.release memory.takeShutdown.resetHeld := by
    rw [← whole, Exchange.writes_append]
    exact List.mem_append_left _ driven
  rcases List.mem_append.mp member with entry | release
  · exact .inl (begun.subset entry)
  · rw [PowerState.release] at release
    split at release
    next resumes => exact .inr ⟨resumes.1, List.mem_singleton.mp release⟩
    next => exact absurd release List.not_mem_nil

theorem serveReset_apply (memory : Memory) : serveReset memory =
    (if memory.mailbox.resetRequested.isSome then pulseReset else pure () : Program Unit)
      memory.takeReset := rfl

/-- Serving a reset request is a pulse if there is one, and nothing otherwise. -/
theorem serveReset_runs {answer : Unit} (run : (serveReset memory).Runs trace final answer) :
    Exchange.requests trace =
      (if memory.mailbox.resetRequested.isSome then pulseRequests else []) ∧
    final = memory.takeReset.after trace := by
  rw [serveReset_apply] at run
  split at run
  next asked =>
    rw [if_pos asked]
    exact pulseReset_runs run
  next quiet =>
    rw [if_neg quiet]
    obtain ⟨rfl, rfl, -⟩ := runs_pure_iff.mp run
    exact ⟨rfl, rfl⟩

/-- All that happens to the memory while a reset request is served is that other tasks call. -/
theorem serveReset_memory {task : Task Unit} (reached : (serveReset memory).Reaches trace task) :
    task.memory = memory.takeReset.after trace := by
  rw [serveReset_apply] at reached
  split at reached
  · rcases Task.reaches_ask_iff.mp reached with ⟨rfl, rfl⟩ | ⟨_, _, _, rfl, held⟩
    · rfl
    · rw [Memory.after_cons]
      rcases Task.reaches_ask_iff.mp held with ⟨rfl, rfl⟩ | ⟨_, _, _, rfl, slept⟩
      · rfl
      · rw [Memory.after_cons]
        rcases Task.reaches_ask_iff.mp slept with ⟨rfl, rfl⟩ | ⟨_, _, _, rfl, released⟩
        · rfl
        · obtain ⟨rfl, rfl⟩ := Task.reaches_done_iff.mp released
          rw [Memory.after_cons]
          rfl
  · obtain ⟨rfl, rfl⟩ := Task.reaches_done_iff.mp reached
    rfl

@[simp]
theorem memory_serveReset (memory : Memory) : (serveReset memory).memory = memory.takeReset :=
  serveReset_memory (.refl _)

/-- Serving a reset request drives the reset line at most, however far it has come. -/
theorem serveReset_writes {task : Task Unit}
    (reached : (serveReset memory).Reaches trace task) :
    ∀ write ∈ Exchange.writes trace, write.1 = .sysRstL := by
  obtain ⟨rest, final, answer, run⟩ := reached.extend
  have only : ∀ write ∈ Exchange.writes (trace ++ rest), write.1 = .sysRstL := by
    rw [Exchange.writes, (serveReset_runs run).1]
    split
    · decide
    · exact fun _ member => absurd member List.not_mem_nil
  intro write member
  apply only
  rw [Exchange.writes_append]
  exact List.mem_append_left _ member

section Start

variable {tree : PowerTree} {boot : BootInfo} {state : PowerState}

/-- The three ways through the start: the processor is found running, or it is not, or nobody looks. -/
theorem start_runs (run : (start tree boot memory).Runs trace final state) :
    boot.jumped = true ∧ (∃ calls lines kept, lines.contains tree.allS0 = true ∧
        trace = [⟨.readLines, calls, lines⟩, ⟨.allowIdle false, kept, ()⟩] ∧ state = .s0) ∨
      boot.jumped = true ∧ (∃ calls lines, lines.contains tree.allS0 = false ∧
        trace = [⟨.readLines, calls, lines⟩] ∧ state = .g3) ∨
      boot.jumped = false ∧ trace = [] ∧ state = .g3 := by
  have begun := runs_modify_bind_iff.mp run
  cases jumped : boot.jumped with
  | true =>
    rw [if_pos jumped] at begun
    obtain ⟨calls, lines, _, rfl, looked⟩ := runs_ask_bind_iff.mp begun
    cases running : SignalMask.contains lines tree.allS0 with
    | true =>
      rw [if_pos running] at looked
      obtain ⟨kept, _, _, rfl, ended⟩ := runs_ask_bind_iff.mp looked
      obtain ⟨rfl, -, rfl⟩ := Task.runs_done_iff.mp ended
      exact .inl ⟨rfl, calls, lines, kept, running, rfl, rfl⟩
    | false =>
      rw [if_neg (Bool.eq_false_iff.mp running)] at looked
      obtain ⟨rfl, -, rfl⟩ := Task.runs_done_iff.mp looked
      exact .inr (.inl ⟨rfl, calls, lines, running, rfl, rfl⟩)
  | false =>
    rw [if_neg (Bool.eq_false_iff.mp jumped)] at begun
    split at begun
    · obtain ⟨rfl, -, rfl⟩ := Task.runs_done_iff.mp begun
      exact .inr (.inr ⟨rfl, rfl, rfl⟩)
    · obtain ⟨rfl, -, rfl⟩ := Task.runs_done_iff.mp begun
      exact .inr (.inr ⟨rfl, rfl, rfl⟩)

/-- The start picks S0 where the processor was left running and every line of S0 is still seen. -/
theorem start_state {lines : SignalMask} (run : (start tree boot memory).Runs trace final state)
    (reads : ∀ exchange ∈ trace, exchange.Reads lines) :
    state = if boot.jumped && lines.contains tree.allS0 then .s0 else .g3 := by
  rcases start_runs run with
    ⟨jumped, _, seen, _, running, rfl, rfl⟩ | ⟨jumped, _, seen, gone, rfl, rfl⟩ |
    ⟨started, rfl, rfl⟩
  · obtain rfl : seen = lines := reads _ List.mem_cons_self
    rw [jumped, running]
    rfl
  · obtain rfl : seen = lines := reads _ List.mem_cons_self
    rw [jumped, gone]
    rfl
  · rw [started]
    rfl

/-- The start looks at the lines and forbids to idle at most: it neither drives nor waits. -/
theorem start_requests (run : (start tree boot memory).Runs trace final state) :
    Exchange.requests trace <+: [.readLines, .allowIdle false] := by
  rcases start_runs run with ⟨-, _, _, _, -, rfl, -⟩ | ⟨-, _, _, -, rfl, -⟩ | ⟨-, rfl, -⟩
  · exact List.prefix_rfl
  · exact ⟨_, rfl⟩
  · exact List.nil_prefix

theorem start_writes (run : (start tree boot memory).Runs trace final state) :
    Exchange.writes trace = [] :=
  List.prefix_nil.mp ((start_requests run).filterMap Request.write?)

theorem start_notified (run : (start tree boot memory).Runs trace final state) :
    Exchange.notified trace = [] :=
  List.prefix_nil.mp ((start_requests run).filterMap Request.event?)

/-- Wherever the start has come, it does not wait. -/
theorem start_asks_atOnce {asking : Memory} {request : Request}
    {resume : Mailbox → request.Answer → Task PowerState}
    (reached : (start tree boot memory).Reaches trace (.ask asking request resume)) :
    request = .readLines ∨ request = .allowIdle false := by
  obtain ⟨rest, final, state, run⟩ := (reached.answer [] request.darkAnswer).extend
  have asked : request ∈
      Exchange.requests (trace ++ [⟨request, [], request.darkAnswer⟩] ++ rest) := by
    simp
  have known := (start_requests run).subset asked
  rwa [List.mem_cons, List.mem_singleton] at known

end Start

end Program

end RailSequencer
