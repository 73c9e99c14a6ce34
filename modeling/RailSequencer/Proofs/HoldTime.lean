import Mathlib.Logic.Relation
import RailSequencer.Mailbox
import RailSequencer.Proofs.Punctual

/-!
# How long the power button is held before it forces a shutdown

A press of the power button starts the hold time, and a release stops it. `Watch` is the mailbox on
a clock, with the times at which the task of the shutdown timer has forced a shutdown. That task is
polled in time: no time passes while a command waits or a deadline has been reached. Whatever else
happens to the mailbox meanwhile is left open, as long as nobody uses the timer.

The shutdown is forced at the end of the hold time that is in the cell. The cell has 32 bits, and
what does not fit into it is lost: a hold time of 2³² ms is none at all.
-/

namespace RailSequencer

namespace Mailbox

variable (mailbox : Mailbox) (now : Nat)

@[simp]
theorem shutdownTimer_turnTimer :
    (mailbox.turnTimer now).shutdownTimer = (mailbox.shutdownTimer.turn now).1 := by
  simp only [turnTimer]
  split <;> rfl

theorem shutdownRequested_turnTimer : (mailbox.turnTimer now).shutdownRequested =
    (mailbox.shutdownRequested || (mailbox.shutdownTimer.turn now).2) := by
  simp only [turnTimer]
  cases fired : (mailbox.shutdownTimer.turn now).2 <;> simp [requestShutdown, wake]

/-- The task of the timer polls the timer. -/
@[simp]
theorem shutdownTimer_pollTimer :
    (mailbox.pollTimer now).shutdownTimer = (mailbox.shutdownTimer.poll now).1 := by
  simp [pollTimer, OneShot.poll]

/-- It forces a shutdown when the timer calls. -/
theorem shutdownRequested_pollTimer (calls : 0 < (mailbox.shutdownTimer.poll now).2) :
    (mailbox.pollTimer now).shutdownRequested = true := by
  rw [pollTimer, shutdownRequested_turnTimer, shutdownRequested_turnTimer, shutdownTimer_turnTimer]
  cases first : (mailbox.shutdownTimer.turn now).2 with
  | true => simp
  | false =>
    rw [OneShot.poll, first] at calls
    simpa [Bool.toNat_eq_zero, Nat.pos_iff_ne_zero] using Or.inr calls

/-- The hold time that is left of the one that was set. -/
theorem longPressUs_setLongPress (holdMs : Nat) :
    (mailbox.setLongPress holdMs).longPressUs = holdMs % UInt32.size * Timing.usPerMs := by
  simp [longPressUs, setLongPress]

/-- A press starts the hold time, whatever it does besides. -/
theorem shutdownTimer_press : (mailbox.powerButton true).shutdownTimer =
    mailbox.shutdownTimer.schedule mailbox.longPressUs := by
  have same : mailbox.requestPowerOn.shutdownTimer = mailbox.shutdownTimer ∧
      mailbox.requestPowerOn.longPressUs = mailbox.longPressUs := by
    unfold requestPowerOn
    split <;> exact ⟨rfl, rfl⟩
  rw [powerButton, if_pos rfl]
  split
  · simp [schedule, same]
  · rfl

end Mailbox

/-- The mailbox at a time, and when the task of the timer has forced a shutdown. -/
structure Watch where
  now : Nat
  mailbox : Mailbox
  raised : List Nat

namespace Watch

/-- The task of the timer is polled. -/
def poll (watch : Watch) : Watch where
  now := watch.now
  mailbox := watch.mailbox.pollTimer watch.now
  raised := watch.raised ++
    List.replicate (watch.mailbox.shutdownTimer.poll watch.now).2 watch.now

/-- The button is pressed or released. -/
def button (watch : Watch) (pressed : Bool) : Watch :=
  { watch with mailbox := watch.mailbox.powerButton pressed }

/-- What may happen while nobody uses the timer and its task is polled in time. -/
inductive Moves (watch : Watch) : Watch → Prop where
  | polls : Moves watch watch.poll
  | elsewhere {mailbox : Mailbox}
      (unused : mailbox.shutdownTimer = watch.mailbox.shutdownTimer) :
      Moves watch { watch with mailbox := mailbox }
  | passes {later : Nat} (forward : watch.now ≤ later)
      (taken : watch.mailbox.shutdownTimer.command = none)
      (inTime : ∀ deadline ∈ watch.mailbox.shutdownTimer.deadline, later ≤ deadline) :
      Moves watch { watch with now := later }

/-- Any number of such moves. -/
def Reaches : Watch → Watch → Prop := Relation.ReflTransGen Moves

/-- The button has been pressed, with a hold time that ends at `expiry`. -/
inductive Holding (expiry : Nat) (watch : Watch) : Prop where
  | pressed {delayUs : Nat} {before : Option Nat}
      (timer : watch.mailbox.shutdownTimer = ⟨some (.schedule delayUs), before⟩)
      (ends : watch.now + delayUs = expiry) (ahead : ∀ deadline ∈ before, watch.now < deadline)
      (quiet : watch.raised = [])
  | waits (timer : watch.mailbox.shutdownTimer = ⟨none, some expiry⟩) (inTime : watch.now ≤ expiry)
      (quiet : watch.raised = [])
  | forced (timer : watch.mailbox.shutdownTimer = {}) (past : expiry ≤ watch.now)
      (once : watch.raised = [expiry])

/-- The button has been released in time. -/
inductive Released (watch : Watch) : Prop where
  | asked {before : Option Nat} (timer : watch.mailbox.shutdownTimer = ⟨some .cancel, before⟩)
      (ahead : ∀ deadline ∈ before, watch.now < deadline) (quiet : watch.raised = [])
  | taken (timer : watch.mailbox.shutdownTimer = {}) (quiet : watch.raised = [])

variable {watch later : Watch} {expiry time : Nat}

/-- A deadline that is ahead is not due. -/
theorem not_due {before : Option Nat} {now : Nat} (ahead : ∀ deadline ∈ before, now < deadline) :
    before.any (· ≤ now) = false := by
  cases before with
  | none => rfl
  | some deadline => simpa using ahead deadline rfl

/-- A poll does to the mailbox and to the record what it does to the timer. -/
theorem poll_eq {timer : OneShot} {calls : Nat}
    (polled : watch.mailbox.shutdownTimer.poll watch.now = (timer, calls)) :
    watch.poll.mailbox.shutdownTimer = timer ∧
      watch.poll.raised = watch.raised ++ List.replicate calls watch.now := by
  simp [poll, polled]

/-- A poll of an idle timer does nothing. -/
theorem poll_idle (idle : watch.mailbox.shutdownTimer = {}) :
    watch.poll.mailbox.shutdownTimer = {} ∧ watch.poll.raised = watch.raised := by
  have polled : watch.mailbox.shutdownTimer.poll watch.now = ({}, 0) := by
    rw [idle, OneShot.poll_none]
    rfl
  obtain ⟨after, raised⟩ := poll_eq polled
  exact ⟨after, by simpa using raised⟩

/-- A poll in time forces the shutdown at the end of the hold time, and only there. -/
theorem Holding.poll (holding : Holding expiry watch) : Holding expiry watch.poll := by
  cases holding with
  | @pressed delayUs before timer ends ahead quiet =>
    have polled := OneShot.poll_schedule before watch.now delayUs
    -- A deadline from an earlier press is not due, and is given up when the command is taken.
    rw [not_due ahead, ← timer] at polled
    split at polled
    next atOnce =>
      obtain ⟨after, raised⟩ := poll_eq polled
      obtain rfl : watch.now = expiry := by omega
      exact .forced after (Nat.le_refl _) (by simp [raised, quiet])
    next delayed =>
      obtain ⟨after, raised⟩ := poll_eq polled
      rw [ends] at after
      exact .waits after (by simp only [Watch.poll]; omega) (by simp [raised, quiet])
  | waits timer inTime quiet =>
    have polled := OneShot.poll_none (some expiry) watch.now
    rw [← timer] at polled
    split at polled
    next reached =>
      obtain ⟨after, raised⟩ := poll_eq polled
      obtain rfl : watch.now = expiry := Nat.le_antisymm inTime (by simpa using reached)
      exact .forced after (Nat.le_refl _) (by simp [raised, quiet])
    next notYet =>
      obtain ⟨after, raised⟩ := poll_eq polled
      exact .waits (after.trans timer) inTime (by simp [raised, quiet])
  | forced timer past once =>
    obtain ⟨after, raised⟩ := poll_idle timer
    exact .forced after past (by simp [raised, once])

/-- A poll after a release in time forces nothing. -/
theorem Released.poll (released : Released watch) : Released watch.poll := by
  cases released with
  | @asked before timer ahead quiet =>
    have polled := OneShot.poll_cancel before watch.now
    rw [not_due ahead, ← timer] at polled
    obtain ⟨after, raised⟩ := poll_eq polled
    exact .taken after (by simp [raised, quiet])
  | taken timer quiet =>
    obtain ⟨after, raised⟩ := poll_idle timer
    exact .taken after (by simp [raised, quiet])

/-- Time stops for a command that waits and at the deadline, so nothing is forced late. -/
theorem Moves.holding (moves : Moves watch later) (holding : Holding expiry watch) :
    Holding expiry later := by
  cases moves with
  | polls => exact holding.poll
  | elsewhere unused =>
    cases holding with
    | pressed timer ends ahead quiet => exact .pressed (unused.trans timer) ends ahead quiet
    | waits timer inTime quiet => exact .waits (unused.trans timer) inTime quiet
    | forced timer past once => exact .forced (unused.trans timer) past once
  | passes forward taken inTime =>
    cases holding with
    | pressed timer ends ahead quiet =>
      rw [timer] at taken
      exact absurd taken nofun
    | waits timer _ quiet => exact .waits timer (inTime expiry (by rw [timer]; rfl)) quiet
    | forced timer past once => exact .forced timer (Nat.le_trans past forward) once

theorem Moves.released (moves : Moves watch later) (released : Released watch) :
    Released later := by
  cases moves with
  | polls => exact released.poll
  | elsewhere unused =>
    cases released with
    | asked timer ahead quiet => exact .asked (unused.trans timer) ahead quiet
    | taken timer quiet => exact .taken (unused.trans timer) quiet
  | passes forward taken inTime =>
    cases released with
    | asked timer ahead quiet =>
      rw [timer] at taken
      exact absurd taken nofun
    | taken timer quiet => exact .taken timer quiet

/-- What every move keeps holds however many are made. -/
theorem Reaches.carries {holds : Watch → Prop}
    (kept : ∀ {earlier next}, Moves earlier next → holds earlier → holds next)
    (reaches : watch.Reaches later) (begun : holds watch) : holds later := by
  induction reaches with
  | refl => exact begun
  | tail _ moves inductionHypothesis => exact kept moves inductionHypothesis

/-- Time passes up to the deadline, if there is one on the way, and from a poll there. -/
theorem exists_reaches_of_taken {before : Option Nat}
    (timer : watch.mailbox.shutdownTimer = ⟨none, before⟩)
    (ahead : ∀ deadline ∈ before, watch.now ≤ deadline) (order : watch.now ≤ time) :
    ∃ later, watch.Reaches later ∧ later.now = time := by
  have taken : watch.mailbox.shutdownTimer.command = none := congrArg OneShot.command timer
  by_cases inTime : ∀ deadline ∈ before, time ≤ deadline
  · rw [show before = watch.mailbox.shutdownTimer.deadline by rw [timer]] at inTime
    exact ⟨_, .single (.passes order taken inTime), rfl⟩
  · simp only [not_forall, Nat.not_le] at inTime
    obtain ⟨deadline, rfl, early⟩ := inTime
    have first : Moves watch { watch with now := deadline } :=
      .passes (ahead deadline rfl) taken (by simp [timer])
    have idle : { watch with now := deadline }.poll.mailbox.shutdownTimer = {} := by
      simp [poll, timer, OneShot.poll_deadline]
    have last : Moves { watch with now := deadline }.poll
        { { watch with now := deadline }.poll with now := time } :=
      .passes (Nat.le_of_lt early) (by rw [idle]) (by simp [idle])
    exact ⟨_, ((Relation.ReflTransGen.single first).tail .polls).tail last, rfl⟩

/-- Nothing keeps time from passing if the task of the timer is polled whenever it has to be. -/
theorem exists_reaches (watch : Watch) (order : watch.now ≤ time) :
    ∃ later, watch.Reaches later ∧ later.now = time := by
  have timer : watch.poll.mailbox.shutdownTimer =
      ⟨none, (watch.mailbox.shutdownTimer.poll watch.now).1.deadline⟩ := by
    simp only [poll, Mailbox.shutdownTimer_pollTimer]
    rfl
  obtain ⟨later, reaches, here⟩ :=
    exists_reaches_of_taken timer (OneShot.le_deadline_of_poll _ watch.now) order
  exact ⟨later, .head .polls reaches, here⟩

/-- What a press starts. -/
theorem Holding.of_press {mailbox : Mailbox} {pressedAt : Nat}
    (ahead : ∀ deadline ∈ mailbox.shutdownTimer.deadline, pressedAt < deadline) :
    Holding (pressedAt + mailbox.longPressUs) ⟨pressedAt, mailbox.powerButton true, []⟩ :=
  .pressed mailbox.shutdownTimer_press rfl ahead rfl

/-- A release before the end of the hold time comes in time. -/
theorem Holding.release (holding : Holding expiry watch) (early : watch.now < expiry) :
    Released (watch.button false) := by
  cases holding with
  | pressed timer ends ahead quiet => exact .asked (congrArg OneShot.cancel timer) ahead quiet
  | waits timer inTime quiet =>
    refine .asked (congrArg OneShot.cancel timer) ?_ quiet
    rintro deadline ⟨⟩
    exact early
  | forced timer past once => exact absurd early (Nat.not_lt.mpr past)

/-- Where the end of the hold time is reached and nothing has been forced yet, a poll does it. -/
theorem Holding.poll_atExpiry (holding : Holding watch.now watch) (quiet : watch.raised = []) :
    watch.poll.raised = [watch.now] ∧ watch.poll.mailbox.shutdownRequested = true := by
  have calls : (watch.mailbox.shutdownTimer.poll watch.now).2 = 1 := by
    cases holding with
    | @pressed delayUs before timer ends ahead _ =>
      obtain rfl : delayUs = 0 := by omega
      rw [timer, OneShot.poll_schedule, if_pos rfl, not_due ahead]
      rfl
    | waits timer _ _ => simp [timer, OneShot.poll_none]
    | forced _ _ once =>
      rw [quiet] at once
      exact absurd once nofun
  refine ⟨?_, Mailbox.shutdownRequested_pollTimer _ _ (by omega)⟩
  simp [Watch.poll, quiet, calls]

end Watch

/-- The button is pressed after the hold time has been set, in any state of the mailbox in which no
earlier hold time is over, and the timer is left alone from there. The shutdown is forced once, at
the end of the hold time, not earlier, and a poll at that time does it; a release before that time
prevents it for good. Any later time can be reached. The hold time is the one that was set if that
is below 2³² ms, and otherwise what is left of it in 32 bits. -/
theorem forcedShutdown_afterHold (holdMs : Nat) {mailbox : Mailbox} {pressedAt : Nat}
    (ahead : ∀ deadline ∈ mailbox.shutdownTimer.deadline, pressedAt < deadline) :
    let watch : Watch := ⟨pressedAt, (mailbox.setLongPress holdMs).powerButton true, []⟩
    let expiry := pressedAt + holdMs % UInt32.size * Timing.usPerMs
    (∀ later, watch.Reaches later →
      (later.now < expiry → later.raised = []) ∧
      (later.now = expiry → later.raised = [expiry] ∨ later.raised = [] ∧
        later.poll.raised = [expiry] ∧ later.poll.mailbox.shutdownRequested = true) ∧
      (expiry < later.now → later.raised = [expiry]) ∧
      (later.now < expiry → ∀ last, (later.button false).Reaches last → last.raised = [])) ∧
    (∀ time, pressedAt ≤ time → ∃ later, watch.Reaches later ∧ later.now = time) ∧
    (expiry = pressedAt + holdMs * Timing.usPerMs ↔ holdMs < UInt32.size) := by
  intro watch expiry
  have begun : Watch.Holding expiry watch := by
    have press : Watch.Holding (pressedAt + (mailbox.setLongPress holdMs).longPressUs) watch :=
      .of_press ahead
    rwa [Mailbox.longPressUs_setLongPress] at press
  refine ⟨?_, fun _ => watch.exists_reaches, ?_⟩
  · intro later reaches
    have holding := reaches.carries Watch.Moves.holding begun
    refine ⟨?_, ?_, ?_, ?_⟩
    · intro early
      cases holding with
      | pressed _ _ _ quiet | waits _ _ quiet => exact quiet
      | forced _ past _ => omega
    · intro here
      have ending : Watch.Holding later.now later := by rwa [here]
      cases holding with
      | forced _ _ once => exact .inl once
      | pressed _ _ _ quiet | waits _ _ quiet =>
        rw [← here]
        exact .inr ⟨quiet, ending.poll_atExpiry quiet⟩
    · intro late
      cases holding with
      | pressed _ ends _ _ => omega
      | waits _ inTime _ => omega
      | forced _ _ once => exact once
    · intro early last ends
      cases ends.carries Watch.Moves.released (holding.release early) with
      | asked _ _ quiet | taken _ quiet => exact quiet
  · have sizeOfCell : UInt32.size = 4294967296 := rfl
    have unit : Timing.usPerMs = 1000 := rfl
    simp only [expiry, sizeOfCell, unit]
    omega

/-- The button is pressed for the second time, for 4.5 s, while the 8 s of a first press have not
passed. Nothing is forced up to 5.4 s, and 5.5 s is when the shutdown is forced, once. -/
theorem forcedShutdown_afterHold_pressedTwice :
    let mailbox : Mailbox := { shutdownTimer := ⟨none, some 8000000⟩ }
    let watch : Watch := ⟨1000000, (mailbox.setLongPress 4500).powerButton true, []⟩
    (∃ early, watch.Reaches early ∧ early.now = 5400000 ∧ early.raised = []) ∧
      ∃ late, watch.Reaches late ∧ late.now = 9000000 ∧ late.raised = [5500000] := by
  intro mailbox watch
  have ahead : ∀ deadline ∈ mailbox.shutdownTimer.deadline, 1000000 < deadline := by decide
  obtain ⟨holds, passes, -⟩ := forcedShutdown_afterHold 4500 ahead
  obtain ⟨early, reachesEarly, atEarly⟩ := passes 5400000 (by decide)
  obtain ⟨late, reachesLate, atLate⟩ := passes 9000000 (by decide)
  refine ⟨⟨early, reachesEarly, atEarly, (holds early reachesEarly).1 ?_⟩,
    late, reachesLate, atLate, (holds late reachesLate).2.2.1 ?_⟩
  · rw [atEarly]
    decide
  · rw [atLate]
    decide

/-- A hold time of 2³² ms and one second is set, and the shutdown is forced after one second. -/
theorem forcedShutdown_afterOneSecond :
    let holdMs := UInt32.size + 1000
    let watch : Watch := ⟨0, (({} : Mailbox).setLongPress holdMs).powerButton true, []⟩
    ∃ later, watch.Reaches later ∧ later.now = 1000000 ∧ later.raised = [1000000] ∧
      later.now < holdMs * Timing.usPerMs := by
  intro holdMs watch
  have waits : Watch.Moves watch.poll { watch.poll with now := 1000000 } :=
    .passes (by decide) (by decide) (by decide)
  exact ⟨_, ((Relation.ReflTransGen.single .polls).tail waits).tail .polls, by decide, by decide,
    by decide⟩

end RailSequencer
