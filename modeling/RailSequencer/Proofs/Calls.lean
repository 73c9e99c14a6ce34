import RailSequencer.Mailbox

/-!
# Calls on the mailbox

Other tasks and interrupt handlers reach the power task through the mailbox alone, one whole
call at a time. `Mailbox.Call` lists these calls, and `Heard` says what any number of them can
do to the cells that the power task looks at. Everything that is proved about the power task
under interference rests on `heard_performAll` and on what follows it about single requests; no
later module opens a call again.
-/

namespace RailSequencer

/-- What another task may call. The timer's task looks at the shutdown timer at any time `now`;
a look that finds the deadline reached requests a shutdown. -/
inductive Mailbox.Call where
  | wake
  | requestShutdown
  | requestPowerOn
  | requestReset (kind : ResetKind)
  | powerButton (pressed : Bool)
  | lid (isOpen : Bool)
  | setLongPress (holdMs : Nat)
  | schedule (delayUs : Nat)
  | cancelTimer
  | deferTimer (delayMs : Int)
  | turnTimer (now : Nat)
deriving DecidableEq, Repr

/-- The processor is hard off or headed there, so a power-on request counts. -/
def PowerState.TakesPowerOn (state : PowerState) : Prop := state = .g3 ∨ state = .s5g3

instance (state : PowerState) : Decidable state.TakesPowerOn :=
  inferInstanceAs (Decidable (state = .g3 ∨ state = .s5g3))

/-- Calls that ask for power-on. A press of the button starts the hold time as well. -/
def Mailbox.Call.AsksPowerOn : Mailbox.Call → Prop
  | .requestPowerOn | .powerButton true | .lid true => True
  | _ => False

/-- Calls that ask for a reset. -/
def Mailbox.Call.AsksReset : Mailbox.Call → Prop
  | .requestReset _ => True
  | _ => False

instance : DecidablePred Mailbox.Call.AsksReset
  | .requestReset _ => isTrue trivial
  | .wake | .requestShutdown | .requestPowerOn | .powerButton _ | .lid _ | .setLongPress _
  | .schedule _ | .cancelTimer | .deferTimer _ | .turnTimer _ => isFalse id

namespace Mailbox

/-- Carry out a call. -/
def perform (mailbox : Mailbox) : Call → Mailbox
  | .wake => mailbox.wake
  | .requestShutdown => mailbox.requestShutdown
  | .requestPowerOn => mailbox.requestPowerOn
  | .requestReset kind => mailbox.requestReset kind
  | .powerButton pressed => mailbox.powerButton pressed
  | .lid isOpen => mailbox.lid isOpen
  | .setLongPress holdMs => mailbox.setLongPress holdMs
  | .schedule delayUs => mailbox.schedule delayUs
  | .cancelTimer => mailbox.cancelTimer
  | .deferTimer delayMs => { mailbox with shutdownTimer := mailbox.shutdownTimer.defer delayMs }
  | .turnTimer now => mailbox.turnTimer now

/-- Carry out calls, the first one first. -/
def performAll (mailbox : Mailbox) (calls : List Call) : Mailbox := calls.foldl perform mailbox

@[simp]
theorem performAll_cons (mailbox : Mailbox) (call : Call) (calls : List Call) :
    mailbox.performAll (call :: calls) = (mailbox.perform call).performAll calls := rfl

theorem performAll_append (mailbox : Mailbox) (first second : List Call) :
    mailbox.performAll (first ++ second) = (mailbox.performAll first).performAll second :=
  List.foldl_append

/-- What holds of every change of the mailbox between two publications: a power-on request is
accepted on the way to G3 only. -/
structure Keeps (before after : Mailbox) : Prop where
  published : after.published = before.published
  accepted : after.powerOnRequested = true →
    before.powerOnRequested = true ∨ before.published = .g3 ∨ before.published = .s5g3

/-- What calls can do to the cells of the power task: requests are added, never taken back, and
whoever changes a request wakes the power task. -/
structure Heard (before after : Mailbox) : Prop extends Keeps before after where
  inhibited : after.inhibited = before.inhibited
  shutdown : before.shutdownRequested = true → after.shutdownRequested = true
  powerOn : before.powerOnRequested = true → after.powerOnRequested = true
  reset : before.resetRequested.isSome = true → after.resetRequested.isSome = true
  woken : before.woken = true → after.woken = true
  asleep : after.woken = false →
    after.shutdownRequested = before.shutdownRequested ∧
      after.powerOnRequested = before.powerOnRequested ∧
      after.resetRequested = before.resetRequested

namespace Keeps

variable {first middle last : Mailbox}

theorem trans (earlier : Keeps first middle) (later : Keeps middle last) : Keeps first last where
  published := later.published.trans earlier.published
  accepted := by
    intro accepted
    rcases later.accepted accepted with pending | onTheWay
    · exact earlier.accepted pending
    · rw [earlier.published] at onTheWay
      exact Or.inr onTheWay

end Keeps

namespace Heard

variable {first middle last : Mailbox}

theorem refl (mailbox : Mailbox) : Heard mailbox mailbox where
  published := rfl
  inhibited := rfl
  shutdown := id
  powerOn := id
  accepted := Or.inl
  reset := id
  woken := id
  asleep := fun _ => ⟨rfl, rfl, rfl⟩

/-- A power task that was not woken in the end was not woken at all. -/
theorem asleep_before (heard : Heard first last) (asleep : last.woken = false) :
    first.woken = false := by
  cases woken : first.woken with
  | false => rfl
  | true => exact absurd (heard.woken woken) (by simp [asleep])

theorem trans (earlier : Heard first middle) (later : Heard middle last) : Heard first last where
  toKeeps := earlier.toKeeps.trans later.toKeeps
  inhibited := later.inhibited.trans earlier.inhibited
  shutdown := later.shutdown ∘ earlier.shutdown
  powerOn := later.powerOn ∘ earlier.powerOn
  reset := later.reset ∘ earlier.reset
  woken := later.woken ∘ earlier.woken
  asleep := by
    intro asleep
    obtain ⟨shutdown, powerOn, reset⟩ := later.asleep asleep
    have before := earlier.asleep (later.asleep_before asleep)
    exact ⟨shutdown.trans before.1, powerOn.trans before.2.1, reset.trans before.2.2⟩

/-- A change of the timer and of the hold time is no concern of the power task. -/
private theorem of_timer (mailbox : Mailbox) (timer : OneShot) (holdMs : UInt32) :
    Heard mailbox { mailbox with shutdownTimer := timer, longPressMs := holdMs } where
  published := rfl
  inhibited := rfl
  shutdown := id
  powerOn := id
  accepted := Or.inl
  reset := id
  woken := id
  asleep := fun _ => ⟨rfl, rfl, rfl⟩

/-- A call that wakes the power task may add requests. -/
private theorem of_woken (mailbox : Mailbox) {shutdown powerOn : Bool} {reset : Option ResetKind}
    (shutdownKept : mailbox.shutdownRequested = true → shutdown = true)
    (powerOnKept : mailbox.powerOnRequested = true → powerOn = true)
    (accepted : powerOn = true →
      mailbox.powerOnRequested = true ∨ mailbox.published = .g3 ∨ mailbox.published = .s5g3)
    (resetKept : mailbox.resetRequested.isSome = true → reset.isSome = true) :
    Heard mailbox
      { mailbox with
        shutdownRequested := shutdown
        powerOnRequested := powerOn
        resetRequested := reset
        woken := true } where
  published := rfl
  inhibited := rfl
  shutdown := shutdownKept
  powerOn := powerOnKept
  accepted := accepted
  reset := resetKept
  woken := fun _ => rfl
  asleep := nofun

theorem wake (mailbox : Mailbox) : Heard mailbox mailbox.wake :=
  of_woken mailbox id id Or.inl id

theorem requestShutdown (mailbox : Mailbox) : Heard mailbox mailbox.requestShutdown :=
  of_woken mailbox (fun _ => rfl) id Or.inl id

theorem requestReset (mailbox : Mailbox) (kind : ResetKind) :
    Heard mailbox (mailbox.requestReset kind) :=
  of_woken mailbox id id Or.inl (fun _ => rfl)

theorem requestPowerOn (mailbox : Mailbox) : Heard mailbox mailbox.requestPowerOn := by
  unfold Mailbox.requestPowerOn
  split
  next published => exact of_woken mailbox id (fun _ => rfl) (fun _ => Or.inr (Or.inl published)) id
  next published => exact of_woken mailbox id (fun _ => rfl) (fun _ => Or.inr (Or.inr published)) id
  next => exact refl mailbox

theorem powerButton (mailbox : Mailbox) (pressed : Bool) :
    Heard mailbox (mailbox.powerButton pressed) := by
  cases pressed with
  | false => exact of_timer mailbox _ _
  | true =>
    simp only [Mailbox.powerButton, if_true]
    split
    · exact (requestPowerOn mailbox).trans (of_timer _ _ _)
    · exact of_timer mailbox _ _

theorem lid (mailbox : Mailbox) (isOpen : Bool) : Heard mailbox (mailbox.lid isOpen) := by
  unfold Mailbox.lid
  split
  · exact requestPowerOn mailbox
  · exact refl mailbox

theorem turnTimer (mailbox : Mailbox) (now : Nat) : Heard mailbox (mailbox.turnTimer now) := by
  unfold Mailbox.turnTimer
  simp only
  split
  · exact (of_timer mailbox _ _).trans (requestShutdown _)
  · exact of_timer mailbox _ _

end Heard

theorem heard_perform (mailbox : Mailbox) (call : Call) : Heard mailbox (mailbox.perform call) := by
  cases call with
  | wake => exact .wake mailbox
  | requestShutdown => exact .requestShutdown mailbox
  | requestPowerOn => exact .requestPowerOn mailbox
  | requestReset kind => exact .requestReset mailbox kind
  | powerButton pressed => exact .powerButton mailbox pressed
  | lid isOpen => exact .lid mailbox isOpen
  | setLongPress holdMs => exact Heard.of_timer mailbox _ _
  | schedule delayUs => exact Heard.of_timer mailbox _ _
  | cancelTimer => exact Heard.of_timer mailbox _ _
  | deferTimer delayMs => exact Heard.of_timer mailbox _ _
  | turnTimer now => exact .turnTimer mailbox now

/-- Any number of calls, by whichever tasks. -/
theorem heard_performAll (mailbox : Mailbox) (calls : List Call) :
    Heard mailbox (mailbox.performAll calls) := by
  induction calls generalizing mailbox with
  | nil => exact .refl mailbox
  | cons call calls inductionHypothesis =>
    exact (heard_perform mailbox call).trans (inductionHypothesis _)

/-- A power-on request is made where it counts, and does nothing anywhere else. -/
theorem requestPowerOn_eq (mailbox : Mailbox) : mailbox.requestPowerOn =
    if mailbox.published.TakesPowerOn then
      { mailbox with powerOnRequested := true, woken := true }
    else
      mailbox := by
  obtain ⟨published, _, _, _, _, _, _, _⟩ := mailbox
  cases published <;> rfl

private theorem requestPowerOn_elsewhere {mailbox : Mailbox}
    (elsewhere : ¬mailbox.published.TakesPowerOn) : mailbox.requestPowerOn = mailbox := by
  rw [requestPowerOn_eq, if_neg elsewhere]

private theorem powerOnRequested_requestPowerOn {mailbox : Mailbox}
    (counts : mailbox.published.TakesPowerOn) : mailbox.requestPowerOn.powerOnRequested = true := by
  rw [requestPowerOn_eq, if_pos counts]

/-- The button and the lid ask for power-on wherever that counts. -/
private theorem isIn_anyOff {mailbox : Mailbox} (counts : mailbox.published.TakesPowerOn) :
    mailbox.isIn .anyOff = true := by
  rw [isIn]
  rcases counts with published | published
  · rw [published]
    decide
  · rw [published]
    decide

/-- A call that asks for power-on where that does not count changes nothing but the timer. -/
theorem perform_elsewhere {mailbox : Mailbox} {call : Call} (asks : call.AsksPowerOn)
    (elsewhere : ¬mailbox.published.TakesPowerOn) :
    mailbox.perform call =
      { mailbox with shutdownTimer := (mailbox.perform call).shutdownTimer } := by
  have ignored := requestPowerOn_elsewhere elsewhere
  cases call with
  | requestPowerOn =>
    rw [perform, ignored]
  | powerButton pressed =>
    cases pressed with
    | false => exact absurd asks id
    | true => simp [perform, powerButton, schedule, ignored]
  | lid isOpen => simp [perform, lid, ignored]
  | _ => exact absurd asks id

/-- A power-on request is pending after a call if it was before, or the call asks for it where that
counts. -/
theorem powerOnRequested_perform_iff {mailbox : Mailbox} {call : Call} :
    (mailbox.perform call).powerOnRequested = true ↔
      mailbox.powerOnRequested = true ∨ call.AsksPowerOn ∧ mailbox.published.TakesPowerOn := by
  by_cases asks : call.AsksPowerOn
  · by_cases counts : mailbox.published.TakesPowerOn
    · have requested : (mailbox.perform call).powerOnRequested = true := by
        have answered := powerOnRequested_requestPowerOn counts
        cases call with
        | requestPowerOn => exact answered
        | powerButton pressed =>
          cases pressed with
          | false => exact absurd asks id
          | true => simp [perform, powerButton, schedule, isIn_anyOff counts, answered]
        | lid isOpen =>
          cases isOpen with
          | false => exact absurd asks id
          | true => simp [perform, lid, isIn_anyOff counts, answered]
        | _ => exact absurd asks id
      exact iff_of_true requested (.inr ⟨asks, counts⟩)
    · rw [perform_elsewhere asks counts]
      simp [counts]
  · have same : (mailbox.perform call).powerOnRequested = mailbox.powerOnRequested := by
      cases call with
      | requestPowerOn => exact absurd trivial asks
      | powerButton pressed =>
        cases pressed with
        | false => rfl
        | true => exact absurd trivial asks
      | lid isOpen =>
        cases isOpen with
        | false => rfl
        | true => exact absurd trivial asks
      | turnTimer now =>
        simp only [perform, turnTimer]
        split
        · rfl
        · rfl
      | _ => rfl
    simp [same, asks]

theorem powerOnRequested_performAll_iff {mailbox : Mailbox} {calls : List Call} :
    (mailbox.performAll calls).powerOnRequested = true ↔
      mailbox.powerOnRequested = true ∨
        (∃ call ∈ calls, call.AsksPowerOn) ∧ mailbox.published.TakesPowerOn := by
  induction calls generalizing mailbox with
  | nil => simp [performAll]
  | cons call calls inductionHypothesis =>
    have asked : (∃ asking ∈ call :: calls, asking.AsksPowerOn) ↔
        call.AsksPowerOn ∨ ∃ asking ∈ calls, asking.AsksPowerOn := by simp
    rw [performAll_cons, inductionHypothesis, powerOnRequested_perform_iff,
      (heard_perform mailbox call).published, asked, or_assoc, ← or_and_right]

/-- No other call asks for a reset. -/
theorem resetRequested_perform {mailbox : Mailbox} {call : Call} (other : ¬call.AsksReset) :
    (mailbox.perform call).resetRequested = mailbox.resetRequested := by
  have powerOn (mailbox : Mailbox) :
      mailbox.requestPowerOn.resetRequested = mailbox.resetRequested := by
    unfold requestPowerOn
    split <;> rfl
  cases call with
  | requestReset kind => exact absurd trivial other
  | requestPowerOn => exact powerOn mailbox
  | powerButton pressed =>
    cases pressed with
    | false => rfl
    | true =>
      simp only [perform, powerButton, schedule, if_true]
      split
      · exact powerOn mailbox
      · rfl
  | lid isOpen =>
    simp only [perform, lid]
    split
    · exact powerOn mailbox
    · rfl
  | turnTimer now =>
    simp only [perform, turnTimer]
    split
    · rfl
    · rfl
  | _ => rfl

theorem resetRequested_performAll {mailbox : Mailbox} {calls : List Call}
    (others : ∀ call ∈ calls, ¬call.AsksReset) :
    (mailbox.performAll calls).resetRequested = mailbox.resetRequested := by
  induction calls generalizing mailbox with
  | nil => rfl
  | cons call calls inductionHypothesis =>
    obtain ⟨other, others⟩ := List.forall_mem_cons.mp others
    rw [performAll_cons, inductionHypothesis others, resetRequested_perform other]

/-- A shutdown that was called for stays requested, whatever is called around it. -/
theorem shutdownRequested_performAll (mailbox : Mailbox) {calls : List Call}
    (called : .requestShutdown ∈ calls) : (mailbox.performAll calls).shutdownRequested = true := by
  obtain ⟨earlier, later, rfl⟩ := List.append_of_mem called
  rw [performAll_append, performAll_cons]
  exact (heard_performAll _ later).shutdown rfl

end Mailbox

end RailSequencer
