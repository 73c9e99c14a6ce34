import Mathlib.Order.Monotone.Basic
import RailSequencer.Proofs.Exchange

/-!
# Boards in time

What a board answers depends on when it is asked. A `Timeline` says which lines are asserted at each
of the moments of a run, and when these are; `Timeline.Serves` says what a board on it may answer.
A look at the lines takes no time and nobody calls during it, so it sees the lines of its own
moment. A wait is bounded: it ends well where the lines were asserted together before its bound, and
fails only when the bound has passed without them. Every other request takes whatever time it takes.

`Spans` joins the exchanges of a run, each of which begins where the one before ended.
-/

namespace RailSequencer

/-- The moments of a run, in order. Lines may change, and other tasks may call, from one to the next
without any time going by. -/
structure Timeline where
  /-- Microseconds since the first moment. -/
  time : Nat → Nat
  lines : Nat → SignalMask
  ordered : Monotone time

/-- Stretches that follow one another, each served between two moments. -/
inductive Spans (serves : Nat → Exchange → Nat → Prop) : Nat → List Exchange → Nat → Prop where
  | nil (moment : Nat) : Spans serves moment [] moment
  | cons {start middle finish : Nat} {exchange : Exchange} {rest : List Exchange}
      (first : serves start exchange middle) (later : Spans serves middle rest finish) :
      Spans serves start (exchange :: rest) finish

variable {serves : Nat → Exchange → Nat → Prop} {start finish : Nat} {exchange : Exchange}
  {rest earlier later : List Exchange}

@[simp]
theorem spans_nil_iff : Spans serves start [] finish ↔ finish = start := by
  constructor
  · intro spans
    cases spans
    rfl
  · rintro rfl
    exact .nil _

theorem spans_cons_iff : Spans serves start (exchange :: rest) finish ↔
    ∃ middle, serves start exchange middle ∧ Spans serves middle rest finish := by
  constructor
  · intro spans
    cases spans with
    | cons first later => exact ⟨_, first, later⟩
  · rintro ⟨middle, first, later⟩
    exact .cons first later

theorem spans_append_iff : Spans serves start (earlier ++ later) finish ↔
    ∃ middle, Spans serves start earlier middle ∧ Spans serves middle later finish := by
  induction earlier generalizing start with
  | nil => simp
  | cons exchange rest inductionHypothesis =>
    simp only [List.cons_append, spans_cons_iff, inductionHypothesis]
    constructor
    · rintro ⟨first, serves, middle, before, after⟩
      exact ⟨middle, ⟨first, serves, before⟩, after⟩
    · rintro ⟨middle, ⟨first, serves, before⟩, after⟩
      exact ⟨first, serves, middle, before, after⟩

namespace Timeline

variable {timeline : Timeline} {moment : Nat} {wanted : SignalMask} {timeoutUs : Nat}

/-- These lines are asserted together. -/
def Asserts (timeline : Timeline) (wanted : SignalMask) (moment : Nat) : Prop :=
  (timeline.lines moment).contains wanted = true

instance : DecidablePred (timeline.Asserts wanted) :=
  fun _ => inferInstanceAs (Decidable (_ = true))

/-- The answer comes at `finish` to what was asked at `start`. -/
def Serves (timeline : Timeline) (start : Nat) : Exchange → Nat → Prop
  | ⟨.readLines, calls, lines⟩, finish =>
    finish = start ∧ calls = [] ∧ lines = timeline.lines start
  | ⟨.waitForLines wanted timeoutUs, _, .ok _⟩, finish =>
    ∃ moment, start ≤ moment ∧ moment ≤ finish ∧
      timeline.time moment ≤ timeline.time start + timeoutUs ∧ timeline.Asserts wanted moment
  | ⟨.waitForLines wanted timeoutUs, _, .error _⟩, finish =>
    start ≤ finish ∧ timeline.time start + timeoutUs ≤ timeline.time finish ∧
      -- No line came before the bound and stayed.
      ∀ moment, start ≤ moment → timeline.time moment < timeline.time start + timeoutUs →
        ∃ later, moment ≤ later ∧ later ≤ finish ∧ ¬timeline.Asserts wanted later
  | _, finish => start ≤ finish

/-- A look at the lines sees those of its moment, and takes no time. -/
theorem spans_look_iff {calls : List Mailbox.Call} {lines : SignalMask} :
    Spans timeline.Serves start (⟨.readLines, calls, lines⟩ :: rest) finish ↔
      calls = [] ∧ lines = timeline.lines start ∧ Spans timeline.Serves start rest finish := by
  rw [spans_cons_iff]
  constructor
  · rintro ⟨middle, ⟨rfl, silent, seen⟩, later⟩
    exact ⟨silent, seen, later⟩
  · rintro ⟨silent, seen, later⟩
    exact ⟨start, ⟨rfl, silent, seen⟩, later⟩

/-- Time does not go back while a board answers. -/
theorem Serves.le (serves : timeline.Serves start exchange finish) : start ≤ finish := by
  obtain ⟨request, calls, answer⟩ := exchange
  cases request with
  | readLines => exact Nat.le_of_eq serves.1.symm
  | waitForLines wanted timeoutUs =>
    cases answer with
    | ok => exact Nat.le_trans serves.choose_spec.1 serves.choose_spec.2.1
    | error => exact serves.1
  | _ => exact serves

/-- Lines that are waited for at `start` come together before the bound, and stay once they have
come. -/
structure Comes (timeline : Timeline) (wanted : SignalMask) (start timeoutUs : Nat) : Prop where
  inTime : ∃ moment, start ≤ moment ∧
    timeline.time moment < timeline.time start + timeoutUs ∧ timeline.Asserts wanted moment
  stays : ∀ moment later, start ≤ moment → moment ≤ later → timeline.Asserts wanted moment →
    timeline.Asserts wanted later

/-- A wait for lines that come does not fail, and they are asserted from its end on. -/
theorem Serves.ok_of_comes {calls : List Mailbox.Call} {answer : Except PowerError Unit}
    (serves : timeline.Serves start ⟨.waitForLines wanted timeoutUs, calls, answer⟩ finish)
    (comes : timeline.Comes wanted start timeoutUs) :
    answer = .ok () ∧ ∀ later, finish ≤ later → timeline.Asserts wanted later := by
  cases answer with
  | ok =>
    obtain ⟨moment, begun, ended, -, asserted⟩ := serves
    refine ⟨rfl, fun later after => ?_⟩
    exact comes.stays moment later begun (Nat.le_trans ended after) asserted
  | error =>
    obtain ⟨moment, begun, early, asserted⟩ := comes.inTime
    obtain ⟨later, after, -, lost⟩ := serves.2.2 moment begun early
    exact absurd (comes.stays moment later begun after asserted) lost

end Timeline

end RailSequencer
