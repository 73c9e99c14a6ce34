import Mathlib.Data.List.Induction
import RailSequencer.Proofs.ColdBoot
import RailSequencer.Proofs.Notifications

/-!
# The charger decides about a power-up

The step out of G3 asks the charger and nobody else. It polls until the charger agrees, with a pause
after each refusal, and gives up at the refusal for which no pause is left; then it asks once whether
the processor is to stay off. Both answers have to be favourable, and the outcome is the next state,
the flag that others see and the shutdown that keeps the processor off.
-/

namespace RailSequencer

/-- How a charger answers a power-up: whether it refuses each poll, counted from the first one, and
whether it wants the processor to stay off. -/
structure ChargerAnswers where
  refuses : Nat → Bool
  keepsOff : Bool

namespace ChargerAnswers

variable (charger : ChargerAnswers)

/-- What the charger answers after so many polls. -/
def Answers (polls : Nat) : Exchange → Prop
  | ⟨.powerOnBlocked, _, blocked⟩ => blocked = charger.refuses polls
  | ⟨.shutdownWanted, _, wanted⟩ => wanted = charger.keepsOff
  | _ => True

/-- All answers of the charger in a run are its own, in order. -/
def Gives (trace : List Exchange) : Prop :=
  ∀ earlier exchange later, trace = earlier ++ exchange :: later →
    charger.Answers (Exchange.refusals earlier).length exchange

/-- The charger agrees to one of its polls, and does not want the processor to stay off. -/
def Admits : Prop :=
  (∃ poll ≤ Timing.chargerRetries, charger.refuses poll = false) ∧ charger.keepsOff = false

/-- The charger as one that reacts to what has been asked, while others call. -/
def react (calls : List Exchange → List Mailbox.Call) : Reaction
  | earlier, .powerOnBlocked => (calls earlier, charger.refuses (Exchange.refusals earlier).length)
  | earlier, .shutdownWanted => (calls earlier, charger.keepsOff)
  | earlier, request => (calls earlier, request.darkAnswer)

variable {charger} {trace earlier later : List Exchange}

theorem Gives.left (gives : charger.Gives (earlier ++ later)) : charger.Gives earlier := by
  intro before exchange after whole
  exact gives before exchange (after ++ later) (by rw [whole, List.append_assoc, List.cons_append])

/-- The answers to the polls are the first ones of the charger. -/
theorem Gives.refusals_eq (gives : charger.Gives trace) :
    Exchange.refusals trace =
      (List.range (Exchange.refusals trace).length).map charger.refuses := by
  induction trace using List.reverseRecOn with
  | nil => rfl
  | append_singleton trace exchange inductionHypothesis =>
    have before := inductionHypothesis gives.left
    have last := gives trace exchange [] rfl
    obtain ⟨request, calls, answer⟩ := exchange
    cases request with
    | powerOnBlocked =>
      have answered : answer = charger.refuses (Exchange.refusals trace).length := last
      have polled : Exchange.refusals (trace ++ [⟨.powerOnBlocked, calls, answer⟩]) =
          Exchange.refusals trace ++ [answer] := Exchange.refusals_append _ _
      rw [polled, List.length_append, List.length_singleton, List.range_succ, List.map_append,
        ← before, answered]
      rfl
    | _ =>
      rw [Exchange.refusals_append]
      exact (List.append_nil _).symm ▸ before

/-- A charger that reacts as it answers gives its own answers. -/
theorem gives_of_yields {calls : List Exchange → List Mailbox.Call}
    (yields : (charger.react calls).Yields trace) : charger.Gives trace := by
  intro earlier exchange later whole
  have reaction := yields earlier exchange later whole
  obtain ⟨request, called, answer⟩ := exchange
  cases request with
  | powerOnBlocked | shutdownWanted => exact (Prod.mk.inj reaction).2
  | _ => exact trivial

end ChargerAnswers

/-- Polls of a charger that refused are each followed by a pause. -/
theorem chargerRequests_eq (refused : Nat) :
    chargerRequests refused =
      (List.replicate refused
        [.powerOnBlocked, .sleep (Timing.chargerRetryMs * Timing.usPerMs)]).flatten ++
        [.powerOnBlocked] := by
  induction refused with
  | zero => rfl
  | succ refused inductionHypothesis =>
    rw [chargerRequests, inductionHypothesis, List.replicate_succ, List.flatten_cons,
      List.append_assoc]
    rfl

/-- What a charger makes of a power-up. -/
structure ChargerGate (charger : ChargerAnswers) (trace : List Exchange) (final : Memory)
    (next : PowerState) : Prop where
  /-- There is a pause after each refusal, but there are no more pauses than retries; the poll after
  the last pause ends the polling, and then the other question is asked. -/
  asked : ∃ pauses ≤ Timing.chargerRetries, (∀ poll < pauses, charger.refuses poll = true) ∧
    (pauses < Timing.chargerRetries → charger.refuses pauses = false) ∧
    Exchange.requests trace =
      (List.replicate pauses
        [.powerOnBlocked, .sleep (Timing.chargerRetryMs * Timing.usPerMs)]).flatten ++
        [.powerOnBlocked, .shutdownWanted]
  admitted : charger.Admits →
    next = .s5 ∧ final.mailbox.inhibited = false ∧ final.forcingShutdown = false
  refused : ¬charger.Admits →
    next = .g3 ∧ final.mailbox.inhibited = true ∧ final.forcingShutdown = true
  writes : Exchange.writes trace = []
  notified : Exchange.notified trace = []

section Gate

variable {tree : PowerTree} {charger : ChargerAnswers} {memory final : Memory}
  {trace : List Exchange} {next : PowerState}

/-- The polls of a charger that gives its own answers: it refused those before the last, and what it
answered to the last one decides. -/
theorem ChargerPolls.answers {retries : Nat} {ready : Bool}
    (polls : ChargerPolls retries trace ready) (gives : charger.Gives trace) :
    ∃ refused ≤ retries, Exchange.requests trace = chargerRequests refused ∧
      (∀ poll < refused, charger.refuses poll = true) ∧ charger.refuses refused = !ready ∧
      (ready = false → refused = retries) := by
  obtain ⟨refused, within, asked, answered, exhausted⟩ := polls.polled
  have own := gives.refusals_eq
  rw [answered, List.length_append, List.length_replicate, List.length_singleton, List.range_succ,
    List.map_append] at own
  obtain ⟨before, last⟩ := List.append_inj' own rfl
  refine ⟨refused, within, asked, ?_, (List.singleton_inj.mp last).symm, exhausted⟩
  intro poll earlier
  have member := List.mem_map_of_mem (f := charger.refuses) (List.mem_range.mpr earlier)
  rw [← before] at member
  exact List.eq_of_mem_replicate member

theorem Transition.chargerGate (transition : Transition tree memory .g3s5 trace final next)
    (gives : charger.Gives trace) : ChargerGate charger trace final next := by
  cases transition with
  | @asksCharger polls _ ready _ polled calls unwanted whole leads =>
    obtain rfl : unwanted = charger.keepsOff := gives polls _ [] whole
    rw [whole] at gives
    obtain ⟨refused, within, asked, before, last, exhausted⟩ := polled.answers gives.left
    have admits : charger.Admits ↔ ready = true ∧ charger.keepsOff = false := by
      rw [ChargerAnswers.Admits]
      apply and_congr_left'
      constructor
      · rintro ⟨poll, inTime, agreed⟩
        -- A charger that is not ready has refused every poll there is.
        apply Bool.of_not_eq_false
        intro never
        have all := exhausted never
        rw [never] at last
        rcases Nat.lt_or_eq_of_le inTime with earlier | rfl
        · exact absurd (before poll (all ▸ earlier)) (by simp [agreed])
        · exact absurd (all ▸ last) (by simp [agreed])
      · rintro rfl
        exact ⟨refused, within, last⟩
    refine ⟨⟨refused, within, before, ?_, ?_⟩, ?_, ?_, ?_, ?_⟩
    · intro more
      cases ready with
      | false => exact absurd (exhausted rfl) (Nat.ne_of_lt more)
      | true => exact last
    · rw [whole, Exchange.requests_append, asked, chargerRequests_eq, List.append_assoc]
      rfl
    · intro admitted
      obtain ⟨rfl, agrees⟩ := admits.mp admitted
      rw [agrees] at leads ⊢
      exact ⟨leads, rfl, rfl⟩
    · intro refuses
      have against : (charger.keepsOff || !ready) = true := by
        apply Bool.of_not_eq_false
        intro favourable
        obtain ⟨runs, agreed⟩ := Bool.or_eq_false_iff.mp favourable
        exact refuses (admits.mpr ⟨Bool.not_eq_eq_eq_not.mp agreed, runs⟩)
      rw [against] at leads ⊢
      exact ⟨leads, rfl, rfl⟩
    · rw [whole, Exchange.writes_append, polled.writes]
      rfl
    · rw [whole, Exchange.notified_append, polled.notified]
      rfl

/-- A power-up is decided by the charger alone. For any answers of the charger, and however others
call meanwhile, the step out of G3 comes to its end. It polls until the charger agrees, up to 41
times, with 100 ms after each refusal but the last one there is room for, and then asks once whether
the processor is to stay off. If one of the polls found the charger agreeing, and it does not want
the processor to stay off, the step leads to S5 with no shutdown under way and nothing to show;
otherwise it leads back to G3, with the shutdown that keeps the processor there and the refusal to be
seen. Nothing is driven and nobody is told. -/
theorem powerUp_gated_by_charger (tree : PowerTree) (charger : ChargerAnswers) (memory : Memory) :
    (∀ trace final next, (Program.step tree .g3s5 memory).Runs trace final next →
      charger.Gives trace → ChargerGate charger trace final next) ∧
    ∀ calls : List Exchange → List Mailbox.Call, ∃ trace final next,
      (Program.step tree .g3s5 memory).Runs trace final next ∧ charger.Gives trace ∧
        ∀ earlier exchange later, trace = earlier ++ exchange :: later →
          exchange.calls = calls earlier := by
  constructor
  · intro trace final next run gives
    exact (Program.step_runs run).chargerGate gives
  · intro calls
    obtain ⟨trace, final, next, run, yields⟩ :=
      (Program.step tree .g3s5 memory).exists_runs_reacting (charger.react calls)
    refine ⟨trace, final, next, run, ChargerAnswers.gives_of_yields yields, ?_⟩
    intro earlier exchange later whole
    have called := (Prod.mk.inj (yields earlier exchange later whole)).1
    rw [called]
    cases exchange.request with
    | _ => rfl

end Gate

/-- A charger that refuses so many polls, agrees from then on, and lets the processor run. -/
def ChargerAnswers.refusing (polls : Nat) : ChargerAnswers where
  refuses poll := poll < polls
  keepsOff := false

/-- A charger that refuses as often as there are pauses gets all of them. -/
theorem ChargerGate.pauses_of_refusing {polls : Nat} {trace : List Exchange} {final : Memory}
    {next : PowerState} (gate : ChargerGate (.refusing polls) trace final next)
    (many : Timing.chargerRetries ≤ polls) :
    Exchange.requests trace =
      (List.replicate Timing.chargerRetries
        [.powerOnBlocked, .sleep (Timing.chargerRetryMs * Timing.usPerMs)]).flatten ++
        [.powerOnBlocked, .shutdownWanted] := by
  obtain ⟨pauses, within, -, agrees, asked⟩ := gate.asked
  have all : pauses = Timing.chargerRetries := by
    apply Nat.le_antisymm within
    apply Nat.le_of_not_lt
    intro fewer
    have later := of_decide_eq_false (agrees fewer)
    omega
  rw [asked, all]

/-- A charger that agrees to the last poll admits the processor; one that refuses this as well does
not, after as many polls and pauses. -/
theorem powerUp_gated_by_charger_atLastPoll :
    (∃ trace final, (Program.step (.ofRevision .v1) .g3s5 {}).Runs trace final .s5 ∧
      (ChargerAnswers.refusing 40).Gives trace ∧ final.mailbox.inhibited = false ∧
      (Exchange.requests trace).count .powerOnBlocked = 41 ∧
      (Exchange.requests trace).count (.sleep 100000) = 40) ∧
    ∃ trace final, (Program.step (.ofRevision .v1) .g3s5 {}).Runs trace final .g3 ∧
      (ChargerAnswers.refusing 41).Gives trace ∧ final.mailbox.inhibited = true ∧
      (Exchange.requests trace).count .powerOnBlocked = 41 ∧
      (Exchange.requests trace).count (.sleep 100000) = 40 := by
  have admits : (ChargerAnswers.refusing 40).Admits := ⟨⟨40, Nat.le_refl _, rfl⟩, rfl⟩
  have refuses : ¬(ChargerAnswers.refusing 41).Admits := by
    rintro ⟨⟨poll, inTime, agrees⟩, -⟩
    exact absurd (Nat.lt_succ_of_le inTime) (of_decide_eq_false agrees)
  constructor
  · obtain ⟨gated, ends⟩ :=
      powerUp_gated_by_charger (.ofRevision .v1) (ChargerAnswers.refusing 40) {}
    obtain ⟨trace, final, next, run, gives, -⟩ := ends fun _ => []
    have gate := gated trace final next run gives
    obtain ⟨rfl, admitted, -⟩ := gate.admitted admits
    have asked := gate.pauses_of_refusing (by decide)
    exact ⟨trace, final, run, gives, admitted, by rw [asked]; decide, by rw [asked]; decide⟩
  · obtain ⟨gated, ends⟩ :=
      powerUp_gated_by_charger (.ofRevision .v1) (ChargerAnswers.refusing 41) {}
    obtain ⟨trace, final, next, run, gives, -⟩ := ends fun _ => []
    have gate := gated trace final next run gives
    obtain ⟨rfl, refused, -⟩ := gate.refused refuses
    have asked := gate.pauses_of_refusing (by decide)
    exact ⟨trace, final, run, gives, refused, by rw [asked]; decide, by rw [asked]; decide⟩

end RailSequencer
