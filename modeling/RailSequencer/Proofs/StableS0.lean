import RailSequencer.PowerTree.Revisions
import RailSequencer.Proofs.Step
import RailSequencer.Proofs.Timeline

/-!
# S0 is stable only on fresh evidence

A step that stays in S0 ends with a look, after which nobody has called and no time has passed. So
what the step has seen is what holds when it returns, whatever lines and requests did during the
wait for the debounced lines before it.
-/

namespace RailSequencer

/-- Nothing speaks against S0 at a moment: the lower supplies are there, the processor does not ask
to be suspended, and no shutdown is under way or requested. -/
structure Stable (tree : PowerTree) (timeline : Timeline) (moment : Nat) (memory : Memory) :
    Prop where
  supplied : timeline.Asserts tree.pgoodS3 moment
  awake : timeline.Asserts .suspendDeasserted moment
  unforced : memory.forcingShutdown = false
  unrequested : memory.mailbox.shutdownRequested = false

variable {tree : PowerTree} {timeline : Timeline} {memory final : Memory} {trace : List Exchange}
  {next : PowerState} {start finish moment : Nat}

/-- A look that finds no reason to leave S0, with no request left, finds it stable. -/
theorem Stable.of_look
    (quiet : tree.endsS0 memory.forcingShutdown (timeline.lines moment) = false)
    (taken : memory.mailbox.shutdownRequested = false) : Stable tree timeline moment memory :=
  let ⟨supplied, unforced, awake⟩ := PowerTree.endsS0_eq_false_iff.mp quiet
  ⟨supplied, awake, unforced, taken⟩

theorem not_stable_of_look
    (ends : tree.endsS0 memory.forcingShutdown (timeline.lines moment) = true) :
    ¬Stable tree timeline moment memory := by
  intro stable
  have quiet := PowerTree.endsS0_eq_false_iff.mpr ⟨stable.supplied, stable.unforced, stable.awake⟩
  exact absurd (ends.symm.trans quiet) nofun

/-- A step from S0 stays there only if S0 is stable at the moment at which it returns, and all
lines that are debounced were asserted together at a moment of the step within their window. It
leaves only if S0 is not stable at that moment, or the window has passed without the lines. Nothing
is driven and nobody is told in either case. Lines, and requests, may change in any way during the
wait. -/
theorem s0_stable_of_step (run : (Program.step tree .s0 memory).Runs trace final next)
    (spans : Spans timeline.Serves start trace finish) :
    (next = .s0 ∨ next = .s0s3) ∧
      (next = .s0 → Stable tree timeline finish final ∧
        ∀ window ∈ tree.debounce, ∃ moment, start ≤ moment ∧ moment ≤ finish ∧
          timeline.time moment ≤ timeline.time start + Timing.debounceUs ∧
          timeline.Asserts window moment) ∧
      (next = .s0s3 → ¬Stable tree timeline finish final ∨
        ∃ window ∈ tree.debounce, ∃ earlier calls error,
          trace = earlier ++ [⟨.waitForLines window Timing.debounceUs, calls, .error error⟩] ∧
          timeline.time start + Timing.debounceUs ≤ timeline.time finish) ∧
      Exchange.writes trace = [] ∧ Exchange.notified trace = [] := by
  cases Program.step_runs run with
  | leavesS0 calls lines whole ends =>
    subst whole
    obtain ⟨rfl, rfl, rest⟩ := Timeline.spans_look_iff.mp spans
    obtain rfl := spans_nil_iff.mp rest
    exact ⟨.inr rfl, nofun, fun _ => .inl (not_stable_of_look ends), rfl, rfl⟩
  | staysInS0 calls lines whole quiet steady =>
    subst whole
    obtain ⟨rfl, rfl, rest⟩ := Timeline.spans_look_iff.mp spans
    obtain rfl := spans_nil_iff.mp rest
    refine ⟨.inl rfl, fun _ => ⟨.of_look quiet rfl, ?_⟩, nofun, rfl, rfl⟩
    intro window debounced
    exact absurd (steady.symm.trans debounced) nofun
  | losesDebounced calls waited lines error whole quiet debounced =>
    subst whole
    obtain ⟨rfl, rfl, waits⟩ := Timeline.spans_look_iff.mp spans
    obtain ⟨_, ⟨-, elapsed, -⟩, rest⟩ := spans_cons_iff.mp waits
    obtain rfl := spans_nil_iff.mp rest
    refine ⟨.inr rfl, nofun, fun _ => .inr ?_, rfl, rfl⟩
    exact ⟨_, debounced, [_], waited, error, rfl, elapsed⟩
  | @looksAgain _ calls waited called lines again window next begun quiet debounced leads =>
    subst begun
    rw [List.cons_append, List.cons_append, List.nil_append] at spans
    obtain ⟨rfl, rfl, waits⟩ := Timeline.spans_look_iff.mp spans
    obtain ⟨_, ⟨moment, notBefore, notAfter, inTime, asserted⟩, looks⟩ := spans_cons_iff.mp waits
    -- What is seen now is what holds when the step returns.
    obtain ⟨rfl, rfl, rest⟩ := Timeline.spans_look_iff.mp looks
    obtain rfl := spans_nil_iff.mp rest
    have evidence : ∀ other ∈ tree.debounce, ∃ moment, start ≤ moment ∧ moment ≤ finish ∧
        timeline.time moment ≤ timeline.time start + Timing.debounceUs ∧
        timeline.Asserts other moment := by
      intro other same
      obtain rfl : window = other := Option.some.inj (debounced.symm.trans same)
      exact ⟨moment, notBefore, notAfter, inTime, asserted⟩
    split at leads
    next ends =>
      exact ⟨.inr leads, fun stays => absurd (leads.symm.trans stays) nofun,
        fun _ => .inl (not_stable_of_look ends), rfl, rfl⟩
    next quietAgain =>
      have quietThen := eq_false_of_ne_true quietAgain
      exact ⟨.inl leads, fun _ => ⟨.of_look quietThen rfl, evidence⟩,
        fun leaves => absurd (leads.symm.trans leaves) nofun, rfl, rfl⟩

/-- The system supply is lost for 30 ms. -/
def Timeline.glitching : Timeline where
  time moment := moment * 10000
  lines moment := if moment < 3 then SignalMask.allLines.diff .sysGood else .allLines
  ordered := fun _ _ earlier => Nat.mul_le_mul_right _ earlier

/-- A supply that glitches comes back within its window, while a reset and a wake are called for. -/
theorem s0_stable_of_step_glitching : ∃ trace final finish,
    (Program.step (.ofRevision .v0) .s0 {}).Runs trace final .s0 ∧
      Spans Timeline.glitching.Serves 0 trace finish ∧
      Stable (.ofRevision .v0) .glitching finish final := by
  let trace : List Exchange :=
    [⟨.readLines, [], Timeline.glitching.lines 0⟩,
      ⟨.waitForLines (SignalMask.apGood.union .sysGood) Timing.debounceUs,
        [.requestReset .warm, .wake], .ok ()⟩,
      ⟨.readLines, [], Timeline.glitching.lines 3⟩]
  let final : Memory := { mailbox := { resetRequested := some .warm, woken := true } }
  have run : (Program.step (.ofRevision .v0) .s0 {}).Runs trace final .s0 :=
    .ask (.ask (.ask (.refl _)))
  have spans : Spans Timeline.glitching.Serves 0 trace 3 :=
    .cons ⟨rfl, rfl, rfl⟩ (.cons ⟨3, by decide, by decide, by decide, by decide⟩
      (.cons ⟨rfl, rfl, rfl⟩ (.nil _)))
  exact ⟨trace, final, 3, run, spans, ((s0_stable_of_step run spans).2.1 rfl).1⟩

end RailSequencer
