import RailSequencer.Proofs.Refusals
import RailSequencer.Proofs.Senses

/-!
# Verdicts on the charger without a measurement

The input voltage stands in for a charger, and until the converter has been read it counts as zero.
A threshold above zero makes nothing of that: such a charger refuses, and an attempt at a power-up
pauses and polls again, until a reading has come or its budget is spent. `Live.Measured` counts the
readings since a boot, which in a session are those of its rounds (`BootInvariant.measured`), and
`Live.Withholds` is how the clock of the controller shows the pauses.

Other thresholds admit the processor at the first poll, and then the same zero is too low for it to
run.
-/

namespace RailSequencer.Controller

/-- Whatever is answered at once takes no time. -/
theorem PowerTask.pauseUs_of_answersAtOnce {request : Request}
    (immediate : answersAtOnce request = true) : request.pauseUs = 0 := by
  cases request with
  | sleep => exact absurd immediate Bool.false_ne_true
  | _ => rfl

/-- The power task waits, and keeps a verdict to itself from there until `due`. -/
def PowerTask.Withholds (due now : Nat) : PowerTask → Prop
  | .resting _ _ => True
  | .sleeping wakeAt memory resume => ∃ leftUs, due ≤ wakeAt + leftUs ∧
    ∀ calls, (resume (memory.hear calls).mailbox).Withholds leftUs
  | .watching _ _ memory resume => ∃ leftUs, due ≤ now + leftUs ∧
    ∀ calls result, (resume (memory.hear calls).mailbox result).Withholds leftUs

theorem PowerTask.Withholds.later {due now time : Nat} {power : PowerTask} (later : now ≤ time)
    (withholds : power.Withholds due now) : power.Withholds due time := by
  cases power with
  | resting => trivial
  | sleeping => exact withholds
  | watching =>
    obtain ⟨leftUs, enough, rest⟩ := withholds
    exact ⟨leftUs, Nat.le_trans enough (Nat.add_le_add_right later leftUs), rest⟩

def Progress.Withholds (due now : Nat) : Progress → Prop
  | .ended _ _ => True
  | .waiting power => power.Withholds due now

namespace Live

/-- Nobody is told before `due` that a power-up is inhibited. -/
structure Withholds (due : Nat) (live : Live) (progress : Progress) : Prop where
  verdict : live.ram.mailbox.inhibited = true → due ≤ live.now
  /-- An attempt that begins now would be over in time. -/
  ample : due ≤ live.now + Timing.chargerBudgetUs
  /-- Since the power task last looked at the mailbox others have called. -/
  heard : ∃ calls, live.ram.mailbox = (progress.memory.hear calls).mailbox
  waits : progress.Withholds due live.now

namespace Withholds

variable {due leftUs : Nat} {live after : Live} {progress : Progress}

/-- What is left of a turn goes on as far as it can. -/
theorem proceed {task : Task Turn} (refuses : ∀ exchange, live.Tells exchange → exchange.Refused)
    (ample : due ≤ live.now + Timing.chargerBudgetUs) (enough : due ≤ live.now + leftUs)
    (withholds : task.Withholds leftUs) :
    (PowerTask.proceed task live).1.Withholds due (PowerTask.proceed task live).2 := by
  -- The controller answers as long as it need not wait: the induction is on what is left to do. What is
  -- to be withheld becomes less by a sleep only, and a sleep is a wait.
  have timely {memory : Memory} (told : memory.mailbox.inhibited = true → leftUs = 0)
      (inhibited : memory.mailbox.inhibited = true) : due ≤ live.now := by
    rw [told inhibited] at enough
    exact enough
  induction task generalizing live with
  | done memory turn => exact ⟨timely withholds, ample, ⟨[], rfl⟩, trivial⟩
  | ask memory request resume inductionHypothesis =>
    cases immediate : PowerTask.answersAtOnce request with
    | true =>
      let handed := live.handOver memory
      have rest := withholds.2 [] (handed.answerAtOnce request).2
        (refuses _ (handed.tells_answerAtOnce request []))
      rw [PowerTask.pauseUs_of_answersAtOnce immediate, Nat.sub_zero] at rest
      have untouched : (handed.answerAtOnce request).1.untouched = live.untouched :=
        handed.untouched_answerAtOnce request
      have now := now_of_untouched untouched
      rw [← tells_of_untouched untouched] at refuses
      rw [← now] at ample enough timely
      rw [PowerTask.proceed_ask immediate, (handed.answerAtOnce_ram request).1]
      exact inductionHypothesis _ _ refuses ample enough rest timely
    | false =>
      cases request with
      | sleep us =>
        have pause : due ≤ live.now + us + (leftUs - us) := by omega
        exact ⟨timely withholds.1, ample, ⟨[], rfl⟩, leftUs - us, pause,
          fun calls => withholds.2 calls () trivial⟩
      | waitForLines wanted timeoutUs =>
        cases looked : live.ram.sampled.look wanted with
        | mk sampled result =>
          cases result with
          | none =>
            rw [PowerTask.proceed, looked]
            exact ⟨timely withholds.1, ample, ⟨[], rfl⟩, leftUs, enough,
              fun calls result => withholds.2 calls result trivial⟩
          | some result =>
            rw [PowerTask.proceed_wait looked]
            have rest := withholds.2 [] result trivial
            exact inductionHypothesis _ _ refuses ample enough rest timely
      | _ => exact absurd immediate.symm Bool.false_ne_true

/-- A turn that is begun now is over in time, or the time has come. -/
theorem exists_turn (withholds : live.Withholds due progress) (tree : PowerTree)
    (state : PowerState) : ∃ leftUs, due ≤ live.now + leftUs ∧
      ∀ memory : Memory, memory.mailbox.inhibited = live.ram.mailbox.inhibited →
        (Program.turn tree state memory).Withholds leftUs := by
  cases inhibited : live.ram.mailbox.inhibited with
  | true => exact ⟨0, withholds.verdict inhibited, fun _ _ => Task.withholds_zero _⟩
  | false =>
    refine ⟨Timing.chargerBudgetUs, withholds.ample, ?_⟩
    intro memory allowed
    apply Program.withholds_turn tree state (Nat.le_refl _)
    intro told
    exact absurd (allowed.symm.trans told) Bool.false_ne_true

theorem beginTurn (refuses : ∀ exchange, live.Tells exchange → exchange.Refused)
    (withholds : live.Withholds due progress) (memory : Memory) (state : PowerState) :
    let taken := PowerTask.proceed (PowerTask.beginTurn live memory state) live
    taken.1.Withholds due taken.2 := by
  obtain ⟨leftUs, enough, turn⟩ := withholds.exists_turn live.ram.tree state
  exact proceed refuses withholds.ample enough (turn _ rfl)

/-- Turn after turn is taken. -/
theorem kept (due : Nat) : TurnInvariant fun live progress =>
    (∀ exchange, live.Tells exchange → exchange.Refused) ∧ live.Withholds due progress where
  turn := by
    rintro live memory state ⟨refuses, withholds⟩
    refine ⟨?_, beginTurn refuses withholds memory state⟩
    rwa [tells_of_untouched (untouched_proceed _ _)]
  wake := by
    rintro live memory state ⟨refuses, verdict, ample, _, -⟩
    let awake := live.onMailbox fun mailbox => { mailbox with woken := false }
    let progress : Progress := .ended { memory with mailbox := awake.ram.mailbox } (.rest state)
    have woken : awake.Withholds due progress := ⟨verdict, ample, ⟨[], rfl⟩, trivial⟩
    have still : ∀ exchange, awake.Tells exchange → exchange.Refused := refuses
    refine ⟨?_, woken.beginTurn still memory state⟩
    rwa [tells_of_untouched (untouched_proceed _ _)]
  rest := by
    rintro live memory state ⟨refuses, verdict, ample, heard, -⟩
    exact ⟨refuses, verdict, ample, heard, trivial⟩
  putOff := by
    rintro live memory state ⟨refuses, withholds⟩
    obtain ⟨leftUs, enough, turn⟩ := withholds.exists_turn live.ram.tree state
    refine ⟨refuses, withholds.verdict, withholds.ample, withholds.heard, leftUs, enough, ?_⟩
    intro calls
    apply turn
    obtain ⟨called, mailbox⟩ := withholds.heard
    rw [mailbox]
    exact (memory.heard_hear calls).inhibited.trans (memory.heard_hear called).inhibited.symm

theorem putAway (refuses : ∀ exchange, live.Tells exchange → exchange.Refused)
    (withholds : live.Withholds due progress) :
    let after := PowerTask.putAway (PowerTask.serve PowerTask.turnsAtOnce (live, progress))
    after.Withholds due (.waiting after.ram.power) := by
  obtain ⟨-, verdict, ample, heard, waits⟩ :=
    (kept due).serve PowerTask.turnsAtOnce ⟨refuses, withholds⟩
  exact ⟨verdict, ample, heard, waits⟩

/-- What is taken on now, is put away where the power task waits. -/
theorem serve {task : Task Turn} (refuses : ∀ exchange, live.Tells exchange → exchange.Refused)
    (ample : due ≤ live.now + Timing.chargerBudgetUs) (enough : due ≤ live.now + leftUs)
    (withholds : task.Withholds leftUs) :
    let after := PowerTask.putAway
      (PowerTask.serve PowerTask.turnsAtOnce (PowerTask.proceed task live))
    after.Withholds due (.waiting after.ram.power) := by
  have taken := proceed refuses ample enough withholds
  apply putAway _ taken
  rwa [tells_of_untouched (untouched_proceed _ _)]

/-- One look at the power task. -/
theorem poll (refuses : ∀ exchange, live.Tells exchange → exchange.Refused)
    (withholds : live.Withholds due (.waiting live.ram.power)) :
    (PowerTask.poll live).Withholds due (.waiting (PowerTask.poll live).ram.power) := by
  by_cases ready : PowerTask.isReady live = true
  · obtain ⟨verdict, ample, ⟨calls, mailbox⟩, waits⟩ := withholds
    have waiting : live.ram.power.Withholds due live.now := waits
    have looked := PowerTask.looked_poll live
    generalize PowerTask.poll live = after at looked
    cases looked with
    | asleep => exact ⟨verdict, ample, ⟨calls, mailbox⟩, waits⟩
    | watches watching sampled =>
      exact ⟨verdict, ample, ⟨calls, mailbox⟩, waits⟩
    | resumes resumes sampled =>
      rw [mailbox] at resumes
      simp only [PowerTask.isReady] at ready
      generalize live.ram.power = power at waiting resumes ready
      cases resumes with
      | slept =>
        obtain ⟨leftUs, enough, rest⟩ := waiting
        have awake := Nat.add_le_add_right (of_decide_eq_true ready) leftUs
        exact serve refuses ample (Nat.le_trans enough awake) (rest calls)
      | watched =>
        obtain ⟨leftUs, enough, rest⟩ := waiting
        exact serve refuses ample enough (rest calls _)
    | @wakes memory state rests woken =>
      rw [rests] at mailbox
      exact putAway refuses ⟨verdict, ample, ⟨calls, mailbox⟩, trivial⟩
  · rw [PowerTask.poll, if_neg ready]
    exact withholds

/-- Whatever happens, the clock does not go back. -/
theorem happens (refuses : ∀ exchange, live.Tells exchange → exchange.Refused)
    (withholds : live.Withholds due (.waiting live.ram.power)) (happens : live.Happens after)
    (later : live.now ≤ after.now) : after.Withholds due (.waiting after.ram.power) := by
  rcases happens.leaves_or_polls with ⟨power, -, -, ⟨called, mailbox⟩, -⟩ | rfl
  · obtain ⟨verdict, ample, ⟨calls, heard⟩, waits⟩ := withholds
    rw [power]
    refine ⟨?_, Nat.le_trans ample (Nat.add_le_add_right later _), ⟨calls ++ called, ?_⟩,
      PowerTask.Withholds.later later waits⟩
    · intro inhibited
      rw [mailbox, (Mailbox.heard_performAll _ called).inhibited] at inhibited
      exact Nat.le_trans (verdict inhibited) later
    · rw [mailbox, heard, ← Memory.hear_hear]
      rfl
  · exact withholds.poll refuses

/-- The power task is launched early enough. -/
theorem launch (refuses : ∀ exchange, live.Tells exchange → exchange.Refused)
    (ample : due ≤ live.now + Timing.chargerBudgetUs)
    (allowed : live.ram.mailbox.inhibited = false) (boot : BootInfo) :
    (PowerTask.launch live boot).Withholds due
      (.waiting (PowerTask.launch live boot).ram.power) := by
  have started : (Program.start live.ram.tree boot { mailbox := live.ram.mailbox }).Withholds
      Timing.chargerBudgetUs := by
    apply Task.withholds_of_unjudged fun _ _ => Program.start_unjudged
    intro inhibited
    exact absurd (allowed.symm.trans inhibited) Bool.false_ne_true
  have turned : (PowerTask.firstTurn live.ram.tree boot { mailbox := live.ram.mailbox }).Withholds
      Timing.chargerBudgetUs := by
    apply started.bind
    intro state entered rest within untold
    exact Program.withholds_turn live.ram.tree state within untold
  exact serve refuses ample ample turned

end Withholds

/-- After a boot the whole budget is still to be spent. -/
theorem withholds_boot (before : Hardware) (reason : ResetReason)
    (refuses : ∀ exchange, (boot before reason).Tells exchange → exchange.Refused) :
    (boot before reason).Withholds (before.now + Timing.chargerBudgetUs)
      (.waiting (boot before reason).ram.power) := by
  obtain ⟨ready, prepared, booted⟩ := boot_eq_launch before reason
  rw [booted, tells_of_untouched (untouched_launch _ _)] at refuses
  rw [booted]
  have now : ready.now = before.now := by
    rw [Live.now, prepared.hardware]
    cases reason <;> rfl
  obtain ⟨mailbox, -, -⟩ := ready.ram_setUpOutputs
    ((before.treeAt reason).tables.restingLevels (before.resumesAt reason))
    (.ofBool (before.resumesAt reason))
  apply Withholds.launch refuses
  · rw [now_of_untouched (ready.untouched_setUpOutputs _ _), now]
  · rw [mailbox, prepared.mailbox]
    rfl

/-- A look at the converter brings a reading. -/
def converts (live : Live) : Bool :=
  live.ram.nextReading ≤ live.now && !live.hardware.converterFails

/-- A look that brings none leaves the voltage as it was. -/
theorem vinMillivolts_pollConverter {live : Live} (fails : live.converts = false) :
    live.pollConverter.ram.vinMillivolts = live.ram.vinMillivolts := by
  simp only [pollConverter]
  split
  next due =>
    rw [converts, decide_eq_true due, Bool.true_and, Bool.not_eq_false'] at fails
    rw [if_pos fails]
  next => rfl

/-- Of what surrounds the program only flash may be another when a round comes to the converter. -/
theorem hardware_beforeConverter (live : Live) :
    ∃ flash, live.beforeConverter.hardware = { live.hardware with flash := flash } := by
  have sampler (stored : Live) : stored.pollSampler.hardware = stored.hardware := by
    rw [pollSampler]
    split
    · simp only [takeSample]
      split
      · rfl
      · rfl
    · rfl
  refine ⟨live.pollFeeder.pollStore.hardware.flash, ?_⟩
  rw [beforeConverter, sampler, ← live.hardware_pollFeeder, pollStore_eq]
  exact storeAll_eq _ _

/-- So the converter finds what the round has found. -/
theorem converts_beforeConverter (live : Live) : live.beforeConverter.converts = live.converts ∧
    live.beforeConverter.hardware.vinReading = live.hardware.vinReading := by
  obtain ⟨flash, hardware⟩ := live.hardware_beforeConverter
  have due : live.beforeConverter.ram.nextReading = live.ram.nextReading :=
    congrArg (fun senses => senses.readings.nextReading) live.senses_beforeConverter
  have now : live.beforeConverter.now = live.now := congrArg Senses.now live.senses_beforeConverter
  rw [converts, converts, due, now, hardware]
  exact ⟨rfl, rfl⟩

end Live

namespace Act

/-- The readings of the converter since the last boot, after one more act. -/
def noteReading (readings : List UInt16) : Act → List UInt16
  | .round found _ => if found.converts then readings ++ [found.hardware.vinReading] else readings
  | .inputs _ _ => readings
  | .boot _ _ => []

/-- The readings of the converter since the last boot. -/
def readings (acts : List Act) : List UInt16 := acts.foldl noteReading []

theorem readings_concat (acts : List Act) (act : Act) :
    readings (acts ++ [act]) = noteReading (readings acts) act :=
  List.foldl_append ..

/-- A round brings one reading at most. -/
theorem length_noteReading (readings : List UInt16) (found left : Live) :
    (noteReading readings (.round found left)).length =
      readings.length + found.converts.toNat := by
  rw [noteReading]
  cases found.converts with
  | true => simp
  | false => rfl

end Act

namespace Live

/-- What has happened since `first`, and how many readings it has brought. -/
inductive Measured (first : Live) : (readings : Nat) → Live → Prop where
  | begins : first.Measured 0 first
  | looks {readings : Nat} {live : Live} (prior : first.Measured readings live) :
      first.Measured (readings + live.converts.toNat) live.pollConverter
  /-- Anything else, which leaves alone what the converter has brought and when it is read next. -/
  | elsewhere {readings : Nat} {live after : Live} (prior : first.Measured readings live)
      (timely : live.Timely after) (unread : after.senses.readings = live.senses.readings) :
      first.Measured readings after

/-- Whatever happens, the threshold of the boot stays. -/
theorem Happens.threshold {live after : Live} (happens : live.Happens after) :
    after.senses.threshold = live.senses.threshold := by
  cases happens with
  | feeder => rw [senses_pollFeeder]
  | store => rw [senses_pollStore]
  | sampler => rw [senses_pollSampler]
  | converter => rw [senses_pollConverter]
  | button => rw [senses_pollButton]
  | lid => rw [senses_pollLid]
  | timer => rw [senses_pollTimer]
  | power => rw [senses_poll]
  | host => rw [senses_pollHost]
  | inputs change moves => rw [senses_moveInputs moves]
  | hardware | setting | transfer => rfl

namespace Measured

variable {first live : Live} {readings : Nat}

/-- Nothing of what happens is sensed. -/
theorem unsensed {after : Live} (measured : first.Measured readings live)
    (happens : live.Happens after) (same : after.senses = live.senses) :
    first.Measured readings after :=
  measured.elsewhere (.happens happens (congrArg Senses.now same) (congrArg Senses.forced same))
    (congrArg Senses.readings same)

/-- A round looks at the converter once, and finds it as the round has found it. -/
theorem round (measured : first.Measured readings live) :
    first.Measured (readings + live.converts.toNat) live.round := by
  have fed := measured.unsensed .feeder live.senses_pollFeeder
  have stored := fed.unsensed .store (senses_pollStore _)
  have sampled : first.Measured readings live.beforeConverter :=
    stored.unsensed .sampler (senses_pollSampler _)
  have read := sampled.looks
  rw [live.converts_beforeConverter.1] at read
  have looked := (read.elsewhere (timely_pollButton _) (by rw [senses_pollButton])).elsewhere
    (timely_pollLid _) (by rw [senses_pollLid])
  have timed := looked.unsensed .timer (senses_pollTimer _)
  exact (timed.unsensed .power (senses_poll _)).unsensed .host (senses_pollHost _)

/-- What is kept by all that happens before the first reading. -/
theorem induct {holds : Live → Prop} (measured : first.Measured readings live)
    (unread : readings = 0) (begun : holds first)
    (next : ∀ {live after}, first.Measured 0 live → live.Timely after → holds live → holds after) :
    holds live := by
  induction measured with
  | begins => exact begun
  | looks prior inductionHypothesis =>
    obtain ⟨rfl, -⟩ := Nat.add_eq_zero_iff.mp unread
    exact next prior (timely_pollConverter _) (inductionHypothesis rfl)
  | elsewhere prior timely same inductionHypothesis =>
    subst unread
    exact next prior timely (inductionHypothesis rfl)

/-- Without a reading the voltage counts as zero. -/
theorem vinMillivolts (measured : first.Measured readings live) (unread : readings = 0)
    (begun : first.ram.vinMillivolts = 0) : live.ram.vinMillivolts = 0 := by
  induction measured with
  | begins => exact begun
  | @looks readings live _ inductionHypothesis =>
    obtain ⟨rfl, failed⟩ := Nat.add_eq_zero_iff.mp unread
    have fails : live.converts = false := Bool.toNat_eq_zero.mp failed
    exact (vinMillivolts_pollConverter fails).trans (inductionHypothesis rfl)
  | elsewhere _ _ same inductionHypothesis =>
    exact (congrArg Readings.vinMillivolts same).trans (inductionHypothesis unread)

theorem threshold (measured : first.Measured readings live) :
    live.ram.threshold = first.ram.threshold := by
  induction measured with
  | begins => rfl
  | looks _ inductionHypothesis => exact Happens.converter.threshold.trans inductionHypothesis
  | elsewhere _ timely _ inductionHypothesis =>
    exact timely.toHappens.threshold.trans inductionHypothesis

/-- A threshold above zero refuses a voltage that counts as zero. -/
theorem refused_of_unmeasured (unmeasured : live.ram.vinMillivolts = 0)
    (above : ((0 : Nat) : Binary32).lt live.ram.threshold = true) :
    ∀ exchange, live.Tells exchange → exchange.Refused := by
  rintro ⟨request, calls, answer⟩ told
  cases request with
  | powerOnBlocked =>
    have volts : live.ram.volts = ((0 : Nat) : Binary32) := by
      rw [Ram.volts, unmeasured]
      decide +kernel
    have answered : answer = live.ram.volts.lt live.ram.threshold := told
    rw [volts, above] at answered
    exact answered
  | _ => trivial

section Boot

variable {before : Hardware} {reason : ResetReason}
  (measured : (boot before reason).Measured readings live)
  (above : ((0 : Nat) : Binary32).lt (before.settingsAt reason).vinThreshold = true)
include measured above

/-- So such a boot finds a charger that refuses, until the first reading. -/
theorem refused (unread : readings = 0) : ∀ exchange, live.Tells exchange → exchange.Refused := by
  have sensed := senses_boot before reason
  apply refused_of_unmeasured
  · exact measured.vinMillivolts unread (congrArg (·.readings.vinMillivolts) sensed)
  · have threshold : (boot before reason).ram.threshold =
        (before.settingsAt reason).vinThreshold := congrArg Senses.threshold sensed
    rw [measured.threshold, threshold]
    exact above

/-- Until then nobody is told that a power-up is inhibited before the budget is spent. -/
theorem withholds (unread : readings = 0) :
    live.Withholds (before.now + Timing.chargerBudgetUs) (.waiting live.ram.power) := by
  apply measured.induct unread (withholds_boot before reason (refused .begins above rfl))
  intro live after prior timely withholds
  exact withholds.happens (prior.refused above rfl) timely.toHappens timely.now_le

/-- And the power task has heard nothing but refusals in its run. -/
theorem onRunKnown (unread : readings = 0) : ∃ first entered state,
    (Program.start (before.treeAt reason) (before.infoAt reason)
      { mailbox := before.mailboxAt reason }).Runs first entered state ∧
    live.OnRunKnown Exchange.Refused (before.treeAt reason) (.enter state entered)
      ((before.treeAt reason).tables.restingLevels (before.resumesAt reason))
      (.ofBool (before.resumesAt reason)) := by
  obtain ⟨first, entered, state, started, -, begun⟩ :=
    onRunKnown_boot before reason (refused .begins above rfl)
  refine ⟨first, entered, state, started, measured.induct unread begun ?_⟩
  intro live after prior timely onRun
  exact onRun.happens (PowerTree.pauses_ofRevision _) (prior.refused above rfl) timely.toHappens

end Boot

end Measured

end Live

/-- So readings can be counted from every boot on, and they are those of the acts. -/
def BootInvariant.measured : BootInvariant where
  holds first past live := first.Measured (Act.readings past).length live
  boot past before reason := by
    rw [Act.readings_concat]
    exact .begins
  round measured := by
    rw [Act.readings_concat, Act.length_noteReading]
    exact measured.round
  inputs {first past live change} timeless measured := by
    rw [Act.readings_concat]
    exact measured.elsewhere (.inputs change rfl (timeless live.hardware)) rfl
  passes later rests reaches measured := measured.elsewhere (.passes later rests reaches) rfl
  unsensed happens same measured := measured.unsensed happens same

/-- Where a power-up is inhibited, the input voltage has been read since the boot, or the charger has
refused over a whole budget. In the second case the run that the boot began has polled it 41 times,
with a pause of 100 ms after each refusal but the last, and since the boot the clock has gone on by
these 4 s at least. It does not matter what else happened, or which readings failed. In a session the
readings are those that its rounds have brought since the last boot.

This takes a threshold above zero. Others let an unknown voltage pass. -/
theorem inhibited_after_reading {before : Hardware} {reason : ResetReason} {readings : Nat}
    {live : Live} (above : ((0 : Nat) : Binary32).lt (before.settingsAt reason).vinThreshold = true)
    (measured : (boot before reason).Measured readings live)
    (inhibited : live.ram.mailbox.inhibited = true) :
    (0 < readings ∨
      before.now + Timing.chargerBudgetUs ≤ live.now ∧
        ∃ first entered state trace,
          (Program.start (before.treeAt reason) (before.infoAt reason)
            { mailbox := before.mailboxAt reason }).Runs first entered state ∧
          live.HasRun (before.treeAt reason) (.enter state entered)
            ((before.treeAt reason).tables.restingLevels (before.resumesAt reason))
            (.ofBool (before.resumesAt reason)) (.waiting live.ram.power) trace ∧
          Exchange.SpentBudget trace) ∧
    ∀ hardware timed commands live,
      (Session.executeAll ⟨.off hardware, timed⟩ commands).power = .on live →
        let acts := Session.acts commands ⟨.off hardware, timed⟩
        ∃ before reason, Act.lastBoot? acts = some (before, reason) ∧
          (boot before reason).Measured (Act.readings acts).length live := by
  constructor
  · rcases Nat.eq_zero_or_pos readings with unread | read
    · have withholds := measured.withholds above unread
      obtain ⟨first, entered, state, started, -, trace, hasRun, refused⟩ :=
        measured.onRunKnown above unread
      refine .inr ⟨withholds.verdict inhibited, first, entered, state, trace, started, hasRun, ?_⟩
      obtain ⟨events, position, run, rfl, heard, unspent⟩ := hasRun.comes.paused
      have allowed : entered.mailbox.inhibited = false := Program.start_unjudged started
      exact run.spentBudget unspent allowed refused (heard.inhibited.symm.trans inhibited)
    · exact .inl read
  · exact fun _ _ _ _ on => BootInvariant.measured.holds_acts on

/-- A controller whose converter is never looked at, after so many pauses between two polls. -/
def waitedOut : (pauses : Nat) → Live
  | 0 => ((boot {} .power).passTo 1000).passTo 20000
  | pauses + 1 => PowerTask.poll ((waitedOut pauses).passTo ((pauses + 1) * 100000))

theorem measured_waitedOut {pauses : Nat} (within : pauses ≤ 40) :
    (boot {} .power).Measured 0 (waitedOut pauses) := by
  have passes (live : Live) (time : Nat) (measured : (boot {} .power).Measured 0 live)
      (may : live.now ≤ time ∧ (live.senses.button.isReady live.senses.now = false ∧
        live.senses.lid.isReady live.senses.now = false) ∧ live.Reaches time) :
      (boot {} .power).Measured 0 (live.passTo time) :=
    measured.elsewhere (.passes may.1 ⟨may.2.1.1, may.2.1.2⟩ may.2.2) rfl
  have pauseable : ∀ pauses < 40, (waitedOut pauses).now ≤ (pauses + 1) * 100000 ∧
      ((waitedOut pauses).senses.button.isReady (waitedOut pauses).senses.now = false ∧
        (waitedOut pauses).senses.lid.isReady (waitedOut pauses).senses.now = false) ∧
      (waitedOut pauses).Reaches ((pauses + 1) * 100000) := by decide +kernel
  induction pauses with
  | zero =>
    exact passes _ _ (passes _ _ .begins (by decide +kernel)) (by decide +kernel)
  | succ pauses inductionHypothesis =>
    have paused := passes _ _ (inductionHypothesis (Nat.le_of_succ_le within))
      (pauseable pauses within)
    have polled := Live.senses_poll ((waitedOut pauses).passTo ((pauses + 1) * 100000))
    exact paused.elsewhere (.happens .power (congrArg Senses.now polled)
      (congrArg Senses.forced polled)) (congrArg Senses.readings polled)

/-- Until the last poll nobody is told that the power-up is inhibited, and that comes after four
seconds. -/
theorem inhibited_after_reading_waitedOut :
    (waitedOut 39).ram.mailbox.inhibited = false ∧ (waitedOut 40).ram.mailbox.inhibited = true ∧
    4000000 ≤ (waitedOut 40).now ∧
    ∃ first entered state trace,
      (Program.start (Hardware.treeAt {} .power) (Hardware.infoAt {} .power)
        { mailbox := Hardware.mailboxAt {} .power }).Runs first entered state ∧
      (waitedOut 40).HasRun (Hardware.treeAt {} .power) (.enter state entered)
        ((Hardware.treeAt {} .power).tables.restingLevels (Hardware.resumesAt {} .power))
        (.ofBool (Hardware.resumesAt {} .power)) (.waiting (waitedOut 40).ram.power) trace ∧
      Exchange.SpentBudget trace := by
  have inhibited : (waitedOut 40).ram.mailbox.inhibited = true := by decide +kernel
  have allowed : (waitedOut 39).ram.mailbox.inhibited = false := by decide +kernel
  obtain ⟨read | ⟨late, spent⟩, -⟩ := inhibited_after_reading (by decide +kernel)
    (measured_waitedOut (Nat.le_refl 40)) inhibited
  · exact absurd read (Nat.lt_irrefl 0)
  · exact ⟨allowed, inhibited, late, spent⟩

/-- While the processor is supplied well enough, the threshold is set to zero, which is stored. -/
def thresholdZero : Session :=
  Session.executeAll ⟨.off {}, []⟩
    [.apply (.vin 1300), .apply (.boot .power), .apply (.changeSetting (.vinThreshold (0 : Nat))),
      .advance 1]

/-- The next boot inhibits the power-up at once, before it knows the voltage. -/
theorem inhibited_thresholdZero :
    let before := thresholdZero.power.hardware
    let live := boot before .power
    (thresholdZero.execute (.apply (.boot .power))).1.power = .on live ∧
      (boot before .power).Measured 0 live ∧ live.ram.mailbox.inhibited = true ∧
      live.now < before.now + Timing.chargerBudgetUs := by
  intro before live
  exact ⟨rfl, .begins, by decide +kernel, by decide +kernel⟩

end RailSequencer.Controller
