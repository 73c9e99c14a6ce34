import RailSequencer.Controller.PowerTask

/-!
# Bounded waits for sampled lines

A task that waits for lines is polled after each sample and at its deadline, and sees no more than
the last sample and a slot that says that there has been a change. `Wait` is such a wait on its way
through the moments at which it is polled. `wait_exact` reads its outcome off the samples alone: the
first sample in time that shows every wanted line ends it well, whatever the slot held when it began;
if there is none, the deadline ends it, and what it reports missing is what the last sample lacks.

While a wait goes on its slot is empty and its lines are not all asserted; this is what every poll
keeps (`Wait.pass_waiting`).
-/

namespace RailSequencer.Controller

/-- A moment at which a waiting task is polled, right after a sample if one is taken. -/
structure Moment where
  time : Nat
  sample : Option SignalMask := none
deriving DecidableEq, Repr

namespace Moment

/-- The lines as they have been sampled last. -/
def lines (before : SignalMask) (moment : Moment) : SignalMask := moment.sample.getD before

def linesAfter (before : SignalMask) (moments : List Moment) : SignalMask :=
  moments.foldl lines before

/-- No sample is taken that shows every wanted line. -/
def Misses (wanted : SignalMask) (moment : Moment) : Prop :=
  ∀ sample ∈ moment.sample, sample.contains wanted = false

/-- The moments come in the order of their times, and none before `start`. -/
def Ordered (start : Nat) (moments : List Moment) : Prop :=
  (start :: moments.map time).Pairwise (· ≤ ·)

instance (start : Nat) (moments : List Moment) : Decidable (Ordered start moments) :=
  inferInstanceAs (Decidable (List.Pairwise _ _))

variable {wanted before : SignalMask} {moment : Moment}

theorem Misses.lines (misses : moment.Misses wanted) (missed : before.contains wanted = false) :
    (moment.lines before).contains wanted = false := by
  obtain ⟨time, sample⟩ := moment
  cases sample with
  | none => exact missed
  | some sample => exact misses sample rfl

end Moment

/-- A wait for lines: what it sees of them, and when it was over, and how. -/
structure Wait where
  sampled : SampledLines
  ending : Option (Nat × Except PowerError Unit) := none

namespace Wait

/-- The first look, at `start`. -/
def begin (sampled : SampledLines) (wanted : SignalMask) (start : Nat) : Wait :=
  let (left, result) := sampled.look wanted
  ⟨left, result.map (start, ·)⟩

/-- Another look, at `now`. -/
def look (wanted : SignalMask) (deadline now : Nat) (wait : Wait) : Wait :=
  match wait.ending with
  | some _ => wait
  | none =>
    let (left, result) := wait.sampled.lookAgain wanted deadline now
    ⟨left, result.map (now, ·)⟩

/-- The task is polled until it waits: a change that does not end the wait leaves the deadline to a
second look. -/
def poll (wanted : SignalMask) (deadline now : Nat) (wait : Wait) : Wait :=
  (wait.look wanted deadline now).look wanted deadline now

def sample (wait : Wait) (moment : Moment) : Wait :=
  match moment.sample with
  | some sample => { wait with sampled := wait.sampled.take sample }
  | none => wait

/-- One moment. -/
def pass (wanted : SignalMask) (deadline : Nat) (wait : Wait) (moment : Moment) : Wait :=
  (wait.sample moment).poll wanted deadline moment.time

/-- A wait that begins at `start`, and what becomes of it. -/
def through (sampled : SampledLines) (wanted : SignalMask) (start timeoutUs : Nat)
    (moments : List Moment) : Wait :=
  moments.foldl (pass wanted (start + timeoutUs)) (begin sampled wanted start)

/-- How these lines end a wait at `now`, if they do. -/
def verdict (wanted : SignalMask) (deadline now : Nat) (lines : SignalMask) :
    Option (Nat × Except PowerError Unit) :=
  if lines.contains wanted then some (now, .ok ())
  else if deadline ≤ now then some (now, .error (.signalTimeout (wanted.missing lines)))
  else none

variable {wanted lines : SignalMask} {deadline start now : Nat} {moment : Moment}
  {moments earlier : List Moment} {outcome : Nat × Except PowerError Unit} {wait : Wait}

/-- A wait that goes on when it has begun has forgotten the changes from before. -/
theorem begin_waiting (changed : Bool) (missed : lines.contains wanted = false) (start : Nat) :
    begin ⟨lines, changed⟩ wanted start = ⟨⟨lines, false⟩, none⟩ := by
  simp [begin, SampledLines.look, missed]

/-- Without a change only the deadline counts. -/
theorem look_unchanged (missed : lines.contains wanted = false) :
    look wanted deadline now ⟨⟨lines, false⟩, none⟩ =
      ⟨⟨lines, false⟩, verdict wanted deadline now lines⟩ := by
  by_cases due : deadline ≤ now
  · simp [look, SampledLines.lookAgain, verdict, missed, due]
  · simp [look, SampledLines.lookAgain, verdict, missed, due]

/-- A wait that is over stays as it is. -/
theorem look_ending (ending : wait.ending = some outcome) : wait.look wanted deadline now = wait := by
  rw [look, ending]

theorem poll_unchanged (missed : lines.contains wanted = false) :
    poll wanted deadline now ⟨⟨lines, false⟩, none⟩ =
      ⟨⟨lines, false⟩, verdict wanted deadline now lines⟩ := by
  rw [poll, look_unchanged missed]
  cases ends : verdict wanted deadline now lines with
  | none => rw [look_unchanged missed, ends]
  | some outcome => exact look_ending rfl

/-- A change is looked at first, and then the deadline. -/
theorem poll_changed (wanted lines : SignalMask) (deadline now : Nat) :
    poll wanted deadline now ⟨⟨lines, true⟩, none⟩ =
      ⟨⟨lines, false⟩, verdict wanted deadline now lines⟩ := by
  cases asserted : lines.contains wanted with
  | true => simp [poll, look, SampledLines.lookAgain, SampledLines.look, verdict, asserted]
  | false =>
    have first : look wanted deadline now ⟨⟨lines, true⟩, none⟩ = ⟨⟨lines, false⟩, none⟩ := by
      simp [look, SampledLines.lookAgain, SampledLines.look, asserted]
    rw [poll, first, look_unchanged asserted]

/-- A wait that goes on sees the lines as they are sampled, and ends as they say. -/
theorem pass_waiting (missed : lines.contains wanted = false) (moment : Moment) :
    pass wanted deadline ⟨⟨lines, false⟩, none⟩ moment =
      ⟨⟨moment.lines lines, false⟩,
        verdict wanted deadline moment.time (moment.lines lines)⟩ := by
  obtain ⟨time, sample⟩ := moment
  cases sample with
  | none => exact poll_unchanged missed
  | some sample =>
    by_cases same : sample = lines
    · subst same
      simp only [pass, Wait.sample, SampledLines.take, if_true]
      exact poll_unchanged missed
    · simp only [pass, Wait.sample, SampledLines.take, if_neg same]
      exact poll_changed wanted sample deadline time

/-- Samples after the end of a wait do not change it. -/
theorem ending_foldl (ending : wait.ending = some outcome) (moments : List Moment) :
    (moments.foldl (pass wanted deadline) wait).ending = some outcome := by
  induction moments generalizing wait with
  | nil => exact ending
  | cons moment rest inductionHypothesis =>
    have sampled : (wait.sample moment).ending = some outcome := by
      rw [sample]
      split <;> exact ending
    apply inductionHypothesis
    rw [pass, poll, look_ending sampled, look_ending sampled, sampled]

/-- As long as the deadline is ahead and no sample shows every wanted line, a wait goes on. -/
theorem foldl_waiting (missed : lines.contains wanted = false)
    (misses : ∀ moment ∈ moments, moment.Misses wanted)
    (ahead : ∀ moment ∈ moments, moment.time < deadline) :
    moments.foldl (pass wanted deadline) ⟨⟨lines, false⟩, none⟩ =
        ⟨⟨Moment.linesAfter lines moments, false⟩, none⟩ ∧
      (Moment.linesAfter lines moments).contains wanted = false := by
  induction moments generalizing lines with
  | nil => exact ⟨rfl, missed⟩
  | cons moment rest inductionHypothesis =>
    obtain ⟨here, misses⟩ := List.forall_mem_cons.mp misses
    obtain ⟨early, ahead⟩ := List.forall_mem_cons.mp ahead
    have stillMissed := here.lines missed
    have goesOn : verdict wanted deadline moment.time (moment.lines lines) = none := by
      simp [verdict, stillMissed, Nat.not_le.mpr early]
    rw [List.foldl_cons, pass_waiting missed, goesOn]
    exact inductionHypothesis stillMissed misses ahead

/-- The first moment that ends a wait decides about it. -/
theorem ending_of_verdict (missed : lines.contains wanted = false)
    (misses : ∀ moment ∈ earlier, moment.Misses wanted)
    (ahead : ∀ moment ∈ earlier, moment.time < deadline)
    (ends : verdict wanted deadline moment.time
      (moment.lines (Moment.linesAfter lines earlier)) = some outcome) (later : List Moment) :
    ((earlier ++ moment :: later).foldl (pass wanted deadline) ⟨⟨lines, false⟩, none⟩).ending =
      some outcome := by
  obtain ⟨waits, stillMissed⟩ := foldl_waiting missed misses ahead
  rw [List.foldl_append, waits, List.foldl_cons, pass_waiting stillMissed, ends]
  exact ending_foldl rfl later

/-- A wait that is over was ended by the lines of some moment. -/
theorem verdict_of_ending (missed : lines.contains wanted = false)
    (ending : (moments.foldl (pass wanted deadline) ⟨⟨lines, false⟩, none⟩).ending = some outcome) :
    ∃ earlier moment later, moments = earlier ++ moment :: later ∧
      verdict wanted deadline moment.time
        (Moment.linesAfter lines (earlier ++ [moment])) = some outcome := by
  induction moments generalizing lines with
  | nil => exact absurd ending.symm (Option.some_ne_none outcome)
  | cons moment rest inductionHypothesis =>
    rw [List.foldl_cons, pass_waiting missed] at ending
    cases ends : verdict wanted deadline moment.time (moment.lines lines) with
    | some first =>
      rw [ending_foldl (by rw [ends])] at ending
      exact ⟨[], moment, rest, rfl, ends.trans ending⟩
    | none =>
      have stillMissed : (moment.lines lines).contains wanted = false := by
        apply Bool.eq_false_iff.mpr
        intro asserted
        simp [verdict, asserted] at ends
      rw [ends] at ending
      obtain ⟨earlier, decisive, later, rfl, decided⟩ := inductionHypothesis stillMissed ending
      exact ⟨moment :: earlier, decisive, later, rfl, decided⟩

end Wait

namespace Moment

variable {start deadline : Nat} {moments earlier rest : List Moment} {moment : Moment}

theorem Ordered.le (ordered : Ordered start (earlier ++ moment :: rest)) :
    ∀ before ∈ earlier, before.time ≤ moment.time := by
  rw [Ordered, List.map_append, ← List.cons_append, List.pairwise_append] at ordered
  intro before member
  exact ordered.2.2 _ (List.mem_cons_of_mem _ (List.mem_map_of_mem member)) _ List.mem_cons_self

/-- The first moment at the deadline comes after those before it. -/
theorem Ordered.exists_first (ordered : Ordered start moments)
    (reached : ∃ moment ∈ moments, moment.time = deadline) :
    ∃ earlier moment rest, moments = earlier ++ moment :: rest ∧ moment.time = deadline ∧
      ∀ before ∈ earlier, before.time < deadline := by
  induction moments generalizing start with
  | nil => exact absurd reached.choose_spec.1 List.not_mem_nil
  | cons first others inductionHypothesis =>
    have following : Ordered first.time others := (List.pairwise_cons.mp ordered).2
    by_cases here : first.time = deadline
    · exact ⟨[], first, others, rfl, here, nofun⟩
    · obtain ⟨moment, member, due⟩ := reached
      have among := (List.mem_cons.mp member).resolve_left fun same => here (same ▸ due)
      have ahead : first.time ≤ deadline :=
        due ▸ (List.pairwise_cons.mp following).1 _ (List.mem_map_of_mem among)
      obtain ⟨earlier, moment, rest, rfl, due, before⟩ :=
        inductionHypothesis following ⟨moment, among, due⟩
      exact ⟨first :: earlier, moment, rest, rfl, due,
        List.forall_mem_cons.mpr ⟨Nat.lt_of_le_of_ne ahead here, before⟩⟩

end Moment

namespace Wait

variable {wanted lines : SignalMask} {start timeoutUs time : Nat} {moment : Moment}
  {moments earlier : List Moment}

/-- Lines that are all asserted end a wait at once. -/
theorem ending_begin (asserted : lines.contains wanted = true) (changed : Bool) :
    (through ⟨lines, changed⟩ wanted start timeoutUs moments).ending = some (start, .ok ()) := by
  have ending : (begin ⟨lines, changed⟩ wanted start).ending = some (start, .ok ()) := by
    simp [begin, SampledLines.look, asserted]
  exact ending_foldl ending moments

/-- Otherwise it goes on, and what was left in the slot does not matter. -/
theorem through_waiting (missed : lines.contains wanted = false) (changed : Bool) :
    through ⟨lines, changed⟩ wanted start timeoutUs moments =
      moments.foldl (pass wanted (start + timeoutUs)) ⟨⟨lines, false⟩, none⟩ := by
  rw [← begin_waiting changed missed start]
  rfl

theorem ending_of_sample {sample : SignalMask} {rest : List Moment}
    (missed : lines.contains wanted = false)
    (ordered : Moment.Ordered start (earlier ++ moment :: rest))
    (misses : ∀ before ∈ earlier, before.Misses wanted) (taken : moment.sample = some sample)
    (asserted : sample.contains wanted = true) (early : moment.time < start + timeoutUs)
    (changed : Bool) :
    (through ⟨lines, changed⟩ wanted start timeoutUs (earlier ++ moment :: rest)).ending =
      some (moment.time, .ok ()) := by
  have ahead (before : Moment) (member : before ∈ earlier) : before.time < start + timeoutUs :=
    Nat.lt_of_le_of_lt (ordered.le before member) early
  rw [through_waiting missed]
  refine ending_of_verdict missed misses ahead ?_ rest
  rw [Moment.lines, taken]
  exact if_pos asserted

theorem ending_at_deadline (missed : lines.contains wanted = false)
    (ordered : Moment.Ordered start moments)
    (misses : ∀ moment ∈ moments, moment.time ≤ start + timeoutUs → moment.Misses wanted)
    (reached : ∃ moment ∈ moments, moment.time = start + timeoutUs) (changed : Bool) :
    ∃ missing, (through ⟨lines, changed⟩ wanted start timeoutUs moments).ending =
      some (start + timeoutUs, .error (.signalTimeout missing)) := by
  obtain ⟨earlier, moment, rest, rfl, due, ahead⟩ := ordered.exists_first reached
  have missesBefore (before : Moment) (member : before ∈ earlier) : before.Misses wanted :=
    misses before (List.mem_append_left _ member) (Nat.le_of_lt (ahead before member))
  have missesHere : moment.Misses wanted :=
    misses moment (List.mem_append_right _ List.mem_cons_self) (Nat.le_of_eq due)
  have stillMissed := missesHere.lines (foldl_waiting missed missesBefore ahead).2
  have ends : verdict wanted (start + timeoutUs) moment.time
      (moment.lines (Moment.linesAfter lines earlier)) = some (start + timeoutUs, .error
        (.signalTimeout (wanted.missing (moment.lines (Moment.linesAfter lines earlier))))) := by
    rw [verdict, if_neg (Bool.eq_false_iff.mp stillMissed), due, if_pos (Nat.le_refl _)]
  rw [through_waiting missed]
  exact ⟨_, ending_of_verdict missed missesBefore ahead ends rest⟩

/-- A wait that fails does so at its deadline or later, and reports what is missing there. -/
theorem missing_of_ending {changed : Bool} {error : PowerError}
    (ending : (through ⟨lines, changed⟩ wanted start timeoutUs moments).ending =
      some (time, .error error)) :
    ∃ earlier moment rest, moments = earlier ++ moment :: rest ∧ moment.time = time ∧
      start + timeoutUs ≤ time ∧
      let missing := wanted.missing (Moment.linesAfter lines (earlier ++ [moment]))
      error = .signalTimeout missing ∧ missing ≠ .empty := by
  cases asserted : lines.contains wanted with
  | true =>
    have both := ending.symm.trans (ending_begin asserted changed)
    exact absurd (congrArg Prod.snd (Option.some.inj both)) nofun
  | false =>
    rw [through_waiting asserted] at ending
    obtain ⟨earlier, moment, rest, whole, ends⟩ := verdict_of_ending asserted ending
    refine ⟨earlier, moment, rest, whole, ?_⟩
    simp only [verdict] at ends
    split at ends
    next => exact absurd (congrArg Prod.snd (Option.some.inj ends)) nofun
    next lacking =>
      split at ends
      next due =>
        obtain ⟨rfl, failed⟩ := Prod.mk.inj (Option.some.inj ends)
        refine ⟨rfl, due, (Except.error.inj failed).symm, fun nothing => lacking ?_⟩
        exact (SignalMask.missing_eq_empty_iff _ _).mp nothing
      next => exact absurd ends nofun

end Wait

namespace PowerTask

variable {live : Live} {wanted : SignalMask} {memory : Memory}
  {resume : Mailbox → Except PowerError Unit → Task Turn}

/-- The power task goes on when its wait is over, and watches until then. -/
def carryOn (live : Live) (mailbox : Mailbox) (wanted : SignalMask) (deadline : Nat)
    (memory : Memory) (resume : Mailbox → Except PowerError Unit → Task Turn) :
    Wait → Live × Progress
  | ⟨sampled, none⟩ =>
    (live.keepSampled sampled, .waiting (.watching wanted deadline memory resume))
  | ⟨sampled, some (_, result)⟩ => proceed (resume mailbox result) (live.keepSampled sampled)

theorem proceed_waitForLines (live : Live) (wanted : SignalMask) (timeoutUs : Nat)
    (memory : Memory) (resume : Mailbox → Except PowerError Unit → Task Turn) :
    proceed (.ask memory (.waitForLines wanted timeoutUs) resume) live =
      carryOn (live.handOver memory) memory.mailbox wanted (live.now + timeoutUs) memory resume
        (Wait.begin live.ram.sampled wanted live.now) := by
  rw [proceed, Wait.begin]
  cases live.ram.sampled.look wanted with
  | mk sampled result => cases result <;> rfl

theorem poll_watching {deadline : Nat}
    (watching : live.ram.power = .watching wanted deadline memory resume) :
    poll live = putAway (serve turnsAtOnce
      (carryOn live live.ram.mailbox wanted deadline memory resume
        (Wait.look wanted deadline live.now ⟨live.ram.sampled, none⟩))) := by
  have stays (sampled : SampledLines) : live.keepSampled sampled = putAway
      (live.keepSampled sampled, .watching wanted deadline memory resume) := by
    rw [← watching]
    rfl
  simp only [poll, isReady, watching, Wait.look]
  cases ready : live.ram.sampled.isReady deadline live.now with
  | true =>
    cases live.ram.sampled.lookAgain wanted deadline live.now with
    | mk sampled result =>
      cases result with
      | none => exact stays sampled
      | some result => rfl
  | false =>
    obtain ⟨unchanged, ahead⟩ := Bool.or_eq_false_iff.mp ready
    have asleep : live.ram.sampled.lookAgain wanted deadline live.now =
        (live.ram.sampled, none) := by
      simp [SampledLines.lookAgain, unchanged, of_decide_eq_false ahead]
    rw [asleep]
    exact stays live.ram.sampled

end PowerTask

/-- Waits for lines are exact. Whatever the lines were sampled as, whatever is waited for and for
how long, and whether or not a change from before was left in the slot: a task that is polled after
each sample and at its deadline goes on at once if the lines are asserted, and otherwise at the
first sample before the deadline that shows all of them. If none does up to the deadline, it goes on
without them exactly there, and not earlier. What it reports missing is what the last sample lacks
of the wanted lines, which is never nothing. The power task of the controller waits so, from its
first look on. -/
theorem wait_exact {start : Nat} {moments : List Moment} (ordered : Moment.Ordered start moments)
    (sampled : SampledLines) (wanted : SignalMask) (timeoutUs : Nat) :
    let deadline := start + timeoutUs
    let wait := Wait.through sampled wanted start timeoutUs moments
    (sampled.lines.contains wanted = true → wait.ending = some (start, .ok ())) ∧
    (sampled.lines.contains wanted = false →
      (∀ earlier moment rest sample, moments = earlier ++ moment :: rest →
        (∀ before ∈ earlier, before.Misses wanted) → moment.sample = some sample →
        sample.contains wanted = true → moment.time < deadline →
        wait.ending = some (moment.time, .ok ())) ∧
      ((∀ moment ∈ moments, moment.time ≤ deadline → moment.Misses wanted) →
        ((∃ moment ∈ moments, moment.time = deadline) →
          ∃ missing, wait.ending = some (deadline, .error (.signalTimeout missing))) ∧
        ((∀ moment ∈ moments, moment.time < deadline) → wait.ending = none))) ∧
    (∀ time error, wait.ending = some (time, .error error) →
      ∃ earlier moment rest, moments = earlier ++ moment :: rest ∧ moment.time = time ∧
        deadline ≤ time ∧
        let missing := wanted.missing (Moment.linesAfter sampled.lines (earlier ++ [moment]))
        error = .signalTimeout missing ∧ missing ≠ .empty) ∧
    ∀ (live : Live) (memory : Memory) (resume : Mailbox → Except PowerError Unit → Task Turn),
      (live.now = start →
        PowerTask.proceed (.ask memory (.waitForLines wanted timeoutUs) resume) live =
          PowerTask.carryOn (live.handOver memory) memory.mailbox wanted deadline memory resume
            (Wait.begin live.ram.sampled wanted start)) ∧
      (live.ram.power = .watching wanted deadline memory resume →
        PowerTask.poll live = PowerTask.putAway (PowerTask.serve PowerTask.turnsAtOnce
          (PowerTask.carryOn live live.ram.mailbox wanted deadline memory resume
            (Wait.look wanted deadline live.now ⟨live.ram.sampled, none⟩)))) := by
  intro deadline wait
  obtain ⟨lines, changed⟩ := sampled
  refine ⟨fun asserted => Wait.ending_begin asserted changed, fun missed => ⟨?_, ?_⟩,
    fun _ _ => Wait.missing_of_ending, fun live memory resume => ⟨?_, PowerTask.poll_watching⟩⟩
  · rintro earlier moment rest sample rfl misses taken asserted early
    exact Wait.ending_of_sample missed ordered misses taken asserted early changed
  · intro misses
    refine ⟨fun reached => Wait.ending_at_deadline missed ordered misses reached changed, ?_⟩
    intro ahead
    have missesAll (moment : Moment) (member : moment ∈ moments) : moment.Misses wanted :=
      misses moment member (Nat.le_of_lt (ahead moment member))
    have goesOn : wait = ⟨⟨Moment.linesAfter lines moments, false⟩, none⟩ :=
      (Wait.through_waiting missed changed).trans (Wait.foldl_waiting missed missesAll ahead).1
    rw [goesOn]
  · rintro rfl
    exact PowerTask.proceed_waitForLines live wanted timeoutUs memory resume

/-- Two lines are waited for, of which one is asserted, and a change from before waits in the slot.
They come together half a millisecond before the deadline, after a sample that had only the other
one. In the second history they never do in time: the sample at the deadline shows one of them, and
the wait fails there. -/
theorem wait_exact_staleChange :
    let wanted := SignalMask.pp5000Good.union .sysGood
    let sampled : SampledLines := ⟨.pp5000Good, true⟩
    let comes : List Moment := [⟨1500, some .sysGood⟩, ⟨2500, some .sysGood⟩, ⟨3500, some wanted⟩,
      ⟨4000, some .empty⟩]
    let fails : List Moment := [⟨1500, some .sysGood⟩, ⟨2500, some .empty⟩,
      ⟨4000, some .pp5000Good⟩, ⟨4500, some wanted⟩]
    Moment.Ordered 1000 comes ∧ Moment.Ordered 1000 fails ∧
      (Wait.through sampled wanted 1000 3000 comes).ending = some (3500, .ok ()) ∧
      ∃ missing, (Wait.through sampled wanted 1000 3000 fails).ending =
        some (4000, .error (.signalTimeout missing)) ∧ missing ≠ .empty := by
  intro wanted sampled comes fails
  have missed : sampled.lines.contains wanted = false := by decide
  have comesOrdered : Moment.Ordered 1000 comes := by decide
  have failsOrdered : Moment.Ordered 1000 fails := by decide
  have misses : ∀ moment ∈ fails, moment.time ≤ 4000 → moment.Misses wanted := by
    simp only [fails, List.forall_mem_cons, Moment.Misses]
    decide
  have reached : ∃ moment ∈ fails, moment.time = 4000 := ⟨⟨4000, some .pp5000Good⟩, by decide, rfl⟩
  have good := ((wait_exact comesOrdered sampled wanted 3000).2.1 missed).1
  obtain ⟨-, bad, named, -⟩ := wait_exact failsOrdered sampled wanted 3000
  obtain ⟨missing, ending⟩ := ((bad missed).2 misses).1 reached
  obtain ⟨_, _, _, -, -, -, same, lacking⟩ := named _ _ ending
  obtain rfl := PowerError.signalTimeout.inj same
  refine ⟨comesOrdered, failsOrdered, ?_, _, ending, lacking⟩
  exact good [⟨1500, some .sysGood⟩, ⟨2500, some .sysGood⟩] _ [⟨4000, some .empty⟩] wanted rfl
    (by simp only [List.forall_mem_cons, Moment.Misses]; decide) rfl (by decide) (by decide)

end RailSequencer.Controller
