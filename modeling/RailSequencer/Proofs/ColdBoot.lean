import RailSequencer.Proofs.Release
import RailSequencer.Proofs.Timeline

/-!
# Cold boot

A controller that powers on by itself goes from G3 to S0 in six steps, whatever its tables and masks
are, when its surroundings oblige: the supplies come within the bounds of their waits and stay, the
charger agrees in time, the processor does not ask to be suspended, and nobody asks for a shutdown.
`Climbing` is what carries it from step to step; each step of a cold boot asks for the same things
in every run, except that the charger is polled as often as it refuses.
-/

namespace RailSequencer

namespace Mailbox

/-- Calls that lead to a shutdown request, at once or when their time has come. -/
def Call.AsksShutdown : Call → Prop
  | .requestShutdown | .powerButton true | .schedule _ | .deferTimer (.ofNat _) => True
  | _ => False

/-- No shutdown is requested, and the timer that would request one stands still. -/
structure Calm (mailbox : Mailbox) : Prop where
  unrequested : mailbox.shutdownRequested = false
  idle : mailbox.shutdownTimer.deadline = none
  unscheduled : ∀ delayUs, mailbox.shutdownTimer.command ≠ some (.schedule delayUs)

/-- A timer that stands still calls nobody. -/
theorem Calm.turn_shutdownTimer {mailbox : Mailbox} (calm : mailbox.Calm) (now : Nat) :
    mailbox.shutdownTimer.turn now = ({}, false) := by
  have silent : mailbox.shutdownTimer.isDue now = false := by
    rw [OneShot.isDue, calm.idle]
    rfl
  cases command : mailbox.shutdownTimer.command with
  | none => simp [OneShot.turn, silent, command, calm.idle]
  | some newest =>
    cases newest with
    | schedule delayUs => exact absurd command (calm.unscheduled delayUs)
    | cancel => simp [OneShot.turn, silent, command]

theorem Calm.turnTimer {mailbox : Mailbox} (calm : mailbox.Calm) (now : Nat) :
    (mailbox.turnTimer now).Calm := by
  rw [Mailbox.turnTimer, calm.turn_shutdownTimer]
  exact ⟨calm.unrequested, rfl, fun _ => (Option.some_ne_none _).symm⟩

theorem Calm.cancelTimer {mailbox : Mailbox} (calm : mailbox.Calm) : mailbox.cancelTimer.Calm where
  unrequested := calm.unrequested
  idle := calm.idle
  unscheduled := by simp [Mailbox.cancelTimer, OneShot.cancel]

theorem Calm.perform {mailbox : Mailbox} {call : Call} (calm : mailbox.Calm)
    (other : ¬call.AsksShutdown) : (mailbox.perform call).Calm := by
  have powersOn (mailbox : Mailbox) (calm : mailbox.Calm) : mailbox.requestPowerOn.Calm := by
    unfold requestPowerOn
    split
    · exact ⟨calm.unrequested, calm.idle, calm.unscheduled⟩
    · exact ⟨calm.unrequested, calm.idle, calm.unscheduled⟩
    · exact calm
  cases call with
  | requestShutdown | schedule => exact absurd trivial other
  | requestPowerOn => exact powersOn mailbox calm
  | powerButton pressed =>
    cases pressed with
    | false => exact calm.cancelTimer
    | true => exact absurd trivial other
  | lid isOpen =>
    rw [Mailbox.perform, lid]
    split
    · exact powersOn mailbox calm
    · exact calm
  | cancelTimer => exact calm.cancelTimer
  | deferTimer delayMs =>
    cases delayMs with
    | ofNat => exact absurd trivial other
    | negSucc => exact calm.cancelTimer
  | turnTimer now => exact calm.turnTimer now
  | wake | requestReset | setLongPress =>
    exact ⟨calm.unrequested, calm.idle, calm.unscheduled⟩

theorem Calm.performAll {mailbox : Mailbox} {calls : List Call} (calm : mailbox.Calm)
    (others : ∀ call ∈ calls, ¬call.AsksShutdown) : (mailbox.performAll calls).Calm := by
  induction calls generalizing mailbox with
  | nil => exact calm
  | cons call calls inductionHypothesis =>
    obtain ⟨other, others⟩ := List.forall_mem_cons.mp others
    exact inductionHypothesis (calm.perform other) others

end Mailbox

namespace Exchange

/-- What the charger answered to a poll. -/
def refusal? : Exchange → Option Bool
  | ⟨.powerOnBlocked, _, blocked⟩ => some blocked
  | _ => none

/-- What the charger answered to its polls, in order. -/
def refusals (trace : List Exchange) : List Bool := trace.filterMap refusal?

@[simp]
theorem refusals_append (first second : List Exchange) :
    refusals (first ++ second) = refusals first ++ refusals second :=
  List.filterMap_append

/-- The charger wants the processor to stay off. -/
def KeepsOff : Exchange → Prop
  | ⟨.shutdownWanted, _, wanted⟩ => wanted = true
  | _ => False

end Exchange

/-- What a power-up asks the charger when it is refused so many times. -/
def chargerRequests : (refused : Nat) → List Request
  | 0 => [.powerOnBlocked]
  | refused + 1 =>
    .powerOnBlocked :: sleepRequests Timing.chargerRetryMs ++ chargerRequests refused

theorem writes_chargerRequests (refused : Nat) : Request.writes (chargerRequests refused) = [] := by
  induction refused with
  | zero => rfl
  | succ refused inductionHypothesis =>
    rw [chargerRequests, Request.writes_append, inductionHypothesis]
    rfl

theorem quiet_chargerRequests (refused : Nat) :
    ∀ request ∈ chargerRequests refused, request.IsQuiet := by
  induction refused with
  | zero => exact List.forall_mem_singleton.mpr trivial
  | succ refused inductionHypothesis =>
    rw [chargerRequests, List.forall_mem_append, List.forall_mem_cons]
    exact ⟨⟨trivial, quiet_sleepRequests _⟩, inductionHypothesis⟩

/-- A power-up polls until the charger agrees, and has refused polls behind it when it does; a charger
that never agrees has refused the last poll as well. -/
theorem ChargerPolls.polled {retries : Nat} {trace : List Exchange} {ready : Bool}
    (polls : ChargerPolls retries trace ready) :
    ∃ refused ≤ retries, Exchange.requests trace = chargerRequests refused ∧
      Exchange.refusals trace = List.replicate refused true ++ [!ready] ∧
      (ready = false → refused = retries) := by
  induction polls with
  | last calls blocked =>
    refine ⟨0, Nat.le_refl _, rfl, ?_, fun _ => rfl⟩
    rw [Bool.not_not]
    rfl
  | agrees calls => exact ⟨0, Nat.zero_le _, rfl, rfl, nofun⟩
  | again calls slept later inductionHypothesis =>
    obtain ⟨refused, within, asked, answered, exhausted⟩ := inductionHypothesis
    refine ⟨refused + 1, Nat.succ_le_succ within, ?_, ?_, fun refuses => by rw [exhausted refuses]⟩
    · rw [chargerRequests, ← asked]
      rfl
    · rw [List.replicate_succ, List.cons_append, ← answered]
      rfl

/-- How the surroundings oblige a cold boot, request by request: the board keeps to its timeline,
the supplies that are waited for come within the bound and stay, the charger does not want the
processor to stay off, and whoever calls does not ask for a shutdown. -/
structure Timeline.Obliges (timeline : Timeline) (start : Nat) (exchange : Exchange)
    (finish : Nat) : Prop where
  serves : timeline.Serves start exchange finish
  comes : ∀ wanted timeoutUs, exchange.request = .waitForLines wanted timeoutUs →
    timeline.Comes wanted start timeoutUs
  agrees : ¬exchange.KeepsOff
  calm : ∀ call ∈ exchange.calls, ¬call.AsksShutdown

/-- The state after so many steps of a cold boot. -/
def PowerState.climbed : Nat → PowerState
  | 0 => .g3
  | 1 => .g3s5
  | 2 => .s5
  | 3 => .s5s3
  | 4 => .s3
  | 5 => .s3s0
  | _ => .s0

namespace PowerTree

/-- All that a power-up asks for when its supplies come. -/
def powerUpRequests (tree : PowerTree) : List Request :=
  tableRequests sleepRequests tree.tables.s5s3 ++
    [.waitForLines tree.pgoodS3 Timing.supplyTimeoutUs, .notify .startup]

/-- What the steps of a cold boot ask for. -/
def Climbs (tree : PowerTree) : PowerState → List Request → Prop
  | .g3s5, asked => ∃ refused ≤ Timing.chargerRetries,
    asked = chargerRequests refused ++ [.shutdownWanted]
  | .s5s3, asked => asked = tree.powerUpRequests
  | .s3, asked => asked = [.readLines]
  | .s3s0, asked => asked = tree.resumeRequests true .s0
  | _, asked => asked = []

/-- All that a cold boot asks for. -/
def coldBootRequests (tree : PowerTree) (refused : Nat) : List Request :=
  chargerRequests refused ++ [.shutdownWanted] ++ tree.powerUpRequests ++ [.readLines] ++
    tree.resumeRequests true .s0

end PowerTree

section Boot

variable {tree : PowerTree} {timeline : Timeline} {memory final : Memory} {trace : List Exchange}
  {state next : PowerState} {start finish steps : Nat}

theorem Spans.calm (spans : Spans timeline.Obliges start trace finish) :
    ∀ call ∈ Exchange.heard trace, ¬call.AsksShutdown := by
  induction spans with
  | nil => exact fun _ member => absurd member List.not_mem_nil
  | cons first later inductionHypothesis =>
    exact List.forall_mem_append.mpr ⟨first.calm, inductionHypothesis⟩

theorem Spans.le (spans : Spans timeline.Obliges start trace finish) : start ≤ finish := by
  induction spans with
  | nil => exact Nat.le_refl _
  | cons first later inductionHypothesis => exact Nat.le_trans first.serves.le inductionHypothesis

/-- A wait does not fail, and its lines are asserted from then on. -/
theorem Spans.supplied {earlier later : List Exchange} {wanted : SignalMask} {timeoutUs : Nat}
    {calls : List Mailbox.Call} {answer : Except PowerError Unit}
    (spans : Spans timeline.Obliges start
      (earlier ++ ⟨.waitForLines wanted timeoutUs, calls, answer⟩ :: later) finish) :
    answer = .ok () ∧ ∀ moment, finish ≤ moment → timeline.Asserts wanted moment := by
  obtain ⟨_, -, waits⟩ := spans_append_iff.mp spans
  obtain ⟨ended, wait, rest⟩ := spans_cons_iff.mp waits
  obtain ⟨ok, asserted⟩ := wait.serves.ok_of_comes (wait.comes _ _ rfl)
  exact ⟨ok, fun moment after => asserted moment (Nat.le_trans rest.le after)⟩

/-- What is known after so many steps of a cold boot, and carries the next. -/
structure Climbing (tree : PowerTree) (timeline : Timeline) (moment : Nat) (state : PowerState)
    (memory : Memory) : Prop where
  calm : memory.mailbox.Calm
  unforced : memory.forcingShutdown = false
  asked : state = .g3 → memory.mailbox.powerOnRequested = true
  held : state = .s3 ∨ state = .s3s0 → memory.resetHeld = true
  supplied : state = .s3 → ∀ later, moment ≤ later → timeline.Asserts tree.pgoodS3 later

/-- Elsewhere there is nothing to know but that nobody wants a shutdown. -/
theorem Climbing.of_calm (calm : memory.mailbox.Calm) (unforced : memory.forcingShutdown = false)
    (away : state ≠ .g3 ∧ state ≠ .s3 ∧ state ≠ .s3s0) :
    Climbing tree timeline start state memory where
  calm := calm
  unforced := unforced
  asked off := absurd off away.1
  held held := held.elim (absurd · away.2.1) (absurd · away.2.2)
  supplied suspended := absurd suspended away.2.1

/-- A memory with no shutdown under way or requested has no request to take. -/
theorem Climbing.takeShutdown (climbing : Climbing tree timeline start state memory) :
    memory.takeShutdown = memory := by
  obtain ⟨⟨published, shutdown, powerOn, reset, inhibited, longPress, woken, timer⟩, forcing,
    held⟩ := memory
  obtain rfl : shutdown = false := climbing.calm.unrequested
  obtain rfl : forcing = false := climbing.unforced
  rfl

/-- Each of the first six steps leads to the next state, and asks for what it is there for. -/
theorem Climbing.step (climbing : Climbing tree timeline start (.climbed steps) memory)
    (below : steps < 6) (transition : Transition tree memory (.climbed steps) trace final next)
    (spans : Spans timeline.Obliges start trace finish)
    (patient : ¬List.replicate (Timing.chargerRetries + 1) true <:+: Exchange.refusals trace)
    (awake : ∀ moment, timeline.Asserts .suspendDeasserted moment) :
    next = .climbed (steps + 1) ∧ tree.Climbs (.climbed steps) (Exchange.requests trace) ∧
      Climbing tree timeline finish next final := by
  have calm : (memory.after trace).mailbox.Calm := climbing.calm.performAll spans.calm
  have unforced := climbing.unforced
  -- In each state what is known rules out every way through the step but one.
  match steps with
  | 0 =>
    cases transition with
    | fromG3 leads =>
      rw [climbing.asked rfl, if_pos rfl] at leads
      subst leads
      refine ⟨rfl, rfl, .of_calm ?_ unforced (by decide)⟩
      exact ⟨calm.unrequested, calm.idle, calm.unscheduled⟩
  | 1 =>
    cases transition with
    | @asksCharger polls _ ready _ polled calls unwanted whole leads =>
      subst whole
      obtain ⟨_, -, wants⟩ := spans_append_iff.mp spans
      obtain ⟨_, wanted, -⟩ := spans_cons_iff.mp wants
      obtain rfl : unwanted = false := eq_false_of_ne_true wanted.agrees
      obtain ⟨refused, within, asked, answered, exhausted⟩ := polled.polled
      cases ready with
      | false =>
        rw [exhausted rfl, Bool.not_false, ← List.replicate_succ'] at answered
        rw [Exchange.refusals_append, answered] at patient
        exact absurd (List.prefix_append _ _).isInfix patient
      | true =>
        obtain rfl : next = .s5 := leads
        refine ⟨rfl, ⟨refused, within, ?_⟩, .of_calm ?_ rfl (by decide)⟩
        · rw [Exchange.requests_append, asked]
          rfl
        · exact ⟨calm.unrequested, calm.idle, calm.unscheduled⟩
  | 2 =>
    cases transition with
    | fromS5 leads =>
      rw [unforced] at leads
      subst leads
      exact ⟨rfl, rfl, .of_calm climbing.calm unforced (by decide)⟩
  | 3 =>
    cases transition with
    | powersUp asked waited told whole =>
      subst whole
      refine ⟨rfl, ?_, calm, unforced, (absurd · (by decide)), fun _ => rfl,
        fun _ => spans.supplied.2⟩
      rw [Exchange.requests_append, asked]
      rfl
    | failsPowerUp asked waited error whole =>
      subst whole
      exact absurd spans.supplied.1 (by simp)
  | 4 =>
    cases transition with
    | fromS3 calls lines whole leads =>
      subst whole
      obtain ⟨moment, look, -⟩ := spans_cons_iff.mp spans
      obtain ⟨rfl, -, rfl⟩ := look.serves
      have supplied := climbing.supplied rfl moment (Nat.le_refl _)
      rw [unforced, PowerTree.afterS3, supplied, awake moment] at leads
      subst leads
      exact ⟨rfl, rfl, calm, unforced, (absurd · (by decide)), fun _ => climbing.held (.inl rfl),
        (absurd · (by decide))⟩
  | 5 =>
    have asked := transition.requests_resume
    rw [climbing.held (.inr rfl)] at asked
    cases transition with
    | resumes => exact ⟨rfl, asked, .of_calm calm unforced (by decide)⟩
    | failsResume _ _ waited error whole =>
      subst whole
      exact absurd spans.supplied.1 (by simp)

/-- The steps of a cold boot so far. -/
structure Ascent (tree : PowerTree) (legs : List Leg) (last : PowerState) : Prop where
  reached : last = .climbed legs.length
  visited : legs.map (fun leg => (leg.origin, leg.next)) =
    (List.range legs.length).map fun steps => (.climbed steps, .climbed (steps + 1))
  asked : ∀ leg ∈ legs, tree.Climbs leg.origin (Exchange.requests leg.trace)

variable {meanwhile : Mailbox → Mailbox → Prop} {legs : List Leg} {last first : PowerState}
  {begun : Memory} {opening : List Exchange} {moment : Nat}

theorem Journey.ascent
    (undisturbed : ∀ earlier later, meanwhile earlier later → earlier.Calm →
      later.Calm ∧ (earlier.powerOnRequested = true → later.powerOnRequested = true))
    (climbing : Climbing tree timeline start .g3 memory)
    (journey : Journey tree meanwhile .g3 memory legs last final) (upTo : legs.length ≤ 6)
    (spans : Spans timeline.Obliges start (legs.flatMap Leg.trace) finish)
    (patient : ¬List.replicate (Timing.chargerRetries + 1) true <:+:
      Exchange.refusals (legs.flatMap Leg.trace))
    (awake : ∀ moment, timeline.Asserts .suspendDeasserted moment) :
    Ascent tree legs last ∧ Climbing tree timeline finish last final := by
  induction journey generalizing finish with
  | start =>
    obtain rfl := spans_nil_iff.mp spans
    exact ⟨⟨rfl, rfl, fun _ member => absurd member List.not_mem_nil⟩, climbing⟩
  | @step legs last next before after trace mailbox prior waits run inductionHypothesis =>
    have below : legs.length < 6 := by
      rw [List.length_append] at upTo
      exact upTo
    rw [List.flatMap_append, List.flatMap_singleton] at spans patient
    rw [Exchange.refusals_append] at patient
    obtain ⟨middle, climbed, climbs⟩ := spans_append_iff.mp spans
    obtain ⟨ascent, reached⟩ := inductionHypothesis below.le climbed fun refused =>
      patient (refused.trans (List.prefix_append _ _).isInfix)
    obtain ⟨calm, kept⟩ := undisturbed _ _ waits reached.calm
    have resumed : Climbing tree timeline middle last { before with mailbox := mailbox } :=
      ⟨calm, reached.unforced, fun off => kept (reached.asked off), reached.held, reached.supplied⟩
    have transition := Program.step_runs run
    rw [resumed.takeShutdown] at transition
    obtain rfl := ascent.reached
    obtain ⟨leads, asked, climbing⟩ := resumed.step below transition climbs
      (fun refused => patient (refused.trans (List.suffix_append _ _).isInfix)) awake
    refine ⟨⟨?_, ?_, ?_⟩, climbing⟩
    · rw [List.length_append]
      exact leads
    · rw [List.length_append, List.length_singleton, List.range_succ, List.map_append,
        List.map_append, ascent.visited, leads]
      rfl
    · rw [List.forall_mem_append, List.forall_mem_singleton]
      exact ⟨ascent.asked, asked⟩

/-- Six steps ask, one after another, for all that a cold boot asks for. -/
theorem Ascent.requests (ascent : Ascent tree legs last) (six : legs.length = 6) :
    ∃ refused ≤ Timing.chargerRetries,
      Exchange.requests (legs.flatMap Leg.trace) = tree.coldBootRequests refused := by
  have origins : legs.map Leg.origin = [.g3, .g3s5, .s5, .s5s3, .s3, .s3s0] := by
    have visited := congrArg (List.map Prod.fst) ascent.visited
    rw [six, List.map_map] at visited
    exact visited
  have asked := ascent.asked
  simp only [List.map_eq_cons_iff, List.map_eq_nil_iff] at origins
  obtain ⟨off, _, rfl, isOff, charging, _, rfl, isCharging, starting, _, rfl, isStarting,
    supplying, _, rfl, isSupplying, suspended, _, rfl, isSuspended, resuming, _, rfl, isResuming,
    rfl⟩ := origins
  simp only [List.forall_mem_cons, isOff, isCharging, isStarting, isSupplying, isSuspended,
    isResuming] at asked
  obtain ⟨none, ⟨refused, within, polled⟩, nothing, supplied, looked, resumed, -⟩ := asked
  refine ⟨refused, within, ?_⟩
  simp only [PowerTree.Climbs] at none nothing supplied looked resumed
  simp only [List.flatMap_cons, List.flatMap_nil, Exchange.requests_append, none, polled, nothing,
    supplied, looked, resumed, PowerTree.coldBootRequests, List.append_assoc, List.nil_append,
    List.append_nil]

/-- The states after the first steps of a cold boot, from the start on. -/
theorem Ascent.states (ascent : Ascent tree legs last) (upTo : legs.length ≤ 6) :
    .g3 :: legs.map Leg.next =
      [.g3, .g3s5, .s5, .s5s3, .s3, .s3s0, .s0].take (legs.length + 1) := by
  have nexts := congrArg (List.map Prod.snd) ascent.visited
  rw [List.map_map, List.map_map] at nexts
  have named : ∀ count ≤ 6,
      .g3 :: (List.range count).map (fun steps => PowerState.climbed (steps + 1)) =
        [.g3, .g3s5, .s5, .s5s3, .s3, .s3s0, .s0].take (count + 1) := by decide
  rw [← named _ upTo]
  exact congrArg _ nexts

theorem PowerTree.writes_coldBootRequests (tree : PowerTree) (refused : Nat) :
    Request.writes (tree.coldBootRequests refused) =
      tree.tables.s5s3.map RailWrite.output ++ tree.tables.s3s0.map RailWrite.output ++
        [(.sysRstL, .high)] := by
  simp only [PowerTree.coldBootRequests, PowerTree.powerUpRequests, PowerTree.resumeRequests,
    Request.writes_append, writes_chargerRequests, writes_tableRequests writes_sleepRequests,
    List.append_assoc]
  rfl

theorem PowerTree.events_coldBootRequests (tree : PowerTree) (refused : Nat) :
    (tree.coldBootRequests refused).filterMap Request.event? = [.startup, .resume] := by
  simp only [PowerTree.coldBootRequests, PowerTree.powerUpRequests, PowerTree.resumeRequests,
    List.filterMap_append, Request.events_eq_nil (quiet_chargerRequests _),
    Request.events_eq_nil (quiet_tableRequests quiet_sleepRequests _)]
  rfl

/-- A new power task that powers on by itself is on its way up, one state further with each step,
and six steps take it to S0. This holds for all tables and masks and however other tasks call, as
long as the surroundings oblige: supplies come within the bounds of their waits and stay, the
charger refuses forty polls in a row at most and does not want the processor to stay off, the
processor does not ask to be suspended, and no shutdown is asked for. The whole boot asks for the
same things each time but for the polls of the charger. So it writes the tables of both edges up,
entry by entry with their delays, and then releases the reset line; subscribers are told of the
startup and of the resume. No board keeps a step from ending. -/
theorem coldBoot_reaches_s0
    (undisturbed : ∀ earlier later, meanwhile earlier later → earlier.Calm →
      later.Calm ∧ (earlier.powerOnRequested = true → later.powerOnRequested = true))
    (started : (Program.start tree { autoPowerOn := true } {}).Runs opening begun first)
    (journey : Journey tree meanwhile first begun legs last final) (upTo : legs.length ≤ 6)
    (spans : Spans timeline.Obliges start (opening ++ legs.flatMap Leg.trace) finish)
    (patient : ¬List.replicate (Timing.chargerRetries + 1) true <:+:
      Exchange.refusals (opening ++ legs.flatMap Leg.trace))
    (awake : ∀ moment, timeline.Asserts .suspendDeasserted moment) :
    first :: legs.map Leg.next =
        [.g3, .g3s5, .s5, .s5s3, .s3, .s3s0, .s0].take (legs.length + 1) ∧
      (legs.length = 6 →
        (∃ refused ≤ Timing.chargerRetries,
          Exchange.requests (opening ++ legs.flatMap Leg.trace) = tree.coldBootRequests refused) ∧
        Exchange.writes (opening ++ legs.flatMap Leg.trace) =
          tree.tables.s5s3.map RailWrite.output ++ tree.tables.s3s0.map RailWrite.output ++
            [(.sysRstL, .high)] ∧
        Exchange.notified (opening ++ legs.flatMap Leg.trace) = [.startup, .resume]) ∧
      ∀ mailbox (answer : (request : Request) → List Mailbox.Call × request.Answer),
        meanwhile final.mailbox mailbox → ∃ leg,
          Journey tree meanwhile first begun (legs ++ [leg]) leg.next leg.final ∧
            ∀ exchange ∈ leg.trace,
              (exchange.calls, exchange.answer) = answer exchange.request := by
  obtain ⟨rfl, powersOn, rfl⟩ := Task.runs_done_iff.mp started
  have climbing : Climbing tree timeline start .g3 begun := by
    rw [powersOn]
    exact ⟨⟨rfl, rfl, nofun⟩, rfl, fun _ => rfl, nofun, nofun⟩
  obtain ⟨ascent, -⟩ := journey.ascent undisturbed climbing upTo spans patient awake
  refine ⟨ascent.states upTo, ?_, ?_⟩
  · intro six
    obtain ⟨refused, within, asked⟩ := ascent.requests six
    refine ⟨⟨refused, within, asked⟩, ?_, ?_⟩
    · rw [← tree.writes_coldBootRequests refused, ← asked]
      rfl
    · rw [← tree.events_coldBootRequests refused, ← asked]
      rfl
  · intro mailbox answer waits
    obtain ⟨trace, after, next, run, answers⟩ :=
      (Program.step tree last { final with mailbox := mailbox }).exists_runs answer
    exact ⟨⟨last, trace, after, next⟩, .step journey waits run, answers⟩

/-- A supply that is there from a moment on comes in time for whoever has not waited too long. -/
theorem Timeline.Comes.of_asserts_iff {wanted : SignalMask} {first timeoutUs : Nat}
    (there : ∀ moment, timeline.Asserts wanted moment ↔ first ≤ moment) (begun : start ≤ first)
    (inTime : timeline.time first < timeline.time start + timeoutUs) :
    timeline.Comes wanted start timeoutUs where
  inTime := ⟨first, begun, inTime, (there first).mpr (Nat.le_refl _)⟩
  stays moment later _ after asserted :=
    (there later).mpr (Nat.le_trans ((there moment).mp asserted) after)

end Boot

namespace TwoRails

/-- One supply for S3 and one for S0. -/
def tree : PowerTree where
  revision := .v2
  pgoodS3 := .pp5000Good
  pgoodS0 := .apGood
  debounce := none
  tables :=
    { s5s3 := [⟨.pp5000En, .high, 2⟩]
      s3s0 := [⟨.apCoreEn, .high, 0⟩]
      s0s3 := []
      s3s5 := [] }

/-- The two supplies come 400 ms apart. -/
def timeline : Timeline where
  time moment := moment * 400000
  lines
    | 0 => .suspendDeasserted
    | 1 => SignalMask.suspendDeasserted.union .pp5000Good
    | _ => .allLines
  ordered := fun _ _ earlier => Nat.mul_le_mul_right _ earlier

theorem asserts (moment : Nat) :
    (timeline.Asserts .pp5000Good moment ↔ 1 ≤ moment) ∧
      (timeline.Asserts .apGood moment ↔ 2 ≤ moment) ∧
        timeline.Asserts .suspendDeasserted moment :=
  match moment with
  | 0 => by decide
  | 1 => by decide
  | moment + 2 =>
    have there {wanted : SignalMask} (known : SignalMask.allLines.contains wanted = true) :
        timeline.Asserts wanted (moment + 2) := known
    ⟨iff_of_true (there rfl) (by omega), iff_of_true (there rfl) (by omega), there rfl⟩

def started : Memory := { mailbox := ({} : Mailbox).requestPowerOn }

def charged : Memory := { mailbox := { woken := true } }

def supplied : Memory := { charged with resetHeld := true }

def resumed : Memory := { mailbox := { woken := true, resetRequested := some .warm } }

/-- The charger refuses once, and the button is let go meanwhile. -/
def charging : List Exchange :=
  [⟨.powerOnBlocked, [], true⟩, ⟨.sleep 100000, [.powerButton false, .turnTimer 7], ()⟩,
    ⟨.powerOnBlocked, [], false⟩, ⟨.shutdownWanted, [], false⟩]

def supplying : List Exchange :=
  [⟨.drive .pp5000En .high, [], ()⟩, ⟨.sleep 2000, [], ()⟩,
    ⟨.waitForLines .pp5000Good Timing.supplyTimeoutUs, [], .ok ()⟩, ⟨.notify .startup, [], ()⟩]

def looking : List Exchange := [⟨.readLines, [], timeline.lines 1⟩]

/-- A reset is asked for in the end. -/
def resuming : List Exchange :=
  [⟨.drive .apCoreEn .high, [], ()⟩, ⟨.sleep 10000, [], ()⟩, ⟨.drive .sysRstL .high, [], ()⟩,
    ⟨.waitForLines .apGood Timing.supplyTimeoutUs, [], .ok ()⟩,
    ⟨.notify .resume, [.requestReset .warm], ()⟩, ⟨.allowIdle false, [], ()⟩]

def legs : List Leg :=
  [⟨.g3, [], charged, .g3s5⟩, ⟨.g3s5, charging, charged, .s5⟩, ⟨.s5, [], charged, .s5s3⟩,
    ⟨.s5s3, supplying, supplied, .s3⟩, ⟨.s3, looking, supplied, .s3s0⟩,
    ⟨.s3s0, resuming, resumed, .s0⟩]

theorem journey : Journey tree Eq .g3 started legs .s0 resumed := by
  have leaves : (Program.step tree .g3 started).Runs [] charged .g3s5 := .refl _
  have charges : (Program.step tree .g3s5 charged).Runs charging charged .s5 :=
    .ask (.ask (.ask (.ask (.refl _))))
  have powers : (Program.step tree .s5 charged).Runs [] charged .s5s3 := .refl _
  have supplies : (Program.step tree .s5s3 charged).Runs supplying supplied .s3 :=
    .ask (.ask (.ask (.ask (.refl _))))
  have looks : (Program.step tree .s3 supplied).Runs looking supplied .s3s0 := .ask (.refl _)
  have resumes : (Program.step tree .s3s0 supplied).Runs resuming resumed .s0 :=
    .ask (.ask (.ask (.ask (.ask (.ask (.refl _))))))
  exact .step (.step (.step (.step (.step (.step .start rfl leaves) rfl charges) rfl powers) rfl
    supplies) rfl looks) rfl resumes

/-- Only the waits take from one moment to the next. -/
theorem spans : Spans timeline.Obliges 0 (legs.flatMap Leg.trace) 2 := by
  have lower : timeline.Comes .pp5000Good 0 Timing.supplyTimeoutUs :=
    .of_asserts_iff (fun moment => (asserts moment).1) (by decide) (by decide)
  have upper : timeline.Comes .apGood 1 Timing.supplyTimeoutUs :=
    .of_asserts_iff (fun moment => (asserts moment).2.1) (by decide) (by decide)
  have charges : Spans timeline.Obliges 0 charging 0 :=
    .cons ⟨Nat.le_refl 0, nofun, id, nofun⟩ <|
    .cons ⟨Nat.le_refl 0, nofun, id, by simp [Mailbox.Call.AsksShutdown]⟩ <|
    .cons ⟨Nat.le_refl 0, nofun, id, nofun⟩ <|
    .cons ⟨Nat.le_refl 0, nofun, nofun, nofun⟩ <| .nil 0
  have supplies : Spans timeline.Obliges 0 supplying 1 :=
    .cons ⟨Nat.le_refl 0, nofun, id, nofun⟩ <|
    .cons ⟨Nat.le_refl 0, nofun, id, nofun⟩ <|
    .cons ⟨⟨1, by decide, by decide, by decide, by decide⟩, fun | _, _, rfl => lower, id, nofun⟩ <|
    .cons ⟨Nat.le_refl 1, nofun, id, nofun⟩ <| .nil 1
  have looks : Spans timeline.Obliges 1 looking 1 :=
    .cons ⟨⟨rfl, rfl, rfl⟩, nofun, id, nofun⟩ <| .nil 1
  have resumes : Spans timeline.Obliges 1 resuming 2 :=
    .cons ⟨Nat.le_refl 1, nofun, id, nofun⟩ <|
    .cons ⟨Nat.le_refl 1, nofun, id, nofun⟩ <|
    .cons ⟨Nat.le_refl 1, nofun, id, nofun⟩ <|
    .cons ⟨⟨2, by decide, by decide, by decide, by decide⟩, fun | _, _, rfl => upper, id, nofun⟩ <|
    .cons ⟨Nat.le_refl 2, nofun, id, by simp [Mailbox.Call.AsksShutdown]⟩ <|
    .cons ⟨Nat.le_refl 2, nofun, id, nofun⟩ <| .nil 2
  have whole : Spans timeline.Obliges 0 (charging ++ (supplying ++ (looking ++ resuming))) 2 :=
    spans_append_iff.mpr ⟨0, charges, spans_append_iff.mpr ⟨1, supplies,
      spans_append_iff.mpr ⟨1, looks, resumes⟩⟩⟩
  exact whole

end TwoRails

/-- Supplies that come 400 ms apart are in time, and so is a charger that refuses once. -/
theorem coldBoot_reaches_s0_lateSupplies :
    Journey TwoRails.tree Eq .g3 TwoRails.started TwoRails.legs .s0 TwoRails.resumed ∧
      Spans TwoRails.timeline.Obliges 0 (TwoRails.legs.flatMap Leg.trace) 2 ∧
      .g3 :: TwoRails.legs.map Leg.next = [.g3, .g3s5, .s5, .s5s3, .s3, .s3s0, .s0] ∧
      Exchange.writes (TwoRails.legs.flatMap Leg.trace) =
        [(.pp5000En, .high), (.apCoreEn, .high), (.sysRstL, .high)] ∧
      Exchange.notified (TwoRails.legs.flatMap Leg.trace) = [.startup, .resume] := by
  have starts : (Program.start TwoRails.tree { autoPowerOn := true } {}).Runs [] TwoRails.started
      .g3 := .refl _
  have patient : ¬List.replicate (Timing.chargerRetries + 1) true <:+: [true, false] := by decide
  have undisturbed (earlier later : Mailbox) (same : earlier = later) (calm : earlier.Calm) :
      later.Calm ∧ (earlier.powerOnRequested = true → later.powerOnRequested = true) :=
    same ▸ ⟨calm, id⟩
  obtain ⟨states, whole, -⟩ := coldBoot_reaches_s0 undisturbed starts TwoRails.journey (by decide)
    TwoRails.spans patient fun moment => (TwoRails.asserts moment).2.2
  obtain ⟨-, writes, notified⟩ := whole rfl
  exact ⟨TwoRails.journey, TwoRails.spans, states, writes, notified⟩

end RailSequencer
