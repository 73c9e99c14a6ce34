import RailSequencer.Proofs.Acts

/-!
# What holds throughout a session

A session comes down to a few things: the program settles, time passes, and something is changed from
outside. A `RecordedInvariant` is kept by each of them, together with the acts so far, and its
`holds_executeAll` carries it through fuelled loops and waiting stimuli. Time passes only when every
task has been looked at, and never past what a task waits for, and the invariant may count on both.

A program that settles takes rounds, and boots when it asks for a reset. What is kept by each single
act is a `TimedInvariant`. Most conditions on the controller care neither for the acts nor for the
clock: those are a `SessionInvariant`, for which time is one of the things that change around the
program.

Stimuli that reach into the controller itself may be restricted; what waits for its time is restricted
too.
-/

namespace RailSequencer.Controller

/-- Such a stimulus is allowed, or the one that it does later. -/
def Stimulus.Fits (allowed : Stimulus → Prop) : Stimulus → Prop
  | .after _ stimulus => stimulus.Fits allowed
  | stimulus => allowed stimulus

theorem Stimulus.fits_of_forall {allowed : Stimulus → Prop} (all : ∀ stimulus, allowed stimulus)
    (stimulus : Stimulus) : stimulus.Fits allowed := by
  induction stimulus with
  | after ms stimulus inductionHypothesis => exact inductionHypothesis
  | _ => exact all _

/-- A scratch register is written. -/
def Stimulus.writesScratch : Stimulus → Bool
  | .scratchJump _ | .scratchFlags _ => true
  | _ => false

/-- What changes is neither in flash nor in the scratch registers. -/
def Hardware.Around (change : Hardware → Hardware) : Prop :=
  ∀ hardware, (change hardware).flash = hardware.flash ∧
    (change hardware).scratch = hardware.scratch

theorem Power.hardware_onHardware (power : Power) (change : Hardware → Hardware) :
    (power.onHardware change).hardware = change power.hardware := by
  cases power <;> rfl

/-- What changes is neither the clock nor the level of an input that is forced from outside, nor in
flash or in the scratch registers. -/
structure Hardware.Still (change : Hardware → Hardware) : Prop where
  around : Hardware.Around change
  now : ∀ hardware, (change hardware).now = hardware.now
  forced : ∀ hardware, (change hardware).forced = hardware.forced

/-- Time passes up to `time`. -/
def Live.passTo (live : Live) (time : Nat) : Live :=
  { live with hardware := { live.hardware with now := time } }

/-- No time passes before a task has done what it waited for. -/
def Live.Reaches (live : Live) (time : Nat) : Prop :=
  ∀ deadline ∈ live.deadlines, live.now < deadline → time ≤ deadline

instance (live : Live) (time : Nat) : Decidable (live.Reaches time) :=
  inferInstanceAs (Decidable (∀ deadline ∈ live.deadlines, _))

/-- Stores fail afterwards as they did before. -/
def Hardware.SameFaults (change : Hardware → Hardware) : Prop :=
  ∀ hardware, (change hardware).flashFails = hardware.flashFails

/-- A condition on the acts of a session and on its controller, on or off, that is kept by
everything that happens in a session with stimuli that are allowed, together with one that a controller
meets when it has settled. -/
structure RecordedInvariant (allowed : Stimulus → Prop) where
  holds : List Act → Power → Prop
  rested : Live → Prop
  boot : ∀ {past power} (reason), holds past power →
    let booted := Controller.boot power.hardware reason
    holds (past ++ .boot power.hardware reason :: booted.settling) (.on booted.settle) ∧
      rested booted.settle
  off : ∀ {past power}, holds past power → holds past (.off power.hardware)
  settle : ∀ {past live}, holds past (.on live) →
    holds (past ++ live.settling) (.on live.settle) ∧ rested live.settle
  transfer : ∀ {past live transfer}, allowed (.transfer transfer) → holds past (.on live) →
    let received := live.receive transfer
    holds (past ++ received.settling) (.on received.settle)
  /-- Time passes for a controller that has settled. -/
  passes : ∀ {past live time}, rested live → live.now ≤ time → live.Reaches time →
    holds past (.on live) → holds past (.on (live.passTo time))
  passesOff : ∀ {past hardware time}, hardware.now ≤ time → holds past (.off hardware) →
    holds past (.off { hardware with now := time })
  /-- Something changes around the program, in no time. -/
  still : ∀ {past power change}, Hardware.Still change → Hardware.SameFaults change →
    holds past power → holds past (power.onHardware change)
  /-- From now on stores fail, or they do not. -/
  faults : ∀ {past power fails}, allowed (.flashFails fails) → holds past power →
    holds past (power.onHardware fun hardware => { hardware with flashFails := fails })
  /-- Levels on inputs change, for a controller that is on and for one that is off. -/
  inputs : ∀ {past live change}, Hardware.Around change → Hardware.SameFaults change →
    (∀ hardware, (change hardware).now = hardware.now) → holds past (.on live) →
    holds (past ++ [.inputs live (live.moveInputs change)]) (.on (live.moveInputs change))
  inputsOff : ∀ {past hardware change}, Hardware.Around change → Hardware.SameFaults change →
    holds past (.off hardware) → holds past (.off (change hardware))
  /-- A scratch register is written from outside. -/
  scratch : ∀ {past power stimulus change}, stimulus.writesScratch = true → allowed stimulus →
    (∀ hardware, ∃ scratch, change hardware = { hardware with scratch := scratch }) →
    holds past power → holds past (power.onHardware change)
  setting : ∀ {past power change}, allowed (.changeSetting change) → holds past power →
    holds past (power.onLive fun live => live.offerSetting change)

/-- A condition on the acts of a session and on its controller, on or off, that is kept by every single
act and by everything else that happens in a session with stimuli that are allowed, together with one
that a controller meets when it has been booted, has taken a round or is idle. -/
structure TimedInvariant (allowed : Stimulus → Prop) where
  holds : List Act → Power → Prop
  rested : Live → Prop
  boot : ∀ {past power} (reason), holds past power →
    let booted := Controller.boot power.hardware reason
    holds (past ++ [.boot power.hardware reason]) (.on booted) ∧ rested booted
  off : ∀ {past power}, holds past power → holds past (.off power.hardware)
  round : ∀ {past live}, holds past (.on live) →
    holds (past ++ [.round live live.round]) (.on live.round) ∧ rested live.round
  idle : ∀ {live}, live.isIdle = true → rested live
  /-- Time passes for a controller that has been looked at. -/
  passes : ∀ {past live time}, rested live → live.now ≤ time → live.Reaches time →
    holds past (.on live) → holds past (.on (live.passTo time))
  passesOff : ∀ {past hardware time}, hardware.now ≤ time → holds past (.off hardware) →
    holds past (.off { hardware with now := time })
  /-- Something changes around the program, in no time. -/
  still : ∀ {past power change}, Hardware.Still change → holds past power →
    holds past (power.onHardware change)
  /-- Levels on inputs change, for a controller that is on and for one that is off. -/
  inputs : ∀ {past live change}, Hardware.Around change →
    (∀ hardware, (change hardware).now = hardware.now) → holds past (.on live) →
    holds (past ++ [.inputs live (live.moveInputs change)]) (.on (live.moveInputs change))
  inputsOff : ∀ {past hardware change}, Hardware.Around change → holds past (.off hardware) →
    holds past (.off (change hardware))
  /-- A scratch register is written from outside. -/
  scratch : ∀ {past power stimulus change}, stimulus.writesScratch = true → allowed stimulus →
    (∀ hardware, ∃ scratch, change hardware = { hardware with scratch := scratch }) →
    holds past power → holds past (power.onHardware change)
  setting : ∀ {past power change}, allowed (.changeSetting change) → holds past power →
    holds past (power.onLive fun live => live.offerSetting change)
  transfer : ∀ {past live transfer}, allowed (.transfer transfer) → holds past (.on live) →
    holds past (.on (live.receive transfer))

/-- A condition on a controller, on or off, that is kept by everything that happens in a session
with stimuli that are allowed. -/
structure SessionInvariant (allowed : Stimulus → Prop) where
  holds : Power → Prop
  boot : ∀ {power} (reason), holds power → holds (.on (Controller.boot power.hardware reason))
  off : ∀ {power}, holds power → holds (.off power.hardware)
  round : ∀ {live}, holds (.on live) → holds (.on live.round)
  /-- Something changes around the program. -/
  around : ∀ {power change}, Hardware.Around change → holds power → holds (power.onHardware change)
  inputs : ∀ {power change}, Hardware.Around change → holds power →
    holds (Session.moveInputs change power)
  /-- A scratch register is written from outside. -/
  scratch : ∀ {power stimulus change}, stimulus.writesScratch = true → allowed stimulus →
    (∀ hardware, (change hardware).flash = hardware.flash) → holds power →
    holds (power.onHardware change)
  setting : ∀ {power change}, allowed (.changeSetting change) → holds power →
    holds (power.onLive fun live => live.offerSetting change)
  transfer : ∀ {power transfer}, allowed (.transfer transfer) → holds power →
    holds (power.onLive fun live => live.receive transfer)

namespace Session

/-- Carry out commands, the first one first. -/
def executeAll (session : Session) (commands : List Command) : Session :=
  commands.foldl (fun current command => (current.execute command).1) session

/-- The stimulus of a command is allowed, if it is one. -/
def Command.Fits (allowed : Stimulus → Prop) : Command → Prop
  | .apply stimulus => stimulus.Fits allowed
  | .advance _ => True

theorem Command.fits_of_forall {allowed : Stimulus → Prop} (all : ∀ stimulus, allowed stimulus)
    (command : Command) : command.Fits allowed := by
  cases command with
  | apply stimulus => exact stimulus.fits_of_forall all
  | advance => trivial

end Session

/-- The earliest of some times is not after any of them. -/
theorem foldl_min_le (times : List Nat) (target : Nat) :
    times.foldl min target ≤ target ∧ ∀ time ∈ times, times.foldl min target ≤ time := by
  induction times generalizing target with
  | nil => exact ⟨Nat.le_refl _, nofun⟩
  | cons first rest inductionHypothesis =>
    obtain ⟨least, each⟩ := inductionHypothesis (min target first)
    exact ⟨Nat.le_trans least (Nat.min_le_left _ _),
      List.forall_mem_cons.mpr ⟨Nat.le_trans least (Nat.min_le_right _ _), each⟩⟩

/-- No event is after a deadline that is still to come. -/
theorem Session.nextEvent_le {session : Session} {live : Live} (on : session.power = .on live)
    (target : Nat) : ∀ deadline ∈ live.deadlines, live.now < deadline →
      session.nextEvent target ≤ deadline := by
  intro deadline waited ahead
  refine (foldl_min_le _ target).2 deadline (List.mem_filter.mpr ⟨?_, ?_⟩)
  · rw [on]
    exact List.mem_append_left _ waited
  · rw [Session.now, on]
    exact decide_eq_true ahead

namespace RecordedInvariant

variable {allowed : Stimulus → Prop} (invariant : RecordedInvariant allowed)

/-- The condition holds of the controller, and what waits for its time is allowed. -/
structure Holds (past : List Act) (session : Session) : Prop where
  power : invariant.holds past session.power
  timed : ∀ timed ∈ session.timed, timed.stimulus.Fits allowed

/-- The controller has settled, if it is on. -/
def Rests (session : Session) : Prop := ∀ live, session.power = .on live → invariant.rested live

variable {invariant} {past : List Act} {session : Session}

namespace Holds

theorem settle (holds : invariant.Holds past session) :
    invariant.Holds (past ++ session.power.settling) session.settle ∧
      invariant.Rests session.settle := by
  obtain ⟨power, timed⟩ := session
  cases power with
  | on live =>
    obtain ⟨settled, rested⟩ := invariant.settle holds.power
    refine ⟨⟨settled, holds.timed⟩, fun other on => ?_⟩
    have same : live.settle = other := Power.on.inj on
    rw [← same]
    exact rested
  | off hardware =>
    refine ⟨⟨?_, holds.timed⟩, fun live on => ?_⟩
    · rw [Power.settling, List.append_nil]
      exact holds.power
    · have impossible : Power.off hardware = .on live := on
      exact absurd impossible nofun

theorem onHardware {change : Hardware → Hardware} (holds : invariant.Holds past session)
    (changed : invariant.holds past (session.power.onHardware change)) :
    invariant.Holds past (session.onHardware change) :=
  ⟨changed, holds.timed⟩

/-- Something changes around the program, in no time. -/
theorem still {change : Hardware → Hardware} (holds : invariant.Holds past session)
    (outside : Hardware.Still change) (same : Hardware.SameFaults change) :
    invariant.Holds past (session.onHardware change) :=
  holds.onHardware (invariant.still outside same holds.power)

theorem apply {stimulus : Stimulus} (holds : invariant.Holds past session)
    (fits : stimulus.Fits allowed) :
    invariant.Holds (past ++ session.applying stimulus) (session.apply stimulus) := by
  have unseen {after : Session} (kept : invariant.Holds past after) :
      invariant.Holds (past ++ []) after := by
    rw [List.append_nil]
    exact kept
  cases stimulus with
  | boot reason => exact ⟨(invariant.boot reason holds.power).1, holds.timed⟩
  | off =>
    have forgotten : Hardware.Still Hardware.forgetHeld :=
      ⟨fun _ => ⟨rfl, rfl⟩, fun _ => rfl, fun _ => rfl⟩
    have off := invariant.off (invariant.still forgotten (fun _ => rfl) holds.power)
    rw [Power.hardware_onHardware] at off
    exact unseen ⟨off, holds.timed⟩
  | force pin level =>
    let change (hardware : Hardware) : Hardware :=
      { hardware with forced := hardware.forced.set pin level }
    have outside : Hardware.Around change := fun _ => ⟨rfl, rfl⟩
    have same : Hardware.SameFaults change := fun _ => rfl
    obtain ⟨power, timed⟩ := session
    cases power with
    | on live => exact ⟨invariant.inputs outside same (fun _ => rfl) holds.power, holds.timed⟩
    | off hardware => exact unseen ⟨invariant.inputsOff outside same holds.power, holds.timed⟩
  | autoPowerGood | vin | converterFails | hostFails =>
    refine unseen (holds.still ?_ ?_)
    · exact ⟨fun _ => ⟨rfl, rfl⟩, fun _ => rfl, fun _ => rfl⟩
    · exact fun _ => rfl
  | flashFails => exact unseen (holds.onHardware (invariant.faults fits holds.power))
  | scratchJump | scratchFlags =>
    refine unseen (holds.onHardware ?_)
    exact invariant.scratch rfl fits (fun _ => ⟨_, rfl⟩) holds.power
  | changeSetting => exact unseen ⟨invariant.setting fits holds.power, holds.timed⟩
  | transfer transfer =>
    obtain ⟨power, timed⟩ := session
    cases power with
    | on live => exact ⟨invariant.transfer fits holds.power, holds.timed⟩
    | off hardware => exact unseen holds
  | after ms stimulus =>
    exact unseen ⟨holds.power, List.forall_mem_append.mpr
      ⟨holds.timed, List.forall_mem_singleton.mpr fits⟩⟩
  | idle => exact unseen holds

/-- What is due has been allowed, and so is what goes on waiting. -/
theorem due {stimulus : Stimulus} {left : Session} (holds : invariant.Holds past session)
    (found : session.due? = some (stimulus, left)) :
    invariant.Holds past left ∧ stimulus.Fits allowed := by
  rw [Session.due?] at found
  split at found
  next => cases found
  next index _ =>
    obtain ⟨timed, here, same⟩ := Option.map_eq_some_iff.mp found
    obtain ⟨rfl, rfl⟩ := Prod.mk.inj same
    exact ⟨⟨holds.power, fun other member => holds.timed other (List.mem_of_mem_eraseIdx member)⟩,
      holds.timed timed (List.mem_of_getElem? here)⟩

theorem repeatDue (holds : invariant.Holds past session) (count : Nat) :
    invariant.Holds (past ++ Session.duesApplied count session)
      (Session.applyAllDue.repeatDue count session) := by
  induction count generalizing past session with
  | zero =>
    rw [Session.duesApplied, List.append_nil]
    exact holds
  | succ count inductionHypothesis =>
    rw [Session.applyAllDue.repeatDue, Session.applyDue?_eq, Session.duesApplied]
    cases found : session.due? with
    | none =>
      simp only [Option.map_none, List.append_nil]
      exact holds
    | some due =>
      obtain ⟨left, fits⟩ := holds.due found
      simp only [Option.map_some]
      rw [← List.append_assoc]
      exact inductionHypothesis (left.apply fits)

/-- The clock moves to the next event of a controller that has settled. -/
theorem moveTo (holds : invariant.Holds past session) (rests : invariant.Rests session)
    (target : Nat) : invariant.Holds past (session.moveTo (session.nextEvent target)) := by
  refine ⟨?_, holds.timed⟩
  have event := fun live (on : session.power = .on live) => session.nextEvent_le on target
  have held := holds.power
  generalize session.nextEvent target = time at event
  obtain ⟨power, timed⟩ := session
  cases power with
  | on live =>
    refine invariant.passes (rests live rfl) (Nat.le_max_left _ time) ?_ held
    intro deadline waited ahead
    exact Nat.max_le.mpr ⟨Nat.le_of_lt ahead, event live rfl deadline waited ahead⟩
  | off hardware => exact invariant.passesOff (Nat.le_max_left _ time) held

theorem passEvent (holds : invariant.Holds past session) (rests : invariant.Rests session)
    (target : Nat) :
    invariant.Holds (past ++ session.passing target) (session.passEvent target) ∧
      invariant.Rests (session.passEvent target) := by
  have settled := ((holds.moveTo rests target).repeatDue
    (session.moveTo (session.nextEvent target)).backlog).settle
  rw [List.append_assoc] at settled
  exact settled

theorem repeatEvents (holds : invariant.Holds past session) (rests : invariant.Rests session)
    (target count : Nat) :
    invariant.Holds (past ++ Session.eventsPassed target count session)
      (Session.passUntil.repeatEvents target count session) := by
  induction count generalizing past session with
  | zero =>
    rw [Session.eventsPassed, List.append_nil]
    exact holds
  | succ count inductionHypothesis =>
    rw [Session.passUntil.repeatEvents, Session.eventsPassed]
    split
    · rw [List.append_nil]
      exact holds
    · obtain ⟨passed, restsAgain⟩ := holds.passEvent rests target
      rw [← List.append_assoc]
      exact inductionHypothesis passed restsAgain

theorem passUntil (holds : invariant.Holds past session) (target : Nat) :
    invariant.Holds (past ++ session.passingUntil target) (session.passUntil target) := by
  obtain ⟨settled, rests⟩ := holds.settle
  rw [Session.passingUntil, ← List.append_assoc]
  exact settled.repeatEvents rests _ _

theorem execute {command : Session.Command} (holds : invariant.Holds past session)
    (fits : command.Fits allowed) :
    invariant.Holds (past ++ session.executing command) (session.execute command).1 := by
  have fresh : invariant.Holds past session.fresh := by
    apply holds.still
    · exact ⟨fun _ => ⟨rfl, rfl⟩, fun _ => rfl, fun _ => rfl⟩
    · exact fun _ => rfl
  rw [Session.execute_eq]
  cases command with
  | apply stimulus =>
    have applied := fresh.apply fits
    rw [Session.executing, ← List.append_assoc]
    by_cases transfers : stimulus.isTransfer = true
    · simp only [if_pos transfers, List.append_nil]
      exact applied
    · simp only [if_neg transfers]
      exact applied.settle.1
  | advance ms => exact fresh.passUntil _

end Holds

/-- What holds when a session begins, holds after any commands with stimuli that are allowed, and the
acts of these commands. -/
theorem holds_executeAll {commands : List Session.Command} (holds : invariant.Holds past session)
    (fits : ∀ command ∈ commands, command.Fits allowed) :
    invariant.Holds (past ++ Session.acts commands session) (session.executeAll commands) := by
  induction commands generalizing past session with
  | nil =>
    rw [Session.acts, List.append_nil]
    exact holds
  | cons command rest inductionHypothesis =>
    obtain ⟨here, later⟩ := List.forall_mem_cons.mp fits
    rw [Session.acts, ← List.append_assoc]
    exact inductionHypothesis (holds.execute here) later

/-- What is kept by all that happens holds after any commands to a controller that was off, and of the
acts of these commands. -/
theorem holds_acts (invariant : RecordedInvariant allowed) {hardware : Hardware}
    {timed : List Timed} {commands : List Session.Command}
    (begun : invariant.holds [] (.off hardware))
    (waiting : ∀ waiting ∈ timed, waiting.stimulus.Fits allowed)
    (fits : ∀ command ∈ commands, command.Fits allowed) :
    invariant.holds (Session.acts commands ⟨.off hardware, timed⟩)
      (Session.executeAll ⟨.off hardware, timed⟩ commands).power := by
  have holds : invariant.Holds [] ⟨.off hardware, timed⟩ := ⟨begun, waiting⟩
  exact (holds_executeAll holds fits).power

end RecordedInvariant

namespace TimedInvariant

variable {allowed : Stimulus → Prop} {invariant : TimedInvariant allowed} {past : List Act}
  {live : Live}

/-- A reset that the program asks for is counted, and then it is a boot like any other. -/
theorem reboot (holds : invariant.holds past (.on live)) :
    invariant.holds (past ++ [.boot live.hardware.countReset .forced])
        (.on (Controller.reboot live)) ∧
      invariant.rested (Controller.reboot live) := by
  have counted : Hardware.Still Hardware.countReset :=
    ⟨fun _ => ⟨rfl, rfl⟩, fun _ => rfl, fun _ => rfl⟩
  have booted := invariant.boot .forced (invariant.still counted holds)
  rw [Power.hardware_onHardware] at booted
  exact booted

theorem takeRounds (holds : invariant.holds past (.on live)) (rounds : Nat)
    (rested : rounds = 0 → invariant.rested live) :
    invariant.holds (past ++ live.roundsTaken rounds)
        (.on (Live.settle.takeRounds rounds live)) ∧
      invariant.rested (Live.settle.takeRounds rounds live) := by
  induction rounds generalizing past live with
  | zero =>
    rw [Live.roundsTaken, List.append_nil]
    exact ⟨holds, rested rfl⟩
  | succ rounds inductionHypothesis =>
    obtain ⟨taken, looked⟩ := invariant.round holds
    rw [Live.settle.takeRounds, Live.roundsTaken]
    split
    next idle =>
      rw [List.append_nil]
      exact ⟨holds, invariant.idle idle⟩
    next =>
      dsimp only
      split
      · obtain ⟨again, begun⟩ := reboot taken
        have settled := inductionHypothesis again fun _ => begun
        rw [List.append_assoc, List.append_assoc] at settled
        exact settled
      · have settled := inductionHypothesis taken fun _ => looked
        rw [List.append_assoc] at settled
        exact settled

theorem settle (holds : invariant.holds past (.on live)) :
    invariant.holds (past ++ live.settling) (.on live.settle) ∧ invariant.rested live.settle :=
  takeRounds holds Live.roundsToRest fun none => absurd none (by decide)

variable (invariant) in
/-- What is kept by every act is kept by those that it takes to settle. -/
def recorded : RecordedInvariant allowed where
  holds := invariant.holds
  rested := invariant.rested
  boot reason held := by
    have settled := settle (invariant.boot reason held).1
    rw [List.append_assoc] at settled
    exact settled
  off := invariant.off
  settle := settle
  transfer fits held := (settle (invariant.transfer fits held)).1
  passes := invariant.passes
  passesOff := invariant.passesOff
  still outside _ := invariant.still outside
  faults _ := invariant.still ⟨fun _ => ⟨rfl, rfl⟩, fun _ => rfl, fun _ => rfl⟩
  inputs outside _ := invariant.inputs outside
  inputsOff outside _ := invariant.inputsOff outside
  scratch := invariant.scratch
  setting := invariant.setting

end TimedInvariant

namespace SessionInvariant

variable {allowed : Stimulus → Prop} (invariant : SessionInvariant allowed)

/-- The condition holds of the controller, and what waits for its time is allowed. -/
structure Holds (session : Session) : Prop where
  power : invariant.holds session.power
  timed : ∀ timed ∈ session.timed, timed.stimulus.Fits allowed

/-- For an invariant that does not care for the clock, time is one of the things that change around
the program. What every act has found meets it, too. -/
def regardless : TimedInvariant allowed where
  holds past power := invariant.holds power ∧ ∀ act ∈ past, invariant.holds (.on act.live)
  rested _ := True
  boot reason held := by
    have booted := invariant.boot reason held.1
    exact ⟨⟨booted, List.forall_mem_append.mpr
      ⟨held.2, List.forall_mem_singleton.mpr booted⟩⟩, trivial⟩
  off := And.imp_left invariant.off
  round held := ⟨⟨invariant.round held.1, List.forall_mem_append.mpr
    ⟨held.2, List.forall_mem_singleton.mpr held.1⟩⟩, trivial⟩
  idle _ := trivial
  passes {_ _ time} _ _ _ held := by
    have passed : Hardware.Around fun hardware => { hardware with now := time } :=
      fun _ => ⟨rfl, rfl⟩
    exact held.imp_left (invariant.around passed)
  passesOff {_ _ time} _ held := by
    have passed : Hardware.Around fun hardware => { hardware with now := time } :=
      fun _ => ⟨rfl, rfl⟩
    exact held.imp_left (invariant.around passed)
  still outside := And.imp_left (invariant.around outside.around)
  inputs outside _ held := ⟨invariant.inputs outside held.1, List.forall_mem_append.mpr
    ⟨held.2, List.forall_mem_singleton.mpr held.1⟩⟩
  inputsOff outside := And.imp_left (invariant.inputs outside)
  scratch writes fits written := by
    refine And.imp_left (invariant.scratch writes fits fun hardware => ?_)
    obtain ⟨scratch, same⟩ := written hardware
    rw [same]
  setting fits := And.imp_left (invariant.setting fits)
  transfer fits := And.imp_left (invariant.transfer fits)

variable {invariant} {session : Session}

/-- What holds when a session begins, holds after any commands with stimuli that are allowed, and in
every act on the way. -/
theorem holds_executeAll_acts {commands : List Session.Command} (holds : invariant.Holds session)
    (fits : ∀ command ∈ commands, command.Fits allowed) :
    invariant.Holds (session.executeAll commands) ∧
      ∀ act ∈ Session.acts commands session, invariant.holds (.on act.live) := by
  have begun : invariant.regardless.recorded.Holds [] session :=
    ⟨⟨holds.power, List.forall_mem_nil _⟩, holds.timed⟩
  obtain ⟨⟨kept, acts⟩, timed⟩ := RecordedInvariant.holds_executeAll begun fits
  exact ⟨⟨kept, timed⟩, acts⟩

theorem holds_executeAll {commands : List Session.Command} (holds : invariant.Holds session)
    (fits : ∀ command ∈ commands, command.Fits allowed) :
    invariant.Holds (session.executeAll commands) :=
  (holds_executeAll_acts holds fits).1

end SessionInvariant

end RailSequencer.Controller
