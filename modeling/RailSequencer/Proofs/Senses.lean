import RailSequencer.Proofs.ControllerRuns
import RailSequencer.Proofs.Debouncing

/-!
# What the controller senses, and when

`Senses` is what the controller has of the world besides the monitored lines: the clock, the levels
that are forced onto its inputs, the two switches, and the input voltage with the threshold that it
is measured against. Each task but three leaves all of it alone, and each of these three has a part
of its own.

In a session time does not pass just anywhere. `Live.Timely` is what happens to a running controller
as `Live.Happens` is, but with the clock in view: tasks take no time, inputs that are moved are
noticed, and time passes only when both switches have been looked at, and never past what a task
waits for. A `BootInvariant` is what a session keeps from each boot to the next, where it knows nothing
else, together with the acts of the session (`BootInvariant.holds_acts`).
-/

namespace RailSequencer.Controller

/-- What the converter has brought, and when it is read next. -/
structure Readings where
  vin : SlidingAverage Binary32
  vinMillivolts : Nat
  nextReading : Nat

/-- What the controller has of the world, besides the monitored lines. -/
structure Senses where
  now : Nat
  /-- Levels forced onto inputs from outside. -/
  forced : PinMap (Option Bool)
  button : Switch
  buttonPressed : Bool
  lid : Switch
  readings : Readings
  threshold : Binary32

/-- The level of an input that is pulled up and watches no supply. -/
def Senses.level (senses : Senses) (pin : Pin) : Bool := (senses.forced.get pin).getD true

/-- So the level of such an input is its forced one, if there is one. -/
theorem Hardware.inputLevel_free (hardware : Hardware) {pin : Pin} (free : supplyOf? pin = none) :
    hardware.inputLevel pin true = (hardware.forced.get pin).getD true := by
  rw [inputLevel, free]
  cases hardware.forced.get pin <;> rfl

namespace Live

def senses (live : Live) : Senses where
  now := live.now
  forced := live.hardware.forced
  button := live.ram.button
  buttonPressed := live.ram.buttonPressed
  lid := live.ram.lid
  readings := ⟨live.ram.vin, live.ram.vinMillivolts, live.ram.nextReading⟩
  threshold := live.ram.threshold

theorem level_senses (live : Live) {pin : Pin} (free : supplyOf? pin = none) :
    live.hardware.inputLevel pin true = live.senses.level pin :=
  live.hardware.inputLevel_free free

theorem senses_pollFeeder (live : Live) : live.pollFeeder.senses = live.senses := by
  rw [pollFeeder]
  split
  · rfl
  · rfl

theorem senses_pollStore (live : Live) : live.pollStore.senses = live.senses := by
  rw [pollStore_eq, storeAll_eq]
  rfl

theorem senses_pollSampler (live : Live) : live.pollSampler.senses = live.senses := by
  rw [pollSampler]
  split
  · simp only [takeSample]
    split
    · rfl
    · rfl
  · rfl

/-- What a round leaves to the converter, the first task that senses anything. -/
def beforeConverter (live : Live) : Live := live.pollFeeder.pollStore.pollSampler

theorem senses_beforeConverter (live : Live) : live.beforeConverter.senses = live.senses := by
  rw [beforeConverter, senses_pollSampler, senses_pollStore, senses_pollFeeder]

/-- A look at the converter changes its readings only. -/
theorem senses_pollConverter (live : Live) : live.pollConverter.senses =
    { live.senses with readings := live.pollConverter.senses.readings } := by
  simp only [pollConverter]
  split
  · split
    · rfl
    · rfl
  · rfl

/-- A look at the button changes what is known of the button only. -/
theorem senses_pollButton (live : Live) : live.pollButton.senses =
    { live.senses with
      button := (live.senses.button.poll live.senses.now (live.senses.level Pin.button)).1
      buttonPressed := live.pollButton.ram.buttonPressed } := by
  rw [← level_senses live rfl]
  simp only [pollButton]
  split
  · rfl
  · rfl

theorem senses_pollLid (live : Live) : live.pollLid.senses =
    { live.senses with
      lid := (live.senses.lid.poll live.senses.now (live.senses.level Pin.lid)).1 } := by
  rw [← level_senses live rfl]
  simp only [pollLid]
  split
  · rfl
  · rfl

theorem senses_pollTimer (live : Live) : live.pollTimer.senses = live.senses := rfl

theorem senses_poll (live : Live) : (PowerTask.poll live).senses = live.senses := by
  have same : (PowerTask.poll live).untouched.senses = live.untouched.senses :=
    congrArg senses live.untouched_poll
  exact same

theorem senses_execute (live : Live) (command : HostCommand) :
    (command.execute live).senses = live.senses := by
  cases command <;> rfl

theorem senses_pollHost (live : Live) : (pollHost live).senses = live.senses := by
  rcases live.pollHost_cases with ⟨command, -, executed⟩ | ⟨-, transfer, answer, untouched⟩
  · rw [executed, senses_execute]
    rfl
  · rw [untouched]
    rfl

/-- What changes around the program, but for the clock and the inputs, is not sensed. -/
theorem senses_onHardware {live : Live} {change : Hardware → Hardware}
    (now : (change live.hardware).now = live.hardware.now)
    (forced : (change live.hardware).forced = live.hardware.forced) :
    { live with hardware := change live.hardware }.senses = live.senses := by
  simp only [senses, Live.now, now, forced]

/-- An input that is moved is noticed by the switch that watches it, if its level changes. -/
theorem senses_moveInputs {live moved : Live} {change : Hardware → Hardware}
    (moves : Session.moveInputs change (.on live) = .on moved) : moved.senses =
      { live.senses with
        now := moved.senses.now
        forced := moved.senses.forced
        button := if live.senses.level Pin.button != moved.senses.level Pin.button then
          live.senses.button.edge else live.senses.button
        lid := if live.senses.level Pin.lid != moved.senses.level Pin.lid then
          live.senses.lid.edge else live.senses.lid } := by
  obtain rfl := Power.on.inj moves
  rw [← level_senses _ rfl, ← level_senses _ rfl, ← level_senses _ rfl, ← level_senses _ rfl]
  rfl

end Live

/-- What a boot begins with. -/
def Hardware.sensesAt (before : Hardware) (reason : ResetReason) : Senses where
  now := before.now
  forced := before.forced
  button := { accepted := (before.forced.get Pin.button).getD true }
  buttonPressed := false
  lid := { accepted := (before.forced.get Pin.lid).getD true }
  readings := ⟨.empty, 0, before.now + readingUs⟩
  threshold := (before.settingsAt reason).vinThreshold

theorem senses_boot (before : Hardware) (reason : ResetReason) :
    (boot before reason).senses = before.sensesAt reason := by
  obtain ⟨ready, same, known⟩ : ∃ ready : Live,
      (boot before reason).untouched = ready.untouched ∧
        ready.senses = before.sensesAt reason := by
    refine ⟨_, (Live.untouched_launch _ _).trans (Live.untouched_setUpOutputs _ _ _), ?_⟩
    simp only [Live.senses, Hardware.inputLevel_free _ (show supplyOf? Pin.button = none from rfl),
      Hardware.inputLevel_free _ (show supplyOf? Pin.lid = none from rfl)]
    cases reason <;> rfl
  have sensed : (boot before reason).untouched.senses = ready.untouched.senses :=
    congrArg Live.senses same
  exact sensed.trans known

/-- Both switches have been looked at. -/
structure Senses.Rests (senses : Senses) : Prop where
  button : senses.button.isReady senses.now = false
  lid : senses.lid.isReady senses.now = false

namespace Live

/-- What happens to a running controller, with the clock in view. -/
inductive Timely : Live → Live → Prop where
  /-- A task is looked at or something changes around the program, which takes no time, and no input is
  forced or let go. -/
  | happens {before after : Live} (happens : before.Happens after)
      (now : after.senses.now = before.senses.now)
      (forced : after.senses.forced = before.senses.forced) : Timely before after
  /-- Levels on inputs change, which the button and the lid notice. -/
  | inputs {before moved : Live} (change : Hardware → Hardware)
      (moves : Session.moveInputs change (.on before) = .on moved)
      (now : moved.senses.now = before.senses.now) : Timely before moved
  | passes {live : Live} {time : Nat} (later : live.now ≤ time) (rests : live.senses.Rests)
      (reaches : live.Reaches time) : Timely live (live.passTo time)

theorem Timely.toHappens {live after : Live} (timely : live.Timely after) : live.Happens after := by
  cases timely with
  | happens happens => exact happens
  | inputs change moves => exact .inputs change moves
  | @passes time => exact .hardware fun hardware => { hardware with now := time }

/-- The clock does not go back. -/
theorem Timely.now_le {live after : Live} (timely : live.Timely after) : live.now ≤ after.now := by
  cases timely with
  | happens _ now => exact Nat.le_of_eq now.symm
  | inputs _ _ now => exact Nat.le_of_eq now.symm
  | passes later => exact later

variable {live after : Live}

theorem timely_pollConverter (live : Live) : live.Timely live.pollConverter :=
  .happens .converter (by rw [senses_pollConverter]) (by rw [senses_pollConverter])

theorem timely_pollButton (live : Live) : live.Timely live.pollButton :=
  .happens .button (by rw [senses_pollButton]) (by rw [senses_pollButton])

theorem timely_pollLid (live : Live) : live.Timely live.pollLid :=
  .happens .lid (by rw [senses_pollLid]) (by rw [senses_pollLid])

/-- A round looks at both switches. -/
theorem rests_round (live : Live) : live.round.senses.Rests := by
  rw [round]
  simp only [senses_pollHost, senses_poll, senses_pollTimer, senses_pollLid, senses_pollButton]
  generalize live.pollFeeder.pollStore.pollSampler.pollConverter = sampled
  exact ⟨Switch.isReady_poll _ _ _, Switch.isReady_poll _ _ _⟩

theorem rests_of_isIdle (idle : live.isIdle = true) : live.senses.Rests := by
  simp only [isIdle, Bool.and_eq_true, Bool.not_eq_true'] at idle
  obtain ⟨⟨⟨⟨⟨-, button⟩, lid⟩, -⟩, -⟩, -⟩ := idle
  exact ⟨button, lid⟩

end Live

/-- So does a boot, which reads their lines. -/
theorem rests_boot (before : Hardware) (reason : ResetReason) :
    (boot before reason).senses.Rests := by
  rw [senses_boot]
  exact ⟨rfl, rfl⟩

/-- A condition on what a boot has left, on the acts up to now and on the controller, that is kept by
whatever happens from the boot on. -/
structure BootInvariant where
  holds : Live → List Act → Live → Prop
  boot : ∀ past before reason,
    holds (Controller.boot before reason) (past ++ [.boot before reason])
      (Controller.boot before reason)
  round : ∀ {first past live}, holds first past live →
    holds first (past ++ [.round live live.round]) live.round
  inputs : ∀ {first past live change}, (∀ hardware : Hardware, (change hardware).now = hardware.now) →
    holds first past live →
    holds first (past ++ [.inputs live (live.moveInputs change)]) (live.moveInputs change)
  passes : ∀ {first past live time}, live.now ≤ time → live.senses.Rests → live.Reaches time →
    holds first past live → holds first past (live.passTo time)
  /-- Something else happens, of which nothing is sensed. -/
  unsensed : ∀ {first past live after}, live.Happens after → after.senses = live.senses →
    holds first past live → holds first past after

namespace BootInvariant

variable (invariant : BootInvariant)

/-- What is kept from every boot on is kept by whatever happens in a session. -/
def timed : TimedInvariant fun _ => True where
  holds past
    | .on live => ∃ before reason, Act.lastBoot? past = some (before, reason) ∧
      invariant.holds (Controller.boot before reason) past live
    | .off _ => True
  rested live := live.senses.Rests
  boot {past power} reason _ := by
    refine ⟨⟨_, _, ?_, invariant.boot past power.hardware reason⟩, rests_boot _ reason⟩
    rw [Act.lastBoot?_concat]
    rfl
  off _ := trivial
  round {past live} held := by
    obtain ⟨before, reason, last, held⟩ := held
    refine ⟨⟨before, reason, ?_, invariant.round held⟩, live.rests_round⟩
    rw [Act.lastBoot?_concat]
    exact last
  idle := Live.rests_of_isIdle
  passes rests later reaches held := by
    obtain ⟨before, reason, last, held⟩ := held
    exact ⟨before, reason, last, invariant.passes later rests reaches held⟩
  passesOff _ _ := trivial
  still {past power change} outside held := by
    cases power with
    | on live =>
      obtain ⟨before, reason, last, held⟩ := held
      exact ⟨before, reason, last, invariant.unsensed (.hardware change)
        (Live.senses_onHardware (outside.now _) (outside.forced _)) held⟩
    | off hardware => trivial
  inputs {past live change} _ timeless held := by
    obtain ⟨before, reason, last, held⟩ := held
    refine ⟨before, reason, ?_, invariant.inputs timeless held⟩
    rw [Act.lastBoot?_concat]
    exact last
  inputsOff _ _ := trivial
  scratch {past power stimulus change} _ _ written held := by
    cases power with
    | on live =>
      obtain ⟨before, reason, last, held⟩ := held
      obtain ⟨scratch, same⟩ := written live.hardware
      refine ⟨before, reason, last, invariant.unsensed (.hardware change) ?_ held⟩
      exact Live.senses_onHardware (by rw [same]) (by rw [same])
    | off hardware => trivial
  setting {past power change} _ held := by
    cases power with
    | on live =>
      obtain ⟨before, reason, last, held⟩ := held
      exact ⟨before, reason, last, invariant.unsensed (.setting change) rfl held⟩
    | off hardware => trivial
  transfer {past live transfer} _ held := by
    obtain ⟨before, reason, last, held⟩ := held
    exact ⟨before, reason, last, invariant.unsensed (.transfer transfer) rfl held⟩

/-- However a session has gone on that began with the controller off, a controller that is on has been
booted in it, and what is kept from that boot on holds of it. -/
theorem holds_acts {hardware : Hardware} {timed : List Timed} {commands : List Session.Command}
    {live : Live} (on : (Session.executeAll ⟨.off hardware, timed⟩ commands).power = .on live) :
    let acts := Session.acts commands ⟨.off hardware, timed⟩
    ∃ before reason, Act.lastBoot? acts = some (before, reason) ∧
      invariant.holds (Controller.boot before reason) acts live := by
  have waiting (waiting : Timed) (_ : waiting ∈ timed) : waiting.stimulus.Fits fun _ => True :=
    waiting.stimulus.fits_of_forall fun _ => trivial
  have fits (command : Session.Command) (_ : command ∈ commands) : command.Fits fun _ => True :=
    command.fits_of_forall fun _ => trivial
  have off : invariant.timed.recorded.holds [] (.off hardware) := trivial
  have kept := invariant.timed.recorded.holds_acts off waiting fits
  rw [on] at kept
  exact kept

end BootInvariant

/-- The controller is on and passes a test. -/
def Power.passes (test : Live → Bool) : Power → Bool
  | .on live => test live
  | .off _ => false

theorem Power.exists_of_passes {power : Power} {test : Live → Bool}
    (passes : power.passes test = true) : ∃ live, power = .on live ∧ test live = true := by
  cases power with
  | on live => exact ⟨live, rfl, passes⟩
  | off hardware => exact absurd passes Bool.false_ne_true

end RailSequencer.Controller
