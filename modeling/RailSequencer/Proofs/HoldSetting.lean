import RailSequencer.Proofs.HostGrammar
import RailSequencer.Proofs.SettingsHistory
import RailSequencer.Proofs.Throughout

/-!
# The hold time that is set is the one that counts

The hold time of the power button is a setting, and it is a cell of the mailbox, where the button finds
it. The host sets both at once. A boot sets the cell from the setting, and nothing else touches either:
the power task reads and writes the mailbox all the time, but gives that cell back as it found it
(`Task.LeavesHold`), however many turns it takes at a look (`Live.longPressMs_poll`). So in every
session in which settings are changed over the bus only the two agree
(`SessionInvariant.holdAgrees`).
-/

namespace RailSequencer

/-- What the power task does to its memory does not reach the hold time. -/
theorem Memory.Works.longPressMs {holding judging : Bool} {earlier later : Memory}
    (works : Memory.Works holding judging earlier later) :
    later.mailbox.longPressMs = earlier.mailbox.longPressMs := by
  induction works with
  | trans _ _ first second => exact second.trans first
  | refl | takeShutdown | takeReset | dropPowerOn | force | hold | inhibit | cancelTimer => rfl

namespace Mailbox

variable (mailbox : Mailbox)

theorem longPressMs_requestPowerOn : mailbox.requestPowerOn.longPressMs = mailbox.longPressMs := by
  rw [requestPowerOn_eq]
  split <;> rfl

theorem longPressMs_powerButton (pressed : Bool) :
    (mailbox.powerButton pressed).longPressMs = mailbox.longPressMs := by
  cases pressed with
  | false => rfl
  | true =>
    simp only [powerButton, schedule, if_true]
    split
    · exact mailbox.longPressMs_requestPowerOn
    · rfl

theorem longPressMs_lid (isOpen : Bool) : (mailbox.lid isOpen).longPressMs = mailbox.longPressMs := by
  rw [lid]
  split
  · exact mailbox.longPressMs_requestPowerOn
  · rfl

theorem longPressMs_turnTimer (now : Nat) :
    (mailbox.turnTimer now).longPressMs = mailbox.longPressMs := by
  simp only [turnTimer]
  split <;> rfl

end Mailbox

namespace Task

variable {α β : Type} {start : Memory} {task later : Task α} {trace : List Exchange}

/-- Between any two answers a task leaves the hold time alone. -/
def LeavesHold (start : Memory) : Task α → Prop
  | .done memory _ => memory.mailbox.longPressMs = start.mailbox.longPressMs
  | .ask memory _ resume => memory.mailbox.longPressMs = start.mailbox.longPressMs ∧
    ∀ calls answer,
      (resume (memory.hear calls).mailbox answer).LeavesHold (memory.hear calls)

theorem Stretches.leavesHold {holding judging : Bool}
    (stretches : task.Stretches holding judging start) : task.LeavesHold start := by
  induction task generalizing start judging with
  | done memory result => exact Memory.Works.longPressMs stretches
  | ask memory request resume inductionHypothesis =>
    refine ⟨stretches.1.longPressMs, fun calls answer => ?_⟩
    exact inductionHypothesis _ answer (stretches.2 calls answer)

namespace LeavesHold

theorem memory (leaves : task.LeavesHold start) :
    task.memory.mailbox.longPressMs = start.mailbox.longPressMs := by
  cases task with
  | done memory result => exact leaves
  | ask memory request resume => exact leaves.1

/-- The first stretch may begin earlier. -/
theorem precede {earlier : Memory} (leaves : task.LeavesHold start)
    (same : start.mailbox.longPressMs = earlier.mailbox.longPressMs) :
    task.LeavesHold earlier := by
  cases task with
  | done memory result => exact Eq.trans leaves same
  | ask memory request resume => exact ⟨leaves.1.trans same, leaves.2⟩

theorem bind {next : α → Program β} (first : task.LeavesHold start)
    (second : ∀ value memory, (next value memory).LeavesHold memory) :
    (task.bind next).LeavesHold start := by
  induction task generalizing start with
  | done memory value => exact (second value memory).precede first
  | ask memory request resume inductionHypothesis =>
    refine ⟨first.1, fun calls answer => ?_⟩
    exact inductionHypothesis _ answer (first.2 calls answer)

/-- What is left of a task after an answer. -/
theorem rest {memory : Memory} {request : Request} {resume : Mailbox → request.Answer → Task α}
    (leaves : task.LeavesHold start) (reached : task.Reaches trace (.ask memory request resume))
    (calls : List Mailbox.Call) (answer : request.Answer) :
    (resume (memory.hear calls).mailbox answer).LeavesHold (memory.hear calls) := by
  generalize target : Task.ask memory request resume = later at reached
  induction reached generalizing start with
  | refl =>
    subst target
    exact leaves.2 calls answer
  | ask _ inductionHypothesis => exact inductionHypothesis (leaves.2 _ _) target

/-- Where nobody calls meanwhile, it is the same from start to end. -/
theorem of_reaches (leaves : task.LeavesHold start) (reached : task.Reaches trace later)
    (alone : ∀ exchange ∈ trace, exchange.calls = []) :
    later.memory.mailbox.longPressMs = start.mailbox.longPressMs := by
  induction reached generalizing start with
  | refl => exact leaves.memory
  | @ask memory _ _ calls answer _ _ _ inductionHypothesis =>
    obtain ⟨here, rest⟩ := List.forall_mem_cons.mp alone
    have silent : calls = [] := here
    subst silent
    exact (inductionHypothesis (leaves.2 [] answer) rest).trans leaves.1

end LeavesHold

end Task

namespace Program

variable (tree : PowerTree) (memory : Memory)

theorem leavesHold_turn (state : PowerState) : (turn tree state memory).LeavesHold memory := by
  refine (works_serveReset memory).leavesHold.bind fun _ served => ?_
  have begun : (served.stepStart state).mailbox.longPressMs = served.mailbox.longPressMs := by
    rw [Memory.mailbox_stepStart]
  refine ((stretches_step tree state served).leavesHold.precede begun).bind fun next worked => ?_
  obtain ⟨final, ending, concluded⟩ := conclude_done state next worked
  obtain ⟨known, rfl⟩ := conclude_publishes concluded
  rw [concluded]
  exact rfl

theorem leavesHold_start (boot : BootInfo) : (start tree boot memory).LeavesHold memory := by
  obtain ⟨jumped, keepOff, autoPowerOn⟩ := boot
  cases jumped with
  | false => cases keepOff <;> cases autoPowerOn <;> rfl
  | true =>
    refine ⟨rfl, fun calls lines => ?_⟩
    change ((if SignalMask.contains lines tree.allS0 then
      (do ask (.allowIdle false); publish .s0; return .s0)
      else (do publish .g3; return .g3) : Program PowerState)
        ((memory.publish .g3).hear calls)).LeavesHold _
    split
    · exact ⟨rfl, fun _ _ => rfl⟩
    · exact rfl

end Program

namespace Controller

open PowerTask

/-- As far as the power task proceeds at once, it keeps the hold time. -/
theorem Proceeds.longPressMs {task : Task Turn} {live after : Live} {trace : List Exchange}
    {progress : Progress} {start : Memory} (proceeded : Proceeds task live trace after progress)
    (leaves : task.LeavesHold start) :
    after.ram.mailbox.longPressMs = start.mailbox.longPressMs := by
  have alone : ∀ exchange ∈ trace, exchange.calls = [] :=
    fun exchange member => (proceeded.atOnce exchange member).1
  have of := proceeded.of
  rw [proceeded.mailbox]
  cases progress with
  | ended memory turn => exact leaves.of_reaches of alone
  | waiting power =>
    obtain ⟨later, reached, waits⟩ := of
    have same : power.memory = later.memory := by cases waits <;> rfl
    rw [Progress.memory, same]
    exact leaves.of_reaches reached alone

namespace Live

variable {live : Live}

/-- So does every turn that it takes. -/
theorem longPressMs_turns (hold : UInt32) :
    TurnInvariant fun live _ => live.ram.mailbox.longPressMs = hold where
  turn same := by
    obtain ⟨_, proceeded⟩ := proceeds (beginTurn _ _ _) _
    exact (proceeded.longPressMs (Program.leavesHold_turn _ _ _)).trans same
  wake same := by
    obtain ⟨_, proceeded⟩ := proceeds (beginTurn _ _ _) _
    exact (proceeded.longPressMs (Program.leavesHold_turn _ _ _)).trans same
  rest same := same
  putOff same := same

theorem longPressMs_putAway (live : Live) (progress : Progress) (turns : Nat) :
    (putAway (serve turns (live, progress))).ram.mailbox.longPressMs =
      live.ram.mailbox.longPressMs :=
  (longPressMs_turns live.ram.mailbox.longPressMs).serve turns rfl

/-- A look at the power task leaves the hold time as others have set it. -/
theorem longPressMs_poll (sinceBoot : live.SinceBoot) :
    (poll live).ram.mailbox.longPressMs = live.ram.mailbox.longPressMs := by
  obtain ⟨_, _, -, trace, comes, -, -⟩ := sinceBoot.onRun
  have looked := looked_poll live
  generalize poll live = after at looked
  cases looked with
  | asleep => rfl
  | watches => rfl
  | wakes => exact longPressMs_putAway _ _ _
  | @resumes task resumes sampled =>
    refine (longPressMs_putAway _ _ _).trans ?_
    generalize live.ram.power = power at comes resumes
    cases comes with
    | atRest => cases resumes
    | inTurn run reached waits heard =>
      obtain ⟨memory, request, resume, answer, rfl, -, rfl⟩ := waits.resumes resumes
      rw [heard]
      obtain ⟨_, proceeded⟩ := proceeds (resume (memory.hear _).mailbox answer)
        (live.keepSampled sampled)
      exact proceeded.longPressMs ((Program.leavesHold_turn _ _ _).rest reached _ answer)

theorem longPressMs_launch (live : Live) (boot : BootInfo) :
    (launch live boot).ram.mailbox.longPressMs = live.ram.mailbox.longPressMs := by
  refine (longPressMs_putAway _ _ _).trans ?_
  obtain ⟨_, proceeded⟩ :=
    proceeds (firstTurn live.ram.tree boot { mailbox := live.ram.mailbox }) live
  have leaves : (firstTurn live.ram.tree boot { mailbox := live.ram.mailbox }).LeavesHold
      { mailbox := live.ram.mailbox } :=
    (Program.leavesHold_start _ _ boot).bind fun state entered =>
      (Program.leavesHold_turn live.ram.tree (entered.publish state) state).precede rfl
  exact proceeded.longPressMs leaves

/-- The host has a command of its own for the hold time. -/
theorem command?_ne_longPress (live : Live) {ms : UInt32} :
    live.command? ≠ some (.changeSetting (.longPress ms)) := by
  intro sent
  obtain ⟨transfer, -, carried⟩ := Option.bind_eq_some_iff.mp sent
  obtain ⟨command, arguments, -, -, parsed⟩ := Transfer.command?_eq_some_iff.mp carried
  unfold HostCommand.parse? at parsed
  split at parsed
  next => exact absurd (Option.ite_none_right_eq_some.mp parsed).2 nofun
  all_goals exact absurd parsed nofun

/-- The hold time that the button finds is the one in the settings. -/
def HoldAgrees (live : Live) : Prop :=
  live.ram.mailbox.longPressMs = live.ram.settings.longPressMs

/-- A boot sets the cell from the setting. -/
theorem holdAgrees_boot (before : Hardware) (reason : ResetReason) :
    (boot before reason).HoldAgrees := by
  obtain ⟨ready, prepared, booted⟩ := boot_eq_launch before reason
  rw [HoldAgrees, booted]
  have settings := congrArg (·.ram.settings)
    ((untouched_launch (ready.setUpOutputs ((before.treeAt reason).tables.restingLevels
      (before.resumesAt reason)) (.ofBool (before.resumesAt reason))) (before.infoAt reason)).trans
        (ready.untouched_setUpOutputs _ _))
  refine (longPressMs_launch _ _).trans (Eq.trans ?_ (congrArg Settings.longPressMs settings).symm)
  rw [(ready.ram_setUpOutputs _ _).1, prepared.mailbox]
  change UInt32.ofNat (before.settingsAt reason).longPressMs.toNat = ready.ram.settings.longPressMs
  rw [UInt32.ofNat_toNat, prepared.settings]

/-- Neither the cell nor the settings have changed. -/
structure SameHold (before after : Live) : Prop where
  cell : after.ram.mailbox.longPressMs = before.ram.mailbox.longPressMs
  settings : after.ram.settings = before.ram.settings

namespace SameHold

variable {first second third : Live}

theorem trans (begun : first.SameHold second) (rest : second.SameHold third) :
    first.SameHold third :=
  ⟨rest.cell.trans begun.cell, rest.settings.trans begun.settings⟩

theorem agrees (same : first.SameHold second) (agrees : first.HoldAgrees) : second.HoldAgrees := by
  rw [HoldAgrees, same.cell, same.settings]
  exact agrees

theorem feeder (live : Live) : live.SameHold live.pollFeeder := by
  refine ⟨?_, (SameStores.feeder live).settings⟩
  rw [pollFeeder]
  split <;> rfl

theorem store (live : Live) : live.SameHold live.pollStore := by
  rw [pollStore_eq]
  exact ⟨rfl, rfl⟩

theorem sampler (live : Live) : live.SameHold live.pollSampler := by
  refine ⟨?_, (SameStores.sampler live).settings⟩
  rw [pollSampler]
  split
  · simp only [takeSample]
    split <;> rfl
  · rfl

theorem converter (live : Live) : live.SameHold live.pollConverter := by
  refine ⟨?_, (SameStores.converter live).settings⟩
  simp only [pollConverter]
  split
  · split <;> rfl
  · rfl

theorem button (live : Live) : live.SameHold live.pollButton := by
  refine ⟨?_, (SameStores.button live).settings⟩
  simp only [pollButton]
  split
  · rfl
  · exact Mailbox.longPressMs_powerButton _ _

theorem lid (live : Live) : live.SameHold live.pollLid := by
  refine ⟨?_, (SameStores.lid live).settings⟩
  simp only [pollLid]
  split
  · rfl
  · exact Mailbox.longPressMs_lid _ _

theorem timer (live : Live) : live.SameHold live.pollTimer :=
  ⟨Mailbox.longPressMs_turnTimer _ _, rfl⟩

theorem power (sinceBoot : first.SinceBoot) : first.SameHold (poll first) :=
  ⟨longPressMs_poll sinceBoot, (SameStores.poll first).settings⟩

end SameHold

/-- The host sets both, or neither. -/
theorem HoldAgrees.host {live : Live} (agrees : live.HoldAgrees) : (pollHost live).HoldAgrees := by
  rcases live.pollHost_cases with ⟨command, sent, executed⟩ | ⟨-, _, _, untouched⟩
  · rw [executed]
    cases command with
    | changeSetting change =>
      cases change with
      | longPress ms => exact absurd sent live.command?_ne_longPress
      | autoPowerOn | vinThreshold | hardwareVersion => exact agrees
    | setLongPress ms =>
      change UInt32.ofNat ms.toNat = ms.toUInt32
      simp
    | powerOn => exact (Mailbox.longPressMs_requestPowerOn _).trans agrees
    | forceOff | reset | restart | restartOff => exact agrees
  · rw [untouched]
    exact agrees

theorem HoldAgrees.round {live : Live} (agrees : live.HoldAgrees) (sinceBoot : live.SinceBoot) :
    live.round.HoldAgrees := by
  have sampled := ((((SameHold.feeder live).trans (.store _)).trans (.sampler _)).trans
    (.converter _))
  have looked := ((sampled.trans (.button _)).trans (.lid _)).trans (.timer _)
  have booted := (((sinceBoot.step .feeder).step .store).step .sampler).step .converter
  have ready := ((booted.step .button).step .lid).step .timer
  exact ((looked.trans (.power ready)).agrees agrees).host

end Live

/-- A session in which settings are changed over the bus keeps to it. -/
def SessionInvariant.holdAgrees : SessionInvariant fun stimulus => stimulus.isOverBus = true where
  holds
    | .on live => live.SinceBoot ∧ live.HoldAgrees
    | .off _ => True
  boot {power} reason _ := ⟨⟨_, reason, .refl⟩, Live.holdAgrees_boot power.hardware reason⟩
  off _ := trivial
  round held := ⟨held.1.round, held.2.round held.1⟩
  around {power change} _ held := by
    cases power with
    | on live => exact ⟨held.1.step (.hardware change), held.2⟩
    | off hardware => trivial
  inputs {power change} _ held := by
    cases power with
    | on live => exact ⟨held.1.step (.inputs change rfl), held.2⟩
    | off hardware => trivial
  scratch {power stimulus change} _ _ _ held := by
    cases power with
    | on live => exact ⟨held.1.step (.hardware change), held.2⟩
    | off hardware => trivial
  setting other := absurd other Bool.false_ne_true
  transfer {power transfer} _ held := by
    cases power with
    | on live => exact ⟨held.1.step (.transfer transfer), held.2⟩
    | off hardware => trivial

end Controller

end RailSequencer
