import RailSequencer.Proofs.HoldSetting
import RailSequencer.Proofs.HostSettings
import RailSequencer.Proofs.Senses

/-!
# Settings read back as they were written

Between a write and a read a setting has been a value of the program, a change on its way to flash, and
a value in flash that a boot has read again. As long as the store works none of this shows: when the
program has settled nothing is on its way, and flash holds what the program works with
(`Live.Settled`). That is kept by whatever is done to a session (`RecordedInvariant.settled`), where the
settings are those that the acts of the session have come to. So the registers are read as they were
written last, but for the threshold, whose reading loses a unit where the volts in between fall short.
-/

namespace RailSequencer.Controller

/-- Settings are known by the values of all of them. -/
theorem Settings.eq_of_value {left right : Settings} (same : ∀ key, left.value key = right.value key) :
    left = right := by
  obtain ⟨autoPowerOn, longPressMs, vinThreshold, hardwareVersion⟩ := left
  obtain rfl := SettingChange.autoPowerOn.inj (same .autoPowerOn)
  obtain rfl := SettingChange.longPress.inj (same .longPress)
  obtain rfl := SettingChange.vinThreshold.inj (same .vinThreshold)
  obtain rfl := SettingChange.hardwareVersion.inj (same .hardwareVersion)
  rfl

/-- What is stored is loaded. -/
theorem Flash.load_store {flash : Flash} (usable : flash.usable = true) (change : SettingChange) :
    (flash.store change).load (fun _ => false) = (flash.load fun _ => false).change change := by
  apply Settings.eq_of_value
  intro key
  have still : (flash.store change).usable = true := by
    rw [store, if_pos usable]
    exact usable
  rw [value_load, Settings.value_change, value_load, fetch?, fetch?, still, usable,
    find?_store flash change key usable]
  simp only [Bool.not_false, Bool.and_self, if_true]
  split <;> rfl

/-- The store works, and it holds these settings. -/
structure Hardware.Stores (settings : Settings) (hardware : Hardware) : Prop where
  usable : hardware.flash.usable = true
  works : hardware.flashFails = false
  loads : hardware.flash.load (fun _ => false) = settings

theorem Hardware.Stores.storeAll {settings : Settings} {hardware : Hardware}
    (stores : hardware.Stores settings) (queue : ChangeQueue) :
    (Live.storeAll hardware queue).Stores (queue.toList.foldl Settings.change settings) := by
  rw [Live.storeAll]
  generalize queue.toList = changes
  induction changes generalizing settings hardware with
  | nil => exact stores
  | cons change rest inductionHypothesis =>
    obtain ⟨usable, works, rfl⟩ := stores
    refine inductionHypothesis ?_
    have stored : hardware.storeSetting change =
        { hardware with flash := hardware.flash.store change } :=
      if_neg (by rw [works]; exact Bool.false_ne_true)
    rw [stored]
    refine ⟨?_, works, Flash.load_store usable change⟩
    change (hardware.flash.store change).usable = true
    rw [Flash.store, if_pos usable]
    exact usable

namespace Live

/-- When a round comes to the host bus, every change has been stored, and the host side is as it was
found. -/
theorem round_ready (live : Live) : ∃ ready, live.round = pollHost ready ∧
    ready.hostSide = live.hostSide ∧
    ready.hardware.flash = (storeAll live.hardware live.ram.changes).flash ∧
    ready.ram.settings = live.ram.settings ∧ ready.ram.changes = {} := by
  have same := live.sameStores_beforeHost
  rw [pollStore_eq] at same
  refine ⟨live.beforeHost, rfl, live.hostSide_beforeHost, same.flash.trans ?_,
    same.settings.trans (SameStores.feeder live).settings, same.changes⟩
  rw [hardware_pollFeeder, (SameStores.feeder live).changes]

variable {live : Live} {settings : Settings}

/-- The store holds what the program works with. -/
structure Stored (settings : Settings) (live : Live) : Prop where
  stores : live.hardware.Stores settings
  settings : live.ram.settings = settings
  changes : live.ram.changes = {}
  runs : live.ram.restarting = false

/-- And nothing is to be done for the host. -/
structure Settled (settings : Settings) (live : Live) : Prop extends live.Stored settings where
  transfer : live.ram.transfer = none

/-- Nothing is to be done for the host but to store the changes that are on their way. -/
structure Handled (settings : Settings) (live : Live) : Prop where
  backed : ∃ stored, live.hardware.Stores stored ∧
    live.ram.changes.toList.foldl Settings.change stored = settings
  settings : live.ram.settings = settings
  transfer : live.ram.transfer = none
  runs : live.ram.restarting = false

theorem Settled.handled (settled : live.Settled settings) : live.Handled settings where
  backed := ⟨settings, settled.stores, by rw [settled.changes]; rfl⟩
  settings := settled.settings
  transfer := settled.transfer
  runs := settled.runs

/-- The first round stores them. -/
theorem Handled.round (handled : live.Handled settings) : live.round.Settled settings := by
  obtain ⟨⟨stored, stores, whole⟩, working, quiet, runs⟩ := handled
  obtain ⟨ready, taken, host, flash, same, changes⟩ := live.round_ready
  have nothing : ready.ram.transfer = none := (congrArg HostSide.transfer host).trans quiet
  have idle : pollHost ready = ready := by rw [pollHost, nothing]
  obtain ⟨usable, -, loads⟩ := stores.storeAll live.ram.changes
  rw [taken, idle]
  refine ⟨⟨⟨?_, (congrArg HostSide.flashFails host).trans stores.works, ?_⟩,
    same.trans working, changes, (congrArg HostSide.restarting host).trans runs⟩, nothing⟩
  · rw [flash]
    exact usable
  · rw [flash, loads]
    exact whole

theorem settled_boot {before : Hardware} (stores : before.Stores settings) (reason : ResetReason) :
    (boot before reason).Settled settings := by
  obtain ⟨flash, -, loaded, changes⟩ := stores_boot before reason
  obtain ⟨ready, prepared, same⟩ := untouched_boot before reason
  have fails : ready.hardware.flashFails = before.flashFails := by
    rw [prepared.hardware]
    exact (before.afterReset_flash reason).2
  have runs : (boot before reason).ram.restarting = false := by
    rw [boot, bootWith]
    exact congrArg (·.ram.restarting)
      ((untouched_launch _ _).trans (untouched_setUpOutputs _ _ _))
  have working : (fun _ : SettingKey => before.flashFails) = fun _ => false := by
    rw [stores.works]
  refine ⟨⟨⟨?_, ?_, ?_⟩, ?_, changes, runs⟩, ?_⟩
  · rw [flash]
    exact stores.usable
  · exact ((congrArg (·.hardware.flashFails) same).trans fails).trans stores.works
  · rw [flash]
    exact stores.loads
  · rw [loaded, working]
    exact stores.loads
  · exact (congrArg (·.ram.transfer) same).trans prepared.transfer

theorem settled_reboot (stores : live.hardware.Stores settings) :
    (reboot live).Settled settings := by
  have counted : live.hardware.countReset.Stores settings :=
    ⟨stores.usable, stores.works, stores.loads⟩
  exact settled_boot counted .forced

/-- A round without a transfer sets nothing. -/
theorem takeRounds_quiet (quiet : live.ram.transfer = none)
    (runs : live.round.ram.restarting = false) (rounds : Nat) (settings : Settings) :
    settle.takeRounds (rounds + 1) live =
        (if live.isIdle then live else settle.takeRounds rounds live.round) ∧
      Act.settings settings (live.roundsTaken (rounds + 1)) =
        if live.isIdle then settings
        else Act.settings settings (live.round.roundsTaken rounds) := by
  have goesOn : ¬live.round.ram.restarting = true := by
    rw [runs]
    exact Bool.false_ne_true
  have silent : Act.change? (.round live live.round) = none := by
    rw [Act.change?, command?, quiet]
    rfl
  rw [settle.takeRounds, roundsTaken]
  simp only [if_neg goesOn]
  refine ⟨trivial, ?_⟩
  split
  · rfl
  · rw [Act.settings, List.filterMap_cons_none silent]
    rfl

/-- The program stays as it is, and stays settled. -/
theorem Settled.takeRounds (settled : live.Settled settings) (rounds : Nat) :
    (settle.takeRounds rounds live).Settled settings ∧
      Act.settings settings (live.roundsTaken rounds) = settings := by
  induction rounds generalizing live with
  | zero => exact ⟨settled, rfl⟩
  | succ rounds inductionHypothesis =>
    have next := settled.handled.round
    obtain ⟨taken, acts⟩ := takeRounds_quiet settled.transfer next.runs rounds settings
    rw [taken, acts]
    split
    · exact ⟨settled, rfl⟩
    · exact inductionHypothesis next

/-- Where no task has anything to do, every change has been stored. -/
theorem Handled.settled (handled : live.Handled settings) (idle : live.isIdle = true) :
    live.Settled settings := by
  obtain ⟨⟨stored, stores, whole⟩, working, quiet, runs⟩ := handled
  have none : live.ram.changes = {} := by
    simp only [isIdle, Bool.and_eq_true, List.isEmpty_iff] at idle
    have empty : live.ram.changes.toList = [] := idle.1.1.1.1.1.1.1.2
    exact ChangeQueue.eq_of_toList_eq_nil empty
  rw [none] at whole
  obtain rfl : stored = settings := whole
  exact ⟨⟨stores, working, none, runs⟩, quiet⟩

/-- What has been handled settles. -/
theorem Handled.takeRounds (handled : live.Handled settings) (rounds : Nat) :
    (settle.takeRounds (rounds + 1) live).Settled settings ∧
      Act.settings settings (live.roundsTaken (rounds + 1)) = settings := by
  have next := handled.round
  obtain ⟨taken, acts⟩ := takeRounds_quiet handled.transfer next.runs rounds settings
  rw [taken, acts]
  split
  next idle => exact ⟨handled.settled idle, rfl⟩
  next => exact next.takeRounds rounds

theorem transfer_pollHost (live : Live) : (pollHost live).ram.transfer = none := by
  rw [pollHost]
  split
  next none => exact none
  next transfer _ =>
    rcases dealWith_cases { live with ram := { live.ram with transfer := none } } transfer with
      ⟨command, -, executed⟩ | ⟨-, answer, untouched⟩
    · rw [executed]
      cases command <;> rfl
    · rw [untouched]

/-- A transfer is dealt with in the first round. It sets something, or has the controller restart. -/
theorem Stored.round (stored : live.Stored settings) :
    live.round.Handled (Act.settings settings [.round live live.round]) ∨
      live.round.ram.restarting = true ∧ live.round.hardware.Stores settings ∧
        Act.settings settings [.round live live.round] = settings := by
  obtain ⟨ready, taken, host, flash, same, changes⟩ := live.round_ready
  have stores : ready.hardware.Stores settings := by
    have kept := stored.stores.storeAll live.ram.changes
    rw [stored.changes] at kept flash
    refine ⟨?_, (congrArg HostSide.flashFails host).trans stored.stores.works, ?_⟩
    · rw [flash]
      exact kept.usable
    · rw [flash]
      exact kept.loads
  have working : ready.ram.settings = settings := same.trans stored.settings
  have runs : ready.ram.restarting = false := (congrArg HostSide.restarting host).trans stored.runs
  have commanded : live.command? = ready.command? :=
    congrArg (Option.bind · Transfer.command?) (congrArg HostSide.transfer host).symm
  have acts : Act.settings settings [.round live live.round] =
      ((ready.command?.bind HostCommand.change?).toList).foldl Settings.change settings := by
    rw [← commanded, Act.settings]
    congr 1
  rw [acts, taken]
  rcases ready.pollHost_cases with ⟨command, sent, executed⟩ | ⟨nothing, transfer, answer, untouched⟩
  · rw [executed, sent]
    have sets (change : SettingChange) (cell : Mailbox → Mailbox) :
        (({ ready with ram := { ready.ram with transfer := none } }.onMailbox cell).changeSetting
          change).Handled (settings.change change) := by
      refine ⟨⟨settings, stores, ?_⟩, congrArg (Settings.change · change) working, rfl, runs⟩
      change (ready.ram.changes.send change).toList.foldl _ _ = _
      rw [ChangeQueue.toList_send, changes]
      rfl
    have leaves (cell : Mailbox → Mailbox) :
        ({ ready with ram := { ready.ram with transfer := none } }.onMailbox cell).Handled
          settings := by
      refine ⟨⟨settings, stores, ?_⟩, working, rfl, runs⟩
      change ready.ram.changes.toList.foldl _ _ = _
      rw [changes]
      rfl
    cases command with
    | changeSetting change => exact .inl (sets change id)
    | setLongPress ms => exact .inl (sets (.longPress ms.toUInt32) _)
    | powerOn => exact .inl (leaves Mailbox.requestPowerOn)
    | forceOff => exact .inl (leaves Mailbox.requestShutdown)
    | reset kind => exact .inl (leaves fun mailbox => mailbox.requestReset kind)
    | restart | restartOff => exact .inr ⟨rfl, ⟨stores.usable, stores.works, stores.loads⟩, rfl⟩
  · have gone : (pollHost ready).ram.transfer = none := ready.transfer_pollHost
    rw [untouched] at gone ⊢
    rw [nothing]
    refine .inl ⟨⟨settings, stores, ?_⟩, working, gone, runs⟩
    change ready.ram.changes.toList.foldl _ _ = _
    rw [changes]
    rfl

/-- So the program settles, and what the host has set on the way is stored. -/
theorem Stored.takeRounds (stored : live.Stored settings) (busy : live.isIdle = false)
    (rounds : Nat) :
    (settle.takeRounds (rounds + 2) live).Settled
      (Act.settings settings (live.roundsTaken (rounds + 2))) := by
  have first (rest : List Act) : Act.settings settings (.round live live.round :: rest) =
      Act.settings (Act.settings settings [.round live live.round]) rest :=
    Act.settings_append settings [.round live live.round] rest
  have goesOn : ¬live.isIdle = true := by
    rw [busy]
    exact Bool.false_ne_true
  rw [settle.takeRounds, roundsTaken, if_neg goesOn, if_neg goesOn]
  rcases stored.round with handled | ⟨restarts, stores, same⟩
  · have runs : ¬live.round.ram.restarting = true := by
      rw [handled.runs]
      exact Bool.false_ne_true
    obtain ⟨rests, kept⟩ := handled.takeRounds rounds
    simp only [if_neg runs]
    rw [first, kept]
    exact rests
  · obtain ⟨rests, kept⟩ := (settled_reboot stores).takeRounds (rounds + 1)
    simp only [if_pos restarts]
    rw [first, same, Act.settings_boot, kept]
    exact rests

theorem Settled.settle_receive (settled : live.Settled settings) (transfer : Transfer) :
    (live.receive transfer).settle.Settled
      (Act.settings settings (live.receive transfer).settling) := by
  have stored : (live.receive transfer).Stored settings :=
    ⟨settled.stores, settled.settings, settled.changes, settled.runs⟩
  have waits : (live.receive transfer).ram.transfer = some transfer := rfl
  have busy : (live.receive transfer).isIdle = false := by simp [isIdle, waits]
  exact stored.takeRounds busy 62

/-- While nothing is to be done for the host, its last answer stands. -/
theorem answer_round (quiet : live.ram.transfer = none) :
    live.round.ram.answer = live.ram.answer := by
  obtain ⟨ready, taken, host, -⟩ := live.round_ready
  have nothing : ready.ram.transfer = none := (congrArg HostSide.transfer host).trans quiet
  rw [taken, pollHost, nothing]
  exact congrArg HostSide.answer host

theorem Settled.answer_takeRounds (settled : live.Settled settings) (rounds : Nat) :
    (settle.takeRounds rounds live).ram.answer = live.ram.answer := by
  induction rounds generalizing live with
  | zero => rfl
  | succ rounds inductionHypothesis =>
    have next := settled.handled.round
    rw [(takeRounds_quiet settled.transfer next.runs rounds settings).1]
    split
    · rfl
    · exact (inductionHypothesis next).trans (answer_round settled.transfer)

/-- A register that shows the settings is answered from them. -/
theorem Stored.answer_settle {register : UInt8} {arguments bytes : List UInt8} {count : Nat}
    (stored : live.Stored settings)
    (asked : live.ram.transfer = some (.writeRead (register :: arguments) count))
    (fits : arguments.length + 1 < transferLimit) (answers : live.hardware.hostFails = false)
    (shows : ∀ ram : Ram, ram.settings = settings → register? ram register = some bytes) :
    live.settle.ram.answer = some (fit count bytes) := by
  obtain ⟨ready, taken, host, -, same, -⟩ := live.round_ready
  have waits : ready.ram.transfer = some (.writeRead (register :: arguments) count) :=
    (congrArg HostSide.transfer host).trans asked
  have responds : ready.hardware.hostFails = false := (congrArg HostSide.hostFails host).trans answers
  have dealt : pollHost ready = respond { ready with ram := { ready.ram with transfer := none } }
      ((register? ready.ram register).map (fit count)) := by
    rw [pollHost, waits]
    exact if_pos fits
  have answered : live.round.ram.answer = some (fit count bytes) := by
    rw [taken, dealt, shows ready.ram (same.trans stored.settings)]
    simp only [respond, responds]
    rfl
  have runs : live.round.ram.restarting = false := by
    rw [taken, dealt]
    exact (congrArg HostSide.restarting host).trans stored.runs
  have busy : ¬live.isIdle = true := by simp [isIdle, asked]
  have goesOn : ¬live.round.ram.restarting = true := by
    rw [runs]
    exact Bool.false_ne_true
  rcases stored.round with handled | ⟨restarts, -⟩
  · have next := handled.round
    rw [settle, show roundsToRest = 62 + 1 + 1 from rfl, settle.takeRounds, if_neg busy]
    simp only [if_neg goesOn]
    rw [(takeRounds_quiet handled.transfer next.runs 62 settings).1]
    split
    · exact answered
    · exact (next.answer_takeRounds 62).trans ((answer_round handled.transfer).trans answered)
  · exact absurd restarts goesOn

end Live

/-- The program has settled, or it is off, and the store holds these settings. -/
def Power.Settled (settings : Settings) : Power → Prop
  | .on live => live.Settled settings
  | .off hardware => hardware.Stores settings

namespace Power.Settled

variable {power : Power} {settings : Settings}

theorem stores (settled : power.Settled settings) : power.hardware.Stores settings := by
  cases power with
  | on live =>
    have running : live.Settled settings := settled
    exact running.stores
  | off hardware => exact settled

/-- What changes around the program leaves the store as good as it was. -/
theorem onHardware_of {change : Hardware → Hardware} (settled : power.Settled settings)
    (kept : ∀ {hardware : Hardware}, hardware.Stores settings → (change hardware).Stores settings) :
    (power.onHardware change).Settled settings := by
  cases power with
  | on live =>
    obtain ⟨⟨stores, working, changes, runs⟩, transfer⟩ := settled
    exact ⟨⟨kept stores, working, changes, runs⟩, transfer⟩
  | off hardware => exact kept settled

/-- What has nothing to do with flash does. -/
theorem onHardware {change : Hardware → Hardware} (settled : power.Settled settings)
    (same : ∀ hardware, (change hardware).flash = hardware.flash ∧
      (change hardware).flashFails = hardware.flashFails) :
    (power.onHardware change).Settled settings := by
  refine settled.onHardware_of fun {hardware} stores => ?_
  obtain ⟨flash, fails⟩ := same hardware
  refine ⟨?_, fails.trans stores.works, ?_⟩
  · rw [flash]
    exact stores.usable
  · rw [flash]
    exact stores.loads

end Power.Settled

/-- Settings are changed over the bus only, and no store fails. -/
def Stimulus.letsStore : Stimulus → Bool
  | .changeSetting _ => false
  | .flashFails fails => !fails
  | _ => true

/-- Where the host alone changes settings, and the store works, the program works with what has been
loaded and what the host has set since then, and so does the store. -/
def RecordedInvariant.settled (loaded : Settings) :
    RecordedInvariant fun stimulus => stimulus.letsStore = true where
  holds past power := power.Settled (Act.settings loaded past)
  rested _ := True
  boot {past power} reason settled := by
    refine ⟨?_, trivial⟩
    obtain ⟨rests, kept⟩ := (Live.settled_boot settled.stores reason).takeRounds Live.roundsToRest
    rw [Act.settings_append, Act.settings_boot, Live.settling, kept]
    exact rests
  off settled := settled.stores
  settle settled := by
    obtain ⟨rests, kept⟩ := Live.Settled.takeRounds settled Live.roundsToRest
    refine ⟨?_, trivial⟩
    rw [Act.settings_append, Live.settling, kept]
    exact rests
  transfer {past live transfer} _ settled := by
    change Power.Settled (Act.settings loaded (past ++ (live.receive transfer).settling)) _
    rw [Act.settings_append]
    exact Live.Settled.settle_receive settled transfer
  passes {past live time} _ _ _ settled :=
    @Power.Settled.onHardware (.on live) _ (fun hardware => { hardware with now := time }) settled
      fun _ => ⟨rfl, rfl⟩
  passesOff {past hardware time} _ settled :=
    @Power.Settled.onHardware (.off hardware) _ (fun hardware => { hardware with now := time })
      settled fun _ => ⟨rfl, rfl⟩
  still outside same settled := settled.onHardware fun hardware =>
    ⟨(outside.around hardware).1, same hardware⟩
  faults works settled :=
    settled.onHardware_of fun stores =>
      ⟨stores.usable, Bool.not_eq_eq_eq_not.mp works, stores.loads⟩
  inputs {past live change} outside same _ settled := by
    obtain ⟨⟨stores, working, changes, runs⟩, transfer⟩ :=
      settled.onHardware fun hardware => ⟨(outside hardware).1, same hardware⟩
    rw [Act.settings_append]
    exact ⟨⟨stores, working, changes, runs⟩, transfer⟩
  inputsOff outside same settled :=
    settled.onHardware fun hardware => ⟨(outside hardware).1, same hardware⟩
  scratch {past power stimulus change} _ _ writes settled := by
    refine settled.onHardware fun hardware => ?_
    obtain ⟨scratch, same⟩ := writes hardware
    rw [same]
    exact ⟨rfl, rfl⟩
  setting other := absurd other Bool.false_ne_true

/-- What the host gets when it reads a register. -/
def Session.readRegister (session : Session) (register : UInt8) (arguments : List UInt8)
    (count : Nat) : Reply :=
  (session.execute (.apply (.transfer (.writeRead (register :: arguments) count)))).2

theorem Live.Settled.readRegister {live : Live} {settings : Settings} {timed : List Timed}
    {register : UInt8} {arguments bytes : List UInt8} {count : Nat}
    (settled : live.Settled settings) (fits : arguments.length + 1 < transferLimit)
    (answers : live.hardware.hostFails = false)
    (shows : ∀ ram : Ram, ram.settings = settings → register? ram register = some bytes) :
    (⟨.on live, timed⟩ : Session).readRegister register arguments count =
      .bytes (fit count bytes) := by
  let asked : Live := Live.receive { live with hardware := { live.hardware with writes := [] } }
    (.writeRead (register :: arguments) count)
  have stores : asked.hardware.Stores settings :=
    ⟨settled.stores.usable, settled.stores.works, settled.stores.loads⟩
  have stored : asked.Stored settings := ⟨stores, settled.settings, settled.changes, settled.runs⟩
  have answer := stored.answer_settle rfl fits answers shows
  change Session.hostReply ⟨.on asked.settle, timed⟩ = _
  rw [Session.hostReply]
  simp only [answer]

/-- A session that began with a controller that was off, and a store that works, has settled, and works
with what it found in flash and what the host has set since then. -/
theorem Session.settled_executeAll {hardware : Hardware} {timed : List Timed}
    {commands : List Command} {live : Live} (usable : hardware.flash.usable = true)
    (works : hardware.flashFails = false)
    (waiting : ∀ waiting ∈ timed, waiting.stimulus.Fits fun stimulus => stimulus.letsStore = true)
    (fits : ∀ command ∈ commands, command.Fits fun stimulus => stimulus.letsStore = true)
    (on : (executeAll ⟨.off hardware, timed⟩ commands).power = .on live) :
    live.Settled (Act.settings (hardware.flash.load fun _ => false)
      (acts commands ⟨.off hardware, timed⟩)) := by
  let invariant := RecordedInvariant.settled (hardware.flash.load fun _ => false)
  have begun : invariant.holds [] (.off hardware) := ⟨usable, works, rfl⟩
  have settled := invariant.holds_acts begun waiting fits
  rw [on] at settled
  exact settled

/-- Settings read back and take effect as they were written. In a session that begins with erased flash,
in which settings are changed over the bus only and no store fails, the registers of the revision, of the
power-on at boot and of the hold time are read as the last write that was accepted for each, or as the
default if there was none, whatever else has been done in between and whatever restarts there were. And
in a session in which settings are changed over the bus only, the hold time that the button finds is the
one in the settings, in every round, after every boot, and where all tasks are at rest. -/
theorem settings_read_back (hardware : Hardware) (timed : List Timed)
    (commands : List Session.Command) :
    let session : Session := ⟨.off hardware, timed⟩
    let acts := Session.acts commands session
    let after := session.executeAll commands
    (hardware.flash = {} → hardware.flashFails = false →
      (∀ waiting ∈ timed, waiting.stimulus.Fits fun stimulus => stimulus.letsStore = true) →
      (∀ command ∈ commands, command.Fits fun stimulus => stimulus.letsStore = true) →
      ∀ live, after.power = .on live → live.hardware.hostFails = false →
      ∀ arguments count, arguments.length + 1 < transferLimit →
        after.readRegister 0x03 arguments count =
          .bytes (fit count ((Act.lastWritten? .hardwareVersion acts).getD [2])) ∧
        after.readRegister 0x14 arguments count =
          .bytes (fit count (((Act.lastWritten? .autoPowerOn acts).map (List.map fun byte : UInt8 =>
            if byte = 0 then (0 : UInt8) else 1)).getD [1])) ∧
        after.readRegister 0x15 arguments count =
          .bytes (fit count ((Act.lastWritten? .longPress acts).getD (wordBytes 8000)))) ∧
    ((∀ waiting ∈ timed, waiting.stimulus.Fits fun stimulus => stimulus.isOverBus = true) →
      (∀ command ∈ commands, command.Fits fun stimulus => stimulus.isOverBus = true) →
      ∀ live, after.power = .on live ∨ (∃ act ∈ acts, act.live = live) →
        live.ram.mailbox.longPressUs = live.ram.settings.longPressMs.toNat * Timing.usPerMs) := by
  intro session acts after
  constructor
  · intro erased works waiting fits live on answers arguments count short
    have usable : hardware.flash.usable = true := by rw [erased]
    have settled : live.Settled (Act.settings {} acts) := by
      have loaded : hardware.flash.load (fun _ => false) = {} := by rw [erased]; rfl
      rw [← loaded]
      exact Session.settled_executeAll usable works waiting fits on
    have reads {register : UInt8} {bytes : List UInt8} (shows : ∀ ram : Ram,
        ram.settings = Act.settings {} acts → register? ram register = some bytes) :
        after.readRegister register arguments count = .bytes (fit count bytes) := by
      have whole : after = ⟨.on live, after.timed⟩ := by rw [← on]
      rw [whole]
      exact settled.readRegister short answers shows
    refine ⟨reads fun ram same => ?_, reads fun ram same => ?_, reads fun ram same => ?_⟩
    · have shown := Act.hardwareVersion_settings {} acts
      rw [← same] at shown
      exact congrArg some shown
    · have shown := Act.autoPowerOn_settings {} acts
      rw [← same] at shown
      exact congrArg some shown
    · have shown := Act.longPress_settings {} acts
      rw [← same] at shown
      exact congrArg some shown
  · intro waiting fits live here
    have begun : SessionInvariant.holdAgrees.Holds session := ⟨trivial, waiting⟩
    obtain ⟨kept, onTheWay⟩ := SessionInvariant.holds_executeAll_acts begun fits
    have agrees : live.HoldAgrees := by
      rcases here with on | ⟨act, member, rfl⟩
      · have held := kept.power
        rw [on] at held
        exact held.2
      · exact (onTheWay act member).2
    rw [Mailbox.longPressUs, agrees]

/-- The host turns off power-on at boot, asks for a revision that the board cannot drive, sets the hold
time to a second, and has the controller restart. -/
def setsAndRestarts : List Session.Command :=
  [.apply (.boot .power), .apply (.transfer (.write [0x14, 0])),
    .apply (.transfer (.write [0x03, 0])), .apply (.transfer (.write [0x15, 0x03, 0xe8])),
    .apply (.transfer (.write [0x41]))]

/-- After the restart the registers show what was accepted, and the button is held for a second. -/
theorem settings_read_back_afterRestart :
    let after := Session.executeAll ⟨.off {}, []⟩ setsAndRestarts
    after.readRegister 0x03 [] 1 = .bytes [2] ∧ after.readRegister 0x14 [] 1 = .bytes [0] ∧
      after.readRegister 0x15 [] 2 = .bytes [0x03, 0xe8] ∧
      ∃ live, after.power = .on live ∧ live.ram.mailbox.longPressUs = 1000000 := by
  intro after
  have passes : after.power.passes (fun live => !live.hardware.hostFails &&
      live.ram.settings.longPressMs = 1000) = true := by decide +kernel
  obtain ⟨live, on, seen⟩ := Power.exists_of_passes passes
  obtain ⟨answers, hold⟩ := Bool.and_eq_true_iff.mp seen
  have revision : Act.lastWritten? .hardwareVersion
      (Session.acts setsAndRestarts ⟨.off {}, []⟩) = none := by decide +kernel
  have powerOn : Act.lastWritten? .autoPowerOn
      (Session.acts setsAndRestarts ⟨.off {}, []⟩) = some [0] := by decide +kernel
  have longPress : Act.lastWritten? .longPress
      (Session.acts setsAndRestarts ⟨.off {}, []⟩) = some [0x03, 0xe8] := by decide +kernel
  obtain ⟨reads, holds⟩ := settings_read_back {} [] setsAndRestarts
  have lets : ∀ command ∈ setsAndRestarts,
      command.Fits fun stimulus => stimulus.letsStore = true := by
    simp [setsAndRestarts, Session.Command.Fits, Stimulus.Fits, Stimulus.letsStore]
  have overBus : ∀ command ∈ setsAndRestarts,
      command.Fits fun stimulus => stimulus.isOverBus = true := by
    simp [setsAndRestarts, Session.Command.Fits, Stimulus.Fits, Stimulus.isOverBus]
  have shows := reads rfl rfl (List.forall_mem_nil _) lets live on (Bool.not_eq_eq_eq_not.mp answers) []
  refine ⟨?_, ?_, ?_, live, on, ?_⟩
  · rw [(shows 1 (by decide)).1, revision]
    rfl
  · rw [(shows 1 (by decide)).2.1, powerOn]
    rfl
  · rw [(shows 2 (by decide)).2.2, longPress]
    rfl
  · rw [holds (List.forall_mem_nil _) overBus live (.inl on), of_decide_eq_true hold]
    rfl

/-- What is written of the threshold is read back, or one less. In a session that begins with any store
that works, in which settings are changed over the bus only, the threshold register is read as the last
two bytes that were written to it, whatever has been done since then and whatever restarts there were,
but for the numbers that fall short of their own hundredths: those are read as one less. So the register
round-trips exactly where they do not. -/
theorem threshold_read_back (hardware : Hardware) (timed : List Timed)
    (commands : List Session.Command) (usable : hardware.flash.usable = true)
    (works : hardware.flashFails = false)
    (waiting : ∀ waiting ∈ timed, waiting.stimulus.Fits fun stimulus => stimulus.letsStore = true)
    (fits : ∀ command ∈ commands, command.Fits fun stimulus => stimulus.letsStore = true) :
    let session : Session := ⟨.off hardware, timed⟩
    let acts := Session.acts commands session
    let after := session.executeAll commands
    ∀ live, after.power = .on live → live.hardware.hostFails = false →
    ∀ high low, Act.lastWritten? .vinThreshold acts = some [high, low] →
    ∀ arguments, arguments.length + 1 < transferLimit →
      let word := (wordOf high low).toNat
      (∀ count, after.readRegister 0x16 arguments count =
        .bytes (fit count (wordBytes (if FallsShort word then word - 1 else word)))) ∧
      (after.readRegister 0x16 arguments 2 = .bytes [high, low] ↔ ¬FallsShort word) := by
  intro session acts after live on answers high low last arguments short word
  have settled := Session.settled_executeAll usable works waiting fits on
  have whole : after = ⟨.on live, after.timed⟩ := by rw [← on]
  have reads (count : Nat) : after.readRegister 0x16 arguments count =
      .bytes (fit count (wordBytes (if FallsShort word then word - 1 else word))) := by
    rw [whole, ← wholeHundredths_hundredths (wordOf high low).toNat_lt]
    refine settled.readRegister short answers fun ram same => ?_
    have kept : ram.settings.vinThreshold = hundredths word := by
      rw [same]
      exact Act.vinThreshold_settings _ _ last
    rw [← kept]
    rfl
  refine ⟨reads, ?_⟩
  rw [reads]
  constructor
  · intro same falls
    have some : 0 < word := by
      apply Nat.pos_of_ne_zero
      intro none
      rw [none] at falls
      exact absurd falls (by decide)
    have small : word < 65536 := (wordOf high low).toNat_lt
    rw [if_pos falls, ← wordBytes_wordOf] at same
    have digits : wordBytes (word - 1) = wordBytes word := Session.Reply.bytes.inj same
    have equal : word - 1 = word := wordBytes_inj (by omega) small digits
    omega
  · intro keeps
    rw [if_neg keeps, wordBytes_wordOf]
    rfl

/-- A hundredth more than half a volt falls short: the 53 that was written is read as 52, with no restart
in between. -/
theorem threshold_read_back_fiftyThree :
    let after := Session.executeAll ⟨.off {}, []⟩
      [.apply (.boot .power), .apply (.transfer (.write [0x16, 0, 53]))]
    after.readRegister 0x16 [] 2 = .bytes [0, 52] ∧
      after.readRegister 0x16 [] 2 ≠ .bytes [0, 53] := by
  decide +kernel

/-- A threshold of twelve volts comes back as it was written, after a restart. -/
theorem threshold_read_back_twelveVolts :
    let after := Session.executeAll ⟨.off {}, []⟩
      [.apply (.boot .power), .apply (.transfer (.write [0x16, 0x04, 0xb0])), .apply (.boot .forced)]
    after.readRegister 0x16 [] 2 = .bytes [0x04, 0xb0] := by
  intro after
  have passes : after.power.passes (fun live => !live.hardware.hostFails) = true := by decide +kernel
  obtain ⟨live, on, answers⟩ := Power.exists_of_passes passes
  have last : Act.lastWritten? .vinThreshold (Session.acts
      [.apply (.boot .power), .apply (.transfer (.write [0x16, 0x04, 0xb0])), .apply (.boot .forced)]
      ⟨.off {}, []⟩) = some [0x04, 0xb0] := by decide +kernel
  obtain ⟨-, exact⟩ := threshold_read_back {} []
    [.apply (.boot .power), .apply (.transfer (.write [0x16, 0x04, 0xb0])), .apply (.boot .forced)]
    rfl rfl (List.forall_mem_nil _) (by simp [Session.Command.Fits, Stimulus.Fits, Stimulus.letsStore])
    live on (Bool.not_eq_eq_eq_not.mp answers) 0x04 0xb0 last [] (by decide)
  exact exact.mpr (by decide +kernel)

end RailSequencer.Controller
