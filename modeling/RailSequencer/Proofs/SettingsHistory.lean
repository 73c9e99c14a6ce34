import Mathlib.Data.List.DropRight
import RailSequencer.Proofs.Stores

/-!
# What becomes of changed settings

A setting lives in four places: the working copy, the channel behind which its sender may wait, the
hands of the store task, and flash. `StoreHistory` is all that can happen to them from erased flash on,
in steps of the program, with what is seen of it: one client calls setters, and waits while the channel
is full; the store task takes up changes and stores them, unless flash fails; the controller is reset at
any time, and any fetch of the next boot may fail.

Between two boots the store task works off the calls in their order (`StoreHistory.calls_eq`), and flash
holds what was stored last under each key (`StoreHistory.find?_eq`). What is seen in a session is read
off its acts (`Act.storeEvents`), and this is such a history (`TimedInvariant.storeHistory`).
-/

namespace RailSequencer.Controller

/-- The value of a setting, as the change that gives it. -/
def Settings.value (settings : Settings) : SettingKey → SettingChange
  | .autoPowerOn => .autoPowerOn settings.autoPowerOn
  | .longPress => .longPress settings.longPressMs
  | .vinThreshold => .vinThreshold settings.vinThreshold
  | .hardwareVersion => .hardwareVersion settings.hardwareVersion

/-- A change gives its own setting its value, and leaves the others alone. -/
theorem Settings.value_change (settings : Settings) (change : SettingChange) (key : SettingKey) :
    (settings.change change).value key = if change.key = key then change else settings.value key := by
  cases change <;> cases key <;> rfl

namespace Flash

variable (flash : Flash) (fails : SettingKey → Bool)

variable {flash fails}

theorem key_of_fetch? {key : SettingKey} {change : SettingChange}
    (fetched : flash.fetch? fails key = some change) : change.key = key := by
  obtain ⟨-, found⟩ := Option.ite_none_right_eq_some.mp fetched
  rw [find?] at found
  have holds := List.find?_some found
  exact of_decide_eq_true holds

variable (flash fails)

/-- Reading one setting after the other gives each what is read under its key. -/
private theorem value_fetchAll (keys : List SettingKey) (settings : Settings) (key : SettingKey) :
    (keys.foldl (fun settings key => match flash.fetch? fails key with
      | some change => settings.change change
      | none => settings) settings).value key =
    if key ∈ keys then (flash.fetch? fails key).getD (settings.value key)
    else settings.value key := by
  induction keys generalizing settings with
  | nil => rfl
  | cons first rest inductionHypothesis =>
    rw [List.foldl_cons, inductionHypothesis]
    cases fetched : flash.fetch? fails first with
    | none =>
      by_cases same : key = first
      · subst same
        simp [fetched]
      · simp [same]
    | some change =>
      rw [Settings.value_change, key_of_fetch? fetched]
      by_cases same : first = key
      · subst same
        simp [fetched]
      · simp [same, Ne.symm same]

/-- A setting that is loaded has the value that is stored under its key, if it can be read, and its
default otherwise. -/
theorem value_load (key : SettingKey) :
    (flash.load fails).value key = (flash.fetch? fails key).getD (Settings.value {} key) := by
  have every : key ∈ [SettingKey.autoPowerOn, .longPress, .vinThreshold, .hardwareVersion] := by
    cases key <;> decide
  exact (flash.value_fetchAll fails _ _ key).trans (if_pos every)

end Flash

/-- What is seen of the settings. -/
inductive StoreEvent where
  | called (change : SettingChange)
  /-- The store task has tried to store a change, and has stored it or not. -/
  | tried (change : SettingChange) (stored : Bool)
  /-- A boot, at which some fetches fail, has loaded settings. -/
  | booted (fails : SettingKey → Bool) (loaded : Settings)

namespace StoreEvent

def called? : StoreEvent → Option SettingChange
  | .called change => some change
  | _ => none

def tried? : StoreEvent → Option SettingChange
  | .tried change _ => some change
  | _ => none

def stored? : StoreEvent → Option SettingChange
  | .tried change true => some change
  | _ => none

def isRunning : StoreEvent → Bool
  | .booted _ _ => false
  | _ => true

/-- The events since the last boot. -/
def sinceBoot (events : List StoreEvent) : List StoreEvent := events.rtakeWhile isRunning

/-- The changes that were called for, in order. -/
def calls (events : List StoreEvent) : List SettingChange := events.filterMap called?

/-- The changes that the store task tried to store, in order. -/
def tries (events : List StoreEvent) : List SettingChange := events.filterMap tried?

/-- The change that was stored last under a key, if one was stored. -/
def lastStored? (events : List StoreEvent) (key : SettingKey) : Option SettingChange :=
  (events.filterMap stored?).reverse.find? fun change => change.key = key

/-- What is stored under a key takes the place of what was stored there before. -/
theorem lastStored?_stored (events : List StoreEvent) (change : SettingChange) (key : SettingKey) :
    lastStored? (events ++ [.tried change true]) key =
      if change.key = key then some change else lastStored? events key := by
  rw [lastStored?, List.filterMap_append, List.reverse_append]
  by_cases same : change.key = key
  · simp [stored?, same]
  · simp [stored?, same, lastStored?]

theorem lastStored?_concat {event : StoreEvent} (unstored : event.stored? = none)
    (events : List StoreEvent) (key : SettingKey) :
    lastStored? (events ++ [event]) key = lastStored? events key := by
  rw [lastStored?, List.filterMap_append, List.filterMap_cons_none unstored, List.filterMap_nil,
    List.append_nil]
  rfl

end StoreEvent

/-- What a command of the host sets, if it sets anything. -/
def HostCommand.change? : HostCommand → Option SettingChange
  | .changeSetting change => some change
  | .setLongPress ms => some (.longPress ms.toUInt32)
  | _ => none

/-- What an act shows of the settings. A round tries to store what it finds on its way to flash, and
then looks at the host. -/
def Act.storeEvents : Act → List StoreEvent
  | .round found _ =>
    found.ram.changes.toList.map (.tried · !found.hardware.flashFails) ++
      (found.command?.bind HostCommand.change?).toList.map .called
  | .boot before reason =>
    [.booted (fun _ => before.flashFails) (Controller.boot before reason).ram.settings]
  | .inputs _ _ => []

/-- What can happen to the settings from erased flash on, with one client that calls setters. -/
inductive StoreHistory : List StoreEvent → Power → Prop where
  | erased {hardware : Hardware} (erased : hardware.flash = {}) : StoreHistory [] (.off hardware)
  /-- The client calls a setter, unless it waits in one. -/
  | call {events : List StoreEvent} {live : Live} (prior : StoreHistory events (.on live))
      (free : live.ram.changes.waiting = []) (change : SettingChange) :
      StoreHistory (events ++ [.called change]) (.on (live.changeSetting change))
  /-- The store task looks for a change to take up. -/
  | take {events : List StoreEvent} {live : Live} (prior : StoreHistory events (.on live)) :
      StoreHistory events (.on live.takeChange)
  /-- The store task is done with the change that it has taken up, which is stored unless flash
  fails. -/
  | finish {events : List StoreEvent} {live : Live} {change : SettingChange}
      (prior : StoreHistory events (.on live)) (taken : live.ram.changes.taken = some change) :
      StoreHistory (events ++ [.tried change !live.hardware.flashFails]) (.on live.storeTaken)
  | boot {events : List StoreEvent} {power : Power} (prior : StoreHistory events power)
      (fails : SettingKey → Bool) (reason : ResetReason) :
      StoreHistory
        (events ++ [.booted fails (bootWith fails power.hardware reason).ram.settings])
        (.on (bootWith fails power.hardware reason))
  | off {events : List StoreEvent} {power : Power} (prior : StoreHistory events power) :
      StoreHistory events (.off power.hardware)
  /-- Something else happens to a running controller, and touches neither flash nor what is on its way
  there. -/
  | elsewhere {events : List StoreEvent} {before after : Live}
      (prior : StoreHistory events (.on before)) (changes : after.ram.changes = before.ram.changes)
      (flash : after.hardware.flash = before.hardware.flash) : StoreHistory events (.on after)
  /-- The hardware changes, whether the controller is on or off. -/
  | around {events : List StoreEvent} {power : Power} {change : Hardware → Hardware}
      (prior : StoreHistory events power)
      (same : ∀ hardware, (change hardware).flash = hardware.flash) :
      StoreHistory events (power.onHardware change)

namespace StoreHistory

open StoreEvent

variable {events earlier : List StoreEvent} {power : Power} {live : Live}

/-- Since the last boot, the store task has tried the changes that were called for first, in the
order of the calls. The others are on their way, while the controller runs. -/
theorem calls_eq (history : StoreHistory events power) :
    ∃ pending, calls (sinceBoot events) = tries (sinceBoot events) ++ pending ∧
      ∀ live, power = .on live → live.ram.changes.toList = pending := by
  have concat (events : List StoreEvent) {event : StoreEvent} (running : event.isRunning = true) :
      sinceBoot (events ++ [event]) = sinceBoot events ++ [event] :=
    List.rtakeWhile_concat_pos _ _ _ running
  induction history with
  | erased => exact ⟨[], rfl, fun _ on => absurd on nofun⟩
  | call prior free change inductionHypothesis =>
    obtain ⟨pending, same, here⟩ := inductionHypothesis
    refine ⟨pending ++ [change], ?_, fun live on => ?_⟩
    · rw [concat _ rfl, calls, tries, List.filterMap_append, List.filterMap_append]
      change calls _ ++ [change] = tries _ ++ [] ++ (_ ++ [change])
      rw [same, List.append_nil, List.append_assoc]
    · obtain rfl := Power.on.inj on
      rw [← here _ rfl]
      exact ChangeQueue.toList_send _ change
  | take prior inductionHypothesis =>
    obtain ⟨pending, same, here⟩ := inductionHypothesis
    refine ⟨pending, same, fun live on => ?_⟩
    obtain rfl := Power.on.inj on
    exact (ChangeQueue.toList_takeUp _).trans (here _ rfl)
  | @finish events live change prior taken inductionHypothesis =>
    obtain ⟨pending, same, here⟩ := inductionHypothesis
    have first := live.ram.changes.toList_finish
    rw [here live rfl, taken] at first
    refine ⟨live.ram.changes.finish.toList, ?_, fun after on => ?_⟩
    · rw [concat _ rfl, calls, tries, List.filterMap_append, List.filterMap_append]
      change calls _ ++ [] = tries _ ++ [change] ++ _
      rw [same, first, List.append_nil, List.append_assoc]
      rfl
    · obtain rfl := Power.on.inj on
      rfl
  | @boot events power prior fails reason inductionHypothesis =>
    refine ⟨[], ?_, fun live on => ?_⟩
    · rw [sinceBoot, List.rtakeWhile_concat_neg _ _ _ Bool.false_ne_true]
      rfl
    · obtain rfl := Power.on.inj on
      rw [(stores_bootWith fails power.hardware reason).2.2.2]
      rfl
  | off prior inductionHypothesis =>
    obtain ⟨pending, same, -⟩ := inductionHypothesis
    exact ⟨pending, same, fun _ on => absurd on nofun⟩
  | elsewhere prior changes flash inductionHypothesis =>
    obtain ⟨pending, same, here⟩ := inductionHypothesis
    refine ⟨pending, same, fun live on => ?_⟩
    obtain rfl := Power.on.inj on
    rw [changes]
    exact here _ rfl
  | @around events power change prior same inductionHypothesis =>
    obtain ⟨pending, eq, here⟩ := inductionHypothesis
    refine ⟨pending, eq, fun live on => ?_⟩
    cases power with
    | on before =>
      obtain rfl := Power.on.inj on
      exact here before rfl
    | off hardware => exact absurd on nofun

/-- The client waits for one change at most. -/
theorem length_waiting_le (history : StoreHistory events power) :
    ∀ live, power = .on live → live.ram.changes.waiting.length ≤ 1 := by
  induction history with
  | erased | off => exact fun _ on => absurd on nofun
  | call prior free change inductionHypothesis =>
    intro live on
    obtain rfl := Power.on.inj on
    exact ChangeQueue.length_waiting_send free change
  | take prior inductionHypothesis =>
    intro live on
    obtain rfl := Power.on.inj on
    exact Nat.le_trans (ChangeQueue.length_waiting_takeUp _) (inductionHypothesis _ rfl)
  | @finish events live change prior taken inductionHypothesis =>
    intro after on
    obtain rfl := Power.on.inj on
    exact inductionHypothesis live rfl
  | @boot events power prior fails reason inductionHypothesis =>
    intro live on
    obtain rfl := Power.on.inj on
    rw [(stores_bootWith fails power.hardware reason).2.2.2]
    exact Nat.zero_le 1
  | elsewhere prior changes flash inductionHypothesis =>
    intro live on
    obtain rfl := Power.on.inj on
    rw [changes]
    exact inductionHypothesis _ rfl
  | @around events power change prior same inductionHypothesis =>
    intro live on
    cases power with
    | on before =>
      obtain rfl := Power.on.inj on
      exact inductionHypothesis before rfl
    | off hardware => exact absurd on nofun

/-- Flash holds under each key what was stored last. -/
theorem find?_eq (history : StoreHistory events power) :
    power.hardware.flash.usable = true ∧
      ∀ key, power.hardware.flash.find? key = lastStored? events key := by
  induction history with
  | erased erased =>
    rw [Power.hardware, erased]
    exact ⟨rfl, fun _ => rfl⟩
  | call prior free change inductionHypothesis =>
    refine inductionHypothesis.imp_right fun same key => ?_
    rw [lastStored?_concat rfl]
    exact same key
  | take prior inductionHypothesis => exact inductionHypothesis
  | @finish events live change prior taken inductionHypothesis =>
    obtain ⟨usable, same⟩ := inductionHypothesis
    have usable : live.hardware.flash.usable = true := usable
    have stored : live.storeTaken.hardware = live.hardware.storeSetting change := by
      rw [Live.storeTaken, taken]
    rw [Power.hardware, stored, Hardware.storeSetting]
    cases fails : live.hardware.flashFails with
    | true =>
      refine ⟨usable, fun key => ?_⟩
      rw [lastStored?_concat rfl]
      exact same key
    | false =>
      have written : (live.hardware.flash.store change).usable = true := by
        rw [Flash.store, if_pos usable]
        exact usable
      refine ⟨written, fun key => ?_⟩
      rw [Bool.not_false, lastStored?_stored, ← same]
      exact Flash.find?_store _ change key usable
  | @boot events power prior fails reason inductionHypothesis =>
    rw [Power.hardware, (stores_bootWith fails power.hardware reason).1]
    refine inductionHypothesis.imp_right fun same key => ?_
    rw [lastStored?_concat rfl]
    exact same key
  | off prior inductionHypothesis => exact inductionHypothesis
  | elsewhere prior changes flash inductionHypothesis =>
    rw [Power.hardware, flash]
    exact inductionHypothesis
  | around prior same inductionHypothesis =>
    rw [Power.hardware_onHardware, same]
    exact inductionHypothesis

/-- What has been seen up to some point is a history too. -/
theorem of_prefix (history : StoreHistory events power) (cut : earlier <+: events) :
    ∃ before, StoreHistory earlier before := by
  induction history with
  | erased erased =>
    obtain rfl := List.prefix_nil.mp cut
    exact ⟨_, .erased erased⟩
  | take _ inductionHypothesis | off _ inductionHypothesis | elsewhere _ _ _ inductionHypothesis
    | around _ _ inductionHypothesis => exact inductionHypothesis cut
  | call prior free change inductionHypothesis =>
    rcases List.prefix_concat_iff.mp cut with rfl | cut
    · exact ⟨_, .call prior free change⟩
    · exact inductionHypothesis cut
  | finish prior taken inductionHypothesis =>
    rcases List.prefix_concat_iff.mp cut with rfl | cut
    · exact ⟨_, .finish prior taken⟩
    · exact inductionHypothesis cut
  | boot prior fails reason inductionHypothesis =>
    rcases List.prefix_concat_iff.mp cut with rfl | cut
    · exact ⟨_, .boot prior fails reason⟩
    · exact inductionHypothesis cut

/-- Every boot has loaded what was stored last, where it could be read, and defaults elsewhere. -/
theorem loaded_eq {fails : SettingKey → Bool} {loaded : Settings}
    (history : StoreHistory (earlier ++ [.booted fails loaded]) power) (key : SettingKey) :
    loaded.value key =
      if fails key then Settings.value {} key
      else (lastStored? earlier key).getD (Settings.value {} key) := by
  generalize whole : earlier ++ [StoreEvent.booted fails loaded] = events at history
  induction history with
  | erased => exact absurd whole (List.concat_ne_nil _ _)
  | take _ inductionHypothesis | off _ inductionHypothesis | elsewhere _ _ _ inductionHypothesis
    | around _ _ inductionHypothesis => exact inductionHypothesis whole
  | call | finish => exact absurd (List.append_inj' whole rfl).2 (by simp)
  | @boot events power prior _ reason inductionHypothesis =>
    obtain ⟨rfl, same⟩ := List.append_inj' whole rfl
    obtain ⟨rfl, rfl⟩ := StoreEvent.booted.inj (List.singleton_inj.mp same)
    obtain ⟨usable, stored⟩ := prior.find?_eq
    rw [(stores_bootWith fails power.hardware reason).2.2.1, Flash.value_load, Flash.fetch?, usable,
      Bool.true_and, ← stored]
    cases fails key with
    | true => rfl
    | false => rfl

/-- The store task stores what it has taken up, if it has taken up anything. -/
theorem storeTaken (history : StoreHistory events (.on live)) :
    StoreHistory
      (events ++ live.ram.changes.taken.toList.map (.tried · !live.hardware.flashFails))
      (.on live.storeTaken) := by
  cases taken : live.ram.changes.taken with
  | some change => exact history.finish taken
  | none =>
    rw [Option.toList_none, List.map_nil, List.append_nil]
    apply history.elsewhere
    · change live.ram.changes.finish = live.ram.changes
      rw [ChangeQueue.finish, ← taken]
    · rw [Live.storeTaken, taken]

/-- It goes on with one change after the other. -/
theorem storeEach {sent : List SettingChange} (history : StoreHistory events (.on live))
    (before : live.ram.changes = ⟨none, sent⟩) :
    StoreHistory (events ++ sent.map (.tried · !live.hardware.flashFails))
      (.on (Live.pollStore.storeEach sent.length live)) := by
  induction sent generalizing events live with
  | nil =>
    rw [List.map_nil, List.append_nil]
    exact history
  | cons change rest inductionHypothesis =>
    have taken : live.takeChange.ram.changes = ⟨some change, rest⟩ := by
      rw [Live.takeChange, before]
      rfl
    have left : live.takeChange.storeTaken.ram.changes = ⟨none, rest⟩ :=
      congrArg ChangeQueue.finish taken
    have finished := history.take.finish (congrArg ChangeQueue.taken taken)
    have later := inductionHypothesis finished left
    rw [Live.flashFails_storeTaken, List.append_assoc] at later
    exact later

/-- One look of the store task is at all that is on its way to flash. -/
theorem pollStore (history : StoreHistory events (.on live)) :
    StoreHistory (events ++ live.ram.changes.toList.map (.tried · !live.hardware.flashFails))
      (.on live.pollStore) := by
  have stored := history.storeTaken.storeEach rfl
  rw [Live.flashFails_storeTaken, List.append_assoc, ← List.map_append] at stored
  exact stored

/-- The host calls one setter at most. -/
theorem pollHost (history : StoreHistory events (.on live))
    (free : live.ram.changes.waiting = []) :
    StoreHistory (events ++ (live.command?.bind HostCommand.change?).toList.map .called)
      (.on (pollHost live)) := by
  have silent : StoreHistory (events ++ []) (.on live) := by
    rw [List.append_nil]
    exact history
  rcases live.pollHost_cases with ⟨command, sent, executed⟩ | ⟨nothing, transfer, answer, untouched⟩
  · have call (change : SettingChange) (cell : Mailbox → Mailbox) :
        StoreHistory (events ++ [.called change]) (.on
          (({ live with ram := { live.ram with transfer := none } }.onMailbox cell).changeSetting
            change)) := by
      have seen : StoreHistory events
          (.on ({ live with ram := { live.ram with transfer := none } }.onMailbox cell)) :=
        history.elsewhere rfl rfl
      exact seen.call free change
    rw [executed, sent]
    cases command with
    | changeSetting change => exact call change id
    | setLongPress ms => exact call (.longPress ms.toUInt32) _
    | powerOn | forceOff | reset | restart | restartOff => exact silent.elsewhere rfl rfl
  · rw [nothing, untouched]
    exact silent.elsewhere rfl rfl

/-- A round stores what is on its way to flash, before the host is looked at. -/
theorem round (history : StoreHistory events (.on live)) :
    StoreHistory (events ++ Act.storeEvents (.round live live.round)) (.on live.round) := by
  have feeder := Live.SameStores.feeder live
  have stored := (history.elsewhere feeder.changes feeder.flash).pollStore
  have same := live.sameStores_beforeHost
  have free : live.beforeHost.ram.changes.waiting = [] := by
    rw [same.changes, Live.pollStore_eq]
    rfl
  have handled := (stored.elsewhere same.changes same.flash).pollHost free
  rw [Live.command?_beforeHost, feeder.changes, live.hardware_pollFeeder,
    List.append_assoc] at handled
  exact handled

end StoreHistory

/-- Settings are not changed, unless it is over the bus. -/
def Stimulus.isOverBus : Stimulus → Bool
  | .changeSetting _ => false
  | _ => true

/-- As long as settings are changed over the bus only, the acts of a session are such a history. -/
def TimedInvariant.storeHistory : TimedInvariant fun stimulus => stimulus.isOverBus = true where
  holds past power := StoreHistory (past.flatMap Act.storeEvents) power
  rested _ := True
  boot {past power} reason history := by
    refine ⟨?_, trivial⟩
    rw [List.flatMap_append, List.flatMap_singleton, Act.storeEvents, boot_eq_bootWith]
    exact history.boot _ reason
  off := .off
  round {past live} history := by
    refine ⟨?_, trivial⟩
    rw [List.flatMap_append, List.flatMap_singleton]
    exact history.round
  idle _ := trivial
  passes _ _ _ history := history.elsewhere rfl rfl
  passesOff {past hardware time} _ history :=
    @StoreHistory.around _ _ (fun hardware => { hardware with now := time }) history fun _ => rfl
  still outside history := history.around fun hardware => (outside.around hardware).1
  inputs {past live change} outside _ history := by
    rw [List.flatMap_append, List.flatMap_singleton, Act.storeEvents, List.append_nil]
    exact history.elsewhere rfl (outside live.hardware).1
  inputsOff outside history := history.around fun hardware => (outside hardware).1
  scratch {past power stimulus change} _ _ written history := by
    refine history.around fun hardware => ?_
    obtain ⟨scratch, same⟩ := written hardware
    rw [same]
  setting other := absurd other Bool.false_ne_true
  transfer _ history := history.elsewhere rfl rfl

open StoreEvent

/-- What may be relied on at some point of a history. -/
structure StoreHistory.Faithful (events : List StoreEvent) (power : Power) : Prop where
  /-- At any time, the changes tried since the last boot are the first that were called for since
  then, in the order of the calls. -/
  inOrder : ∀ earlier, earlier <+: events →
    tries (sinceBoot earlier) <+: calls (sinceBoot earlier)
  /-- While the controller runs, the others are on their way, and the client waits with the last of
  them at most. -/
  noneLost : ∀ live, power = .on live →
    calls (sinceBoot events) = tries (sinceBoot events) ++ live.ram.changes.toList ∧
      live.ram.changes.waiting.length ≤ 1
  /-- The next look of the store task tries each of them in its turn, and leaves none. -/
  goesOn : ∀ live, power = .on live → live.pollStore.ram.changes = {} ∧
    StoreHistory (events ++ live.ram.changes.toList.map (.tried · !live.hardware.flashFails))
      (.on live.pollStore)
  /-- A boot gives each setting the value that was stored last under its key, or its default if none
  was or if it cannot be read, whatever becomes of the other settings. -/
  restored : ∀ earlier fails loaded later, events = earlier ++ .booted fails loaded :: later →
    ∀ key, loaded.value key =
      if fails key then Settings.value {} key
      else (lastStored? earlier key).getD (Settings.value {} key)

theorem StoreHistory.faithful {events : List StoreEvent} {power : Power}
    (history : StoreHistory events power) : Faithful events power where
  inOrder earlier cut := by
    obtain ⟨before, prior⟩ := history.of_prefix cut
    obtain ⟨pending, same, -⟩ := prior.calls_eq
    exact ⟨pending, same.symm⟩
  noneLost live on := by
    obtain ⟨pending, same, here⟩ := history.calls_eq
    rw [here live on]
    exact ⟨same, history.length_waiting_le live on⟩
  goesOn live on := by
    subst on
    exact ⟨congrArg (·.ram.changes) live.pollStore_eq, history.pollStore⟩
  restored := by
    rintro earlier fails loaded later rfl key
    have cut : earlier ++ [.booted fails loaded] <+: earlier ++ .booted fails loaded :: later :=
      ⟨later, by rw [List.append_assoc, List.singleton_append]⟩
    obtain ⟨before, prior⟩ := history.of_prefix cut
    exact prior.loaded_eq key

/-- Settings survive restarts as they were stored. Whatever one client calls for from erased flash
on, whichever stores and fetches fail and whenever the controller is reset, changes are stored in
the order of the calls, none of them twice, and none is dropped while the controller keeps running,
also when the channel is full; and a boot finds what was stored last. In a session that begins with
erased flash, in which settings are changed over the bus, the acts are such a history: every write that
the host makes of a setting is a call, every round tries to store what it finds on its way, and every
boot loads the settings that it works with. -/
theorem settings_survive :
    (∀ events power, StoreHistory events power → StoreHistory.Faithful events power) ∧
    ∀ (hardware : Hardware) (timed : List Timed) (commands : List Session.Command),
      hardware.flash = {} →
      (∀ waiting ∈ timed, waiting.stimulus.Fits fun stimulus => stimulus.isOverBus = true) →
      (∀ command ∈ commands, command.Fits fun stimulus => stimulus.isOverBus = true) →
      let session : Session := ⟨.off hardware, timed⟩
      StoreHistory ((Session.acts commands session).flatMap Act.storeEvents)
        (session.executeAll commands).power := by
  refine ⟨fun events power history => history.faithful, ?_⟩
  intro hardware timed commands erased waiting fits
  exact TimedInvariant.storeHistory.recorded.holds_acts (.erased erased) waiting fits

/-- The host turns off power-on at boot, and then the controller is reset. -/
def turnsOff : List Session.Command :=
  [.apply (.boot .power), .apply (.transfer (.write [0x14, 0])), .apply (.boot .timeout)]

/-- Nine changes are called for, so that the last one waits for a place in the channel. The first is
stored, the second is not, and the others are lost when the controller is reset. The boot that
follows cannot read the stored revision. And in a session the host turns a setting off, before the
controller is reset. -/
theorem settings_survive_fullChannel :
    (∃ events live later fails loaded rebooted,
      StoreHistory events (.on live) ∧ live.ram.changes.waiting = [.hardwareVersion 0] ∧
      calls (sinceBoot events) = tries (sinceBoot events) ++ live.ram.changes.toList ∧
      later = [.tried (.autoPowerOn false) true, .tried (.longPress 1) false] ∧
      StoreHistory (events ++ later ++ [.booted fails loaded]) (.on rebooted) ∧
      loaded.value .autoPowerOn = .autoPowerOn false ∧
      loaded.value .longPress = Settings.value {} .longPress ∧
      loaded.value .hardwareVersion = Settings.value {} .hardwareVersion) ∧
    let events := (Session.acts turnsOff ⟨.off {}, []⟩).flatMap Act.storeEvents
    StoreHistory events (Session.executeAll ⟨.off {}, []⟩ turnsOff).power ∧
      calls events = [.autoPowerOn false] ∧
      lastStored? events .autoPowerOn = some (.autoPowerOn false) := by
  constructor
  · obtain ⟨events, live, waits, queue, works, unstored⟩ : ∃ events live,
        StoreHistory events (.on live) ∧
        live.ram.changes = ⟨none, [.autoPowerOn false, .longPress 1, .longPress 2, .longPress 3,
          .longPress 4, .longPress 5, .longPress 6, .longPress 7, .hardwareVersion 0]⟩ ∧
        live.hardware.flashFails = false ∧ events.filterMap stored? = [] := by
      have booted :=
        (StoreHistory.erased rfl : StoreHistory [] (.off {})).boot (fun _ => false) .power
      have begun := ((booted.call (by decide +kernel) (.autoPowerOn false)).call
        (by decide +kernel) (.longPress 1)).call (by decide +kernel) (.longPress 2)
      have going := ((begun.call (by decide +kernel) (.longPress 3)).call (by decide +kernel)
        (.longPress 4)).call (by decide +kernel) (.longPress 5)
      have filled := (going.call (by decide +kernel) (.longPress 6)).call (by decide +kernel)
        (.longPress 7)
      exact ⟨_, _, filled.call (by decide +kernel) (.hardwareVersion 0), by decide +kernel,
        by decide +kernel, by decide +kernel⟩
    have stored := waits.take.finish (congrArg (fun queue => queue.takeUp.taken) queue)
    rw [show live.takeChange.hardware.flashFails = false from works] at stored
    let before := live.takeChange.storeTaken
    let failing : Live := { before with hardware := { before.hardware with flashFails := true } }
    have broken : StoreHistory _ (.on failing) := stored.elsewhere rfl rfl
    have tried := broken.take.finish
      (congrArg (fun queue => queue.takeUp.finish.takeUp.taken) queue)
    rw [List.append_assoc] at tried
    have failed : StoreHistory (events ++ [.tried (.autoPowerOn false) true,
        .tried (.longPress 1) false]) (.on failing.takeChange.storeTaken) := tried
    have booted := failed.boot (fun key => key = .hardwareVersion) .timeout
    have loads := (settings_survive.1 _ _ booted).restored _ _ _ [] rfl
    have last (key : SettingKey) : lastStored? (events ++ [.tried (.autoPowerOn false) true,
        .tried (.longPress 1) false]) key =
          if key = .autoPowerOn then some (.autoPowerOn false) else none := by
      rw [lastStored?, List.filterMap_append, unstored]
      cases key <;> rfl
    exact ⟨events, live, _, _, _, _, waits, congrArg ChangeQueue.waiting queue,
      ((settings_survive.1 _ _ waits).noneLost live rfl).1, rfl, booted,
      (loads .autoPowerOn).trans (by rw [last]; rfl), (loads .longPress).trans (by rw [last]; rfl),
      loads .hardwareVersion⟩
  · have history := settings_survive.2 {} [] turnsOff rfl nofun (by simp [turnsOff,
      Session.Command.Fits, Stimulus.Fits, Stimulus.isOverBus])
    exact ⟨history, by decide +kernel, by decide +kernel⟩

end RailSequencer.Controller
