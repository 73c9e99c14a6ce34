import RailSequencer.Binary32
import RailSequencer.Timing

/-!
# Settings of the controller

A setting has up to four copies: the working copy, changes that wait to be stored, the store
in flash, and whatever a part of the controller took from the working copy. The working copy
changes at once; changes are stored later, one by one and in order. At boot the working copy
is read back from flash, where a setting that is missing or cannot be read gets its default.
-/

namespace RailSequencer.Controller

/-- The stored settings. -/
inductive SettingKey where
  | autoPowerOn
  | longPress
  | vinThreshold
  | hardwareVersion
deriving DecidableEq, Repr

/-- The working copy of the settings. -/
structure Settings where
  /-- Power the processor on at boot. -/
  autoPowerOn : Bool := true
  /-- Hold time of the power button for a forced shutdown. -/
  longPressMs : UInt32 := UInt32.ofNat Timing.defaultLongPressMs
  /-- Input voltage below which the processor may not power on. -/
  vinThreshold : Binary32 := (9 : Nat)
  /-- Selects the power tree at boot. -/
  hardwareVersion : UInt8 := 2
deriving DecidableEq, Repr

/-- A new value for one setting. -/
inductive SettingChange where
  | autoPowerOn (value : Bool)
  | longPress (ms : UInt32)
  | vinThreshold (value : Binary32)
  | hardwareVersion (value : UInt8)
deriving DecidableEq, Repr

def SettingChange.key : SettingChange → SettingKey
  | .autoPowerOn _ => .autoPowerOn
  | .longPress _ => .longPress
  | .vinThreshold _ => .vinThreshold
  | .hardwareVersion _ => .hardwareVersion

/-- The settings after a change. -/
def Settings.change (settings : Settings) : SettingChange → Settings
  | .autoPowerOn value => { settings with autoPowerOn := value }
  | .longPress ms => { settings with longPressMs := ms }
  | .vinThreshold value => { settings with vinThreshold := value }
  | .hardwareVersion value => { settings with hardwareVersion := value }

/-- The store in flash: for each key the change last stored under it. A store that was never
usable cannot be read or written. -/
structure Flash where
  usable : Bool := true
  stored : List SettingChange := []
deriving DecidableEq, Repr

namespace Flash

/-- The address behind the last byte of flash, where the store ends. -/
def settingsEnd : Nat := 2 * 1024 * 1024

/-- The first address of the store, which takes the last 64 kilobytes. -/
def settingsStart : Nat := settingsEnd - 64 * 1024

/-- The value stored under a key, if there is one. -/
def find? (flash : Flash) (key : SettingKey) : Option SettingChange :=
  flash.stored.find? fun change => change.key = key

/-- Store a value under its key, in place of an older one. -/
def store (flash : Flash) (change : SettingChange) : Flash :=
  if flash.usable then
    { flash with stored := change :: flash.stored.filter fun old => old.key ≠ change.key }
  else
    flash

/-- What is read under a key, if anything is. A key for which `fails` holds cannot be read this
time. -/
def fetch? (flash : Flash) (fails : SettingKey → Bool) (key : SettingKey) : Option SettingChange :=
  if flash.usable && !fails key then flash.find? key else none

/-- Read every setting back. -/
def load (flash : Flash) (fails : SettingKey → Bool) : Settings :=
  [SettingKey.autoPowerOn, .longPress, .vinThreshold, .hardwareVersion].foldl
    (fun settings key =>
      match flash.fetch? fails key with
      | some change => settings.change change
      | none => settings)
    {}

/-- A stored value is found under its own key, and every other key keeps its value. -/
theorem find?_store (flash : Flash) (change : SettingChange) (key : SettingKey)
    (usable : flash.usable = true) :
    (flash.store change).find? key =
      if change.key = key then some change else flash.find? key := by
  simp only [store, usable, if_true, find?, List.find?_cons]
  by_cases same : change.key = key
  · simp [same]
  · simp only [same, decide_false, if_false, List.find?_filter]
    congr 1
    funext old
    by_cases isKey : old.key = key
    · simp [isKey, Ne.symm same]
    · simp [isKey]

end Flash

/-- Changes on their way to flash: the one that the store task has taken up, and those that were sent
after it. The first of these are in a channel of limited size, behind which the senders of the others
wait. -/
structure ChangeQueue where
  taken : Option SettingChange := none
  sent : List SettingChange := []
deriving DecidableEq, Repr

namespace ChangeQueue

/-- Places in the channel. -/
def capacity : Nat := 8

/-- The changes whose senders wait for a place in the channel. -/
def waiting (queue : ChangeQueue) : List SettingChange := queue.sent.drop capacity

/-- The changes in the order in which they were sent. -/
def toList (queue : ChangeQueue) : List SettingChange := queue.taken.toList ++ queue.sent

/-- A change that is sent now gets a place in the channel. -/
def hasRoom (queue : ChangeQueue) : Bool := queue.sent.length < capacity

/-- Send a change. It takes a place in the channel, or waits for one. -/
def send (queue : ChangeQueue) (change : SettingChange) : ChangeQueue :=
  { queue with sent := queue.sent ++ [change] }

/-- Send a change without waiting. It takes a place in the channel, or is lost. -/
def offer (queue : ChangeQueue) (change : SettingChange) : ChangeQueue :=
  if queue.hasRoom then queue.send change else queue

/-- Take up the oldest change in the channel, unless one has been taken up. Its place goes to the first
that waits. -/
def takeUp (queue : ChangeQueue) : ChangeQueue :=
  match queue.taken, queue.sent with
  | none, change :: rest => ⟨some change, rest⟩
  | _, _ => queue

/-- Be done with the change that has been taken up. -/
def finish (queue : ChangeQueue) : ChangeQueue := { queue with taken := none }

theorem toList_send (queue : ChangeQueue) (change : SettingChange) :
    (queue.send change).toList = queue.toList ++ [change] :=
  (List.append_assoc ..).symm

/-- A change that is taken up stays in its turn. -/
theorem toList_takeUp (queue : ChangeQueue) : queue.takeUp.toList = queue.toList := by
  obtain ⟨taken, sent⟩ := queue
  cases taken with
  | some change => rfl
  | none => cases sent <;> rfl

/-- The change that has been taken up is the oldest. -/
theorem toList_finish (queue : ChangeQueue) :
    queue.toList = queue.taken.toList ++ queue.finish.toList := rfl

/-- Where nothing is on its way, nothing has been taken up or sent. -/
theorem eq_of_toList_eq_nil {queue : ChangeQueue} (empty : queue.toList = []) : queue = {} := by
  obtain ⟨taken, sent⟩ := queue
  obtain ⟨none, rfl⟩ := List.append_eq_nil_iff.mp empty
  obtain rfl := Option.toList_eq_nil_iff.mp none
  rfl

/-- While nobody waits, one sender at most begins to. -/
theorem length_waiting_send {queue : ChangeQueue} (free : queue.waiting = [])
    (change : SettingChange) : (queue.send change).waiting.length ≤ 1 := by
  have fits : queue.sent.length ≤ capacity := List.drop_eq_nil_iff.mp free
  rw [waiting, send, List.length_drop, List.length_append, List.length_singleton]
  omega

theorem length_waiting_takeUp (queue : ChangeQueue) :
    queue.takeUp.waiting.length ≤ queue.waiting.length := by
  obtain ⟨taken, sent⟩ := queue
  cases taken with
  | some change => exact Nat.le_refl _
  | none =>
    cases sent with
    | nil => exact Nat.le_refl _
    | cons change rest =>
      simp only [takeUp, waiting, List.length_drop, List.length_cons]
      omega

end ChangeQueue

end RailSequencer.Controller
