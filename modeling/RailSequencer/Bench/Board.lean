import RailSequencer.PowerTree.Revisions
import RailSequencer.Program

/-!
# A simulated board

A bench holds a board that behaves as told: its supplies follow their enables as on some
revision of the power tree, any input line can be held low or high, and the charger and the
button answer as set. Every call that the power task makes on the board is recorded.
-/

namespace RailSequencer.Bench

/-- A charger that refuses some polls. -/
structure Charger where
  /-- Polls that it still refuses. A negative number never runs out. -/
  busyPolls : Int := 0
  wantsShutdown : Bool := false
deriving DecidableEq, Repr

namespace Charger

/-- One poll: is power-on refused, and how does the charger answer from now on? -/
def poll (charger : Charger) : Charger × Bool :=
  if 0 < charger.busyPolls then
    ({ charger with busyPolls := charger.busyPolls - 1 }, true)
  else
    (charger, charger.busyPolls != 0)

end Charger

/-- Something that happens to the board, or that another task does. -/
inductive Action where
  | forceShutdown
  | exitHardOff
  | requestReset (kind : ResetKind)
  /-- The button moves, and its task reports it. -/
  | powerButton (pressed : Bool)
  /-- The button's task reports a move that the board does not show. -/
  | buttonEvent (pressed : Bool)
  /-- The button moves, and nobody reports it. -/
  | buttonLevel (pressed : Bool)
  | lid (isOpen : Bool)
  | setLongPress (ms : Nat)
  | wake
  | timerSchedule (ms : Nat)
  | timerCancel
  | timerDefer (ms : Int)
  | suspendLine (deasserted : Bool)
  | stuckLow (lines : SignalMask)
  | stuckHigh (lines : SignalMask)
  | charger (charger : Charger)
  | setLevel (rail : Rail) (level : Level)
  /-- Do something `ms` milliseconds from now. -/
  | after (ms : Nat) (action : Action)
deriving DecidableEq, Repr

namespace Action

/-- Number of actions in an action, itself included. -/
def size : Action → Nat
  | .after _ action => action.size + 1
  | _ => 1

end Action

/-- An action that waits for its time. -/
structure Timed where
  due : Nat
  action : Action
deriving DecidableEq, Repr

/-- What a bench records. -/
inductive Event where
  | drove (rail : Rail) (level : Level)
  | slept (us : Nat)
  | watched (lines : SignalMask) (timeoutUs : Nat)
  | powerOnBlocked (answer : Bool)
  | shutdownWanted (answer : Bool)
  | buttonPressed (answer : Bool)
  | allowedIdle (allowed : Bool)
  /-- The subscriber with this place in the list was told. -/
  | notified (subscriber : Nat) (event : HookEvent)
  | spun (ns : Nat)
  /-- An action was done at its time. -/
  | timed (action : Action)
deriving DecidableEq, Repr

/-- What stays the same for the life of a bench. -/
structure Setup where
  /-- The revision whose supplies the board has; without one no supply ever comes up. -/
  supplies : Option Revision := none
  /-- For each subscriber, what it does when told of an event. -/
  subscribers : List (List (HookEvent × Action)) := []
deriving Repr

end Bench

/-- A simulated board at some instant, with the mailbox that its power task shares. -/
structure Bench where
  setup : Bench.Setup := {}
  now : Nat := 0
  mailbox : Mailbox := {}
  /-- The level of every output that has been driven. -/
  levels : RailAssignment (Option Level) := .constant none
  suspendDeasserted : Bool := true
  stuckLow : SignalMask := .empty
  stuckHigh : SignalMask := .empty
  charger : Bench.Charger := {}
  buttonPressed : Bool := false
  /-- What the power task last said about low-power idle. -/
  idleAllowed : Option Bool := none
  /-- Actions whose time has not come, in the order in which they were added. -/
  timed : List Bench.Timed := []
  /-- The record, newest event first. -/
  record : List Bench.Event := []

namespace Bench

/-- Supplies of a revision that are good at the given levels. A supply whose enable is active
low is good only when the enable has been driven. -/
def suppliesGood (levels : RailAssignment (Option Level)) : Revision → SignalMask
  | .v0 | .v1 =>
    supply .pp5000Good .pp5000En .high |>.union (supply .apGood .apCoreEn .high)
      |>.union (supply .sysGood .pp3300S0EnL .low)
  | .v2 =>
    supply .pp1250S3Good .pp1250S3En .high |>.union (supply .pp900S0Good .pp900S0En .high)
      |>.union (supply .apGood .pp1800S0En .high)
where
  supply (line : SignalMask) (enable : Rail) (level : Level) : SignalMask :=
    if levels.get enable = some level then line else .empty

/-- The input lines: the supplies, with stuck lines on top, high before low, and the suspend
line last of all. -/
def lines (bench : Bench) : SignalMask :=
  let good := match bench.setup.supplies with
    | none => SignalMask.empty
    | some revision => suppliesGood bench.levels revision
  let seen := ((good.union bench.stuckHigh).diff bench.stuckLow).diff .suspendDeasserted
  if bench.suspendDeasserted then seen.union .suspendDeasserted else seen

def log (bench : Bench) (event : Event) : Bench := { bench with record := event :: bench.record }

/-- Change the mailbox as another task would. -/
def onMailbox (bench : Bench) (change : Mailbox → Mailbox) : Bench :=
  { bench with mailbox := change bench.mailbox }

def pollTimer (bench : Bench) : Bench := bench.onMailbox fun mailbox => mailbox.pollTimer bench.now

/-- Do an action now. -/
def act (bench : Bench) : Action → Bench
  | .forceShutdown => bench.onMailbox Mailbox.requestShutdown
  | .exitHardOff => bench.onMailbox Mailbox.requestPowerOn
  | .requestReset kind => bench.onMailbox fun mailbox => mailbox.requestReset kind
  | .powerButton pressed =>
    { bench with buttonPressed := pressed }.onMailbox fun mailbox => mailbox.powerButton pressed
  | .buttonEvent pressed => bench.onMailbox fun mailbox => mailbox.powerButton pressed
  | .buttonLevel pressed => { bench with buttonPressed := pressed }
  | .lid isOpen => bench.onMailbox fun mailbox => mailbox.lid isOpen
  | .setLongPress ms => bench.onMailbox fun mailbox => mailbox.setLongPress ms
  | .wake => bench.onMailbox Mailbox.wake
  | .timerSchedule ms => bench.onMailbox fun mailbox => mailbox.schedule (ms * Timing.usPerMs)
  | .timerCancel => bench.onMailbox Mailbox.cancelTimer
  | .timerDefer ms => bench.onMailbox fun mailbox =>
    { mailbox with shutdownTimer := mailbox.shutdownTimer.defer ms }
  | .suspendLine deasserted => { bench with suspendDeasserted := deasserted }
  | .stuckLow lines => { bench with stuckLow := lines }
  | .stuckHigh lines => { bench with stuckHigh := lines }
  | .charger charger => { bench with charger := charger }
  | .setLevel rail level => { bench with levels := bench.levels.set rail (some level) }
  | .after ms action =>
    { bench with timed := bench.timed ++ [⟨bench.now + ms * Timing.usPerMs, action⟩] }

/-- Tell one subscriber of an event: it is recorded, and then does what it does on that
event. -/
def tell (event : HookEvent) (bench : Bench) (subscriber : Nat)
    (reactions : List (HookEvent × Action)) : Bench :=
  reactions.foldl
    (fun current reaction => if reaction.1 = event then current.act reaction.2 else current)
    (bench.log (.notified subscriber event))

/-- Tell every subscriber of an event, in the order of the list. -/
def tellAll (event : HookEvent) (bench : Bench) : Bench :=
  bench.setup.subscribers.zipIdx.foldl
    (fun current subscriber => tell event current subscriber.2 subscriber.1) bench

end Bench

end RailSequencer
