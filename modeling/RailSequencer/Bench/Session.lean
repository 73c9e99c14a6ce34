import RailSequencer.Bench.Execution

/-!
# Sessions on a bench

A session is a bench with one sequencer on it and a list of commands to carry out. Single
steps run to their end; the endless loop of the power task can be started, taken further and
stopped, and while it is there no other command may use the sequencer or the board.
-/

namespace RailSequencer.Bench

/-- A condition on the input lines that ends a replay early. -/
inductive LineCondition where
  | contains (lines : SignalMask)
  | intersects (lines : SignalMask)
deriving DecidableEq, Repr

def LineCondition.toAbort : LineCondition → AbortCondition
  | .contains wanted => fun _ lines => lines.contains wanted
  | .intersects wanted => fun _ lines => lines.intersects wanted

/-- What a session can be told to do. -/
inductive Command where
  | act (action : Action)
  | start (boot : BootInfo)
  /-- One step, from the current state unless another is given. -/
  | step (state : Option PowerState)
  /-- Step until a state is reached, `most` times at most. -/
  | drive (target : Option PowerState) (most : Nat)
  /-- Start the power task and let time pass. -/
  | run (state : Option PowerState) (forMs : Nat)
  | continue (forMs : Nat)
  /-- End the power task, if it is there, and take the published state for the current one. -/
  | stop
  | reset
  | resetBlocking
  | advance (ms : Nat)
  | isIn (mask : StateMask)
  /-- Tell the power tree of the sequencer. -/
  | describe
  | hasLines (lines : SignalMask)
  | waitForLines (lines : SignalMask) (timeoutUs : Nat)
  | replay (table : List RailWrite) (abort : Option LineCondition)
  | sleepAbortable (ms : Nat) (abort : Option LineCondition)
deriving Repr

/-- Why a command was not carried out. -/
inductive Refusal where
  | busy
  | notRunning
deriving DecidableEq, Repr

def Refusal.message : Refusal → String
  | .busy => "run in progress"
  | .notRunning => "no run in progress"

/-- What a command answers. -/
inductive Reply where
  | nothing
  | state (state : PowerState)
  | path (states : List PowerState)
  | truth (value : Bool)
  | tree (tree : PowerTree)
  | waited (result : Except PowerError Unit)
  | replayed (outcome : Outcome)
  | refused (refusal : Refusal)

/-- A bench with a sequencer on it. -/
structure Session where
  bench : Bench
  tree : PowerTree
  /-- The memory of the sequencer between two commands. Its mailbox is that of the bench. -/
  memory : Memory := {}
  current : PowerState := .g3
  run : Option Run := none

/-- What a session shows after each command. -/
structure Snapshot where
  nowUs : Nat
  published : PowerState
  inhibited : Bool
  longPressUs : Nat
  /-- The flags of the sequencer, out of sight during a run. -/
  flags : Option (Bool × Bool)
  lines : SignalMask
  idleAllowed : Option Bool

namespace Session

/-- A session on a fresh board. A board that is `powered` has every rail where the way from
S5 up to S0 leaves it, reset released. -/
def create (tree : PowerTree) (setup : Setup) (powered : Bool) (prior : List Action) : Session :=
  let blank : RailAssignment (Option Level) := .constant none
  let raised := (tree.tables.s5s3 ++ tree.tables.s3s0).foldl
    (fun levels write => levels.set write.rail (some write.level)) blank
  let levels := if powered then raised.set .sysRstL (some .high) else blank
  let bench := prior.foldl act { setup := setup, levels := levels }
  { bench := bench.pollTimer, tree := tree }

/-- Run a piece of the power task to its end. -/
def perform {α : Type} (session : Session) (program : Program α) : Session × α :=
  let memory := { session.memory with mailbox := session.bench.mailbox }
  let (bench, memory, result) := (program memory).run board session.bench
  ({ session with bench := bench.handOver memory.mailbox, memory := memory }, result)

/-- One step of the sequencer. -/
def advanceState (session : Session) (state : PowerState) : Session × PowerState :=
  let (stepped, next) := session.perform (Program.step session.tree state)
  ({ stepped with current := next }, next)

/-- Step until `target` is reached, listing the states that follow the current one. -/
def driveTo (target : Option PowerState) : (most : Nat) → Session → Session × List PowerState
  | 0, session => (session, [])
  | most + 1, session =>
    if some session.current = target then
      (session, [])
    else
      let (stepped, next) := session.advanceState session.current
      let (reached, path) := driveTo target most stepped
      (reached, next :: path)

/-- Keep what a run has come to. -/
def keepRun (session : Session) (progress : Bench × Run) : Session :=
  { session with bench := progress.1, run := some progress.2 }

/-- The time `ms` milliseconds from now. -/
def timeIn (session : Session) (ms : Nat) : Nat := session.bench.now + ms * Timing.usPerMs

/-- Carry out a command that uses the sequencer or the board. -/
def useSequencer (session : Session) : Command → Session × Reply
  | .start boot =>
    let (started, state) := session.perform (Program.start session.tree boot)
    ({ started with current := state }, .state state)
  | .step state =>
    let (stepped, next) := session.advanceState (state.getD session.current)
    (stepped, .state next)
  | .drive target most =>
    let (reached, path) := session.driveTo target most
    (reached, .path (session.current :: path))
  | .run state forMs =>
    let memory := { session.memory with mailbox := session.bench.mailbox }
    (session.keepRun (startRun session.tree (session.timeIn forMs) session.bench memory
      (state.getD session.current)), .nothing)
  | .reset => ((session.perform Program.pulseReset).1, .nothing)
  | .resetBlocking => ((session.perform Program.pulseResetBlocking).1, .nothing)
  | .describe => (session, .tree session.tree)
  | .hasLines lines => (session, .truth (session.bench.lines.contains lines))
  | .waitForLines lines timeoutUs =>
    let (waited, result) := session.perform (Program.ask (.waitForLines lines timeoutUs))
    (waited, .waited result)
  | .replay table none => ((session.perform (Program.replay table)).1, .replayed .completed)
  | .replay table (some condition) =>
    let (replayed, outcome) :=
      session.perform (Program.replayAbortable condition.toAbort table)
    (replayed, .replayed outcome)
  | .sleepAbortable ms condition =>
    let abort := match condition with
      | none => fun _ _ => false
      | some condition => condition.toAbort
    let (slept, outcome) := session.perform (Program.sleepAbortable abort ms)
    (slept, .replayed outcome)
  | _ => (session, .nothing)

/-- Would a command take the sequencer or its board away from the power task? A drive that
takes no step, because it is where it should be or may take none, leaves both alone. -/
def needsSequencer (session : Session) : Command → Bool
  | .drive target most => most ≠ 0 && some session.current ≠ target
  | .act _ | .advance _ | .isIn _ | .continue _ | .stop => false
  | _ => true

/-- Carry out a command. -/
def carryOut (session : Session) : Command → Session × Reply
  | .act action => ({ session with bench := session.bench.act action }, .nothing)
  | .advance ms => ({ session with bench := session.bench.passUntil (session.timeIn ms) }, .nothing)
  | .isIn mask => (session, .truth (session.bench.mailbox.isIn mask))
  | .continue forMs =>
    match session.run with
    | none => (session, .refused .notRunning)
    | some run =>
      (session.keepRun (continueRun session.tree (session.timeIn forMs) session.bench run),
        .nothing)
  | .stop =>
    ({ session with
        run := none
        memory := (session.run.map Run.memory).getD session.memory
        current := session.bench.mailbox.published }, .nothing)
  | command =>
    if session.run.isSome && session.needsSequencer command then (session, .refused .busy)
    else session.useSequencer command

/-- Carry out a command, with a record of its own, and look at the shutdown timer. -/
def execute (session : Session) (command : Command) : Session × Reply :=
  let fresh := { session with bench := { session.bench with record := [] } }
  let (executed, reply) := fresh.carryOut command
  ({ executed with bench := executed.bench.pollTimer }, reply)

def snapshot (session : Session) : Snapshot where
  nowUs := session.bench.now
  published := session.bench.mailbox.published
  inhibited := session.bench.mailbox.inhibited
  longPressUs := session.bench.mailbox.longPressUs
  flags := if session.run.isSome then none
    else some (session.memory.forcingShutdown, session.memory.resetHeld)
  lines := session.bench.lines
  idleAllowed := session.bench.idleAllowed

end Session

end RailSequencer.Bench
