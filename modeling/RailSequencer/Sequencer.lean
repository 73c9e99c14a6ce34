import RailSequencer.Replay

/-!
# The power sequencer

`start` picks the first state, `step` takes the processor from one state to the next, and
`turn` is one turn of the endless loop of the power task: serve a reset request, take a step,
and make the new state known or report that there is nothing left to do.

The flags of the memory are written here and nowhere else. Requests from elsewhere are taken
from the mailbox at the top of a step, and once more after the wait of S0, during which they
may arrive unseen.
-/

namespace RailSequencer

/-- What the controller knows about how it came out of reset. -/
structure BootInfo where
  /-- The controller restarted in place, so the processor may still be running. -/
  jumped : Bool := false
  /-- The processor is to stay off. -/
  keepOff : Bool := false
  /-- Power on at boot unless told to stay off. -/
  autoPowerOn : Bool := false
deriving DecidableEq, Repr

/-- The two ways in which a turn of the power task ends. -/
inductive Turn where
  /-- Go on with `state` at once. -/
  | next (state : PowerState)
  /-- Nothing changed in a stable state: go on with `state` when woken. -/
  | rest (state : PowerState)
deriving DecidableEq, Repr

namespace Program

def publish (state : PowerState) : Program Unit :=
  onMailbox fun mailbox => { mailbox with published := state }

/-- Take a shutdown request, if there is one, into the flag that acts on it. -/
def takeShutdownRequest : Program Unit :=
  modify fun memory =>
    { memory with
      forcingShutdown := memory.forcingShutdown || memory.mailbox.shutdownRequested
      mailbox := { memory.mailbox with shutdownRequested := false } }

/-- Take a power-on request, and tell whether there was one. -/
def takePowerOnRequest : Program Bool := do
  let memory ← read
  onMailbox fun mailbox => { mailbox with powerOnRequested := false }
  return memory.mailbox.powerOnRequested

/-- Take a reset request, if there is one. -/
def takeResetRequest : Program (Option ResetKind) := do
  let memory ← read
  onMailbox fun mailbox => { mailbox with resetRequested := none }
  return memory.mailbox.resetRequested

/-- Shut down from inside the sequencer. -/
def forceShutdown : Program Unit :=
  modify fun memory => { memory with forcingShutdown := true }

/-- Pick the state to start from. After a restart in place with every input of S0 asserted
the processor is left alone; otherwise it starts hard off, and asks to leave that state at
once when it is to power on by itself. -/
def start (tree : PowerTree) (boot : BootInfo) : Program PowerState := do
  publish .g3
  if boot.jumped then
    let lines ← ask .readLines
    if lines.contains tree.allS0 then
      ask (.allowIdle false)
      publish .s0
      return .s0
  else if boot.autoPowerOn && !boot.keepOff then
    onMailbox Mailbox.requestPowerOn
  publish .g3
  return .g3

/-- Poll the charger until it lets the processor power on, with `retries` pauses between
polls left. The answer tells whether it did. -/
def pollCharger : (retries : Nat) → Program Bool
  | 0 => return !(← ask .powerOnBlocked)
  | retries + 1 => do
    if ← ask .powerOnBlocked then
      sleepMs Timing.chargerRetryMs
      pollCharger retries
    else
      return true

/-- Is there a reason to leave S0: a lost supply, a shutdown, or a wish to suspend? -/
def leavesS0 (tree : PowerTree) : Program Bool := do
  let lines ← ask .readLines
  let memory ← read
  return !lines.contains tree.pgoodS3 || memory.forcingShutdown ||
    !lines.contains .suspendDeasserted

/-- Stay in S0 while nothing speaks against it. The debounced lines get a window to come
back before they do. -/
def stepS0 (tree : PowerTree) : Program PowerState := do
  if ← leavesS0 tree then return .s0s3
  match tree.debounce with
  | none => return .s0
  | some lines =>
    match ← ask (.waitForLines lines Timing.debounceUs) with
    | .error _ => return .s0s3
    | .ok () =>
      takeShutdownRequest
      if ← leavesS0 tree then return .s0s3 else return .s0

/-- Leave hard off, if the charger agrees. A charger that may be starting up without a
battery is given time. -/
def stepG3S5 : Program PowerState := do
  modify fun memory => { memory with forcingShutdown := false }
  let ready ← pollCharger Timing.chargerRetries
  let refused ← ask .shutdownWanted
  if refused || !ready then
    onMailbox fun mailbox => { mailbox with inhibited := true }
    forceShutdown
    return .g3
  else
    onMailbox fun mailbox => { mailbox with inhibited := false }
    return .s5

/-- Bring up the supplies of S3. The reset line counts as held from here to the resume. -/
def stepS5S3 (tree : PowerTree) : Program PowerState := do
  replay tree.tables.s5s3
  modify fun memory => { memory with resetHeld := true }
  match ← ask (.waitForLines tree.pgoodS3 Timing.supplyTimeoutUs) with
  | .error _ =>
    forceShutdown
    return .s3s5
  | .ok () =>
    ask (.notify .startup)
    return .s3

/-- Bring up the supplies of S0, after which a held reset is released. -/
def stepS3S0 (tree : PowerTree) : Program PowerState := do
  replay tree.tables.s3s0
  if (← read).resetHeld then
    sleepMs Timing.resetReleaseMs
    ask (.drive .sysRstL .high)
    modify fun memory => { memory with resetHeld := false }
  match ← ask (.waitForLines tree.pgoodS0 Timing.supplyTimeoutUs) with
  | .error _ =>
    forceShutdown
    return .s3s0
  | .ok () =>
    ask (.notify .resume)
    ask (.allowIdle false)
    return .s0

/-- A suspend is called off when the processor no longer asks for it, unless a shutdown was
under way when it began or has been requested since. -/
def suspendCancelled (forcing : Bool) : AbortCondition := fun mailbox lines =>
  !forcing && !mailbox.shutdownRequested && lines.contains .suspendDeasserted

/-- The end of a suspend. A button that is still held has waited for its hold time; now the
processor is powered off right away. -/
def settleS3 : Program PowerState := do
  ask (.allowIdle true)
  if ← ask .buttonPressed then
    forceShutdown
    onMailbox Mailbox.cancelTimer
  return .s3

/-- Suspend, looking all the way down whether the processor has changed its mind. -/
def stepS0S3 (tree : PowerTree) : Program PowerState := do
  ask (.notify .suspend)
  let cancelled := suspendCancelled (← read).forcingShutdown
  match ← sleepAbortable cancelled Timing.suspendGraceMs with
  | .aborted => return .s3s0
  | .completed =>
    match ← replayAbortable cancelled tree.tables.s0s3 with
    | .aborted => return .s3s0
    | .completed => settleS3

/-- What a step does in each state. -/
def handle (tree : PowerTree) : PowerState → Program PowerState
  | .g3 => do
    if ← takePowerOnRequest then return .g3s5 else return .g3
  | .s5 => do
    if (← read).forcingShutdown then return .s5g3 else return .s5s3
  | .s3 => do
    let lines ← ask .readLines
    if !lines.contains tree.pgoodS3 || (← read).forcingShutdown then
      return .s3s5
    else if lines.contains .suspendDeasserted then
      return .s3s0
    else
      return .s3
  | .s0 => stepS0 tree
  | .g3s5 => stepG3S5
  | .s5s3 => stepS5S3 tree
  | .s3s0 => stepS3S0 tree
  | .s0s3 => stepS0S3 tree
  | .s3s5 => do
    ask (.notify .shutdown)
    replay tree.tables.s3s5
    return .s5
  | .s5g3 => return .g3

/-- One iteration of the sequencer, which returns the next state. -/
def step (tree : PowerTree) (state : PowerState) : Program PowerState := do
  takeShutdownRequest
  handle tree state

/-- Serve a reset request, if there is one. -/
def serveReset : Program Unit := do
  if (← takeResetRequest).isSome then pulseReset

/-- Make the outcome of a step from `state` known. -/
def conclude (state next : PowerState) : Program Turn := do
  if next ≠ state then
    publish next
    return .next next
  else if next.isStable then
    return .rest next
  else
    return .next next

/-- One turn of the power task from `state`. -/
def turn (tree : PowerTree) (state : PowerState) : Program Turn := do
  serveReset
  let next ← step tree state
  conclude state next

end Program

end RailSequencer
