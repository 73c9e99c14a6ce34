import RailSequencer.Controller.Ram

/-!
# The power task on the controller

The controller answers the requests of the power task from its own pins, samples and
measurements. A task that has to wait is put away as a `PowerTask` and taken on when what it
waits for has come.
-/

namespace RailSequencer.Controller

/-- Input voltage in volts below which the processor must stay off. -/
def criticalVolts : Binary32 := (6 : Nat)

namespace Live

/-- Drive the pin of a rail. A rail without a pin is not written. -/
def driveRail (live : Live) (rail : Rail) (level : Level) : Live :=
  match pinOf? rail with
  | some pin => live.drive pin level
  | none => live

/-- Answer a request without letting time pass. A wait for lines that are not all asserted
fails at once. -/
def answerAtOnce (live : Live) : (request : Request) → Live × request.Answer
  | .drive rail level => (live.driveRail rail level, ())
  | .readLines => (live, live.ram.sampled.lines)
  | .waitForLines wanted _ =>
    (live, if live.ram.sampled.lines.contains wanted then .ok ()
      else .error (.signalTimeout (wanted.missing live.ram.sampled.lines)))
  | .sleep _ => (live, ())
  | .spin _ => (live, ())
  | .powerOnBlocked => (live, live.ram.volts.lt live.ram.threshold)
  | .shutdownWanted => (live, live.ram.volts.lt criticalVolts)
  | .buttonPressed => (live, live.ram.buttonPressed)
  | .allowIdle allowed => ({ live with ram := { live.ram with idleAllowed := allowed } }, ())
  | .notify .startup => (live.driveUsb .high, ())
  | .notify .shutdown => (live.driveUsb .low, ())
  | .notify _ => (live, ())

/-- Keep what a wait has left of the sampled lines. -/
def keepSampled (live : Live) (sampled : SampledLines) : Live :=
  { live with ram := { live.ram with sampled := sampled } }

/-- The power task hands its mailbox over to the others. -/
def handOver (live : Live) (memory : Memory) : Live := live.onMailbox fun _ => memory.mailbox

end Live

/-- How far a turn of the power task has come. -/
inductive Progress where
  | ended (memory : Memory) (turn : Turn)
  | waiting (task : PowerTask)

namespace PowerTask

/-- Take a turn as far as it goes without letting time pass. -/
def proceed : Task Turn → Live → Live × Progress
  | .done memory turn, live => (live.handOver memory, .ended memory turn)
  | .ask memory (.sleep us) resume, live =>
    (live.handOver memory,
      .waiting (.sleeping (live.now + us) memory fun mailbox => resume mailbox ()))
  | .ask memory (.waitForLines wanted timeoutUs) resume, live =>
    let handed := live.handOver memory
    match live.ram.sampled.look wanted with
    | (sampled, some result) =>
      proceed (resume memory.mailbox result) (handed.keepSampled sampled)
    | (sampled, none) =>
      (handed.keepSampled sampled,
        .waiting (.watching wanted (live.now + timeoutUs) memory resume))
  | .ask memory request resume, live =>
    let (answered, reply) := (live.handOver memory).answerAtOnce request
    proceed (resume answered.ram.mailbox reply) answered

/-- Begin a turn with what the power task had in memory and the mailbox that all share. -/
def beginTurn (live : Live) (memory : Memory) (state : PowerState) : Task Turn :=
  Program.turn live.ram.tree state { memory with mailbox := live.ram.mailbox }

/-- Turns that are taken at one look at the power task. Few states follow one another without
a delay; what is left over is taken up at the next look. -/
def turnsAtOnce : Nat := 64

/-- Take turn after turn, until the power task has to wait. A wake that came during a turn
starts another. -/
def serve : (turns : Nat) → Live × Progress → Live × PowerTask
  | _, (live, .waiting task) => (live, task)
  | 0, (live, .ended memory (.rest state)) => (live, .resting memory state)
  | 0, (live, .ended memory (.next state)) =>
    (live, .sleeping live.now memory fun mailbox =>
      Program.turn live.ram.tree state { memory with mailbox := mailbox })
  | turns + 1, (live, .ended memory (.next state)) =>
    serve turns (proceed (beginTurn live memory state) live)
  | turns + 1, (live, .ended memory (.rest state)) =>
    if live.ram.mailbox.woken then
      let taken := live.onMailbox fun mailbox => { mailbox with woken := false }
      serve turns (proceed (beginTurn taken memory state) taken)
    else
      (live, .resting memory state)

/-- Keep what the power task waits for. -/
def putAway (progress : Live × PowerTask) : Live :=
  { progress.1 with ram := { progress.1.ram with power := progress.2 } }

/-- What the power task waits for has come. -/
def isReady (live : Live) : Bool :=
  match live.ram.power with
  | .sleeping wakeAt _ _ => wakeAt ≤ live.now
  | .watching _ deadline _ _ => live.ram.sampled.isReady deadline live.now
  | .resting _ _ => live.ram.mailbox.woken

/-- One look at the power task. -/
def poll (live : Live) : Live :=
  if isReady live then
    match live.ram.power with
    | .sleeping _ _ resume =>
      putAway (serve turnsAtOnce (proceed (resume live.ram.mailbox) live))
    | .watching wanted deadline _ resume =>
      match live.ram.sampled.lookAgain wanted deadline live.now with
      | (sampled, some result) =>
        putAway (serve turnsAtOnce
          (proceed (resume live.ram.mailbox result) (live.keepSampled sampled)))
      | (sampled, none) => live.keepSampled sampled
    | .resting memory state => putAway (serve turnsAtOnce (live, .ended memory (.rest state)))
  else
    live

/-- Start the power task: pick a state, make it known, and take the first turns. -/
def launch (live : Live) (boot : BootInfo) : Live :=
  let program : Program Turn := do
    let state ← Program.start live.ram.tree boot
    Program.publish state
    Program.turn live.ram.tree state
  putAway (serve turnsAtOnce (proceed (program { mailbox := live.ram.mailbox }) live))

end PowerTask

end RailSequencer.Controller
