import RailSequencer.Bench.Clock
import RailSequencer.Board
import RailSequencer.Sequencer

/-!
# Running tasks on a bench

A bench answers every request, and lets time pass where a request takes time; so it is a board,
on which a task runs to its end. `proceed` runs a task up to a time limit: a sleep or a wait
that would pass the limit leaves it suspended there, and `resume` takes it on from that point.
-/

namespace RailSequencer.Bench

/-- Has a wait for input lines that began at `since` come to an end? -/
def waitResult? (bench : Bench) (wanted : SignalMask) (since timeoutUs : Nat) :
    Option (Except PowerError Unit) :=
  if bench.lines.contains wanted then
    some (.ok ())
  else if since + timeoutUs ≤ bench.now then
    some (.error (.signalTimeout (wanted.missing bench.lines)))
  else
    none

/-- Looks that a wait takes at most, one at its beginning and one after each millisecond. -/
def looks (timeoutUs : Nat) : Nat := timeoutUs / Timing.usPerMs + 2

/-- Wait for input lines, looking at them every millisecond. -/
def watch (wanted : SignalMask) (since timeoutUs : Nat) :
    (looks : Nat) → Bench → Bench × Except PowerError Unit
  | 0, bench => (bench, .error (.signalTimeout (wanted.missing bench.lines)))
  | looks + 1, bench =>
    match bench.waitResult? wanted since timeoutUs with
    | some result => (bench, result)
    | none => watch wanted since timeoutUs looks (bench.passUntil (bench.now + Timing.usPerMs))

/-- Answer a request, letting as much time pass as it takes. -/
def answer (bench : Bench) : (request : Request) → Bench × request.Answer
  | .drive rail level =>
    ({ bench with levels := bench.levels.set rail (some level) }.log (.drove rail level), ())
  | .readLines => (bench, bench.lines)
  | .waitForLines wanted timeoutUs =>
    watch wanted bench.now timeoutUs (looks timeoutUs) (bench.log (.watched wanted timeoutUs))
  | .sleep us => ((bench.log (.slept us)).passUntil (bench.now + us), ())
  | .spin us => (bench.log (.spun (us * 1000)), ())
  | .powerOnBlocked =>
    let (charger, blocked) := bench.charger.poll
    ({ bench with charger := charger }.log (.powerOnBlocked blocked), blocked)
  | .shutdownWanted =>
    (bench.log (.shutdownWanted bench.charger.wantsShutdown), bench.charger.wantsShutdown)
  | .buttonPressed => (bench.log (.buttonPressed bench.buttonPressed), bench.buttonPressed)
  | .allowIdle allowed =>
    ({ bench with idleAllowed := some allowed }.log (.allowedIdle allowed), ())
  | .notify event => (bench.tellAll event, ())

/-- The mailbox passes to the bench with each request. -/
def handOver (bench : Bench) (mailbox : Mailbox) : Bench := { bench with mailbox := mailbox }

/-- A bench as a board. -/
def board : Board Bench where
  answer request mailbox bench :=
    let (answered, reply) := (bench.handOver mailbox).answer request
    (answered, answered.mailbox, reply)

/-- A task that waits for a time which has not come. -/
inductive Suspension (α : Type) where
  /-- A sleep that ends at `wakeAt`. -/
  | sleeping (wakeAt : Nat) (memory : Memory) (resume : Mailbox → Task α)
  /-- A wait for input lines that looks at them next at `lookAt`. -/
  | watching (lookAt : Nat) (wanted : SignalMask) (since timeoutUs : Nat) (memory : Memory)
      (resume : Mailbox → Except PowerError Unit → Task α)

/-- What the task has in memory while it is suspended. -/
def Suspension.memory {α : Type} : Suspension α → Memory
  | .sleeping _ memory _ => memory
  | .watching _ _ _ _ memory _ => memory

/-- How far a task has come. -/
inductive Progress (α : Type) where
  | ended (memory : Memory) (result : α)
  | suspended (suspension : Suspension α)

/-- Wait for input lines up to a limit: either the wait is over, or it looks again at a time
beyond the limit. -/
def watchWithin (limit : Nat) (wanted : SignalMask) (since timeoutUs : Nat) :
    (looks : Nat) → Bench → Bench × (Except PowerError Unit ⊕ Nat)
  | 0, bench => (bench, .inl (.error (.signalTimeout (wanted.missing bench.lines))))
  | looks + 1, bench =>
    match bench.waitResult? wanted since timeoutUs with
    | some result => (bench, .inl result)
    | none =>
      let lookAt := bench.now + Timing.usPerMs
      if lookAt ≤ limit then
        watchWithin limit wanted since timeoutUs looks (bench.passUntil lookAt)
      else
        (bench.passUntil limit, .inr lookAt)

/-- Run a task as far as it comes up to a time limit. -/
def proceed {α : Type} (limit : Nat) : Task α → Bench → Bench × Progress α
  | .done memory result, bench =>
    (bench.handOver memory.mailbox, .ended memory result)
  | .ask memory (.sleep us) resume, bench =>
    let asleep := (bench.handOver memory.mailbox).log (.slept us)
    let wakeAt := bench.now + us
    if wakeAt ≤ limit then
      let awake := asleep.passUntil wakeAt
      proceed limit (resume awake.mailbox ()) awake
    else
      (asleep.passUntil limit, .suspended (.sleeping wakeAt memory fun mailbox => resume mailbox ()))
  | .ask memory (.waitForLines wanted timeoutUs) resume, bench =>
    let begun := (bench.handOver memory.mailbox).log (.watched wanted timeoutUs)
    match begun.watchWithin limit wanted bench.now timeoutUs (looks timeoutUs) with
    | (waited, .inl result) => proceed limit (resume waited.mailbox result) waited
    | (waited, .inr lookAt) =>
      (waited, .suspended (.watching lookAt wanted bench.now timeoutUs memory resume))
  | .ask memory request resume, bench =>
    let (answered, reply) := (bench.handOver memory.mailbox).answer request
    proceed limit (resume answered.mailbox reply) answered

/-- Take a suspended task on, up to a time limit. -/
def resume {α : Type} (limit : Nat) (bench : Bench) : Suspension α → Bench × Progress α
  | .sleeping wakeAt memory resume =>
    if wakeAt ≤ limit then
      let awake := bench.passUntil wakeAt
      proceed limit (resume awake.mailbox) awake
    else
      (bench.passUntil limit, .suspended (.sleeping wakeAt memory resume))
  | .watching lookAt wanted since timeoutUs memory resume =>
    if lookAt ≤ limit then
      match (bench.passUntil lookAt).watchWithin limit wanted since timeoutUs (looks timeoutUs) with
      | (waited, .inl result) => proceed limit (resume waited.mailbox result) waited
      | (waited, .inr next) =>
        (waited, .suspended (.watching next wanted since timeoutUs memory resume))
    else
      (bench.passUntil limit, .suspended (.watching lookAt wanted since timeoutUs memory resume))

/-- The power task between two looks at it. -/
inductive Run where
  /-- In the middle of a turn. -/
  | busy (suspension : Suspension Turn)
  /-- Between two turns, until it is woken. -/
  | resting (memory : Memory) (state : PowerState)

/-- What the power task has in memory. -/
def Run.memory : Run → Memory
  | .busy suspension => suspension.memory
  | .resting memory _ => memory

/-- Turns that can be needed up to a limit. Every turn that changes nothing waits for a wake
or for time to pass, and few states follow one another without either. -/
def turnBudget (bench : Bench) (limit : Nat) : Nat :=
  64 * (limit - bench.now + bench.backlog + 1)

/-- Begin a turn with what the power task had in memory and the mailbox of the bench. -/
def beginTurn (tree : PowerTree) (bench : Bench) (memory : Memory) (state : PowerState) :
    Task Turn :=
  Program.turn tree state { memory with mailbox := bench.mailbox }

/-- Take turn after turn, as far as it goes without a wake and up to a time limit. A wake that
came during a turn starts another. -/
def serve (tree : PowerTree) (limit : Nat) : (turns : Nat) → Bench × Progress Turn → Bench × Run
  | _, (bench, .suspended suspension) => (bench, .busy suspension)
  | 0, (bench, .ended memory (.rest state)) => (bench, .resting memory state)
  | 0, (bench, .ended memory (.next state)) =>
    (bench, .busy (.sleeping bench.now memory fun mailbox =>
      Program.turn tree state { memory with mailbox := mailbox }))
  | turns + 1, (bench, .ended memory (.next state)) =>
    serve tree limit turns (proceed limit (beginTurn tree bench memory state) bench)
  | turns + 1, (bench, .ended memory (.rest state)) =>
    if bench.mailbox.woken then
      let taken := bench.onMailbox fun mailbox => { mailbox with woken := false }
      serve tree limit turns (proceed limit (beginTurn tree taken memory state) taken)
    else
      (bench, .resting memory state)

/-- Look at the power task. -/
def pollRun (tree : PowerTree) (limit : Nat) (bench : Bench) : Run → Bench × Run
  | .busy suspension => serve tree limit (bench.turnBudget limit) (bench.resume limit suspension)
  | .resting memory state =>
    serve tree limit (bench.turnBudget limit) (bench, .ended memory (.rest state))

/-- Let time pass event by event while the power task rests, and look at it as soon as it is
woken. The shutdown timer is looked at before any time passes, so a delay of zero wakes the
power task at once. Events at the limit still happen, and a wake there is still served. -/
def passWhileResting (tree : PowerTree) (limit : Nat) : (events : Nat) → Bench × Run → Bench × Run
  | _, (bench, .busy suspension) => (bench, .busy suspension)
  | 0, (bench, .resting memory state) => (bench, .resting memory state)
  | events + 1, (bench, .resting memory state) =>
    let polled := bench.pollTimer
    if polled.mailbox.woken then
      passWhileResting tree limit events (pollRun tree limit polled (.resting memory state))
    else if limit ≤ polled.now then
      (polled, .resting memory state)
    else
      passWhileResting tree limit events (polled.passEvent limit, .resting memory state)

/-- Look at the power task and let time pass up to a limit. -/
def continueRun (tree : PowerTree) (limit : Nat) (bench : Bench) (run : Run) : Bench × Run :=
  passWhileResting tree limit (bench.turnBudget limit) (pollRun tree limit bench run)

/-- Start the power task in a state, and let time pass up to a limit. -/
def startRun (tree : PowerTree) (limit : Nat) (bench : Bench) (memory : Memory)
    (state : PowerState) : Bench × Run :=
  let published := bench.onMailbox fun mailbox => { mailbox with published := state }
  let first := proceed limit (beginTurn tree published memory state) published
  passWhileResting tree limit (bench.turnBudget limit)
    (serve tree limit (bench.turnBudget limit) first)

end RailSequencer.Bench
