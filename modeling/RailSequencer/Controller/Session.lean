import RailSequencer.Controller.Boot

/-!
# Sessions with a controller

A session is a controller, on or off, and its hardware, to which things are done step by step.
Time passes from event to event, where an event is a deadline of a task or the time of a
stimulus. Stimuli that wait for their time are done at events only: one that is due at once
waits until the clock moves, and is then done at the event that comes next.
-/

namespace RailSequencer.Controller

/-- Something that is done to a controller or its hardware. -/
inductive Stimulus where
  | boot (reason : ResetReason)
  | off
  /-- Force a level onto an input, or let go of it. -/
  | force (pin : Pin) (level : Option Bool)
  | autoPowerGood (on : Bool)
  | vin (reading : UInt16)
  | converterFails (fails : Bool)
  | flashFails (fails : Bool)
  | hostFails (fails : Bool)
  | scratchJump (value : UInt32)
  | scratchFlags (value : UInt32)
  /-- A setting is changed from outside the tasks, by someone who does not wait for the
  store. -/
  | changeSetting (change : SettingChange)
  | transfer (transfer : Transfer)
  /-- Do something `ms` milliseconds from now. -/
  | after (ms : Nat) (stimulus : Stimulus)
  /-- Nothing. -/
  | idle
deriving DecidableEq, Repr

/-- Number of stimuli in a stimulus, itself included. -/
def Stimulus.size : Stimulus → Nat
  | .after _ stimulus => stimulus.size + 1
  | _ => 1

/-- Change the levels on the inputs of a running controller. A button or lid line whose level changes
gives an edge. -/
def Live.moveInputs (live : Live) (change : Hardware → Hardware) : Live :=
  let hardware := change live.hardware
  let moved (pin : Pin) : Bool :=
    live.hardware.inputLevel pin true != hardware.inputLevel pin true
  let ram := live.ram
  ⟨hardware,
    { ram with
      button := if moved Pin.button then ram.button.edge else ram.button
      lid := if moved Pin.lid then ram.lid.edge else ram.lid }⟩

/-- A controller that is on, or the hardware of one that is off. -/
inductive Power where
  | on (live : Live)
  | off (hardware : Hardware)

namespace Power

def hardware : Power → Hardware
  | .on live => live.hardware
  | .off hardware => hardware

/-- Change the hardware, whether the controller is on or off. -/
def onHardware (power : Power) (change : Hardware → Hardware) : Power :=
  match power with
  | .on live => .on { live with hardware := change live.hardware }
  | .off hardware => .off (change hardware)

/-- Change the running program, if there is one. -/
def onLive (power : Power) (change : Live → Live) : Power :=
  match power with
  | .on live => .on (change live)
  | .off hardware => .off hardware

def settle (power : Power) : Power := power.onLive Live.settle

end Power

/-- A stimulus that waits for its time. -/
structure Timed where
  due : Nat
  stimulus : Stimulus
deriving DecidableEq, Repr

/-- A controller with the stimuli that wait for their time, in the order in which they were
added. -/
structure Session where
  power : Power
  timed : List Timed := []

namespace Session

def create (flashUsable : Bool) : Session := ⟨.off { flash := ⟨flashUsable, []⟩ }, []⟩

def now (session : Session) : Nat := session.power.hardware.now

def onPower (session : Session) (change : Power → Power) : Session :=
  { session with power := change session.power }

def onHardware (session : Session) (change : Hardware → Hardware) : Session :=
  session.onPower fun power => power.onHardware change

/-- Change the levels on the inputs. -/
def moveInputs (change : Hardware → Hardware) : Power → Power
  | .off hardware => .off (change hardware)
  | .on live => .on (live.moveInputs change)

/-- Do something now. A boot and a transfer are followed by rounds until every task is at
rest. -/
def apply (session : Session) : Stimulus → Session
  | .boot reason =>
    { session with power := (Power.on (Controller.boot session.power.hardware reason)).settle }
  | .off => { session with power := .off session.power.hardware.forgetHeld }
  | .force pin level => session.onPower <| moveInputs fun hardware =>
    { hardware with forced := hardware.forced.set pin level }
  | .autoPowerGood on => session.onHardware fun hardware => { hardware with autoPowerGood := on }
  | .vin reading => session.onHardware fun hardware => { hardware with vinReading := reading }
  | .converterFails fails =>
    session.onHardware fun hardware => { hardware with converterFails := fails }
  | .flashFails fails => session.onHardware fun hardware => { hardware with flashFails := fails }
  | .hostFails fails => session.onHardware fun hardware => { hardware with hostFails := fails }
  | .scratchJump value => session.onHardware fun hardware =>
    { hardware with scratch := { hardware.scratch with jump := value } }
  | .scratchFlags value => session.onHardware fun hardware =>
    { hardware with scratch := { hardware.scratch with flags := value } }
  | .changeSetting change => session.onPower fun power =>
    power.onLive fun live => live.offerSetting change
  | .transfer transfer => session.onPower fun power =>
    (power.onLive fun live =>
      { live with ram := { live.ram with transfer := some transfer, answer := none } }).settle
  | .after ms stimulus =>
    { session with
      timed := session.timed ++ [⟨session.now + ms * Timing.usPerMs, stimulus⟩] }
  | .idle => session

/-- Size of all the stimuli that wait. -/
def backlog (session : Session) : Nat :=
  session.timed.foldl (fun total timed => total + timed.stimulus.size) 0

/-- Do the first waiting stimulus that is due, if there is one. -/
def applyDue? (session : Session) : Option Session :=
  match session.timed.findIdx? fun timed => timed.due ≤ session.now with
  | none => none
  | some index =>
    match session.timed[index]? with
    | none => none
    | some timed =>
      some ({ session with timed := session.timed.eraseIdx index }.apply timed.stimulus)

/-- Do the waiting stimuli that are due, one after the other. -/
def applyAllDue (session : Session) : Session := repeatDue session.backlog session
where
  repeatDue : Nat → Session → Session
    | 0, current => current
    | rest + 1, current =>
      match current.applyDue? with
      | none => current
      | some next => repeatDue rest next

/-- The earliest of `target`, the deadlines of the tasks and the times of the waiting stimuli,
of those that are still to come. A stimulus whose time has come already makes no event. -/
def nextEvent (session : Session) (target : Nat) : Nat :=
  let deadlines := match session.power with
    | .on live => live.deadlines
    | .off _ => []
  ((deadlines ++ session.timed.map Timed.due).filter fun time => session.now < time).foldl
    min target

def settle (session : Session) : Session := session.onPower Power.settle

/-- Move the clock forward. -/
def moveTo (session : Session) (time : Nat) : Session :=
  session.onHardware fun hardware => { hardware with now := max hardware.now time }

/-- Let time pass up to the next event, but not past `target`. Every stimulus that is due by
then is done there, and the tasks come to rest last. -/
def passEvent (session : Session) (target : Nat) : Session :=
  (session.moveTo (session.nextEvent target)).applyAllDue.settle

/-- Let time pass up to `target`. Stimuli are done at events only, so none is done where no
time passes. Every event moves the clock, so the time that is left bounds their number. -/
def passUntil (session : Session) (target : Nat) : Session :=
  repeatEvents (target - session.now) session.settle
where
  repeatEvents : Nat → Session → Session
    | 0, current => current
    | rest + 1, current =>
      if target ≤ current.now then current else repeatEvents rest (current.passEvent target)

/-- What can be asked of a session. -/
inductive Command where
  | apply (stimulus : Stimulus)
  | advance (ms : Nat)
deriving Repr

/-- What a command answers. -/
inductive Reply where
  | nothing
  /-- What the host got from the controller. -/
  | bytes (bytes : List UInt8)
  /-- There is no running program whose setting could be changed. -/
  | noSettings
deriving DecidableEq, Repr

/-- The answer to the last transfer, if the controller gave one. -/
def hostReply (session : Session) : Reply :=
  match session.power with
  | .off _ => .nothing
  | .on live =>
    match live.ram.answer with
    | none => .nothing
    | some bytes => .bytes bytes

/-- Carry out a command, with a record of its own. -/
def execute (session : Session) (command : Command) : Session × Reply :=
  let fresh := session.onHardware fun hardware => { hardware with writes := [] }
  match command, fresh.power with
  | .apply (.transfer transfer), _ =>
    let answered := fresh.apply (.transfer transfer)
    (answered, answered.hostReply)
  | .apply (.changeSetting _), .off _ => (fresh, .noSettings)
  | .apply stimulus, _ => ((fresh.apply stimulus).settle, .nothing)
  | .advance ms, _ => (fresh.passUntil (fresh.now + ms * Timing.usPerMs), .nothing)

end Session

end RailSequencer.Controller
