import RailSequencer.Controller.Session

/-!
# What happens to a program in a session

Whatever is done to a session, all that its program does is boot and take rounds, and all that it
notices at once is that inputs are moved. These are the acts of the session. For every function that
moves a session on there is one here that lists the acts on the way, in their order: `Session.acts` does
so for commands.
-/

namespace RailSequencer.Controller

/-- What happens to a program in a session. -/
inductive Act where
  /-- It looks at every task, finds this and leaves that. -/
  | round (found left : Live)
  /-- It boots on this hardware. -/
  | boot (before : Hardware) (reason : ResetReason)
  /-- Levels on its inputs are changed, which finds this and leaves that. -/
  | inputs (found left : Live)

namespace Act

/-- The controller that an act finds, or a boot leaves. -/
def live : Act → Live
  | .round found _ | .inputs found _ => found
  | .boot before reason => Controller.boot before reason

/-- What a boot begins with. -/
def boot? : Act → Option (Hardware × ResetReason)
  | .boot before reason => some (before, reason)
  | .round _ _ | .inputs _ _ => none

/-- What the last boot began with, if there was one. -/
def lastBoot? (acts : List Act) : Option (Hardware × ResetReason) :=
  (acts.filterMap boot?).getLast?

theorem lastBoot?_concat (acts : List Act) (act : Act) :
    lastBoot? (acts ++ [act]) = act.boot?.or (lastBoot? acts) := by
  rw [lastBoot?, List.filterMap_append]
  cases booted : act.boot? with
  | none => simp [booted, lastBoot?]
  | some begun => simp [booted]

end Act

namespace Live

/-- The acts of taking rounds until no task has anything to do. -/
def roundsTaken : Nat → Live → List Act
  | 0, _ => []
  | rest + 1, current =>
    if current.isIdle then []
    else
      let next := current.round
      if next.ram.restarting then
        .round current next :: .boot next.hardware.countReset .forced ::
          roundsTaken rest (reboot next)
      else
        .round current next :: roundsTaken rest next

def settling (live : Live) : List Act := roundsTaken roundsToRest live

/-- A transfer comes from the host. -/
def receive (live : Live) (transfer : Transfer) : Live :=
  { live with ram := { live.ram with transfer := some transfer, answer := none } }

end Live

def Stimulus.isTransfer : Stimulus → Bool
  | .transfer _ => true
  | _ => false

def Power.settling : Power → List Act
  | .on live => live.settling
  | .off _ => []

/-- The act of changing levels on inputs, which only a running program notices. -/
def Power.moving (change : Hardware → Hardware) : Power → List Act
  | .on live => [.inputs live (live.moveInputs change)]
  | .off _ => []

namespace Session

/-- The acts of something that is done now. -/
def applying (session : Session) : Stimulus → List Act
  | .boot reason =>
    .boot session.power.hardware reason ::
      (Controller.boot session.power.hardware reason).settling
  | .force pin level =>
    session.power.moving fun hardware => { hardware with forced := hardware.forced.set pin level }
  | .transfer transfer => (session.power.onLive fun live => live.receive transfer).settling
  | _ => []

/-- The first waiting stimulus that is due, and the session without it. -/
def due? (session : Session) : Option (Stimulus × Session) :=
  match session.timed.findIdx? fun timed => timed.due ≤ session.now with
  | none => none
  | some index => session.timed[index]?.map fun timed =>
    (timed.stimulus, { session with timed := session.timed.eraseIdx index })

theorem applyDue?_eq (session : Session) :
    session.applyDue? = session.due?.map fun due => due.2.apply due.1 := by
  rw [applyDue?, due?]
  cases session.timed.findIdx? fun timed => timed.due ≤ session.now with
  | none => rfl
  | some index =>
    simp only
    cases session.timed[index]? <;> rfl

/-- The acts of doing waiting stimuli that are due. -/
def duesApplied : Nat → Session → List Act
  | 0, _ => []
  | rest + 1, current =>
    match current.due? with
    | none => []
    | some (stimulus, left) => left.applying stimulus ++ duesApplied rest (left.apply stimulus)

/-- The acts of an event. -/
def passing (session : Session) (target : Nat) : List Act :=
  let moved := session.moveTo (session.nextEvent target)
  duesApplied moved.backlog moved ++ moved.applyAllDue.power.settling

/-- The acts of one event after the other. -/
def eventsPassed (target : Nat) : Nat → Session → List Act
  | 0, _ => []
  | rest + 1, current =>
    if target ≤ current.now then []
    else current.passing target ++ eventsPassed target rest (current.passEvent target)

/-- The acts of letting time pass. -/
def passingUntil (session : Session) (target : Nat) : List Act :=
  session.power.settling ++ eventsPassed target (target - session.now) session.settle

/-- The session with a record of its own. -/
def fresh (session : Session) : Session :=
  session.onHardware fun hardware => { hardware with writes := [] }

/-- Time up to which a command lets time pass. -/
def advanceTo (session : Session) (ms : Nat) : Nat := session.now + ms * Timing.usPerMs

/-- A command ends with a program that has settled. A transfer has seen to that itself. -/
theorem execute_eq (session : Session) (command : Command) :
    (session.execute command).1 = match command with
      | .apply stimulus =>
        if stimulus.isTransfer then session.fresh.apply stimulus
        else (session.fresh.apply stimulus).settle
      | .advance ms => session.fresh.passUntil (session.fresh.advanceTo ms) := by
  obtain ⟨power, timed⟩ := session
  cases command with
  | apply stimulus => cases stimulus <;> cases power <;> rfl
  | advance ms => cases power <;> rfl

/-- The acts of a command. -/
def executing (session : Session) : Command → List Act
  | .apply stimulus =>
    session.fresh.applying stimulus ++
      if stimulus.isTransfer then [] else (session.fresh.apply stimulus).power.settling
  | .advance ms => session.fresh.passingUntil (session.fresh.advanceTo ms)

/-- The acts of commands, the first one first. -/
def acts : List Command → Session → List Act
  | [], _ => []
  | command :: rest, session => session.executing command ++ acts rest (session.execute command).1

end Session

end RailSequencer.Controller
