import RailSequencer.Proofs.Sessions
import RailSequencer.Proofs.Stores

/-!
# Runs in which any access to flash may fail

In a session the store works until it is told to fail, and fails until it is told to work. Flash is not
so regular: one access may fail and the next one succeed, at the same look of the store task. In a run
every round stores some of the changes that wait, no matter which, and is otherwise a round like any
other (`Live.RoundsTo`). All else that is done to the controller is done in a run as in a session, in
the order in which a session does it. So a session is one of the runs of its commands
(`Session.runs_acts`).
-/

namespace RailSequencer.Controller

namespace Live

/-- What the tasks after the store do in a round. -/
def afterStore (stored : Live) : Live :=
  let sampled := stored.pollSampler.pollConverter
  pollHost (PowerTask.poll sampled.pollButton.pollLid.pollTimer)

/-- Of the changes that wait, flash takes these. The others are dropped. -/
def storing (live : Live) (taken : List SettingChange) : Live where
  hardware := { live.hardware with flash := taken.foldl Flash.store live.hardware.flash }
  ram := { live.ram with changes := {} }

/-- A round in which some accesses to flash succeed and the others fail. -/
def RoundsTo (live left : Live) : Prop :=
  ∃ taken, taken.Sublist live.pollFeeder.ram.changes.toList ∧
    left = (live.pollFeeder.storing taken).afterStore

theorem roundsTo_round (live : Live) : live.RoundsTo live.round := by
  refine ⟨if live.pollFeeder.hardware.flashFails then [] else live.pollFeeder.ram.changes.toList,
    ?_, ?_⟩
  · split
    · exact List.nil_sublist _
    · exact List.Sublist.refl _
  · have stored := storeAll_eq_store live.pollFeeder.hardware live.pollFeeder.ram.changes
    rw [storing, ← stored, ← pollStore_eq]
    rfl

/-- Rounds are taken until no task has anything to do, or there are no more. A reset that the program
asks for happens at once. -/
inductive Takes : Nat → Live → List Act → Live → Prop
  | spent (live : Live) : Takes 0 live [] live
  | idle {rounds : Nat} {live : Live} (idle : live.isIdle = true) : Takes (rounds + 1) live [] live
  | round {rounds : Nat} {live left last : Live} {acts : List Act} (busy : ¬live.isIdle = true)
      (taken : live.RoundsTo left) (runs : ¬left.ram.restarting = true)
      (rest : Takes rounds left acts last) :
      Takes (rounds + 1) live (.round live left :: acts) last
  | restart {rounds : Nat} {live left last : Live} {acts : List Act} (busy : ¬live.isIdle = true)
      (taken : live.RoundsTo left) (asks : left.ram.restarting = true)
      (rest : Takes rounds (reboot left) acts last) :
      Takes (rounds + 1) live
        (.round live left :: .boot left.hardware.countReset .forced :: acts) last

theorem takes_roundsTaken (rounds : Nat) (live : Live) :
    live.Takes rounds (live.roundsTaken rounds) (settle.takeRounds rounds live) := by
  induction rounds generalizing live with
  | zero => exact .spent live
  | succ rounds inductionHypothesis =>
    rw [settle.takeRounds, roundsTaken]
    split
    next idle => exact .idle idle
    next busy =>
      dsimp only
      split
      next asks => exact .restart busy live.roundsTo_round asks (inductionHypothesis _)
      next runs => exact .round busy live.roundsTo_round runs (inductionHypothesis _)

end Live

/-- The program settles, if the controller is on. -/
inductive Power.Settles : Power → List Act → Power → Prop
  | on {live last : Live} {acts : List Act} (taken : live.Takes Live.roundsToRest acts last) :
      Settles (.on live) acts (.on last)
  | off (hardware : Hardware) : Settles (.off hardware) [] (.off hardware)

theorem Power.settles_settling (power : Power) : power.Settles power.settling power.settle := by
  cases power with
  | on live => exact .on (live.takes_roundsTaken Live.roundsToRest)
  | off hardware => exact .off hardware

/-- Rounds are taken when it is done. -/
def Stimulus.startsRounds : Stimulus → Bool
  | .boot _ | .transfer _ => true
  | _ => false

namespace Session

/-- A stimulus is done now. -/
inductive Does : Session → Stimulus → List Act → Session → Prop
  | boot {session : Session} {reason : ResetReason} {acts : List Act} {power : Power}
      (settles : (Power.on (Controller.boot session.power.hardware reason)).Settles acts power) :
      Does session (.boot reason) (.boot session.power.hardware reason :: acts)
        { session with power := power }
  | transfer {session : Session} {transfer : Transfer} {acts : List Act} {power : Power}
      (settles : (session.power.onLive fun live => live.receive transfer).Settles acts power) :
      Does session (.transfer transfer) acts { session with power := power }
  | other {session : Session} {stimulus : Stimulus} (silent : stimulus.startsRounds = false) :
      Does session stimulus (session.applying stimulus) (session.apply stimulus)

theorem does_applying (session : Session) (stimulus : Stimulus) :
    session.Does stimulus (session.applying stimulus) (session.apply stimulus) := by
  cases stimulus with
  | boot reason => exact .boot (Power.settles_settling _)
  | transfer transfer => exact .transfer (Power.settles_settling _)
  | _ => exact .other rfl

/-- Waiting stimuli that are due are done. -/
inductive DoesDue : Nat → Session → List Act → Session → Prop
  | spent (session : Session) : DoesDue 0 session [] session
  | none {count : Nat} {session : Session} (none : session.due? = none) :
      DoesDue (count + 1) session [] session
  | one {count : Nat} {session left done last : Session} {stimulus : Stimulus}
      {acts later : List Act} (due : session.due? = some (stimulus, left))
      (does : left.Does stimulus acts done) (rest : DoesDue count done later last) :
      DoesDue (count + 1) session (acts ++ later) last

theorem doesDue_duesApplied (count : Nat) (session : Session) :
    session.DoesDue count (duesApplied count session)
      (applyAllDue.repeatDue count session) := by
  induction count generalizing session with
  | zero => exact .spent session
  | succ count inductionHypothesis =>
    rw [applyAllDue.repeatDue, applyDue?_eq, duesApplied]
    cases found : session.due? with
    | none => exact .none found
    | some due => exact .one found (due.2.does_applying due.1) (inductionHypothesis _)

/-- Time passes from event to event. -/
inductive Passes (target : Nat) : Nat → Session → List Act → Session → Prop
  | spent (session : Session) : Passes target 0 session [] session
  | reached {count : Nat} {session : Session} (reached : target ≤ session.now) :
      Passes target (count + 1) session [] session
  | event {count : Nat} {session moved done last : Session} {power : Power}
      {acts later rest : List Act} (ahead : ¬target ≤ session.now)
      (moves : moved = session.moveTo (session.nextEvent target))
      (does : moved.DoesDue moved.backlog acts done) (settles : done.power.Settles later power)
      (goesOn : Passes target count { done with power := power } rest last) :
      Passes target (count + 1) session (acts ++ later ++ rest) last

theorem passes_eventsPassed (target count : Nat) (session : Session) :
    session.Passes target count (eventsPassed target count session)
      (passUntil.repeatEvents target count session) := by
  induction count generalizing session with
  | zero => exact .spent session
  | succ count inductionHypothesis =>
    rw [passUntil.repeatEvents, eventsPassed]
    split
    next reached => exact .reached reached
    next ahead =>
      exact .event ahead rfl (doesDue_duesApplied _ _) (Power.settles_settling _)
        (inductionHypothesis _)

/-- A command is carried out. -/
inductive CarriesOut : Session → Command → List Act → Session → Prop
  | transfer {session last : Session} {stimulus : Stimulus} {acts : List Act}
      (transfers : stimulus.isTransfer = true) (does : session.fresh.Does stimulus acts last) :
      CarriesOut session (.apply stimulus) acts last
  | apply {session done : Session} {stimulus : Stimulus} {acts later : List Act} {power : Power}
      (other : ¬stimulus.isTransfer = true) (does : session.fresh.Does stimulus acts done)
      (settles : done.power.Settles later power) :
      CarriesOut session (.apply stimulus) (acts ++ later) { done with power := power }
  | advance {session last : Session} {ms : Nat} {acts later : List Act} {power : Power}
      (settles : session.fresh.power.Settles acts power)
      (passes : Passes (session.fresh.advanceTo ms)
        (session.fresh.advanceTo ms - session.fresh.now) { session.fresh with power := power }
        later last) :
      CarriesOut session (.advance ms) (acts ++ later) last

theorem carriesOut_executing (session : Session) (command : Command) :
    session.CarriesOut command (session.executing command) (session.execute command).1 := by
  rw [execute_eq]
  cases command with
  | apply stimulus =>
    have does := session.fresh.does_applying stimulus
    rw [executing]
    by_cases transfers : stimulus.isTransfer = true
    · simp only [if_pos transfers, List.append_nil]
      exact .transfer transfers does
    · simp only [if_neg transfers]
      exact .apply transfers does (Power.settles_settling _)
  | advance ms => exact .advance (Power.settles_settling _) (passes_eventsPassed _ _ _)

/-- Commands are carried out, the first one first. -/
inductive Runs : Session → List Command → List Act → Session → Prop
  | nil (session : Session) : Runs session [] [] session
  | cons {session done last : Session} {command : Command} {commands : List Command}
      {acts later : List Act} (first : session.CarriesOut command acts done)
      (rest : Runs done commands later last) : Runs session (command :: commands) (acts ++ later) last

/-- What a session does is one of the runs of its commands. -/
theorem runs_acts (session : Session) (commands : List Command) :
    session.Runs commands (acts commands session) (session.executeAll commands) := by
  induction commands generalizing session with
  | nil => exact .nil session
  | cons command commands inductionHypothesis =>
    exact .cons (session.carriesOut_executing command) (inductionHypothesis _)

end Session

end RailSequencer.Controller
