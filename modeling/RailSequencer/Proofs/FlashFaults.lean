import Mathlib.Data.List.InsertIdx
import RailSequencer.Proofs.Flashless

/-!
# Faults of the flash are not seen

A run up to the next boot, with flash left out of it, is the session of a controller whose flash takes
nothing at all (`Session.Runs.mirrors`): rounds are the same without flash, and what is done between
them is, too. So all runs of the same commands look the same up to there, whichever of their accesses
to flash have succeeded (`flash_faults_unseen`). A boot is where they part, since it reads flash back.
-/

namespace RailSequencer.Controller

/-- What is done, without what is done to flash. -/
def Stimulus.faultless : Stimulus → Stimulus
  | .flashFails _ => .idle
  | .after ms stimulus => .after ms stimulus.faultless
  | stimulus => stimulus

def Timed.faultless (timed : Timed) : Timed := ⟨timed.due, timed.stimulus.faultless⟩

def Session.Command.faultless : Session.Command → Session.Command
  | .apply stimulus => .apply stimulus.faultless
  | .advance ms => .advance ms

namespace Stimulus

theorem isTransfer_faultless (stimulus : Stimulus) :
    stimulus.faultless.isTransfer = stimulus.isTransfer := by
  cases stimulus <;> rfl

theorem size_faultless (stimulus : Stimulus) : stimulus.faultless.size = stimulus.size := by
  induction stimulus with
  | after ms stimulus inductionHypothesis => exact congrArg (· + 1) inductionHypothesis
  | _ => rfl

end Stimulus

def Power.flashless : Power → Power
  | .on live => .on live.flashless
  | .off hardware => .off hardware.flashless

namespace Power

theorem hardware_flashless (power : Power) :
    power.flashless.hardware = power.hardware.flashless := by
  cases power <;> rfl

theorem flashless_onLive {power : Power} {change : Live → Live}
    (beside : ∀ live, (change live).flashless = change live.flashless) :
    (power.onLive change).flashless = power.flashless.onLive change := by
  cases power with
  | on live => exact congrArg Power.on (beside live)
  | off hardware => rfl

theorem flashless_onHardware {power : Power} {change : Hardware → Hardware}
    (beside : ∀ hardware, (change hardware).flashless = change hardware.flashless) :
    (power.onHardware change).flashless = power.flashless.onHardware change := by
  cases power with
  | on live => exact congrArg (fun hardware => Power.on ⟨hardware, live.ram⟩) (beside live.hardware)
  | off hardware => exact congrArg Power.off (beside hardware)

end Power

/-- Acts go like others without flash, up to the next boot. If there is none, `meet`. -/
inductive Act.Mirrors (meet : Prop) : List Act → List Act → Prop
  | done (met : meet) : Mirrors meet [] []
  | round {found left : Live} {acts mirrored : List Act} (rest : Mirrors meet acts mirrored) :
      Mirrors meet (.round found left :: acts) (.round found.flashless left.flashless :: mirrored)
  | inputs {found left : Live} {acts mirrored : List Act} (rest : Mirrors meet acts mirrored) :
      Mirrors meet (.inputs found left :: acts) (.inputs found.flashless left.flashless :: mirrored)
  | boot {before other : Hardware} {reason again : ResetReason} {acts mirrored : List Act} :
      Mirrors meet (.boot before reason :: acts) (.boot other again :: mirrored)

namespace Act.Mirrors

variable {meet next : Prop} {acts mirrored later others : List Act}

theorem imp (mirrors : Mirrors meet acts mirrored) (goesOn : meet → next) :
    Mirrors next acts mirrored := by
  induction mirrors with
  | done met => exact .done (goesOn met)
  | round _ inductionHypothesis => exact .round inductionHypothesis
  | inputs _ inductionHypothesis => exact .inputs inductionHypothesis
  | boot => exact .boot

theorem append (first : Mirrors meet acts mirrored)
    (goesOn : meet → Mirrors next later others) :
    Mirrors next (acts ++ later) (mirrored ++ others) := by
  induction first with
  | done met => exact goesOn met
  | round _ inductionHypothesis => exact .round inductionHypothesis
  | inputs _ inductionHypothesis => exact .inputs inductionHypothesis
  | boot => exact .boot

end Act.Mirrors

theorem Live.Takes.mirrors {rounds : Nat} {live last : Live} {acts : List Act}
    (takes : live.Takes rounds acts last) :
    Act.Mirrors (last.flashless = Live.settle.takeRounds rounds live.flashless) acts
      (live.flashless.roundsTaken rounds) := by
  induction takes with
  | spent live => exact .done rfl
  | @idle rounds live idle =>
    have idle : live.flashless.isIdle = true := idle
    rw [Live.settle.takeRounds, Live.roundsTaken, if_pos idle, if_pos idle]
    exact .done rfl
  | @round rounds live left last acts busy taken runs rest inductionHypothesis =>
    have busy : ¬live.flashless.isIdle = true := busy
    have runs : ¬left.flashless.ram.restarting = true := runs
    rw [Live.settle.takeRounds, Live.roundsTaken, if_neg busy, if_neg busy]
    simp only [← taken.flashless, if_neg runs]
    exact .round inductionHypothesis
  | @restart rounds live left last acts busy taken asks rest inductionHypothesis =>
    -- From here on nothing is claimed: the boot has read flash back.
    have busy : ¬live.flashless.isIdle = true := busy
    have asks : left.flashless.ram.restarting = true := asks
    rw [Live.settle.takeRounds, Live.roundsTaken, if_neg busy, if_neg busy]
    simp only [← taken.flashless, if_pos asks]
    exact .round .boot

theorem Power.Settles.mirrors {power settled : Power} {acts : List Act}
    (settles : power.Settles acts settled) :
    Act.Mirrors (settled.flashless = power.flashless.settle) acts power.flashless.settling := by
  cases settles with
  | on taken => exact taken.mirrors.imp (congrArg Power.on)
  | off hardware => exact .done rfl

namespace Session

def flashless (session : Session) : Session :=
  ⟨session.power.flashless, session.timed.map Timed.faultless⟩

theorem now_flashless (session : Session) : session.flashless.now = session.now := by
  rw [now, now, flashless, Power.hardware_flashless]
  rfl

theorem backlog_flashless (session : Session) : session.flashless.backlog = session.backlog := by
  rw [backlog, flashless, List.foldl_map]
  simp only [Timed.faultless, Stimulus.size_faultless]
  rfl

theorem nextEvent_flashless (session : Session) (target : Nat) :
    session.flashless.nextEvent target = session.nextEvent target := by
  have times : session.flashless.timed.map Timed.due = session.timed.map Timed.due := by
    rw [flashless, List.map_map]
    rfl
  rw [nextEvent, nextEvent, times, now_flashless]
  obtain ⟨power, timed⟩ := session
  cases power <;> rfl

theorem flashless_onHardware {session : Session} {change : Hardware → Hardware}
    (beside : ∀ hardware, (change hardware).flashless = change hardware.flashless) :
    (session.onHardware change).flashless = session.flashless.onHardware change :=
  congrArg (Session.mk · (session.timed.map Timed.faultless)) (Power.flashless_onHardware beside)

theorem flashless_moveTo (session : Session) (time : Nat) :
    (session.moveTo time).flashless = session.flashless.moveTo time :=
  flashless_onHardware fun _ => rfl

theorem flashless_fresh (session : Session) : session.fresh.flashless = session.flashless.fresh :=
  flashless_onHardware fun _ => rfl

theorem flashless_advanceTo (session : Session) (ms : Nat) :
    session.flashless.advanceTo ms = session.advanceTo ms :=
  congrArg (· + ms * Timing.usPerMs) session.now_flashless

theorem flashless_due? (session : Session) :
    session.flashless.due? = session.due?.map fun due => (due.1.faultless, due.2.flashless) := by
  have first : session.flashless.timed.findIdx? (fun timed => timed.due ≤ session.flashless.now) =
      session.timed.findIdx? fun timed => timed.due ≤ session.now := by
    rw [flashless, List.findIdx?_map, ← flashless, now_flashless]
    rfl
  rw [due?, due?, first]
  cases session.timed.findIdx? fun timed => timed.due ≤ session.now with
  | none => rfl
  | some index =>
    simp only [flashless, List.getElem?_map, List.eraseIdx_map, Option.map_map]
    rfl

/-- What changes neither flash nor the program is the same without flash. -/
theorem flashless_apply {session : Session} {stimulus : Stimulus}
    (silent : stimulus.startsRounds = false) :
    (session.apply stimulus).flashless = session.flashless.apply stimulus.faultless := by
  cases stimulus with
  | boot | transfer => exact absurd silent.symm Bool.false_ne_true
  | after ms stimulus =>
    rw [Stimulus.faultless, apply, apply, now_flashless, flashless, List.map_append]
    rfl
  | _ =>
    obtain ⟨power, timed⟩ := session
    cases power <;> rfl

/-- What is done at once, without any rounds, is the same without flash, too. -/
theorem mirrors_applying {session : Session} {stimulus : Stimulus}
    (silent : stimulus.startsRounds = false) :
    Act.Mirrors ((session.apply stimulus).flashless = session.flashless.apply stimulus.faultless)
      (session.applying stimulus) (session.flashless.applying stimulus.faultless) := by
  have same : (session.apply stimulus).flashless = session.flashless.apply stimulus.faultless :=
    flashless_apply silent
  cases stimulus with
  | boot | transfer => exact absurd silent.symm Bool.false_ne_true
  | force =>
    obtain ⟨power, timed⟩ := session
    cases power with
    | on live => exact .inputs (.done same)
    | off hardware => exact .done same
  | _ => exact .done same

/-! What is done in a run is done without flash as a session does it. -/

theorem Does.mirrors {session last : Session} {stimulus : Stimulus} {acts : List Act}
    (does : session.Does stimulus acts last) :
    Act.Mirrors (last.flashless = session.flashless.apply stimulus.faultless) acts
      (session.flashless.applying stimulus.faultless) := by
  cases does with
  | boot => exact .boot
  | @transfer transfer _ power settles =>
    have settled := settles.mirrors
    have received : (session.power.onLive fun live => live.receive transfer).flashless =
        session.power.flashless.onLive fun live => live.receive transfer :=
      Power.flashless_onLive fun _ => rfl
    rw [received] at settled
    exact settled.imp (congrArg (Session.mk · (session.timed.map Timed.faultless)))
  | other silent => exact mirrors_applying silent

theorem mirrors_settles (session : Session) {power : Power} {acts : List Act}
    (settles : session.power.Settles acts power) :
    Act.Mirrors ({ session with power := power }.flashless = session.flashless.settle) acts
      session.flashless.power.settling :=
  settles.mirrors.imp (congrArg (Session.mk · (session.timed.map Timed.faultless)))

theorem DoesDue.mirrors {count : Nat} {session last : Session} {acts : List Act}
    (does : session.DoesDue count acts last) :
    Act.Mirrors (last.flashless = applyAllDue.repeatDue count session.flashless) acts
      (duesApplied count session.flashless) := by
  induction does with
  | spent session => exact .done rfl
  | @none count session none =>
    rw [applyAllDue.repeatDue, applyDue?_eq, duesApplied, flashless_due?, none]
    exact .done rfl
  | @one count session left done last stimulus acts later due does rest inductionHypothesis =>
    rw [applyAllDue.repeatDue, applyDue?_eq, duesApplied, flashless_due?, due]
    refine does.mirrors.append fun same => ?_
    rw [same] at inductionHypothesis
    exact inductionHypothesis

theorem Passes.mirrors {target count : Nat} {session last : Session} {acts : List Act}
    (passes : session.Passes target count acts last) :
    Act.Mirrors (last.flashless = passUntil.repeatEvents target count session.flashless) acts
      (eventsPassed target count session.flashless) := by
  induction passes with
  | spent session => exact .done rfl
  | @reached count session reached =>
    rw [← now_flashless] at reached
    rw [passUntil.repeatEvents, eventsPassed, if_pos reached, if_pos reached]
    exact .done rfl
  | @event count session moved done last power acts later rest ahead moves does settles goesOn
      inductionHypothesis =>
    rw [← now_flashless] at ahead
    rw [passUntil.repeatEvents, eventsPassed, if_neg ahead, if_neg ahead]
    have moved' : moved.flashless =
        session.flashless.moveTo (session.flashless.nextEvent target) := by
      rw [moves, flashless_moveTo, nextEvent_flashless]
    have due := does.mirrors
    have settled := mirrors_settles _ settles
    rw [← backlog_flashless, moved'] at due
    have event : Act.Mirrors ({ done with power := power }.flashless =
        session.flashless.passEvent target) (acts ++ later) (session.flashless.passing target) := by
      refine due.append fun same => ?_
      rw [same] at settled
      exact settled
    refine event.append fun same => ?_
    rw [same] at inductionHypothesis
    exact inductionHypothesis

theorem CarriesOut.mirrors {session last : Session} {command : Command} {acts : List Act}
    (carries : session.CarriesOut command acts last) :
    Act.Mirrors (last.flashless = (session.flashless.execute command.faultless).1) acts
      (session.flashless.executing command.faultless) := by
  rw [execute_eq]
  cases carries with
  | @transfer _ stimulus _ transfers does =>
    have done := does.mirrors
    rw [← Stimulus.isTransfer_faultless] at transfers
    simp only [Command.faultless, executing, if_pos transfers, List.append_nil, ← flashless_fresh]
    exact done
  | @apply done stimulus _ _ _ other does settles =>
    have settled := mirrors_settles _ settles
    rw [← Stimulus.isTransfer_faultless] at other
    simp only [Command.faultless, executing, if_neg other, ← flashless_fresh]
    refine does.mirrors.append fun same => ?_
    rw [same] at settled
    exact settled
  | @advance _ ms _ _ power settles passes =>
    have passed := passes.mirrors
    simp only [Command.faultless, executing, passingUntil, passUntil, ← flashless_fresh,
      flashless_advanceTo, now_flashless]
    refine (mirrors_settles _ settles).append fun same => ?_
    rw [same] at passed
    exact passed

/-- A run, without flash, is the session of a controller whose flash takes nothing. -/
theorem Runs.mirrors {session last : Session} {commands : List Command} {acts : List Act}
    (runs : session.Runs commands acts last) :
    Act.Mirrors (last.flashless = session.flashless.executeAll (commands.map Command.faultless))
      acts (Session.acts (commands.map Command.faultless) session.flashless) := by
  induction runs with
  | nil session => exact .done rfl
  | @cons session done last command commands acts later first rest inductionHypothesis =>
    refine first.mirrors.append fun same => ?_
    rw [same] at inductionHypothesis
    exact inductionHypothesis

/-- What a session does once its controller has been booted by a command. -/
def actsAfterBoot (commands : List Command) (booted : Session) : List Act :=
  booted.power.settling ++ booted.settle.power.settling ++ acts commands booted.settle.settle

/-- After a boot the rest of a run is, without flash, that of a controller whose flash takes nothing. -/
theorem Runs.mirrors_boot {session last : Session} {reason : ResetReason} {commands : List Command}
    {acts : List Act} (runs : session.Runs (.apply (.boot reason) :: commands) acts last) :
    let booted := Controller.boot session.fresh.power.hardware reason
    let begun := Session.flashless ⟨.on booted, session.timed⟩
    let rest := commands.map Command.faultless
    ∃ later, acts = .boot session.fresh.power.hardware reason :: later ∧
      Act.Mirrors (last.flashless = begun.settle.settle.executeAll rest) later
        (actsAfterBoot rest begun) := by
  intro booted begun rest
  cases runs with
  | @cons _ done _ _ _ _ others carried ran =>
    cases carried with
    | transfer transfers => exact absurd transfers Bool.false_ne_true
    | @apply _ _ _ again power _ does rests =>
      cases does with
      | other silent => exact absurd silent Bool.false_ne_true.symm
      | @boot _ first settled boots =>
        -- The boot has settled by itself, and the command settles once more.
        let ready : Session := ⟨settled, session.timed⟩
        let rested : Session := ⟨power, session.timed⟩
        have settles : Act.Mirrors (ready.flashless = begun.settle) first begun.power.settling :=
          mirrors_settles ⟨.on booted, session.timed⟩ boots
        have settlesAgain : Act.Mirrors (rested.flashless = ready.flashless.settle) again
          ready.flashless.power.settling := mirrors_settles ready rests
        have goesOn : Act.Mirrors (last.flashless = rested.flashless.executeAll rest) others
          (acts rest rested.flashless) := ran.mirrors
        have both : Act.Mirrors (rested.flashless = begun.settle.settle) (first ++ again)
            (begun.power.settling ++ begun.settle.power.settling) := by
          refine settles.append fun same => ?_
          rw [same] at settlesAgain
          exact settlesAgain
        refine ⟨first ++ again ++ others, rfl, both.append fun same => ?_⟩
        rw [same] at goesOn
        exact goesOn

end Session

/-- What is seen of a controller: the pins that it has written, the state that it has made known, how
often it has fed the watchdog, and its answer to the host. -/
structure Shown where
  now : Nat
  writes : List PinWrite
  published : PowerState
  feeds : Nat
  answer : Option (List UInt8)
deriving DecidableEq

def Live.shown (live : Live) : Shown where
  now := live.now
  writes := live.hardware.writes
  published := live.ram.mailbox.published
  feeds := live.ram.feeds
  answer := live.ram.answer

namespace Act

/-- What rounds leave, one after the other, up to the next boot. -/
def untilBoot : List Act → List Live
  | .round _ left :: rest => left :: untilBoot rest
  | .inputs _ _ :: rest => untilBoot rest
  | _ => []

/-- What the boot that comes first leaves, and then every round up to the next boot. -/
def firstRun : List Act → List Live
  | .boot before reason :: rest => Controller.boot before reason :: untilBoot rest
  | _ => []

theorem Mirrors.untilBoot {meet : Prop} {acts mirrored : List Act}
    (mirrors : Mirrors meet acts mirrored) :
    (Act.untilBoot acts).map Live.flashless = Act.untilBoot mirrored := by
  induction mirrors with
  | done => rfl
  | @round _ left _ _ _ inductionHypothesis =>
    exact congrArg (left.flashless :: ·) inductionHypothesis
  | inputs _ inductionHypothesis => exact inductionHypothesis
  | boot => rfl

/-- Flash is not seen. -/
theorem map_shown_flashless (lives : List Live) :
    (lives.map Live.flashless).map Live.shown = lives.map Live.shown := by
  rw [List.map_map]
  rfl

end Act

/-- A command begins a record of its own, which no boot looks at. -/
theorem Session.flashless_boot_fresh {first second : Session} {reason : ResetReason}
    (same : first.power.hardware.flashless = second.power.hardware.flashless)
    (loaded : first.power.hardware.settingsAt reason = second.power.hardware.settingsAt reason) :
    (Controller.boot first.fresh.power.hardware reason).flashless =
      (Controller.boot second.fresh.power.hardware reason).flashless := by
  have begun (session : Session) :
      session.fresh.power.hardware = { session.power.hardware with writes := [] } :=
    session.power.hardware_onHardware fun hardware => { hardware with writes := [] }
  have recorded (hardware : Hardware) :
      { hardware with writes := [] }.settingsAt reason = hardware.settingsAt reason := by
    cases reason <;> rfl
  rw [begun, begun]
  refine flashless_boot ?_ ?_
  · exact congrArg (fun hardware : Hardware => { hardware with writes := [] }) same
  · rw [recorded, recorded, loaded]

/-- What is left up to the second boot, but for flash, comes of what the first leaves and of what is
done to the controller after it. -/
theorem Session.Runs.firstRun {session last : Session} {reason : ResetReason}
    {commands : List Command} {acts : List Act}
    (runs : session.Runs (.apply (.boot reason) :: commands) acts last) :
    let booted := (Controller.boot session.fresh.power.hardware reason).flashless
    (Act.firstRun acts).map Live.flashless = booted :: Act.untilBoot
      (actsAfterBoot (commands.map Command.faultless)
        ⟨.on booted, session.timed.map Timed.faultless⟩) := by
  intro booted
  obtain ⟨later, rfl, mirrored⟩ := runs.mirrors_boot
  exact congrArg (booted :: ·) mirrored.untilBoot

/-- Faults of the flash are not seen. In two runs from a boot that has read the same settings back, in
which the same is done to the controller but for flash, every round leaves the same pin writes, the same
state, as many feeds of the watchdog and the same answer to the host, up to the next boot, whichever
accesses to flash succeed. So do two sessions in which flash is made to fail at other times. -/
theorem flash_faults_unseen {reason : ResetReason} {first second : Session}
    {commands others : List Session.Command}
    (hardware : first.power.hardware.flashless = second.power.hardware.flashless)
    (loaded : first.power.hardware.settingsAt reason = second.power.hardware.settingsAt reason)
    (waiting : first.timed.map Timed.faultless = second.timed.map Timed.faultless)
    (script : commands.map Session.Command.faultless = others.map Session.Command.faultless) :
    let boots : Session.Command := .apply (.boot reason)
    (∀ acts last acts' last', first.Runs (boots :: commands) acts last →
      second.Runs (boots :: others) acts' last' →
      (Act.firstRun acts).map Live.shown = (Act.firstRun acts').map Live.shown) ∧
    (Act.firstRun (Session.acts (boots :: commands) first)).map Live.shown =
      (Act.firstRun (Session.acts (boots :: others) second)).map Live.shown := by
  intro boots
  have same : ∀ acts last acts' last', first.Runs (boots :: commands) acts last →
      second.Runs (boots :: others) acts' last' →
      (Act.firstRun acts).map Live.shown = (Act.firstRun acts').map Live.shown := by
    intro acts last acts' last' runs runs'
    rw [← Act.map_shown_flashless, ← Act.map_shown_flashless (Act.firstRun acts'), runs.firstRun,
      runs'.firstRun, Session.flashless_boot_fresh hardware loaded, waiting, script]
  exact ⟨same, same _ _ _ _ (first.runs_acts _) (second.runs_acts _)⟩

/-- The host sets the hold time to a second and reads it back, with a flash that fails from the first
change on and works again a millisecond later. -/
def setsUnderFaults : List Session.Command :=
  [.apply (.flashFails true), .apply (.after 1 (.flashFails false)),
    .apply (.transfer (.write [0x15, 0x03, 0xe8])), .apply (.transfer (.writeRead [0x15] 2)),
    .advance 2]

/-- The change never gets to flash, and the host is told all the same. -/
theorem flash_faults_unseen_holdTime :
    let first : Session := ⟨.off {}, []⟩
    let boots : Session.Command := .apply (.boot .power)
    let others := setsUnderFaults.map Session.Command.faultless
    (Act.firstRun (Session.acts (boots :: setsUnderFaults) first)).map Live.shown =
        (Act.firstRun (Session.acts (boots :: others) first)).map Live.shown ∧
      some [0x03, 0xe8] ∈ (Act.firstRun (Session.acts (boots :: others) first)).map
        (fun left => left.shown.answer) ∧
      (first.executeAll (boots :: setsUnderFaults)).power.hardware.flash.stored = [] ∧
      (first.executeAll (boots :: others)).power.hardware.flash.stored = [.longPress 1000] := by
  intro first boots others
  have unseen := @flash_faults_unseen .power first first setsUnderFaults others rfl rfl rfl rfl
  refine ⟨unseen.2, ?_, ?_, ?_⟩
  · decide +kernel
  · decide +kernel
  · decide +kernel

end RailSequencer.Controller
