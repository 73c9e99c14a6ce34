import RailSequencer.Proofs.KeptOff
import RailSequencer.Proofs.Stores

/-!
# Restart requests are one-shot

The host has the controller restarted in one of two ways, and what it asked for crosses the reset in
the scratch registers. `Chronicle` is the history of a controller as far as they are concerned: who
asked for what, and which boots there were. Everything else leaves the registers alone, so they hold
what was asked for last since the last boot (`Chronicle.scratch_eq`), and a boot acts on it if it
was the controller that forced the reset. The history of a session is that of its acts
(`TimedInvariant.chronicle`): each boot, and each round that finds such a command on the host bus.
-/

namespace RailSequencer.Controller

/-- The two ways in which a restart is asked for. -/
inductive RestartRequest where
  | leaveRunning
  | keepOff
deriving DecidableEq, Repr

namespace RestartRequest

/-- The command of the host. -/
def command : RestartRequest → HostCommand
  | .leaveRunning => .restart
  | .keepOff => .restartOff

/-- What is left for the next boot. -/
def scratch : RestartRequest → Scratch
  | .leaveRunning => .warmRestart
  | .keepOff => .restartOff

end RestartRequest

/-- The restart that a command of the host asks for, if it asks for one. -/
def HostCommand.restartRequest? : HostCommand → Option RestartRequest
  | .restart => some .leaveRunning
  | .restartOff => some .keepOff
  | _ => none

theorem HostCommand.eq_command {command : HostCommand} {request : RestartRequest}
    (asks : command.restartRequest? = some request) : command = request.command := by
  cases command with
  | restart | restartOff =>
    obtain rfl := Option.some.inj asks
    rfl
  | changeSetting | setLongPress | powerOn | forceOff | reset =>
    exact absurd asks.symm (Option.some_ne_none _)

/-- What counts for the scratch registers. -/
inductive RestartEntry where
  | asked (request : RestartRequest)
  | booted (reason : ResetReason)
deriving DecidableEq, Repr

/-- The restart that the host is found to ask for, if it asks for one. -/
def Live.restartRequest? (live : Live) : Option RestartRequest :=
  live.command?.bind HostCommand.restartRequest?

/-- What counts of an act. -/
def Act.chronicled? : Act → Option RestartEntry
  | .round found _ => found.restartRequest?.map .asked
  | .boot _ reason => some (.booted reason)
  | .inputs _ _ => none

namespace RestartEntry

/-- What has been asked for since the last boot, and was asked for last. The newest entry comes
first. -/
def open? : List RestartEntry → Option RestartRequest
  | .asked request :: _ => some request
  | _ => none

/-- What counts of these acts. The newest entry comes first. -/
def ofActs (acts : List Act) : List RestartEntry := (acts.filterMap Act.chronicled?).reverse

theorem ofActs_concat (acts : List Act) (act : Act) :
    ofActs (acts ++ [act]) = act.chronicled?.toList ++ ofActs acts := by
  rw [ofActs, List.filterMap_append, List.reverse_append]
  cases counts : act.chronicled? with
  | none => simp [counts, ofActs]
  | some entry => simp [counts, ofActs]

end RestartEntry

/-- The history of a controller that began with zeroed scratch registers. The newest entry comes
first. -/
inductive Chronicle : List RestartEntry → Power → Prop where
  | begin {hardware : Hardware} (zeroed : hardware.scratch = {}) : Chronicle [] (.off hardware)
  | boot {entries : List RestartEntry} {power : Power} (prior : Chronicle entries power)
      (reason : ResetReason) :
      Chronicle (.booted reason :: entries) (.on (Controller.boot power.hardware reason))
  /-- The controller finds that the host asks for a restart. -/
  | ask {entries : List RestartEntry} {live : Live} (prior : Chronicle entries (.on live))
      (request : RestartRequest) (sent : live.command? = some request.command) :
      Chronicle (.asked request :: entries) (.on (pollHost live))
  /-- Something else happens to a running controller. -/
  | happens {entries : List RestartEntry} {before after : Live}
      (prior : Chronicle entries (.on before)) (last : before.Happens after)
      (same : after.hardware.scratch = before.hardware.scratch) : Chronicle entries (.on after)
  /-- The hardware changes, whether the controller is on or off. -/
  | around {entries : List RestartEntry} {power : Power} {change : Hardware → Hardware}
      (prior : Chronicle entries power)
      (same : ∀ hardware, (change hardware).scratch = hardware.scratch) :
      Chronicle entries (power.onHardware change)
  | off {entries : List RestartEntry} {power : Power} (prior : Chronicle entries power) :
      Chronicle entries (.off power.hardware)

namespace Chronicle

variable {entries : List RestartEntry} {power : Power}

/-- The scratch registers hold what has been asked for since the last boot. -/
theorem scratch_eq (chronicle : Chronicle entries power) :
    power.hardware.scratch = ((RestartEntry.open? entries).map RestartRequest.scratch).getD {} := by
  induction chronicle with
  | begin zeroed => exact zeroed
  | boot prior reason inductionHypothesis => exact (stores_boot _ reason).2.1
  | @ask entries live prior request sent inductionHypothesis =>
    rcases live.pollHost_cases with ⟨command, carried, executed⟩ | ⟨nothing, -⟩
    · obtain rfl := Option.some.inj (sent.symm.trans carried)
      rw [executed]
      cases request <;> rfl
    · exact absurd (sent.symm.trans nothing) (Option.some_ne_none _)
  | happens prior last same inductionHypothesis => exact same.trans inductionHypothesis
  | around prior same inductionHypothesis =>
    rw [Power.hardware_onHardware, same]
    exact inductionHypothesis
  | off prior inductionHypothesis => exact inductionHypothesis

/-- A boot takes up what was asked for since the last one, after a reset that the controller forced,
and nothing otherwise. -/
theorem infoAt_eq (chronicle : Chronicle entries power) (reason : ResetReason) :
    ((power.hardware.infoAt reason).jumped = true ↔
        reason = .forced ∧ RestartEntry.open? entries = some .leaveRunning) ∧
      ((power.hardware.infoAt reason).keepOff = true ↔
        reason = .forced ∧ RestartEntry.open? entries = some .keepOff) := by
  cases reason with
  | power | timeout => simp [Hardware.infoAt, Scratch.bootInfo]
  | forced =>
    simp only [Hardware.infoAt, Hardware.afterReset, chronicle.scratch_eq]
    generalize (power.hardware.settingsAt .forced).autoPowerOn = autoPowerOn
    cases RestartEntry.open? entries with
    | none => cases autoPowerOn <;> decide
    | some request => cases request <;> cases autoPowerOn <;> decide

/-- The host may ask for a restart, or for something else. -/
theorem host {live : Live} (prior : Chronicle entries (.on live)) :
    Chronicle ((live.restartRequest?.map .asked).toList ++ entries) (.on (pollHost live)) := by
  cases asks : live.restartRequest? with
  | some request =>
    obtain ⟨command, carried, requests⟩ := Option.bind_eq_some_iff.mp asks
    obtain rfl := HostCommand.eq_command requests
    exact prior.ask request carried
  | none =>
    apply prior.happens .host
    rcases live.pollHost_cases with ⟨command, carried, executed⟩ | ⟨-, _, _, untouched⟩
    · rw [Live.restartRequest?, carried] at asks
      rw [executed]
      cases command with
      | restart | restartOff => exact absurd asks (Option.some_ne_none _)
      | changeSetting | setLongPress | powerOn | forceOff | reset => rfl
    · rw [untouched]

/-- In a round nothing else touches the registers, and the host bus finds what the round has found. -/
theorem round {live : Live} (prior : Chronicle entries (.on live)) :
    Chronicle ((Act.round live live.round).chronicled?.toList ++ entries) (.on live.round) := by
  have fed := prior.happens .feeder (Live.SameStores.feeder _).scratch
  have stored := fed.happens .store (Live.scratch_pollStore _)
  have sampled := stored.happens .sampler (Live.SameStores.sampler _).scratch
  have read := sampled.happens .converter (Live.SameStores.converter _).scratch
  have pressed := read.happens .button (Live.SameStores.button _).scratch
  have moved := pressed.happens .lid (Live.SameStores.lid _).scratch
  have timed := moved.happens .timer (Live.SameStores.timer _).scratch
  have asked := (timed.happens .power (Live.SameStores.poll _).scratch).host
  have found : live.beforeHost.restartRequest? = live.restartRequest? := by
    rw [Live.restartRequest?, live.command?_beforeHost, Live.restartRequest?]
  rw [Act.chronicled?, ← found]
  exact asked

end Chronicle

/-- In a session in which nobody writes the scratch registers from outside, the history is that of the
acts. -/
def TimedInvariant.chronicle :
    TimedInvariant fun stimulus => stimulus.writesScratch = false where
  holds past power := Chronicle (RestartEntry.ofActs past) power
  rested _ := True
  boot reason prior := by
    rw [RestartEntry.ofActs_concat]
    exact ⟨prior.boot reason, trivial⟩
  off prior := prior.off
  round prior := by
    rw [RestartEntry.ofActs_concat]
    exact ⟨prior.round, trivial⟩
  idle _ := trivial
  passes {past live time} _ _ _ prior :=
    prior.happens (.hardware fun hardware => { hardware with now := time }) rfl
  passesOff {past hardware time} _ prior :=
    @Chronicle.around _ _ (fun hardware => { hardware with now := time }) prior fun _ => rfl
  still outside prior := prior.around fun hardware => (outside.around hardware).2
  inputs {past live change} outside _ prior := by
    rw [RestartEntry.ofActs_concat]
    exact prior.happens (.inputs change rfl) (outside live.hardware).2
  inputsOff outside prior := prior.around fun hardware => (outside hardware).2
  scratch written unwritten := absurd (unwritten.symm.trans written) Bool.false_ne_true
  setting {past power change} _ prior := by
    cases power with
    | on live => exact prior.happens (.setting change) rfl
    | off hardware => exact prior
  transfer {past live transfer} _ prior := prior.happens (.transfer transfer) rfl

/-- Restart requests are one-shot and never confused. Whatever boots there have been and whatever was
asked for between them, a boot finds the processor left running exactly when the controller forced
the reset and a restart that leaves it running was asked for last since the boot before; it keeps
the processor off exactly when the other kind was; and it leaves zeroed registers. After a boot that
keeps the processor off the controller publishes G3 and every supply is at rest, whatever the
settings say, until somebody asks for power. In every session that begins with zeroed registers, in
which nobody else writes them, the history is that of the acts: each boot with its reason, and what each
round has found the host to ask for. -/
theorem restart_requests_one_shot :
    (∀ entries power, Chronicle entries power → ∀ reason,
      let seen := power.hardware.infoAt reason
      let booted := boot power.hardware reason
      (∃ ready, booted = PowerTask.launch ready seen) ∧
      (seen.jumped = true ↔
        reason = .forced ∧ RestartEntry.open? entries = some .leaveRunning) ∧
      (seen.keepOff = true ↔ reason = .forced ∧ RestartEntry.open? entries = some .keepOff) ∧
      ¬(seen.jumped = true ∧ seen.keepOff = true) ∧
      booted.hardware.scratch = {} ∧
      (seen.keepOff = true → ∀ live, Live.UnaskedSince booted live →
        live.ram.mailbox.published = .g3 ∧
          live.ShowsSupplies ((power.hardware.treeAt reason).tables.restingLevels false))) ∧
    ∀ (hardware : Hardware) (timed : List Timed) (commands : List Session.Command),
      hardware.scratch = {} →
      (∀ waiting ∈ timed, waiting.stimulus.Fits fun stimulus => stimulus.writesScratch = false) →
      (∀ command ∈ commands, command.Fits fun stimulus => stimulus.writesScratch = false) →
      Chronicle (RestartEntry.ofActs (Session.acts commands ⟨.off hardware, timed⟩))
        (Session.executeAll ⟨.off hardware, timed⟩ commands).power := by
  refine ⟨?_, ?_⟩
  · intro entries power chronicle reason seen booted
    obtain ⟨jumped, keepOff⟩ := chronicle.infoAt_eq reason
    have apart : ¬(seen.jumped = true ∧ seen.keepOff = true) := by
      rintro ⟨running, off⟩
      have both := (jumped.mp running).2.symm.trans (keepOff.mp off).2
      exact absurd both (by decide)
    obtain ⟨ready, -, launched⟩ := boot_eq_launch power.hardware reason
    refine ⟨⟨_, launched⟩, jumped, keepOff, apart, (stores_boot _ reason).2.1, ?_⟩
    intro off live since
    have stopped : seen.jumped = false := Bool.eq_false_iff.mpr fun running =>
      apart ⟨running, off⟩
    have kept := since.keepsOff (Live.keepsOff_boot stopped off)
    exact ⟨kept.mailbox.published, kept.shows⟩
  · intro hardware timed commands zeroed waiting fits
    have begun : TimedInvariant.chronicle.recorded.holds [] (.off hardware) := .begin zeroed
    exact TimedInvariant.chronicle.recorded.holds_acts begun waiting fits

/-- A controller that has just powered up finds that the host asks for a restart after which the
processor stays off. -/
def askedOff : Live :=
  let started := boot {} .power
  pollHost { started with
    ram := { started.ram with transfer := some (.write [0x41]), answer := none } }

/-- In a session the host asks for the same. -/
def asksOff : List Session.Command :=
  [.apply (.boot .power), .apply (.transfer (.write [0x41])), .advance 1]

/-- That controller would power on by itself otherwise. A second after the restart it has not. In the
session the restart follows at once. -/
theorem restart_requests_one_shot_keptOff :
    (Chronicle [.asked .keepOff, .booted .power] (.on askedOff) ∧
      (askedOff.hardware.infoAt .forced).autoPowerOn = true ∧
      (askedOff.hardware.infoAt .forced).keepOff = true ∧
      (boot askedOff.hardware .forced).hardware.scratch = {} ∧
      ∃ later, Live.UnaskedSince (boot askedOff.hardware .forced) later ∧
        later.now = askedOff.now + 1000000 ∧ later.ram.mailbox.published = .g3) ∧
    Chronicle [.booted .forced, .asked .keepOff, .booted .power]
      (Session.executeAll ⟨.off {}, []⟩ asksOff).power := by
  have begun : Chronicle [] (.off {}) := .begin rfl
  have asked : Chronicle [.asked .keepOff, .booted .power] (.on askedOff) :=
    ((begun.boot .power).happens (.transfer (.write [0x41])) rfl).ask .keepOff rfl
  obtain ⟨-, -, keepOff, -, cleared, stays⟩ := restart_requests_one_shot.1 _ _ asked .forced
  have off := keepOff.mpr ⟨rfl, rfl⟩
  have second : Live.UnaskedSince (boot askedOff.hardware .forced) _ :=
    .step .refl (.hardware fun hardware => { hardware with now := hardware.now + 1000000 })
      (by decide +kernel)
  refine ⟨⟨asked, by decide +kernel, off, cleared, _, second, by decide +kernel,
    (stays off _ second).1⟩, ?_⟩
  have entries : RestartEntry.ofActs (Session.acts asksOff ⟨.off {}, []⟩) =
      [.booted .forced, .asked .keepOff, .booted .power] := by decide +kernel
  have history := restart_requests_one_shot.2 {} [] asksOff rfl nofun
    (by simp [asksOff, Session.Command.Fits, Stimulus.Fits, Stimulus.writesScratch])
  rw [entries] at history
  exact history

end RailSequencer.Controller
