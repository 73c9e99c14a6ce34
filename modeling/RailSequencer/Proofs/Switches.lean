import RailSequencer.Proofs.Senses

/-!
# The power button and the lid

`SwitchLine.Watched` follows one of the two switches of a controller through all that happens to the
controller, and keeps the log of its line. Seen so, the controller is a `Contact`
(`SwitchLine.Watched.reaches`), so that its switches alternate and settle as every contact does. In a
session the log is the one that the acts since the last boot make (`SwitchLine.log`).

The controller also keeps whether the power button is pressed. It starts with a button that is not
pressed, whatever the line says, and takes note of reports only; so it is wrong about a button that
is held at the boot, and right about it from the first report on (`buttonPressed_iff_low`).
-/

namespace RailSequencer.Controller

/-- The debounced inputs of the controller. -/
inductive SwitchLine where
  | button
  | lid
deriving DecidableEq, Repr

namespace SwitchLine

def pin : SwitchLine → Pin
  | .button => Pin.button
  | .lid => Pin.lid

/-- The switch that watches the line. -/
def switch : SwitchLine → Senses → Switch
  | .button => Senses.button
  | .lid => Senses.lid

/-- A look at the switch. -/
def look : SwitchLine → Live → Live
  | .button => Live.pollButton
  | .lid => Live.pollLid

/-- The call by which a level is reported. The button pulls its line low. -/
def call : SwitchLine → Bool → Mailbox.Call
  | .button, level => .powerButton !level
  | .lid, level => .lid level

theorem call_injective (which : SwitchLine) : Function.Injective which.call := by
  cases which with
  | button => exact fun _ _ same => Bool.not_inj (Mailbox.Call.powerButton.inj same)
  | lid => exact fun _ _ same => Mailbox.Call.lid.inj same

/-- The switch on its line, with what has happened to them. -/
def contact (which : SwitchLine) (live : Live) (log : List Sight) : Contact where
  now := live.senses.now
  level := live.senses.level which.pin
  switch := which.switch live.senses
  log := log

/-- The level that a look reports, if it reports one. -/
def reported? (which : SwitchLine) (live : Live) : Option Bool :=
  ((which.switch live.senses).poll live.senses.now (live.senses.level which.pin)).2

/-- Nothing is different about the switch and its line. -/
structure Unmoved (which : SwitchLine) (before after : Senses) : Prop where
  now : after.now = before.now
  level : after.level which.pin = before.level which.pin
  switch : which.switch after = which.switch before
  pressed : which = .button → after.buttonPressed = before.buttonPressed

/-- What has happened to the switch and its line since `first`. -/
inductive Watched (which : SwitchLine) (first : Live) : List Sight → Live → Prop where
  | begins : Watched which first [] first
  | looks {log : List Sight} {live : Live} (prior : Watched which first log live) :
      Watched which first
        (log ++ ((which.reported? live).map (Sight.report live.senses.now)).toList) (which.look live)
  /-- The line is moved, or another one. -/
  | moves {log : List Sight} {live moved : Live} (prior : Watched which first log live)
      (change : Hardware → Hardware) (moves : Session.moveInputs change (.on live) = .on moved)
      (now : moved.senses.now = live.senses.now) :
      Watched which first
        (log ++ if live.senses.level which.pin != moved.senses.level which.pin then
          [.flip live.senses.now] else []) moved
  | passes {log : List Sight} {live : Live} {time : Nat} (prior : Watched which first log live)
      (later : live.now ≤ time) (rests : live.senses.Rests) (reaches : live.Reaches time) :
      Watched which first log (live.passTo time)
  | elsewhere {log : List Sight} {live after : Live} (prior : Watched which first log live)
      (happens : live.Happens after) (unmoved : which.Unmoved live.senses after.senses) :
      Watched which first log after

/-- The log of the line after one more act. A boot begins a new one. -/
def note (which : SwitchLine) (log : List Sight) : Act → List Sight
  | .round found _ =>
    log ++ ((which.reported? found).map (Sight.report found.senses.now)).toList
  | .inputs found left =>
    log ++ if found.senses.level which.pin != left.senses.level which.pin then
      [.flip found.senses.now] else []
  | .boot _ _ => []

/-- The log of the line since the last boot. -/
def log (which : SwitchLine) (acts : List Act) : List Sight := acts.foldl which.note []

theorem log_concat (which : SwitchLine) (acts : List Act) (act : Act) :
    which.log (acts ++ [act]) = which.note (which.log acts) act :=
  List.foldl_append ..

variable {which : SwitchLine} {first live after : Live} {log : List Sight}

theorem Unmoved.trans {before middle last : Senses} (begun : which.Unmoved before middle)
    (rest : which.Unmoved middle last) : which.Unmoved before last :=
  ⟨rest.now.trans begun.now, rest.level.trans begun.level, rest.switch.trans begun.switch,
    fun button => (rest.pressed button).trans (begun.pressed button)⟩

theorem Unmoved.of_eq {before after : Senses} (same : after = before) :
    which.Unmoved before after := by
  subst same
  exact ⟨rfl, rfl, rfl, fun _ => rfl⟩

theorem contact_look (which : SwitchLine) (live : Live) (log : List Sight) :
    which.contact (which.look live)
      (log ++ ((which.reported? live).map (Sight.report live.senses.now)).toList) =
        (which.contact live log).look := by
  cases which with
  | button => rw [contact, look, Live.senses_pollButton]; rfl
  | lid => rw [contact, look, Live.senses_pollLid]; rfl

theorem contact_of_unmoved (unmoved : which.Unmoved live.senses after.senses) :
    which.contact after log = which.contact live log := by
  rw [contact, unmoved.now, unmoved.level, unmoved.switch, contact]

theorem switch_moveInputs (which : SwitchLine) {moved : Live} {change : Hardware → Hardware}
    (moves : Session.moveInputs change (.on live) = .on moved) :
    which.switch moved.senses =
      if live.senses.level which.pin != moved.senses.level which.pin then
        (which.switch live.senses).edge else which.switch live.senses := by
  have senses := Live.senses_moveInputs moves
  cases which with
  | button => exact congrArg Senses.button senses
  | lid => exact congrArg Senses.lid senses

theorem contact_passTo (which : SwitchLine) (live : Live) (time : Nat) (log : List Sight) :
    which.contact (live.passTo time) log = (which.contact live log).passTo time := by
  cases which <;> rfl

theorem isReady_of_rests (which : SwitchLine) (rests : live.senses.Rests) :
    (which.switch live.senses).isReady live.senses.now = false := by
  cases which with
  | button => exact rests.button
  | lid => exact rests.lid

/-- No time passes before a switch has looked at a line that settles. -/
theorem le_deadline {time : Nat} (which : SwitchLine) (rests : live.senses.Rests)
    (reaches : live.Reaches time) :
    ∀ deadline ∈ (which.switch live.senses).deadline?, time ≤ deadline := by
  intro deadline waits
  apply reaches
  · refine List.mem_append_right _ (List.mem_filterMap.mpr ⟨_, ?_, waits⟩)
    cases which with
    | button => exact List.mem_cons_self
    | lid => exact List.mem_cons_of_mem _ List.mem_cons_self
  · have settling := Switch.phase_of_deadline waits
    have early := which.isReady_of_rests rests
    rw [Switch.isReady, settling] at early
    exact Nat.lt_of_not_le (of_decide_eq_false early)

/-- A controller is seen from one of its switches as a contact. -/
theorem Watched.reaches {begun : Contact} (same : which.contact first [] = begun)
    (watched : which.Watched first log live) : begun.Reaches (which.contact live log) := by
  induction watched with
  | begins => exact same ▸ .refl
  | @looks log live _ inductionHypothesis =>
    rw [contact_look]
    exact inductionHypothesis.tail .looks
  | @moves log live moved _ change moves now inductionHypothesis =>
    have switched := which.switch_moveInputs moves
    by_cases same : live.senses.level which.pin = moved.senses.level which.pin
    · simp only [same, bne_self_eq_false, Bool.false_eq_true, if_false] at switched
      simp only [same, bne_self_eq_false, Bool.false_eq_true, if_false, List.append_nil]
      have unmoved : which.contact moved log = which.contact live log := by
        rw [contact, now, ← same, switched, contact]
      rw [unmoved]
      exact inductionHypothesis
    · have flipped : moved.senses.level which.pin = !live.senses.level which.pin :=
        Bool.eq_not_of_ne (Ne.symm same)
      have flips : which.contact moved (log ++ [.flip live.senses.now]) =
          (which.contact live log).flip := by
        rw [if_pos (bne_iff_ne.mpr same)] at switched
        rw [contact, now, flipped, switched, contact, Contact.flip]
      rw [if_pos (bne_iff_ne.mpr same), flips]
      exact inductionHypothesis.tail .flips
  | @passes log live time _ later rests reaches inductionHypothesis =>
    rw [contact_passTo]
    exact inductionHypothesis.tail (.passes later (which.isReady_of_rests rests)
      (which.le_deadline rests reaches))
  | elsewhere _ _ unmoved inductionHypothesis =>
    rw [contact_of_unmoved unmoved]
    exact inductionHypothesis

theorem reported?_of_unmoved (unmoved : which.Unmoved live.senses after.senses) :
    which.reported? after = which.reported? live := by
  rw [reported?, unmoved.switch, unmoved.now, unmoved.level, reported?]

theorem unmoved_pollConverter (which : SwitchLine) (live : Live) :
    which.Unmoved live.senses live.pollConverter.senses := by
  rw [Live.senses_pollConverter]
  cases which with
  | button => exact ⟨rfl, rfl, rfl, fun _ => rfl⟩
  | lid => exact ⟨rfl, rfl, rfl, nofun⟩

/-- A look at one switch does not concern the other. -/
theorem unmoved_pollLid (live : Live) :
    SwitchLine.button.Unmoved live.senses live.pollLid.senses := by
  rw [Live.senses_pollLid]
  exact ⟨rfl, rfl, rfl, fun _ => rfl⟩

theorem unmoved_pollButton (live : Live) :
    SwitchLine.lid.Unmoved live.senses live.pollButton.senses := by
  rw [Live.senses_pollButton]
  exact ⟨rfl, rfl, rfl, nofun⟩

/-- A round looks at the switch once, and finds it as the round has found it. -/
theorem Watched.round (watched : which.Watched first log live) :
    which.Watched first (which.note log (.round live live.round)) live.round := by
  have unmoved : which.Unmoved live.senses live.beforeConverter.pollConverter.senses :=
    Unmoved.trans (.of_eq live.senses_beforeConverter) (which.unmoved_pollConverter _)
  have fed := watched.elsewhere .feeder (.of_eq live.senses_pollFeeder)
  have stored := fed.elsewhere .store (.of_eq (Live.senses_pollStore _))
  have sampled : which.Watched first log live.beforeConverter :=
    stored.elsewhere .sampler (.of_eq (Live.senses_pollSampler _))
  have read := sampled.elsewhere .converter (which.unmoved_pollConverter _)
  have looked : which.Watched first (which.note log (.round live live.round))
      live.beforeConverter.pollConverter.pollButton.pollLid := by
    cases which with
    | button =>
      rw [note, ← reported?_of_unmoved unmoved, ← unmoved.now]
      exact read.looks.elsewhere .lid (unmoved_pollLid _)
    | lid =>
      have unmoved := unmoved.trans (unmoved_pollButton _)
      rw [note, ← reported?_of_unmoved unmoved, ← unmoved.now]
      exact (read.elsewhere .button (unmoved_pollButton _)).looks
  have timed := looked.elsewhere .timer (.of_eq (Live.senses_pollTimer _))
  exact (timed.elsewhere .power (.of_eq (Live.senses_poll _))).elsewhere .host
    (.of_eq (Live.senses_pollHost _))

/-- A boot begins with both switches at the levels of their lines. -/
theorem contact_boot (which : SwitchLine) (before : Hardware) (reason : ResetReason) :
    which.contact (boot before reason) [] =
      .begin before.now ((before.forced.get which.pin).getD true) := by
  rw [contact, senses_boot]
  cases which <;> rfl

theorem reported?_eq (which : SwitchLine) (live : Live) : which.reported? live =
    ((which.switch live.senses).poll live.now (live.hardware.inputLevel which.pin true)).2 := by
  cases which with
  | button => rw [reported?, ← Live.level_senses live rfl]; rfl
  | lid => rw [reported?, ← Live.level_senses live rfl]; rfl

/-- A look tells the others of what it reports, and of nothing else. -/
theorem mailbox_look (which : SwitchLine) (live : Live) : (which.look live).ram.mailbox =
    live.ram.mailbox.performAll ((which.reported? live).map which.call).toList := by
  rw [reported?_eq]
  cases which with
  | button =>
    simp only [look, Live.pollButton, switch, pin, Live.senses]
    split
    next nothing => rw [nothing]; rfl
    next released settled => rw [settled]; rfl
  | lid =>
    simp only [look, Live.pollLid, switch, pin, Live.senses]
    split
    next nothing => rw [nothing]; rfl
    next isOpen settled => rw [settled]; rfl

/-- A look at the button takes note of what it reports. -/
theorem buttonPressed_look (live : Live) : live.pollButton.senses.buttonPressed =
    ((SwitchLine.button.reported? live).map not).getD live.senses.buttonPressed := by
  rw [reported?_eq]
  simp only [Live.pollButton, switch, pin, Live.senses]
  split
  next nothing => rw [nothing]; rfl
  next released settled => rw [settled]; rfl

/-- The button counts as pressed when the last report says so. -/
theorem Watched.buttonPressed (watched : SwitchLine.button.Watched first log live)
    (begun : first.senses.buttonPressed = false) :
    live.senses.buttonPressed = ((Sight.reported log).getLast?.map not).getD false := by
  induction watched with
  | begins => exact begun
  | @looks log live _ inductionHypothesis =>
    rw [look, buttonPressed_look, inductionHypothesis]
    cases SwitchLine.button.reported? live with
    | none => simp
    | some level => simp
  | @moves log live moved _ change moves now inductionHypothesis =>
    have same : moved.senses.buttonPressed = live.senses.buttonPressed := by
      rw [Live.senses_moveInputs moves]
    rw [same, inductionHypothesis]
    split
    · simp
    · simp
  | passes _ _ _ _ inductionHypothesis => exact inductionHypothesis
  | elsewhere _ _ unmoved inductionHypothesis => exact (unmoved.pressed rfl).trans inductionHypothesis

end SwitchLine

/-- So a switch can be followed from every boot on, and its log is that of the acts. -/
def BootInvariant.watched (which : SwitchLine) : BootInvariant where
  holds first past live := which.Watched first (which.log past) live
  boot past before reason := by
    rw [which.log_concat]
    exact .begins
  round watched := by
    rw [which.log_concat]
    exact watched.round
  inputs {first past live change} timeless watched := by
    rw [which.log_concat]
    exact watched.moves change rfl (timeless live.hardware)
  passes later rests reaches watched := watched.passes later rests reaches
  unsensed happens same watched := watched.elsewhere happens (.of_eq same)

/-- Switches alternate and settle. However a line moves, and whenever the switch on it is looked at,
the levels that it reports take turns, and the first of them is not the level that was read at the
start. Each is the level that the line really has, as long after some change of it as the line gets to
settle. A line that has been at its level for longer than that is known to be there, from the last
report or from the start if there was none. No waveform is left out.

The button and the lid of the controller are such switches, in every session, and the log of each is
that of the acts since the last boot: what its line did and what its rounds reported. What is reported
is what the power task is told, so it is never told the same twice in a row. -/
theorem switches_settle :
    (∀ start level contact, (Contact.begin start level).Reaches contact →
      (level :: contact.reports).IsChain (· ≠ ·) ∧
      Sight.Ordered contact.log contact.now ∧
      contact.level = Sight.levelAfter level contact.log ∧
      (∀ earlier time reported later, contact.log = earlier ++ .report time reported :: later →
        reported = Sight.levelAfter level earlier ∧
          ∃ change ∈ Sight.flips earlier, time = change + Switch.settleUs) ∧
      ((∀ change ∈ Sight.flips contact.log, change + Switch.settleUs < contact.now) →
        contact.reports.getLastD level = contact.level)) ∧
    (∀ start level changes finish, (start :: (changes ++ [finish])).Pairwise (· ≤ ·) →
      ∃ contact, (Contact.begin start level).Reaches contact ∧ contact.now = finish ∧
        Sight.flips contact.log = changes) ∧
    ∀ which : SwitchLine,
      (∀ before reason log live, which.Watched (boot before reason) log live →
        (Contact.begin before.now ((before.forced.get which.pin).getD true)).Reaches
          (which.contact live log) ∧
        ((Sight.reported log).map which.call).IsChain (· ≠ ·)) ∧
      (∀ live log,
        which.contact (which.look live)
          (log ++ ((which.reported? live).map (Sight.report live.senses.now)).toList) =
            (which.contact live log).look ∧
        (which.look live).ram.mailbox =
          live.ram.mailbox.performAll ((which.reported? live).map which.call).toList) ∧
      ∀ hardware timed commands live,
        (Session.executeAll ⟨.off hardware, timed⟩ commands).power = .on live →
          let acts := Session.acts commands ⟨.off hardware, timed⟩
          ∃ before reason, Act.lastBoot? acts = some (before, reason) ∧
            which.Watched (boot before reason) (which.log acts) live := by
  refine ⟨?_, ?_, fun which => ⟨?_, ?_, ?_⟩⟩
  · intro start level contact reaches
    have debounced := Contact.Debounced.of_reaches reaches
    exact ⟨debounced.alternating, debounced.ordered, debounced.level, debounced.genuine,
      fun settled => (debounced.level_of_settled settled).symm⟩
  · exact fun start level _ _ ordered => (Contact.begin start level).exists_reaches ordered
  · intro before reason log live watched
    have reaches := watched.reaches (which.contact_boot before reason)
    refine ⟨reaches, ?_⟩
    have alternating := (Contact.Debounced.of_reaches reaches).alternating.tail
    exact (List.isChain_map _).mpr (alternating.imp fun _ _ apart => which.call_injective.ne apart)
  · exact fun live log => ⟨which.contact_look live log, which.mailbox_look live⟩
  · exact fun _ _ _ _ on => (BootInvariant.watched which).holds_acts on

/-- The lid is closed after a boot. -/
def closesLid : List Session.Command :=
  [.apply (.boot .power), .apply (.force Pin.lid (some false)), .advance 40]

/-- A line bounces when it is pulled low, a millisecond after the start, and again while it settles.
Forty milliseconds later it is known to be low. In a session a lid is closed, which is reported when its
line has settled. -/
theorem switches_settle_bouncing :
    let changes := [1000, 1400, 2000, 30800, 31000]
    (∃ contact, (Contact.begin 0 true).Reaches contact ∧ contact.now = 71000 ∧
      Sight.flips contact.log = changes ∧ contact.reports.getLastD true = false) ∧
    ∃ live before reason, (Session.executeAll ⟨.off {}, []⟩ closesLid).power = .on live ∧
      SwitchLine.lid.Watched (boot before reason) [.flip 0, .report 30000 false] live := by
  intro changes
  obtain ⟨settles, every, controller⟩ := switches_settle
  obtain ⟨contact, reaches, now, flips⟩ := every 0 true changes 71000 (by decide)
  obtain ⟨-, -, level, -, known⟩ := settles 0 true contact reaches
  have settled : ∀ change ∈ Sight.flips contact.log, change + Switch.settleUs < contact.now := by
    rw [now, flips]
    decide
  have low : Sight.levelAfter true contact.log = false := by
    rw [Sight.levelAfter, flips]
    decide
  have passes : (Session.executeAll ⟨.off {}, []⟩ closesLid).power.passes (fun _ => true) = true := by
    decide +kernel
  have log : SwitchLine.lid.log (Session.acts closesLid ⟨.off {}, []⟩) =
      [.flip 0, .report 30000 false] := by decide +kernel
  obtain ⟨live, on, -⟩ := Power.exists_of_passes passes
  obtain ⟨before, reason, -, watched⟩ := (controller .lid).2.2 _ _ _ live on
  rw [log] at watched
  exact ⟨⟨contact, reaches, now, flips, ((known settled).trans level).trans low⟩,
    live, before, reason, on, watched⟩

/-- Whether the power task is told that the button is pressed, once its line has settled: it is, when
the line is low and has been reported since the boot or was high then. So it is told the truth, with
one exception. A button that was held at the boot, and has been held ever since, is not known to be
pressed. -/
theorem buttonPressed_iff_low {before : Hardware} {reason : ResetReason} {log : List Sight}
    {live : Live} (watched : SwitchLine.button.Watched (boot before reason) log live)
    (settled : ∀ change ∈ Sight.flips log, change + Switch.settleUs < live.now) :
    ((live.answerAtOnce .buttonPressed).2 = true ↔
      live.hardware.inputLevel Pin.button true = false ∧
        (before.inputLevel Pin.button true = true ∨ Sight.reported log ≠ [])) ∧
    ∀ hardware timed commands live,
      (Session.executeAll ⟨.off hardware, timed⟩ commands).power = .on live →
        let acts := Session.acts commands ⟨.off hardware, timed⟩
        ∃ before reason, Act.lastBoot? acts = some (before, reason) ∧
          SwitchLine.button.Watched (boot before reason) (SwitchLine.button.log acts) live := by
  constructor
  · have debounced :=
      Contact.Debounced.of_reaches (watched.reaches (SwitchLine.button.contact_boot before reason))
    have known : live.senses.level Pin.button =
        (Sight.reported log).getLastD ((before.forced.get Pin.button).getD true) :=
      debounced.level_of_settled settled
    have told := watched.buttonPressed (congrArg Senses.buttonPressed (senses_boot before reason))
    have answered : (live.answerAtOnce .buttonPressed).2 = live.senses.buttonPressed := rfl
    rw [answered, told, live.level_senses rfl, before.inputLevel_free rfl, known,
      List.getLastD_eq_getLast?]
    rcases List.eq_nil_or_concat (Sight.reported log) with nothing | ⟨earlier, level, some⟩
    · rw [nothing]
      simp
    · rw [some, List.concat_eq_append, List.getLast?_concat]
      simp
  · exact fun _ _ _ _ on => (BootInvariant.watched .button).holds_acts on

/-- The button is pressed right after a boot that found its line high, and is known to be pressed when
the line has settled. -/
theorem buttonPressed_iff_low_afterPress : ∃ log live,
    SwitchLine.button.Watched (boot {} .power) log live ∧ live.now = 31000 ∧
      (live.answerAtOnce .buttonPressed).2 = true := by
  have booted : SwitchLine.button.Watched (boot {} .power) [] (boot {} .power) := .begins
  have pressed := booted.moves (fun hardware =>
    { hardware with forced := hardware.forced.set Pin.button (some false) }) rfl rfl
  have first := pressed.looks.passes (show _ ≤ 1000 by decide)
    ⟨by decide +kernel, by decide +kernel⟩ (by decide +kernel)
  have second := first.passes (show _ ≤ 20000 by decide)
    ⟨by decide +kernel, by decide +kernel⟩ (by decide +kernel)
  have third := second.passes (show _ ≤ 30000 by decide)
    ⟨by decide +kernel, by decide +kernel⟩ (by decide +kernel)
  have settled := third.looks.passes (show _ ≤ 31000 by decide)
    ⟨by decide +kernel, by decide +kernel⟩ (by decide +kernel)
  exact ⟨_, _, settled, rfl, (buttonPressed_iff_low settled (by decide +kernel)).1.mpr
    ⟨by decide +kernel, .inl (by decide +kernel)⟩⟩

/-- The button is held at the boot, while the processor is powered on, and while it suspends, as it
asks for on a line of its own. -/
def heldThroughout (suspendLine : Pin) : Session :=
  Session.executeAll ⟨.off {}, []⟩
    [.apply (.force Pin.button (some false)), .apply (.force suspendLine (some true)),
      .apply (.vin 1300), .apply (.boot .power), .advance 130,
      .apply (.force suspendLine (some false)), .advance 80]

/-- All that time the power task is told that the button is not pressed, and so it leaves the processor
suspended. -/
theorem buttonPressed_heldThroughout : ∃ live, (heldThroughout 21).power = .on live ∧
    live.hardware.inputLevel Pin.button true = false ∧
    (live.answerAtOnce .buttonPressed).2 = false ∧ live.ram.mailbox.published = .s3 := by
  have held : (heldThroughout 21).power.passes (fun live =>
      !live.hardware.inputLevel Pin.button true && !live.ram.buttonPressed &&
        live.ram.mailbox.published == .s3) = true := by decide +kernel
  obtain ⟨live, on, told⟩ := Power.exists_of_passes held
  simp only [Bool.and_eq_true, beq_iff_eq, Bool.not_eq_true'] at told
  obtain ⟨⟨low, unpressed⟩, suspended⟩ := told
  exact ⟨live, on, low, unpressed, suspended⟩

end RailSequencer.Controller
