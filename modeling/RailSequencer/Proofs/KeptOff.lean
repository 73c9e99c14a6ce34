import RailSequencer.Proofs.ControllerRuns

/-!
# A processor that is kept off

A controller that boots with the request to keep the processor off begins in G3, whatever its
settings say, and stays there until somebody asks for power. All that its power task may do
meanwhile is to serve resets, so `Task.KeepsOff` is what a turn from G3 looks like from any point
on: it drives the reset line, sleeps, and ends at rest in G3. `Live.KeepsOff` says that the power
task has come no further than that, and is kept by everything that happens.
-/

namespace RailSequencer

/-- Hard off, and nobody asks for power. -/
structure Mailbox.KeepsOff (mailbox : Mailbox) : Prop where
  published : mailbox.published = .g3
  unasked : mailbox.powerOnRequested = false

/-- What is left of a turn ends at rest in G3 and drives at most the reset line, as long as nobody
asks for power meanwhile. -/
inductive Task.KeepsOff : Task Turn → Prop where
  | done {memory : Memory} (off : memory.mailbox.KeepsOff) : KeepsOff (.done memory (.rest .g3))
  | drive {memory : Memory} {level : Level} {resume : Mailbox → Unit → Task Turn}
      (off : memory.mailbox.KeepsOff)
      (rest : ∀ mailbox, mailbox.KeepsOff → KeepsOff (resume mailbox ())) :
      KeepsOff (.ask memory (.drive .sysRstL level) resume)
  | sleep {memory : Memory} {us : Nat} {resume : Mailbox → Unit → Task Turn}
      (off : memory.mailbox.KeepsOff)
      (rest : ∀ mailbox, mailbox.KeepsOff → KeepsOff (resume mailbox ())) :
      KeepsOff (.ask memory (.sleep us) resume)

namespace Program

variable {tree : PowerTree} {memory : Memory}

theorem step_keepsOff (off : memory.mailbox.KeepsOff) :
    step tree .g3 memory = .done memory.takeShutdown.dropPowerOn .g3 := by
  change (if memory.mailbox.powerOnRequested then pure .g3s5 else pure .g3 : Program PowerState)
    memory.takeShutdown.dropPowerOn = _
  rw [off.unasked]
  rfl

/-- A turn from G3 serves a reset request, and rests. -/
theorem turn_keepsOff (tree : PowerTree) (off : memory.mailbox.KeepsOff) :
    (turn tree .g3 memory).KeepsOff := by
  have ends {served : Memory} (still : served.mailbox.KeepsOff) :
      Task.KeepsOff ((step tree .g3 served).bind (conclude .g3)) := by
    rw [step_keepsOff still, Task.bind_done, conclude_apply]
    exact .done ⟨still.published, rfl⟩
  have taken : memory.takeReset.mailbox.KeepsOff := ⟨off.published, off.unasked⟩
  change Task.KeepsOff ((serveReset memory).bind fun _ served =>
    (step tree .g3 served).bind (conclude .g3))
  rw [serveReset_apply]
  split
  · exact .drive taken fun _ low => .sleep low fun _ slept => .drive slept fun _ high => ends high
  · exact ends taken

/-- The start of a controller that was told to keep the processor off. -/
theorem start_keepsOff {boot : BootInfo} (jumped : boot.jumped = false)
    (keepOff : boot.keepOff = true) : start tree boot memory = .done (memory.publish .g3) .g3 := by
  obtain ⟨_, _, autoPowerOn⟩ := boot
  subst jumped keepOff
  cases autoPowerOn <;> rfl

end Program

namespace Controller

/-- Where the power task waits, it is on its way to rest in G3. -/
def PowerTask.KeepsOff : PowerTask → Prop
  | .resting _ state => state = .g3
  | .sleeping _ _ resume => ∀ mailbox : Mailbox, mailbox.KeepsOff → (resume mailbox).KeepsOff
  | .watching _ _ _ _ => False

def Progress.KeepsOff : Progress → Prop
  | .ended _ turn => turn = .rest .g3
  | .waiting power => power.KeepsOff

namespace Live

/-- Every rail that has a pin has this level on it, apart from the reset line. -/
def ShowsSupplies (live : Live) (levels : RailAssignment Level) : Prop :=
  ∀ rail pin, rail ≠ .sysRstL → pinOf? rail = some pin →
    live.ram.outputs.get pin = some (levels.get rail)

variable {live : Live} {levels : RailAssignment Level} {progress : Progress}

/-- The reset line may be driven. -/
theorem ShowsSupplies.driveReset (shows : live.ShowsSupplies levels) (level : Level) :
    (live.driveRail .sysRstL level).ShowsSupplies levels := by
  intro rail pin supply atPin
  have apart : (0 : Pin) ≠ pin := by
    rintro rfl
    exact supply (pinOf?_injective atPin rfl)
  have driven : live.driveRail .sysRstL level = live.drive 0 level := rfl
  rw [driven, drive, PinMap.get_set, if_neg apart]
  exact shows rail pin supply atPin

/-- The processor is off, on these levels, and the power task has come no further than that. -/
structure KeepsOff (live : Live) (levels : RailAssignment Level) (progress : Progress) : Prop where
  mailbox : live.ram.mailbox.KeepsOff
  progress : progress.KeepsOff
  shows : live.ShowsSupplies levels

namespace KeepsOff

/-- What is left of a turn goes on as far as it can. -/
theorem proceed {task : Task Turn} (off : task.KeepsOff) (shows : live.ShowsSupplies levels) :
    (PowerTask.proceed task live).1.KeepsOff levels (PowerTask.proceed task live).2 := by
  induction off generalizing live with
  | done off => exact ⟨off, rfl, shows⟩
  | @drive memory level resume off rest inductionHypothesis =>
    have handed := ((live.handOver memory).answerAtOnce_ram (.drive .sysRstL level)).1
    rw [PowerTask.proceed_ask rfl, handed]
    have before : (live.handOver memory).ShowsSupplies levels := shows
    exact inductionHypothesis _ off (before.driveReset level)
  | sleep off rest => exact ⟨off, rest, shows⟩

/-- Turn after turn is taken from G3. -/
theorem kept (levels : RailAssignment Level) :
    TurnInvariant fun live progress => live.KeepsOff levels progress where
  turn off := absurd off.progress nofun
  wake {live memory state} off := by
    obtain rfl : state = .g3 := Turn.rest.inj off.progress
    let awake := live.onMailbox fun mailbox => { mailbox with woken := false }
    have still : awake.ram.mailbox.KeepsOff := ⟨off.mailbox.published, off.mailbox.unasked⟩
    have turned : (PowerTask.beginTurn awake memory .g3).KeepsOff :=
      Program.turn_keepsOff _ still
    have shows : awake.ShowsSupplies levels := off.shows
    exact proceed turned shows
  rest off := ⟨off.mailbox, Turn.rest.inj off.progress, off.shows⟩
  putOff off := absurd off.progress nofun

theorem putAway (off : live.KeepsOff levels progress) :
    let after := PowerTask.putAway (PowerTask.serve PowerTask.turnsAtOnce (live, progress))
    after.KeepsOff levels (.waiting after.ram.power) := by
  have served := (kept levels).serve PowerTask.turnsAtOnce off
  exact ⟨served.mailbox, served.progress, served.shows⟩

/-- One look at the power task. -/
theorem poll (off : live.KeepsOff levels (.waiting live.ram.power)) :
    (PowerTask.poll live).KeepsOff levels (.waiting (PowerTask.poll live).ram.power) := by
  have waiting : live.ram.power.KeepsOff := off.progress
  have looked := PowerTask.looked_poll live
  generalize PowerTask.poll live = after at looked
  cases looked with
  | asleep => exact off
  | watches watching sampled =>
    rw [watching] at waiting
    exact waiting.elim
  | resumes resumes sampled =>
    have shows : (live.keepSampled sampled).ShowsSupplies levels := off.shows
    generalize live.ram.power = power at waiting resumes
    cases resumes with
    | slept => exact (proceed (waiting _ off.mailbox) shows).putAway
    | watched => exact waiting.elim
  | wakes rests woken =>
    rw [rests] at waiting
    obtain rfl := waiting
    exact putAway ⟨off.mailbox, rfl, off.shows⟩

/-- Whatever happens, as long as nobody asks for power. -/
theorem happens {after : Live} (off : live.KeepsOff levels (.waiting live.ram.power))
    (last : live.Happens after) (unasked : after.ram.mailbox.powerOnRequested = false) :
    after.KeepsOff levels (.waiting after.ram.power) := by
  rcases last.leaves_or_polls with ⟨power, -, outputs, ⟨calls, mailbox⟩, -⟩ | rfl
  · have heard := Mailbox.heard_performAll live.ram.mailbox calls
    rw [← mailbox] at heard
    refine ⟨⟨heard.published.trans off.mailbox.published, unasked⟩, ?_, ?_⟩
    · rw [power]
      exact off.progress
    · intro rail pin supply atPin
      rw [outputs]
      exact off.shows rail pin supply atPin
  · exact off.poll

/-- The power task is launched with the request to keep the processor off. -/
theorem launch {boot : BootInfo} (jumped : boot.jumped = false) (keepOff : boot.keepOff = true)
    (unasked : live.ram.mailbox.powerOnRequested = false) (shows : live.Shows levels) :
    (PowerTask.launch live boot).KeepsOff levels
      (.waiting (PowerTask.launch live boot).ram.power) := by
  let memory : Memory := { mailbox := live.ram.mailbox }
  have first : PowerTask.firstTurn live.ram.tree boot memory =
      Program.turn live.ram.tree .g3 (memory.publish .g3) := by
    change (Program.start live.ram.tree boot memory).bind _ = _
    rw [Program.start_keepsOff jumped keepOff]
    rfl
  have launched : PowerTask.launch live boot = PowerTask.putAway (PowerTask.serve
      PowerTask.turnsAtOnce (PowerTask.proceed (PowerTask.firstTurn live.ram.tree boot memory)
        live)) := rfl
  rw [launched, first]
  have turned : (Program.turn live.ram.tree .g3 (memory.publish .g3)).KeepsOff :=
    Program.turn_keepsOff live.ram.tree ⟨rfl, unasked⟩
  exact (proceed turned fun rail pin _ atPin => shows rail pin atPin).putAway

end KeepsOff

/-- What has happened since `first`, where nobody has asked for power. -/
inductive UnaskedSince (first : Live) : Live → Prop where
  | refl : UnaskedSince first first
  | step {before after : Live} (prior : UnaskedSince first before) (last : before.Happens after)
      (unasked : after.ram.mailbox.powerOnRequested = false) : UnaskedSince first after

theorem UnaskedSince.keepsOff {first : Live} (since : UnaskedSince first live)
    (off : first.KeepsOff levels (.waiting first.ram.power)) :
    live.KeepsOff levels (.waiting live.ram.power) := by
  induction since with
  | refl => exact off
  | step prior last unasked inductionHypothesis => exact inductionHypothesis.happens last unasked

/-- A boot that is told to keep the processor off does so. -/
theorem keepsOff_boot {before : Hardware} {reason : ResetReason}
    (jumped : (before.infoAt reason).jumped = false)
    (keepOff : (before.infoAt reason).keepOff = true) :
    (boot before reason).KeepsOff ((before.treeAt reason).tables.restingLevels false)
      (.waiting (boot before reason).ram.power) := by
  obtain ⟨ready, prepared, booted⟩ := boot_eq_launch before reason
  have stays : before.resumesAt reason = false := by
    rw [Hardware.resumesAt, jumped, Bool.false_and]
  rw [stays] at booted
  rw [booted]
  obtain ⟨mailbox, -, -⟩ := ready.ram_setUpOutputs
    ((before.treeAt reason).tables.restingLevels false) (.ofBool false)
  refine .launch jumped keepOff ?_ (ready.shows_setUpOutputs _ _)
  rw [mailbox, prepared.mailbox]
  rfl

end Live

end Controller

end RailSequencer
