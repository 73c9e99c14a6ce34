import RailSequencer.Proofs.Wiring

/-!
# At rest the power task agrees with the lines

A turn that ends at rest looks at the lines last of all, and rests only in a state that goes with
what it saw (`Program.turn_rests`). The lines that it sees are those that were sampled last, and
whoever samples others wakes it. So a power task that rests and has not been woken is in a state
that goes with the last sample (`Live.Informed`), however many changes were sampled while it slept
in a table, waited for supplies or held the reset line.
-/

namespace RailSequencer

/-- The power task may rest in this state while these lines are asserted. -/
def PowerTree.RestsIn (tree : PowerTree) (lines : SignalMask) : PowerState → Prop
  | .g3 => True
  | .s3 => lines.contains tree.pgoodS3 = true ∧ lines.contains .suspendDeasserted = false
  | .s0 => lines.contains tree.pgoodS3 = true ∧ lines.contains .suspendDeasserted = true
  | _ => False

/-- A step that ends where it began, in a stable state, looked at the lines last of all, except in
G3, where the lines do not matter. -/
theorem Transition.rests {tree : PowerTree} {memory final : Memory} {trace : List Exchange}
    {state next : PowerState} (transition : Transition tree memory state trace final next)
    (same : next = state) (stable : next.isStable = true) :
    next = .g3 ∨ ∃ earlier calls lines, trace = earlier ++ [⟨.readLines, calls, lines⟩] ∧
      tree.RestsIn lines next := by
  cases transition with
  | fromG3 leads => exact .inl same
  | fromS5 leads =>
    rw [leads] at same
    split at same <;> exact absurd same (by decide)
  | fromS3 calls lines whole leads =>
    subst same
    obtain ⟨supplied, -, suspended⟩ := PowerTree.afterS3_eq_s3_iff.mp leads.symm
    exact .inr ⟨[], calls, lines, whole, supplied, suspended⟩
  | staysInS0 calls lines whole quiet steady =>
    obtain ⟨supplied, -, awake⟩ := PowerTree.endsS0_eq_false_iff.mp quiet
    exact .inr ⟨[], calls, lines, whole, supplied, awake⟩
  | looksAgain calls waited called lines again begun quiet debounced leads =>
    subst same
    split at leads
    next ends => exact absurd leads (by decide)
    next quietAgain =>
      have stillQuiet := Bool.eq_false_iff.mpr quietAgain
      obtain ⟨supplied, -, awake⟩ := PowerTree.endsS0_eq_false_iff.mp stillQuiet
      exact .inr ⟨_, called, again, rfl, supplied, awake⟩
  | failsResume => exact absurd stable Bool.false_ne_true
  | asksCharger =>
    subst same
    exact absurd stable Bool.false_ne_true
  | leavesS0 | losesDebounced | powersUp | failsPowerUp | resumes | callsOffSuspend | suspends
  | powersDown | turnsOff => exact absurd same (by decide)

/-- So did a turn that ends at rest. -/
theorem Program.turn_rests {tree : PowerTree} {state next : PowerState} {memory final : Memory}
    {trace : List Exchange} (run : (Program.turn tree state memory).Runs trace final (.rest next)) :
    next = .g3 ∨ ∃ earlier calls lines, trace = earlier ++ [⟨.readLines, calls, lines⟩] ∧
      tree.RestsIn lines next := by
  obtain ⟨pulse, served, work, worked, after, rfl, -, works, concluded⟩ := Program.turn_runs run
  rcases Program.conclude_cases concluded with
    ⟨same, stable, -, rests⟩ | ⟨-, -, -, goesOn⟩ | ⟨-, -, goesOn⟩
  · obtain rfl := Turn.rest.inj rests
    rcases (Program.step_runs works).rests same stable with off | ⟨earlier, calls, lines, rfl, goes⟩
    · exact .inl off
    · exact .inr ⟨pulse ++ earlier, calls, lines, (List.append_assoc _ _ _).symm, goes⟩
  · exact absurd goesOn nofun
  · exact absurd goesOn nofun

namespace Controller

/-- If the power task rests, its state goes with these lines. -/
def PowerTask.Informed (tree : PowerTree) (lines : SignalMask) : PowerTask → Prop
  | .resting _ state => tree.RestsIn lines state
  | _ => True

/-- If it is about to rest, too. -/
def Progress.Informed (tree : PowerTree) (lines : SignalMask) : Progress → Prop
  | .ended _ (.rest state) => tree.RestsIn lines state
  | .ended _ (.next _) => True
  | .waiting power => power.Informed tree lines

/-- The rest of a turn that did not begin after a look at the lines ends at rest only in a state
that goes with the lines sampled last. -/
theorem Proceeds.informed {state : PowerState} {begun : Memory} {earlier trace : List Exchange}
    {task : Task Turn} {live after : Live} {progress : Progress}
    (reached : (Program.turn live.ram.tree state begun).Reaches earlier task)
    (unseen : ∀ before calls lines, earlier ≠ before ++ [⟨.readLines, calls, lines⟩])
    (proceeded : Proceeds task live trace after progress) :
    progress.Informed after.ram.tree after.ram.sampled.lines := by
  rw [proceeded.tree, proceeded.lines]
  have of := proceeded.of
  cases progress with
  | waiting power =>
    obtain ⟨later, -, waits⟩ := of
    cases waits <;> trivial
  | ended memory turn =>
    cases turn with
    | next => trivial
    | rest next =>
      rcases Program.turn_rests (reached.trans of) with rfl | ⟨before, calls, lines, whole, goes⟩
      · trivial
      · -- The last exchange of the turn is a look, so it is one of those that were taken on now.
        rcases List.eq_nil_or_concat trace with rfl | ⟨front, last, split⟩
        · rw [List.append_nil] at whole
          exact absurd whole (unseen before calls lines)
        · rw [List.concat_eq_append] at split
          subst split
          rw [← List.append_assoc] at whole
          obtain rfl := List.singleton_inj.mp (List.append_inj_right' whole rfl)
          have seen : lines = live.ram.sampled.lines := proceeded.reads _ List.mem_concat_self
          exact seen ▸ goes

namespace Live

/-- The power task has been woken, or its state goes with the lines sampled last if it rests. -/
def Informed (live : Live) : Prop :=
  live.ram.mailbox.woken = true ∨ live.ram.power.Informed live.ram.tree live.ram.sampled.lines

variable {live : Live} {progress : Progress}

/-- A turn that is begun ends informed, if it ends at rest. -/
private theorem informed_beginTurn (live : Live) (memory : Memory) (state : PowerState) :
    let taken := PowerTask.proceed (PowerTask.beginTurn live memory state) live
    taken.2.Informed taken.1.ram.tree taken.1.ram.sampled.lines := by
  obtain ⟨trace, proceeded⟩ := PowerTask.proceeds (PowerTask.beginTurn live memory state) live
  exact proceeded.informed (.refl _) fun before _ _ => (List.concat_ne_nil _ before).symm

/-- Turn after turn is taken, and the last one ends informed. -/
private theorem informed_kept : TurnInvariant fun live progress =>
    live.ram.mailbox.woken = true ∨
      progress.Informed live.ram.tree live.ram.sampled.lines where
  turn {live memory state} _ := .inr (live.informed_beginTurn memory state)
  wake {_ memory state} _ := .inr (informed_beginTurn _ memory state)
  rest informed := informed
  putOff _ := .inr trivial

theorem Informed.putAway
    (informed : live.ram.mailbox.woken = true ∨
      progress.Informed live.ram.tree live.ram.sampled.lines) :
    (PowerTask.putAway (PowerTask.serve PowerTask.turnsAtOnce (live, progress))).Informed :=
  informed_kept.serve PowerTask.turnsAtOnce informed

/-- What the power task waited for has come, and the rest of its turn ends informed. -/
private theorem informed_resumed {tree : PowerTree} {start : Position}
    {levels : RailAssignment Level} {usb : Level} {task : Task Turn} {seen : Live}
    (onRun : live.OnRun tree start levels usb)
    (resumes : PowerTask.Resumes live.ram.mailbox live.ram.power task)
    (sameTree : seen.ram.tree = live.ram.tree) :
    (PowerTask.putAway (PowerTask.serve PowerTask.turnsAtOnce
      (PowerTask.proceed task seen))).Informed := by
  obtain ⟨chosen, trace, comes, -, -⟩ := onRun
  generalize live.ram.power = power at comes resumes
  cases comes with
  | atRest => cases resumes
  | @inTurn events state begun trace later _ calls run reached waits heard =>
    obtain ⟨memory, request, resume, answer, rfl, waiting, rfl⟩ := waits.resumes resumes
    have answered := reached.answer calls answer
    have mailbox : (memory.hear calls).mailbox = live.ram.mailbox := heard.symm
    rw [mailbox, ← chosen, ← sameTree] at answered
    obtain ⟨further, proceeded⟩ :=
      PowerTask.proceeds (resume live.ram.mailbox answer) seen
    apply Informed.putAway
    refine .inr (proceeded.informed answered ?_)
    -- What comes last before the power task goes on is the wait, and not a look.
    intro before called lines whole
    obtain rfl : request = .readLines :=
      congrArg Exchange.request (List.singleton_inj.mp (List.append_inj_right' whole rfl))
    exact absurd waiting.symm Bool.false_ne_true

/-- One look at the power task. -/
theorem Informed.poll {tree : PowerTree} {start : Position} {levels : RailAssignment Level}
    {usb : Level} (onRun : live.OnRun tree start levels usb) (informed : live.Informed) :
    (PowerTask.poll live).Informed := by
  have looked := PowerTask.looked_poll live
  generalize PowerTask.poll live = after at looked
  cases looked with
  | asleep => exact informed
  | watches watching sampled =>
    have still : (live.keepSampled sampled).ram.power = _ := watching
    exact .inr (still ▸ trivial)
  | resumes resumes sampled => exact informed_resumed onRun resumes rfl
  | wakes rests woken => exact Informed.putAway (.inl woken)

/-- Whatever else happens wakes the power task if it changes the sampled lines. -/
theorem Informed.leaves {after : Live} (informed : live.Informed) (leaves : live.Leaves after) :
    after.Informed := by
  obtain ⟨power, tree, -, ⟨calls, mailbox⟩, wakes⟩ := leaves
  rcases wakes with same | woken
  · rcases informed with wokenBefore | goes
    · rw [Informed, mailbox]
      exact .inl ((Mailbox.heard_performAll _ calls).woken wokenBefore)
    · rw [Informed, power, tree, same]
      exact .inr goes
  · exact .inl woken

theorem Since.informed {tree : PowerTree} {start : Position} {levels : RailAssignment Level}
    {usb : Level} {first : Live} (since : Since first live) (pauses : tree.Pauses)
    (begun : first.OnRun tree start levels usb) (informed : first.Informed) : live.Informed := by
  induction since with
  | refl => exact informed
  | step prior last inductionHypothesis =>
    rcases last.leaves_or_polls with leaves | rfl
    · exact inductionHypothesis.leaves leaves
    · exact inductionHypothesis.poll (prior.onRun pauses begun)

theorem informed_launch (live : Live) (boot : BootInfo) :
    (PowerTask.launch live boot).Informed := by
  obtain ⟨trace, proceeded⟩ := PowerTask.proceeds
    (PowerTask.firstTurn live.ram.tree boot { mailbox := live.ram.mailbox }) live
  obtain ⟨state, entered, first, later, -, -, turned⟩ := proceeded.of_firstTurn
  have ended := turned.informed (.refl _) fun before _ _ => (List.concat_ne_nil _ before).symm
  exact Informed.putAway (.inr ended)

/-- What has been said holds of every controller that has been booted. -/
theorem SinceBoot.informed (sinceBoot : live.SinceBoot) : live.Informed := by
  obtain ⟨before, reason, since⟩ := sinceBoot
  obtain ⟨_, _, _, -, -, begun⟩ := onRun_boot before reason
  obtain ⟨ready, -, booted⟩ := boot_eq_launch before reason
  have launched : (boot before reason).Informed := by
    rw [booted]
    exact informed_launch _ _
  exact since.informed (PowerTree.pauses_ofRevision _) begun launched

/-- Where the power task rests is what the others see. -/
theorem SinceBoot.published_eq {memory : Memory} {state : PowerState} (sinceBoot : live.SinceBoot)
    (parked : live.ram.power = .resting memory state) : live.ram.mailbox.published = state := by
  obtain ⟨_, _, _, run, -, -⟩ := sinceBoot.atRest parked
  exact run.published

/-- The state that others see goes with the lines as they were sampled last. -/
def AgreesWithLines (live : Live) : Prop :=
  let published := live.ram.mailbox.published
  let lines := live.ram.sampled.lines
  published = .g3 ∨
    published = .s3 ∧ lines.contains .pp1250S3Good = true ∧
      lines.contains .suspendDeasserted = false ∨
    published = .s0 ∧ lines.contains .pp1250S3Good = true ∧
      lines.contains .suspendDeasserted = true

end Live

/-- Whatever has been done since a boot, a power task that rests has been woken, or the state that
others see goes with the lines as they were sampled last: no change is missed. Where no task has
anything to do the power task has not been woken, so there the state goes with the lines. -/
theorem agrees_with_lines_at_rest {live : Live} {memory : Memory} {state : PowerState}
    (sinceBoot : live.SinceBoot) (parked : live.ram.power = .resting memory state) :
    (live.ram.mailbox.woken = true ∨ live.AgreesWithLines) ∧
      (live.isIdle = true → live.AgreesWithLines) := by
  have agrees : live.ram.mailbox.woken = true ∨ live.AgreesWithLines := by
    rcases sinceBoot.informed with woken | goes
    · exact .inl woken
    · obtain ⟨_, _, chosen, -⟩ := sinceBoot.onRun
      rw [parked, chosen] at goes
      have published := sinceBoot.published_eq parked
      cases state with
      | g3 => exact .inr (.inl published)
      | s3 => exact .inr (.inr (.inl ⟨published, goes⟩))
      | s0 => exact .inr (.inr (.inr ⟨published, goes⟩))
      | _ => exact absurd goes id
  refine ⟨agrees, ?_⟩
  intro idle
  have asleep : live.ram.mailbox.woken = false := by
    simp only [Live.isIdle, PowerTask.isReady, parked, Bool.and_eq_true, Bool.not_eq_true'] at idle
    exact idle.1.2
  exact agrees.resolve_left (Bool.eq_false_iff.mp asleep)

/-- The state in which a power task rests, if it does. -/
def PowerTask.rest? : PowerTask → Option PowerState
  | .resting _ state => some state
  | _ => none

theorem PowerTask.exists_resting {power : PowerTask} {state : PowerState}
    (rests : power.rest? = some state) : ∃ memory, power = .resting memory state := by
  cases power with
  | resting memory known =>
    obtain rfl := Option.some.inj rests
    exact ⟨memory, rfl⟩
  | sleeping | watching => exact absurd rests nofun

/-- The controller is on, no task has anything to do, the processor runs, and every line of S0 is
asserted and has been sampled. -/
def Power.runsAtRest : Power → Bool
  | .on live =>
    live.isIdle && live.ram.power.rest? = some .s0 &&
      live.ram.sampled.lines.contains live.ram.tree.allS0 &&
      live.hardware.sampleLines = live.ram.sampled.lines
  | .off _ => false

theorem Power.exists_of_runsAtRest {power : Power} (runs : power.runsAtRest = true) :
    ∃ live memory, power = .on live ∧ live.isIdle = true ∧
      live.ram.power = .resting memory .s0 ∧
      live.ram.sampled.lines.contains live.ram.tree.allS0 = true ∧
      live.hardware.sampleLines = live.ram.sampled.lines := by
  cases power with
  | on live =>
    simp only [runsAtRest, Bool.and_eq_true, decide_eq_true_eq] at runs
    obtain ⟨⟨⟨idle, rests⟩, asserted⟩, unchanged⟩ := runs
    obtain ⟨memory, parked⟩ := PowerTask.exists_resting rests
    exact ⟨live, memory, rfl, idle, parked, asserted, unchanged⟩
  | off => exact absurd runs Bool.false_ne_true

/-- A controller is booted after a power cycle, with enough voltage and with the line high on which
the processor says that it is awake. The charger refuses once, and a tenth of a second later the
processor is powered on. -/
def poweredUp : Session :=
  Session.executeAll ⟨.off {}, []⟩
    [.apply (.force ⟨21, by decide⟩ (some true)), .apply (.vin 1300), .apply (.boot .power),
      .advance 130]

theorem poweredUp_runsAtRest : poweredUp.power.runsAtRest = true := by decide +kernel

/-- The power task of that controller rests in S0, where the lines say that it should. -/
theorem agrees_with_lines_at_rest_poweredUp : ∃ live memory, poweredUp.power = .on live ∧
    live.SinceBoot ∧ live.ram.power = .resting memory .s0 ∧ live.isIdle = true ∧
    live.AgreesWithLines := by
  obtain ⟨live, memory, on, idle, parked, -, -⟩ := Power.exists_of_runsAtRest poweredUp_runsAtRest
  have sinceBoot : live.SinceBoot := Session.sinceBoot_executeAll on
  exact ⟨live, memory, on, sinceBoot, parked, idle,
    (agrees_with_lines_at_rest sinceBoot parked).2 idle⟩

end Controller

end RailSequencer
