import RailSequencer.PowerTree.Revisions
import RailSequencer.Proofs.Step

/-!
# A lost supply takes the processor down

When a line of the supplies below S3 is lost for good, every step leads one way: `stepsLeft` counts
how many are left to G3, and each step takes one off, whatever the other lines, the suspend line and
the requests do. The long way is the one of a processor that runs, is suspended, finds its supplies
gone and is powered up once more before the failure of that power-up forces it off.

The way down ends early in S3S0, which is entered by a suspend that is called off. Its supplies will
not come, so it tries again for ever, with the shutdown set that nothing there looks at.
-/

namespace RailSequencer

namespace SignalMask

/-- A single line is asserted. -/
def has (mask : SignalMask) (line : Nat) : Bool := mask.bits.getLsbD line

/-- Lines that contain a line have it. -/
theorem has_of_contains {lines wanted : SignalMask} {line : Nat}
    (contains : lines.contains wanted = true) (has : wanted.has line = true) :
    lines.has line = true := by
  have same : lines.bits &&& wanted.bits = wanted.bits := eq_of_beq contains
  have bit := congrArg (fun bits => bits.getLsbD line) same
  rw [SignalMask.has] at has ⊢
  simp only [BitVec.getLsbD_and, has, Bool.and_true] at bit
  exact bit

end SignalMask

namespace Exchange

/-- A line was not seen asserted: neither at a look, nor in a wait that wanted it. -/
def Lacks (line : Nat) : Exchange → Prop
  | ⟨.readLines, _, lines⟩ => lines.has line = false
  | ⟨.waitForLines wanted _, _, answer⟩ => wanted.has line = true → answer ≠ .ok ()
  | _ => True

/-- A dark board lacks every line. -/
theorem lacks_dark (line : Nat) (request : Request) (calls : List Mailbox.Call) :
    Lacks line ⟨request, calls, request.darkAnswer⟩ := by
  cases request with
  | readLines => exact BitVec.getLsbD_zero
  | waitForLines wanted timeoutUs => exact fun _ => nofun
  | _ => exact trivial

/-- A look at which a line is missing does not see all of a mask that has it. -/
theorem Lacks.look {line : Nat} {calls : List Mailbox.Call} {lines wanted : SignalMask}
    (lacks : Lacks line ⟨.readLines, calls, lines⟩) (has : wanted.has line = true) :
    lines.contains wanted = false := by
  apply eq_false_of_ne_true
  intro contains
  have seen := SignalMask.has_of_contains contains has
  exact absurd (lacks.symm.trans seen) Bool.false_ne_true

end Exchange

/-- On a dark board a task ends without the line. -/
theorem Task.exists_runs_lacks {α : Type} (line : Nat) (task : Task α) :
    ∃ trace final result, task.Runs trace final result ∧
      ∀ exchange ∈ trace, exchange.Lacks line := by
  obtain ⟨trace, final, result, run, answers⟩ :=
    exists_runs (fun request => ([], request.darkAnswer)) task
  refine ⟨trace, final, result, run, ?_⟩
  intro exchange member
  obtain ⟨request, calls, answer⟩ := exchange
  have dark : answer = request.darkAnswer := (Prod.mk.inj (answers _ member)).2
  rw [dark]
  exact Exchange.lacks_dark line request calls

/-- Steps taken one after another, with the states that they lead to. Between two steps nothing
happens but to the mailbox; the flags are the power task's own. -/
inductive Walk (tree : PowerTree) (allowed : Exchange → Prop) (meanwhile : Mailbox → Mailbox → Prop)
    (state : PowerState) (memory : Memory) : List PowerState → PowerState → Memory → Prop where
  | start : Walk tree allowed meanwhile state memory [] state memory
  | step {path : List PowerState} {last next : PowerState} {before after : Memory}
      {trace : List Exchange} {mailbox : Mailbox}
      (prior : Walk tree allowed meanwhile state memory path last before)
      (waits : meanwhile before.mailbox mailbox)
      (run : (Program.step tree last { before with mailbox := mailbox }).Runs trace after next)
      (answers : ∀ exchange ∈ trace, allowed exchange) :
      Walk tree allowed meanwhile state memory (path ++ [next]) next after

namespace PowerState

/-- Steps to G3 when a supply below S3 is lost. S3S0 is not on the way down. -/
def stepsLeft (forcing : Bool) : PowerState → Nat
  | .g3 | .g3s5 | .s3s0 => 0
  | .s5g3 => 1
  | .s5 => if forcing then 2 else 5
  | .s3s5 => if forcing then 3 else 6
  | .s5s3 => 4
  | .s3 => if forcing then 4 else 7
  | .s0s3 => if forcing then 5 else 8
  | .s0 => if forcing then 6 else 9

/-- The ways that end in S3S0, which call off a suspend unless they begin there. -/
def TriesAgain : PowerState → List PowerState → Prop
  | .s0, path => ∃ tries, path = .s0s3 :: List.replicate tries .s3s0
  | .s0s3, path | .s3s0, path => ∃ tries, path = List.replicate tries .s3s0
  | _, _ => False

theorem stepsLeft_le (state : PowerState) (forcing : Bool) : state.stepsLeft forcing ≤ 9 := by
  cases state <;> cases forcing <;> decide

theorem stepsLeft_pos (state : PowerState) (forcing : Bool)
    (onTheWay : state ≠ .g3 ∧ state ≠ .g3s5 ∧ state ≠ .s3s0) : 0 < state.stepsLeft forcing := by
  cases state with
  | g3 => exact absurd rfl onTheWay.1
  | g3s5 => exact absurd rfl onTheWay.2.1
  | s3s0 => exact absurd rfl onTheWay.2.2
  | _ => cases forcing <;> decide

/-- A shutdown that is forced is a shorter way. -/
theorem stepsLeft_or_le (state : PowerState) (forcing requested : Bool) :
    state.stepsLeft (forcing || requested) ≤ state.stepsLeft forcing := by
  cases state <;> cases forcing <;> cases requested <;> decide

/-- One more try leads no further. -/
theorem TriesAgain.append {state : PowerState} {path : List PowerState}
    (again : state.TriesAgain path) : state.TriesAgain (path ++ [.s3s0]) := by
  cases state with
  | s0 =>
    obtain ⟨tries, rfl⟩ := again
    exact ⟨tries + 1, by rw [List.replicate_succ', List.cons_append]⟩
  | s0s3 | s3s0 =>
    obtain ⟨tries, rfl⟩ := again
    exact ⟨tries + 1, by rw [List.replicate_succ']⟩
  | _ => exact again

end PowerState

namespace Transition

variable {tree : PowerTree} {line : Nat} {memory worked : Memory} {trace : List Exchange}
  {state next : PowerState}

/-- Without the supply a step comes closer to G3, unless it calls off a suspend, which takes that no
shutdown is under way. -/
theorem stepsLeft_lt (transition : Transition tree memory state trace worked next)
    (supply : tree.pgoodS3.has line = true) (lacks : ∀ exchange ∈ trace, exchange.Lacks line)
    (away : state ≠ .g3 ∧ state ≠ .g3s5 ∧ state ≠ .s3s0) :
    next ≠ .g3s5 ∧ next ≠ .s3s0 ∧
        next.stepsLeft worked.forcingShutdown < state.stepsLeft memory.forcingShutdown ∨
      state = .s0s3 ∧ next = .s3s0 ∧ memory.forcingShutdown = false := by
  -- S0 is left at the first look, so what it does when it finds nothing to leave for is ruled out.
  have notQuiet (calls : List Mailbox.Call) (lines : SignalMask)
      (look : (⟨.readLines, calls, lines⟩ : Exchange) ∈ trace) :
      tree.endsS0 memory.forcingShutdown lines ≠ false := by
    intro quiet
    have dark := (lacks _ look).look supply
    rw [(PowerTree.endsS0_eq_false_iff.mp quiet).1] at dark
    exact Bool.false_ne_true dark.symm
  cases transition with
  | fromG3 => exact absurd rfl away.1
  | asksCharger => exact absurd rfl away.2.1
  | resumes | failsResume => exact absurd rfl away.2.2
  | fromS5 leads =>
    subst leads
    cases forcing : memory.forcingShutdown <;> simp [PowerState.stepsLeft]
  | fromS3 calls lines whole leads =>
    have dark := (lacks ⟨.readLines, calls, lines⟩ (by simp [whole])).look supply
    rw [PowerTree.afterS3, dark] at leads
    subst leads
    cases forcing : memory.forcingShutdown <;> simp [PowerState.stepsLeft, forcing]
  | leavesS0 calls lines whole ends =>
    cases forcing : memory.forcingShutdown <;> simp [PowerState.stepsLeft, forcing]
  | staysInS0 calls lines whole quiet steady =>
    exact absurd quiet (notQuiet calls lines (by simp [whole]))
  | losesDebounced calls waited lines error whole quiet debounced =>
    exact absurd quiet (notQuiet calls lines (by simp [whole]))
  | looksAgain calls waited called lines again begun quiet debounced leads =>
    exact absurd quiet (notQuiet calls lines (by simp [begun]))
  | powersUp asked waited told whole =>
    have waitFailed := lacks
      ⟨.waitForLines tree.pgoodS3 Timing.supplyTimeoutUs, waited, .ok ()⟩ (by simp [whole])
    exact absurd rfl (waitFailed supply)
  | failsPowerUp => simp [PowerState.stepsLeft]
  | callsOffSuspend told aborted => exact .inr ⟨rfl, rfl, aborted.unforced⟩
  | suspends told completed idled looked pressed whole =>
    cases forcing : memory.forcingShutdown <;> cases pressed <;>
      simp [PowerState.stepsLeft, Memory.settled, forcing]
  | powersDown => cases forcing : memory.forcingShutdown <;> simp [PowerState.stepsLeft, forcing]
  | turnsOff => simp [PowerState.stepsLeft]

/-- In S3S0 a resume fails and forces a shutdown, which it does not look at. -/
theorem retries (transition : Transition tree memory .s3s0 trace worked next)
    (supply : tree.pgoodS0.has line = true) (lacks : ∀ exchange ∈ trace, exchange.Lacks line) :
    next = .s3s0 ∧ worked.forcingShutdown = true := by
  cases transition with
  | resumes asked release waited told kept whole =>
    have waitFailed := lacks
      ⟨.waitForLines tree.pgoodS0 Timing.supplyTimeoutUs, waited, .ok ()⟩ (by simp [whole])
    exact absurd rfl (waitFailed supply)
  | failsResume => exact ⟨rfl, rfl⟩

end Transition

namespace Walk

variable {tree : PowerTree} {line : Nat} {state last : PowerState} {memory final : Memory}
  {path : List PowerState} {meanwhile : Mailbox → Mailbox → Prop}

/-- No board keeps a step from ending, so any walk goes on. -/
theorem exists_step (walk : Walk tree (Exchange.Lacks line) meanwhile state memory path last final)
    {mailbox : Mailbox} (waits : meanwhile final.mailbox mailbox) :
    ∃ next after,
      Walk tree (Exchange.Lacks line) meanwhile state memory (path ++ [next]) next after := by
  obtain ⟨trace, after, next, run, lacks⟩ :=
    (Program.step tree last { final with mailbox := mailbox }).exists_runs_lacks line
  exact ⟨next, after, walk.step waits run lacks⟩

/-- Where a resume fails, it goes on to fail. -/
theorem exists_retries (supply : tree.pgoodS0.has line = true)
    (walk : Walk tree (Exchange.Lacks line) Eq state memory path .s3s0 final) (tries : Nat) :
    ∃ later, Walk tree (Exchange.Lacks line) Eq state memory
      (path ++ List.replicate tries .s3s0) .s3s0 later := by
  induction tries with
  | zero => exact ⟨final, by rwa [List.replicate_zero, List.append_nil]⟩
  | succ tries inductionHypothesis =>
    obtain ⟨later, longer⟩ := inductionHypothesis
    obtain ⟨trace, after, next, run, lacks⟩ :=
      (Program.step tree .s3s0 later).exists_runs_lacks line
    obtain ⟨rfl, -⟩ := (Program.step_runs run).retries supply lacks
    refine ⟨after, ?_⟩
    rw [List.replicate_succ', ← List.append_assoc]
    exact longer.step rfl run lacks

/-- Undisturbed walks without the supply come in every length. -/
theorem exists_length (tree : PowerTree) (line : Nat) (state : PowerState) (memory : Memory)
    (length : Nat) : ∃ path last final,
      Walk tree (Exchange.Lacks line) Eq state memory path last final ∧ path.length = length := by
  induction length with
  | zero => exact ⟨[], state, memory, .start, rfl⟩
  | succ length inductionHypothesis =>
    obtain ⟨path, last, final, walk, rfl⟩ := inductionHypothesis
    obtain ⟨next, after, longer⟩ := walk.exists_step rfl
    exact ⟨path ++ [next], next, after, longer, List.length_append⟩

theorem eq_of_nil {allowed : Exchange → Prop}
    (walk : Walk tree allowed meanwhile state memory path last final)
    (stays : path = []) : last = state := by
  cases walk with
  | start => rfl
  | step => exact absurd stays (List.append_ne_nil_of_right_ne_nil _ (List.cons_ne_nil _ _))

/-- A suspend that is called off after at most one step was begun in S0 or where the walk began. -/
theorem triesAgain {allowed : Exchange → Prop}
    (walk : Walk tree allowed meanwhile state memory path .s0s3 final)
    (short : path.length ≤ 1) : state.TriesAgain (path ++ [.s3s0]) := by
  cases walk with
  | start => exact ⟨1, rfl⟩
  | @step path last _ before _ trace mailbox prior waits run answers =>
    rw [List.length_append, List.length_singleton] at short
    have stays : path = [] := List.length_eq_zero_iff.mp (by omega)
    have edge := (Program.step_runs run).mem_successors
    rw [prior.eq_of_nil stays] at edge
    subst stays
    cases state with
    | s0 => exact ⟨1, rfl⟩
    | _ => exact absurd edge (by decide)

/-- How far a walk without the supply has come. -/
inductive Progress (state : PowerState) (memory : Memory) (path : List PowerState)
    (last : PowerState) (final : Memory) : Prop where
  /-- It has been to G3. -/
  | been (reached : .g3 ∈ path.take 9)
  /-- It tries to resume again and again. -/
  | retrying (resuming : last = .s3s0) (again : state.TriesAgain path)
      (entered : state = .s3s0 ∨ memory.forcingShutdown = false)
      (forced : 3 ≤ path.length → final.forcingShutdown = true)
  /-- It is on its way, with as many steps left as there may be. -/
  | onTheWay (away : last ≠ .g3 ∧ last ≠ .g3s5 ∧ last ≠ .s3s0)
      (kept : memory.forcingShutdown = true → final.forcingShutdown = true)
      (bound : path.length + last.stepsLeft final.forcingShutdown ≤ 9)

theorem Progress.start (memory : Memory) (away : state ≠ .g3 ∧ state ≠ .g3s5) :
    Progress state memory [] state memory := by
  by_cases resuming : state = .s3s0
  · subst resuming
    exact .retrying rfl ⟨0, rfl⟩ (.inl rfl) fun long => absurd long (by decide)
  · have bound := state.stepsLeft_le memory.forcingShutdown
    exact .onTheWay ⟨away.1, away.2, resuming⟩ id (by simpa using bound)

/-- A step on the way down comes closer to G3, or calls off the suspend. -/
theorem Progress.step {before after : Memory} {next : PowerState} {mailbox : Mailbox}
    {trace : List Exchange} {allowed : Exchange → Prop}
    (progress : Progress state memory path last before)
    (prior : Walk tree allowed meanwhile state memory path last before)
    (transition : Transition tree { before with mailbox := mailbox }.takeShutdown last trace after
      next)
    (supplyS3 : tree.pgoodS3.has line = true) (supplyS0 : tree.pgoodS0.has line = true)
    (lacks : ∀ exchange ∈ trace, exchange.Lacks line) :
    Progress state memory (path ++ [next]) next after := by
  have longer : (path ++ [next]).length = path.length + 1 := List.length_append
  have taken := last.stepsLeft_or_le before.forcingShutdown mailbox.shutdownRequested
  cases progress with
  | been reached =>
    apply Progress.been
    rw [List.take_append]
    exact List.mem_append_left _ reached
  | retrying resuming again entered =>
    subst resuming
    obtain ⟨rfl, forced⟩ := transition.retries supplyS0 lacks
    exact .retrying rfl again.append entered fun _ => forced
  | onTheWay away kept bound =>
    rcases transition.stepsLeft_lt supplyS3 lacks away with
      ⟨notStarting, notResuming, fewer⟩ | ⟨rfl, rfl, quiet⟩
    · replace fewer : next.stepsLeft after.forcingShutdown <
          last.stepsLeft before.forcingShutdown := Nat.lt_of_lt_of_le fewer taken
      by_cases arrived : next = .g3
      · apply Progress.been
        rw [List.take_of_length_le (by omega), arrived]
        exact List.mem_append_right _ (List.mem_singleton_self _)
      · refine .onTheWay ⟨arrived, notStarting, notResuming⟩ ?_ (by omega)
        intro forcing
        apply transition.forcing_kept _ away.2.1
        simp [Memory.takeShutdown, kept forcing]
    · have flag : (before.forcingShutdown || mailbox.shutdownRequested) = false := quiet
      have short : path.length ≤ 1 := by
        have eight : PowerState.stepsLeft false .s0s3 = 8 := rfl
        rw [flag, eight] at taken
        omega
      have unforced : memory.forcingShutdown = false := by
        apply eq_false_of_ne_true
        intro forcing
        rw [kept forcing] at flag
        exact absurd flag (by simp)
      refine .retrying rfl (prior.triesAgain short) (.inr unforced) ?_
      intro long
      omega

theorem progress (walk : Walk tree (Exchange.Lacks line) meanwhile state memory path last final)
    (supplyS3 : tree.pgoodS3.has line = true) (supplyS0 : tree.pgoodS0.has line = true)
    (away : state ≠ .g3 ∧ state ≠ .g3s5) : Progress state memory path last final := by
  induction walk with
  | start => exact .start memory away
  | step prior waits run lacks inductionHypothesis =>
    exact inductionHypothesis.step prior (Program.step_runs run) supplyS3 supplyS0 lacks

end Walk

/-- A processor that loses a line of the supplies below S3 for good is off after nine steps at
most, whatever else happens on the way; or it is in S3S0 within two steps, where it tries in vain
to resume. Then a shutdown is under way in the end, and if one was from the start, that was S3S0. -/
theorem g3_of_lostSupply {tree : PowerTree} {line : Nat} {state last : PowerState}
    {memory final : Memory} {path : List PowerState} {meanwhile : Mailbox → Mailbox → Prop}
    (contained : tree.pgoodS0.contains tree.pgoodS3 = true)
    (supply : tree.pgoodS3.has line = true) (away : state ≠ .g3 ∧ state ≠ .g3s5)
    (walk : Walk tree (Exchange.Lacks line) meanwhile state memory path last final) :
    (∀ mailbox, meanwhile final.mailbox mailbox → ∃ next after,
        Walk tree (Exchange.Lacks line) meanwhile state memory (path ++ [next]) next after) ∧
      (9 ≤ path.length →
        .g3 ∈ path.take 9 ∨
          state.TriesAgain path ∧ (state = .s3s0 ∨ memory.forcingShutdown = false) ∧
            final.forcingShutdown = true) := by
  refine ⟨fun _ => walk.exists_step, ?_⟩
  intro long
  have supplyS0 := SignalMask.has_of_contains contained supply
  cases walk.progress supply supplyS0 away with
  | been reached => exact .inl reached
  | retrying _ again entered forced => exact .inr ⟨again, entered, forced (by omega)⟩
  | onTheWay notThere _ bound =>
    have left := last.stepsLeft_pos final.forcingShutdown notThere
    omega

/-- A processor that was about to power up when the supply was lost is off after nine steps. -/
theorem g3_of_lostSupply_poweringUp : ∃ path last final,
    Walk (.ofRevision .v2) (Exchange.Lacks 2) Eq .s5s3 {} path last final ∧
      path.length = 9 ∧ .g3 ∈ path.take 9 := by
  obtain ⟨path, last, final, walk, long⟩ := Walk.exists_length (.ofRevision .v2) 2 .s5s3 {} 9
  have goesOn := g3_of_lostSupply (by decide) (by decide) (by decide) walk
  have ends := goesOn.2 (Nat.le_of_eq long.symm)
  refine ⟨path, last, final, walk, long, ends.resolve_right ?_⟩
  rintro ⟨triesAgain, -⟩
  exact triesAgain

/-- A processor that was left alone in S0 loses the supply, and the suspend that follows is called
off: after twelve steps it is still trying to resume. -/
theorem not_g3_of_lostSupply_suspendCalledOff : ∃ trace memory path last final,
    (Program.start (.ofRevision .v2) { jumped := true } {}).Runs trace memory .s0 ∧
      Walk (.ofRevision .v2) (Exchange.Lacks 2) Eq .s0 memory path last final ∧
        path.length = 12 ∧ .g3 ∉ path := by
  have starts : (Program.start (.ofRevision .v2) { jumped := true } {}).Runs
      [⟨.readLines, [], (PowerTree.ofRevision .v2).allS0⟩, ⟨.allowIdle false, [], ()⟩]
      { mailbox := { published := .s0 } } .s0 := .ask (.ask (.refl _))
  have ends : (Program.step (.ofRevision .v2) .s0 { mailbox := { published := .s0 } }).Runs
      [⟨.readLines, [], SignalMask.empty⟩] { mailbox := { published := .s0 } } .s0s3 :=
    .ask (.refl _)
  have callsOff : (Program.step (.ofRevision .v2) .s0s3 { mailbox := { published := .s0 } }).Runs
      [⟨.notify .suspend, [], ()⟩, ⟨.sleep (Timing.abortSliceMs * Timing.usPerMs), [], ()⟩,
       ⟨.readLines, [], SignalMask.suspendDeasserted⟩]
      { mailbox := { published := .s0 } } .s3s0 := .ask (.ask (.ask (.refl _)))
  have suspending : Walk (.ofRevision .v2) (Exchange.Lacks 2) Eq
      .s0 { mailbox := { published := .s0 } }
      ([] ++ [.s0s3]) .s0s3 { mailbox := { published := .s0 } } := by
    apply Walk.step .start rfl ends
    rw [List.forall_mem_singleton]
    rfl
  have walk : Walk (.ofRevision .v2) (Exchange.Lacks 2) Eq
      .s0 { mailbox := { published := .s0 } }
      ([] ++ [.s0s3] ++ [.s3s0]) .s3s0 { mailbox := { published := .s0 } } := by
    apply suspending.step rfl callsOff
    rw [List.forall_mem_cons, List.forall_mem_cons, List.forall_mem_singleton]
    exact ⟨trivial, trivial, rfl⟩
  obtain ⟨final, retrying⟩ := walk.exists_retries (by decide) 10
  exact ⟨_, _, _, _, final, starts, retrying, by decide, by decide⟩

end RailSequencer
