import RailSequencer.Proofs.PowerDown
import RailSequencer.Proofs.Release

/-!
# The levels that a resume leaves

A resume writes its whole table, and a suspend the beginning of its own. Where every rail of the
suspend is also one of the resume, nothing of a suspend is left after the next resume, wherever it
was called off: the rails of the resume are on the levels that it writes last, and the others have
not been touched. `AgreesOff` says so of the levels in between, and it is all that a step has to
keep.

The first resume after a power-up also releases the reset line, whatever the tables have made of it.
So power-up and resume leave the levels on which a powered processor rests.
-/

namespace RailSequencer

/-- The level that a table writes to a rail last, if it writes to it. -/
def RailWrite.last? (table : List RailWrite) (rail : Rail) : Option Level :=
  (table.map output).reverse.lookup rail

namespace RailAssignment

/-- The levels are the same outside some rails. -/
def AgreesOff (rails : List Rail) (levels other : RailAssignment Level) : Prop :=
  ∀ rail ∉ rails, levels.get rail = other.get rail

variable {rails : List Rail} {levels other : RailAssignment Level} {writes : List (Rail × Level)}

/-- Driving some of these rails is not seen outside them. -/
theorem AgreesOff.driveAll (agrees : AgreesOff rails levels other)
    (within : ∀ write ∈ writes, write.1 ∈ rails) :
    AgreesOff rails (levels.driveAll writes) other := by
  intro rail apart
  have untouched : rail ∉ writes.map Prod.fst := by
    intro driven
    obtain ⟨write, member, rfl⟩ := List.mem_map.mp driven
    exact apart (within write member)
  rw [get_driveAll_of_not_mem levels untouched]
  exact agrees rail apart

/-- Where a table drives all rails that may differ, no difference is left. -/
theorem AgreesOff.driveAll_output {table : List RailWrite}
    (agrees : AgreesOff (table.map RailWrite.rail) levels other) :
    levels.driveAll (table.map RailWrite.output) = other.driveAll (table.map RailWrite.output) := by
  ext rail
  apply get_driveAll_congr
  rw [List.map_map]
  by_cases driven : rail ∈ table.map RailWrite.rail
  · exact .inl driven
  · exact .inr (agrees rail driven)

/-- Levels that are those of the last writes of a table are not changed by it. -/
theorem driveAll_eq_self {table : List RailWrite}
    (settled : ∀ rail, ∀ level ∈ RailWrite.last? table rail, levels.get rail = level) :
    levels.driveAll (table.map RailWrite.output) = levels := by
  ext rail
  rw [get_driveAll_eq_lookup]
  cases last : (table.map RailWrite.output).reverse.lookup rail with
  | none => rfl
  | some level => exact (settled rail level last).symm

end RailAssignment

/-- Every suspend among these states is followed by a resume, at once or later. -/
def PowerState.EachResumed : List PowerState → Prop
  | [] => True
  | state :: later => (state = .s0s3 → .s3s0 ∈ later) ∧ EachResumed later

namespace Leg

variable {tree : PowerTree} {memory : Memory} {held : Bool} {leg : Leg} {legs : List Leg}
  {levels current : RailAssignment Level}

/-- Steps that are taken one after another, in states of anyone's choice. Between two steps nothing
happens but to the mailbox. -/
def Taken (tree : PowerTree) : Memory → List Leg → Prop
  | _, [] => True
  | memory, leg :: rest =>
    (∃ mailbox, (Program.step tree leg.origin { memory with mailbox := mailbox }).Runs leg.trace
      leg.final leg.next) ∧ Taken tree leg.final rest

/-- Each of these steps finds the flag of the held reset line as those before it left it. -/
theorem Taken.chain (taken : Taken tree memory legs) : Chain tree memory.resetHeld legs := by
  induction legs generalizing memory with
  | nil => trivial
  | cons leg rest inductionHypothesis =>
    obtain ⟨⟨mailbox, run⟩, later⟩ := taken
    have transition := Program.step_runs run
    have follows := inductionHypothesis later
    rw [transition.resetHeld] at follows
    exact ⟨⟨{ memory with mailbox := mailbox }.takeShutdown, leg.final, rfl, transition⟩, follows⟩

/-- A step that is answered in one way may come before others. -/
theorem Taken.along {state : PowerState} {rest : List Leg}
    {answer : (request : Request) → List Mailbox.Call × request.Answer}
    (later : Taken tree (Leg.along tree answer state memory).final rest) :
    Taken tree memory (Leg.along tree answer state memory :: rest) :=
  ⟨⟨memory.mailbox, Task.runs_follow answer _⟩, later⟩

/-- The step that comes of answering in one way so many times, and in another from there. -/
def turning (tree : PowerTree)
    (first later : (request : Request) → List Mailbox.Call × request.Answer) (count : Nat)
    (state : PowerState) (memory : Memory) : Leg :=
  let begun := (Program.step tree state memory).advance first count
  let rest := begun.2.follow later
  ⟨state, begun.1 ++ rest.1, rest.2.1, rest.2.2⟩

theorem Taken.turning {state : PowerState} {rest : List Leg} {count : Nat}
    {first later : (request : Request) → List Mailbox.Call × request.Answer}
    (others : Taken tree (Leg.turning tree first later count state memory).final rest) :
    Taken tree memory (Leg.turning tree first later count state memory :: rest) :=
  ⟨⟨memory.mailbox, (Task.reaches_advance first _ count).trans (Task.runs_follow later _)⟩, others⟩

/-- Steps can always be taken, whatever comes back to them. -/
theorem exists_taken (tree : PowerTree) (memory : Memory) (react : Reaction)
    (states : List PowerState) : ∃ legs, Taken tree memory legs ∧ legs.map origin = states ∧
      ∀ leg ∈ legs, react.Yields leg.trace := by
  induction states generalizing memory with
  | nil => exact ⟨[], trivial, rfl, by simp⟩
  | cons state states inductionHypothesis =>
    obtain ⟨trace, final, next, run, yields⟩ :=
      (Program.step tree state memory).exists_runs_reacting react
    obtain ⟨rest, later, rfl, others⟩ := inductionHypothesis final
    exact ⟨⟨state, trace, final, next⟩ :: rest, ⟨⟨memory.mailbox, run⟩, later⟩, rfl,
      List.forall_mem_cons.mpr ⟨yields, others⟩⟩

/-- A resume writes its table, and then releases the reset line if it is held. -/
theorem IsStep.writes_resume (step : leg.IsStep tree held) (resumes : leg.origin = .s3s0) :
    Exchange.writes leg.trace =
      tree.tables.s3s0.map RailWrite.output ++ if held then [(.sysRstL, .high)] else [] := by
  obtain ⟨memory, final, rfl, transition⟩ := step
  rw [resumes] at transition
  exact transition.drives

/-- A power-up writes its table. -/
theorem IsStep.writes_powerUp (step : leg.IsStep tree held) (powersUp : leg.origin = .s5s3) :
    Exchange.writes leg.trace = tree.tables.s5s3.map RailWrite.output := by
  obtain ⟨memory, final, -, transition⟩ := step
  rw [powersUp] at transition
  exact transition.drives

/-- Looks at the lines in S0 and S3 drive nothing. -/
theorem IsStep.writes_look (step : leg.IsStep tree held)
    (looks : leg.origin = .s0 ∨ leg.origin = .s3) : Exchange.writes leg.trace = [] := by
  obtain ⟨memory, final, -, transition⟩ := step
  rcases looks with here | here
  · rw [here] at transition
    exact transition.drives
  · rw [here] at transition
    exact transition.drives

/-- Levels that a resume does not change are there again once every suspend has been followed by a
resume, if by now nothing but rails of the resume can have changed. -/
theorem Chain.driveAll_eq (chain : Chain tree false legs)
    (suspends : ∀ leg ∈ legs, leg.origin ∈ [PowerState.s0, .s3, .s0s3, .s3s0])
    (within : ∀ write ∈ tree.tables.s0s3, write.rail ∈ tree.tables.s3s0.map RailWrite.rail)
    (settled : levels.driveAll (tree.tables.s3s0.map RailWrite.output) = levels)
    (resumed : PowerState.EachResumed (legs.map origin))
    (agrees : current.AgreesOff (tree.tables.s3s0.map RailWrite.rail) levels)
    (pending : current = levels ∨ .s3s0 ∈ legs.map origin) :
    current.driveAll (Exchange.writes (legs.flatMap trace)) = levels := by
  induction legs generalizing current with
  | nil => exact pending.resolve_right List.not_mem_nil
  | cons leg rest inductionHypothesis =>
    obtain ⟨step, follows⟩ := chain
    obtain ⟨here, others⟩ := List.forall_mem_cons.mp suspends
    rw [List.flatMap_cons, Exchange.writes_append, RailAssignment.driveAll_append]
    rw [List.map_cons] at pending
    cases state : leg.origin with
    | s3s0 =>
      rw [state] at follows
      have restored : current.driveAll (Exchange.writes leg.trace) = levels := by
        rw [step.writes_resume state, if_neg Bool.false_ne_true, List.append_nil,
          agrees.driveAll_output, settled]
      rw [restored]
      exact inductionHypothesis follows others resumed.2 (fun _ _ => rfl) (.inl rfl)
    | s0s3 =>
      rw [state] at follows
      have begun := step.writes_prefix (by simp [state])
      rw [state] at begun
      apply inductionHypothesis follows others resumed.2 _ (.inr (resumed.1 state))
      apply agrees.driveAll
      intro written member
      obtain ⟨write, listed, rfl⟩ := List.mem_map.mp (begun.subset member)
      exact within write listed
    | s0 | s3 =>
      rw [state] at follows pending
      rw [step.writes_look (by simp [state])]
      exact inductionHypothesis follows others resumed.2 agrees
        (pending.imp_right fun later => by simpa using later)
    | _ =>
      rw [state] at here
      exact absurd here (by decide)

/-- Looks alone drive nothing. -/
theorem Chain.writes_looks (chain : Chain tree held legs) (looks : ∀ leg ∈ legs, leg.origin = .s3) :
    Exchange.writes (legs.flatMap trace) = [] := by
  induction legs generalizing held with
  | nil => rfl
  | cons leg rest inductionHypothesis =>
    obtain ⟨step, follows⟩ := chain
    obtain ⟨here, others⟩ := List.forall_mem_cons.mp looks
    rw [List.flatMap_cons, Exchange.writes_append, step.writes_look (.inr here),
      inductionHypothesis follows others, List.append_nil]

end Leg

section Resumes

variable {tree : PowerTree} {memory : Memory} {levels : RailAssignment Level}

/-- Take tables in which the resume writes every rail that the suspend writes, and a board on which
each rail of the resume has the level that the resume writes to it last, with nothing held. Then any
number of suspends, called off anywhere or not at all, and of resumes, whose supplies come or not,
with looks at the lines between them, leave every rail on its level once each suspend has been
followed by a resume. And such steps can be taken in any order, whatever is answered and called for
on the way. -/
theorem levels_of_resumed
    (within : ∀ write ∈ tree.tables.s0s3, write.rail ∈ tree.tables.s3s0.map RailWrite.rail)
    (settled : ∀ rail, ∀ level ∈ RailWrite.last? tree.tables.s3s0 rail, levels.get rail = level)
    (released : memory.resetHeld = false) :
    (∀ legs, Leg.Taken tree memory legs →
      (∀ leg ∈ legs, leg.origin ∈ [PowerState.s0, .s3, .s0s3, .s3s0]) →
      PowerState.EachResumed (legs.map Leg.origin) →
      levels.driveAll (Exchange.writes (legs.flatMap Leg.trace)) = levels) ∧
    ∀ (react : Reaction) states, ∃ legs, Leg.Taken tree memory legs ∧ legs.map Leg.origin = states ∧
      ∀ leg ∈ legs, react.Yields leg.trace := by
  refine ⟨?_, Leg.exists_taken tree memory⟩
  intro legs taken suspends resumed
  have chain := taken.chain
  rw [released] at chain
  exact chain.driveAll_eq suspends within (RailAssignment.driveAll_eq_self settled) resumed
    (fun _ _ => rfl) (.inl rfl)

/-- On the simplified tree a suspend is called off while the core supply settles. A resume follows
whose supplies do not come, then a suspend that goes all the way, and a resume whose supplies
come. -/
def suspendedTwice : List Leg :=
  let unsupplied := fun request : Request => (([] : List Mailbox.Call), request.darkAnswer)
  let awake := fun request : Request =>
    (([] : List Mailbox.Call), request.steadyAnswer .suspendDeasserted)
  let supplied := fun request : Request =>
    (([] : List Mailbox.Call), request.steadyAnswer .allLines)
  let calledOff := Leg.turning (.ofRevision .v2) unsupplied awake 15 .s0s3 {}
  let failed := Leg.along (.ofRevision .v2) unsupplied .s3s0 calledOff.final
  let slept := Leg.along (.ofRevision .v2) unsupplied .s0s3 failed.final
  [calledOff, failed, slept, Leg.along (.ofRevision .v2) supplied .s3s0 slept.final]

theorem suspendedTwice_taken : Leg.Taken (.ofRevision .v2) {} suspendedTwice := by
  unfold suspendedTwice
  exact .turning (.along (.along (.along trivial)))

/-- The suspend that is called off has lowered two rails by then. In the end no level is changed. -/
theorem levels_of_resumed_twice :
    Leg.Taken (.ofRevision .v2) {} suspendedTwice ∧
    suspendedTwice.map Leg.origin = [.s0s3, .s3s0, .s0s3, .s3s0] ∧
    suspendedTwice.map Leg.next = [.s3s0, .s3s0, .s3, .s0] ∧
    (suspendedTwice.take 1).flatMap (fun leg => Exchange.writes leg.trace) =
      [(.pp1800S0En, .low), (.apCoreEn, .low)] ∧
    ((EdgeTables.ofRevision .v2).restingLevels true).driveAll
        (Exchange.writes (suspendedTwice.flatMap Leg.trace)) =
      (EdgeTables.ofRevision .v2).restingLevels true := by
  have origins : suspendedTwice.map Leg.origin = [.s0s3, .s3s0, .s0s3, .s3s0] := by decide +kernel
  have settled : ∀ rail, ∀ level ∈ RailWrite.last? (PowerTree.ofRevision .v2).tables.s3s0 rail,
      ((EdgeTables.ofRevision .v2).restingLevels true).get rail = level := by decide +kernel
  have released : ({} : Memory).resetHeld = false := rfl
  obtain ⟨restored, -⟩ := levels_of_resumed (by decide +kernel) settled released
  refine ⟨suspendedTwice_taken, origins, by decide +kernel, by decide +kernel, ?_⟩
  apply restored _ suspendedTwice_taken (by decide +kernel)
  rw [origins]
  simp [PowerState.EachResumed]

/-- Whatever the tables are: from all rails low, power-up and then resume, with looks at the lines
between them, leave every rail on the level on which it rests with the processor running. It does
not matter to the rails whether the supplies come. -/
theorem restingLevels_of_firstResume {powerUp resume : Leg} {looks : List Leg}
    (taken : Leg.Taken tree memory (powerUp :: (looks ++ [resume])))
    (powersUp : powerUp.origin = .s5s3) (waits : ∀ look ∈ looks, look.origin = .s3)
    (resumes : resume.origin = .s3s0) :
    (RailAssignment.constant .low).driveAll
      (Exchange.writes ((powerUp :: (looks ++ [resume])).flatMap Leg.trace)) =
        tree.tables.restingLevels true := by
  obtain ⟨first, follows⟩ := taken.chain
  rw [powersUp] at follows
  obtain ⟨waiting, last, -⟩ := Leg.chain_append.mp follows
  have noPowerUp : ∀ look ∈ looks, look.origin ≠ .s5s3 := by
    intro look member again
    exact absurd ((waits look member).symm.trans again) (by decide)
  have notResumed : (looks.all fun look => look.origin ≠ .s3s0) = true := by
    simp +contextual [waits]
  rw [Leg.heldAfter_eq noPowerUp, notResumed] at last
  have driven : Exchange.writes ((powerUp :: (looks ++ [resume])).flatMap Leg.trace) =
      (tree.tables.s5s3 ++ tree.tables.s3s0).map RailWrite.output ++ [(.sysRstL, .high)] := by
    rw [List.flatMap_cons, List.flatMap_append, List.flatMap_singleton, Exchange.writes_append,
      Exchange.writes_append, first.writes_powerUp powersUp, waiting.writes_looks waits,
      last.writes_resume resumes, List.nil_append, List.map_append, List.append_assoc]
    rfl
  rw [driven, RailAssignment.driveAll_append, RailAssignment.driveAll_output]
  rfl

/-- A tree whose tables drive a rail both ways, and whose resume pulls the reset line low at its
end. -/
def contraryTree : PowerTree where
  revision := .v1
  pgoodS3 := .pp5000Good
  pgoodS0 := .apGood
  debounce := none
  tables :=
    { s5s3 := [⟨.sysRstL, .high, 0⟩, ⟨.pp5000En, .high, 1⟩, ⟨.apCoreEn, .high, 0⟩]
      s3s0 := [⟨.apCoreEn, .low, 0⟩, ⟨.pp900ApEn, .high, 1⟩, ⟨.sysRstL, .low, 3⟩]
      s0s3 := []
      s3s5 := [⟨.sysRstL, .high, 0⟩] }

/-- Both steps succeed, and the processor is left running with its reset line released. -/
theorem restingLevels_of_firstResume_contraryTree :
    let supplied := fun request : Request =>
      (([] : List Mailbox.Call), request.steadyAnswer .allLines)
    let powerUp := Leg.along contraryTree supplied .s5s3 {}
    let resume := Leg.along contraryTree supplied .s3s0 powerUp.final
    powerUp.next = .s3 ∧ resume.next = .s0 ∧
      (RailAssignment.constant .low).driveAll
        (Exchange.writes (([powerUp, resume] : List Leg).flatMap Leg.trace)) =
          contraryTree.tables.restingLevels true ∧
      Rail.all.filter (fun rail => (contraryTree.tables.restingLevels true).get rail = .high) =
        [.sysRstL, .pp900ApEn, .pp5000En] := by
  intro supplied powerUp resume
  have taken : Leg.Taken contraryTree {} (powerUp :: ([] ++ [resume])) := .along (.along trivial)
  have levels := restingLevels_of_firstResume taken rfl (by simp) rfl
  exact ⟨by decide +kernel, by decide +kernel, levels, by decide +kernel⟩

end Resumes

end RailSequencer
