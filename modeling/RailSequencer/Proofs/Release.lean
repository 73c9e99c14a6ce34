import RailSequencer.Proofs.Descent
import RailSequencer.Proofs.HeldFlag
import RailSequencer.Proofs.Rehearsal

/-!
# The held reset line is released once

Without reset requests, everything that a run drives is driven by its steps. `Event.legs` reads them
off what was seen, and `Leg.Chain` says that they follow one another: each is a step that found the
flag of the held reset line as those before it left it. What each of them asks for is then decided
by its state and by whether a resume came before it since the last power-up.
-/

namespace RailSequencer

namespace PowerTree

/-- All that a resume asks for, if the reset line was `held` and the resume leads to `next`: the
release comes before the wait for the supplies, and what follows that wait depends on it. -/
def resumeRequests (tree : PowerTree) (held : Bool) (next : PowerState) : List Request :=
  tableRequests sleepRequests tree.tables.s3s0 ++ releaseRequests held ++
    .waitForLines tree.pgoodS0 Timing.supplyTimeoutUs ::
      if next = .s0 then [.notify .resume, .allowIdle false] else []

end PowerTree

namespace Transition

variable {tree : PowerTree} {memory final : Memory} {trace : List Exchange}
  {state next : PowerState}

theorem requests_resume (transition : Transition tree memory .s3s0 trace final next) :
    Exchange.requests trace = tree.resumeRequests memory.resetHeld next := by
  cases transition with
  | resumes asked release waited told kept whole =>
    rw [whole, Exchange.requests_append, Exchange.requests_append, asked, release]
    rfl
  | failsResume asked release waited error whole =>
    rw [whole, Exchange.requests_append, Exchange.requests_append, asked, release]
    rfl

end Transition

namespace Leg

variable (tree : PowerTree)

/-- What a step drove after its table. -/
def untabled (leg : Leg) : List (Rail × Level) :=
  (Exchange.writes leg.trace).drop (tree.tables.edge leg.origin).length

/-- A step that found the flag of the held reset line at `held`. -/
def IsStep (held : Bool) (leg : Leg) : Prop :=
  ∃ memory final, memory.resetHeld = held ∧
    Transition tree memory leg.origin leg.trace final leg.next

/-- The flag after steps. -/
def heldAfter (held : Bool) (legs : List Leg) : Bool :=
  legs.foldl (fun held leg => leg.origin.heldAfter held) held

/-- Steps of which each found the flag as those before it left it. -/
def Chain : Bool → List Leg → Prop
  | _, [] => True
  | held, leg :: rest => leg.IsStep tree held ∧ Chain (leg.origin.heldAfter held) rest

variable {tree} {held : Bool} {leg : Leg} {first second legs : List Leg}

theorem chain_append :
    Chain tree held (first ++ second) ↔
      Chain tree held first ∧ Chain tree (heldAfter held first) second := by
  induction first generalizing held with
  | nil => simp [Chain, heldAfter]
  | cons leg rest inductionHypothesis =>
    rw [List.cons_append, Chain, Chain, inductionHypothesis, and_assoc]
    rfl

theorem heldAfter_append (held : Bool) (first second : List Leg) :
    heldAfter held (first ++ second) = heldAfter (heldAfter held first) second :=
  List.foldl_append

/-- Without a further power-up the flag is set until the first resume. -/
theorem heldAfter_eq (noPowerUp : ∀ leg ∈ legs, leg.origin ≠ .s5s3) :
    heldAfter held legs = (held && legs.all fun leg => leg.origin ≠ .s3s0) := by
  induction legs generalizing held with
  | nil => simp [heldAfter]
  | cons leg rest inductionHypothesis =>
    obtain ⟨other, others⟩ := List.forall_mem_cons.mp noPowerUp
    have later : heldAfter held (leg :: rest) = heldAfter (leg.origin.heldAfter held) rest := rfl
    rw [later, inductionHypothesis others, List.all_cons]
    cases state : leg.origin with
    | s5s3 => exact absurd state other
    | s3s0 => simp [PowerState.heldAfter]
    | _ => simp [PowerState.heldAfter]

namespace IsStep

/-- No step but a resume drives anything after its table. -/
theorem writes_prefix (step : leg.IsStep tree held) (other : leg.origin ≠ .s3s0) :
    Exchange.writes leg.trace <+: (tree.tables.edge leg.origin).map RailWrite.output := by
  obtain ⟨memory, final, -, transition⟩ := step
  obtain ⟨tabled, begun, whole⟩ := transition.writes_eq
  have nothing : leg.origin.release memory.resetHeld = [] := by
    simp [PowerState.release, other]
  rw [whole, nothing, List.append_nil]
  exact begun

theorem untabled_eq (step : leg.IsStep tree held) :
    leg.untabled tree = leg.origin.release held := by
  by_cases resumes : leg.origin = .s3s0
  · obtain ⟨memory, final, rfl, transition⟩ := step
    rw [resumes] at transition
    have drives : Exchange.writes leg.trace = _ ++ _ := transition.drives
    have length : (tree.tables.s3s0.map RailWrite.output).length = tree.tables.s3s0.length :=
      List.length_map _
    rw [untabled, drives, resumes]
    change List.drop tree.tables.s3s0.length _ = _
    rw [← length, List.drop_left]
    simp [PowerState.release]
  · have short := (step.writes_prefix resumes).length_le
    rw [List.length_map] at short
    have nothing : leg.origin.release held = [] := by
      simp [PowerState.release, resumes]
    rw [untabled, nothing, List.drop_of_length_le short]

end IsStep

namespace Chain

/-- Between two power-ups the reset line is released by the first resume, and that is all that is
driven outside the tables. -/
theorem untabled_eq (chain : Chain tree held legs)
    (noPowerUp : ∀ leg ∈ legs, leg.origin ≠ .s5s3) :
    legs.flatMap (untabled tree) =
      if held && legs.any fun leg => leg.origin = .s3s0 then [(.sysRstL, .high)] else [] := by
  induction legs generalizing held with
  | nil => simp
  | cons leg rest inductionHypothesis =>
    obtain ⟨step, follows⟩ := chain
    obtain ⟨other, others⟩ := List.forall_mem_cons.mp noPowerUp
    rw [List.flatMap_cons, step.untabled_eq, inductionHypothesis follows others]
    cases state : leg.origin with
    | s5s3 => exact absurd state other
    | s3s0 => cases held <;> simp [PowerState.release, PowerState.heldAfter, state]
    | _ => simp [PowerState.release, PowerState.heldAfter, state]

end Chain

end Leg

/-- What is known of the steps of a run: those that were taken whole, and where the last one began
and what it has asked for. -/
structure Record where
  legs : List Leg := []
  origin : PowerState := .g3
  trace : List Exchange := []

namespace Record

def note (record : Record) : Event → Record
  | .began state _ => { record with origin := state, trace := [] }
  | .asked exchange => { record with trace := record.trace ++ [exchange] }
  | .ended next memory =>
    { record with legs := record.legs ++ [⟨record.origin, record.trace, memory, next⟩] }
  | .called _ | .woke => record

theorem foldl_note_asked (record : Record) (trace : List Exchange) :
    (trace.map .asked).foldl note record = { record with trace := record.trace ++ trace } := by
  induction trace generalizing record with
  | nil => simp
  | cons exchange rest inductionHypothesis =>
    rw [List.map_cons, List.foldl_cons, inductionHypothesis]
    simp [note]

end Record

namespace Event

/-- The steps that were taken whole, in order. -/
def legs (events : List Event) : List Leg := (events.foldl Record.note {}).legs

theorem legs_append_step (events : List Event) (state next : PowerState) (memory final : Memory)
    (trace : List Exchange) :
    legs (events ++ .began state memory :: trace.map .asked ++ [.ended next final]) =
      legs events ++ [⟨state, trace, final, next⟩] := by
  simp [legs, Record.note, Record.foldl_note_asked]

end Event

/-- Steps that follow one another, and all that was driven was driven by them. -/
def QuietInvariant.chain (tree : PowerTree) (held : Bool) : QuietInvariant tree where
  between events _ now := Leg.Chain tree held (Event.legs events) ∧
    now = Leg.heldAfter held (Event.legs events) ∧
    Event.writes events = (Event.legs events).flatMap fun leg => Exchange.writes leg.trace
  step := by
    rintro events state memory trace worked next final ⟨chain, now, writes⟩ transition
    rw [Event.legs_append_step]
    refine ⟨?_, ?_, ?_⟩
    · rw [Leg.chain_append, ← now]
      exact ⟨chain, ⟨memory.takeShutdown, worked, rfl, transition⟩, trivial⟩
    · rw [Leg.heldAfter_append, ← now]
      exact transition.resetHeld
    · rw [Event.writes_step, writes, List.flatMap_append, List.flatMap_singleton]
  called := by
    rintro events state now call ⟨chain, same, writes⟩
    have legs : Event.legs (events ++ [.called call]) = Event.legs events := by
      simp [Event.legs, Record.note]
    rw [legs, Event.writes_concat rfl]
    exact ⟨chain, same, writes⟩
  woke := by
    rintro events state now ⟨chain, same, writes⟩
    have legs : Event.legs (events ++ [.woke]) = Event.legs events := by
      simp [Event.legs, Record.note]
    rw [legs, Event.writes_concat rfl]
    exact ⟨chain, same, writes⟩

section Runs

variable {tree : PowerTree} {memory : Memory} {events : List Event} {position : Position}

/-- The steps of a run, and what was driven before the step that is under way. -/
theorem Steps.chain {state : PowerState} (quiet : memory.mailbox.resetRequested = none)
    (run : Steps tree (.enter state memory) events position)
    (others : ∀ event ∈ events, ∀ call ∈ event.calls, ¬call.AsksReset) :
    Leg.Chain tree memory.resetHeld (Event.legs events) ∧
      (position.isBoundary = true →
        Event.writes events = (Event.legs events).flatMap fun leg => Exchange.writes leg.trace) := by
  have entered : (QuietInvariant.chain tree memory.resetHeld).between [] state memory.resetHeld :=
    ⟨trivial, rfl, rfl⟩
  have holds := QuietInvariant.at_of_steps entered quiet run others
  refine ⟨?_, fun boundary => (holds.boundary boundary).2.2⟩
  cases position with
  | serving state task =>
    obtain ⟨_, -, chain, -⟩ := holds
    exact chain
  | stepping state task =>
    obtain ⟨earlier, begun, trace, ⟨chain, -⟩, -, rfl⟩ := holds
    have legs : Event.legs (earlier ++ .began state begun :: trace.map .asked) =
        Event.legs earlier := by
      simp [Event.legs, Record.note, Record.foldl_note_asked]
    rw [legs]
    exact chain
  | resting state memory => exact holds.1

/-- On any tree, in a run that starts hard off and in which nobody asks for a reset: everything is
driven by steps. From a power-up to the next one, every step but a resume drives its table, or the
beginning of it, and nothing else. The first resume releases the reset line, between its table and
its wait for the supplies; every later one asks for the same things without the release. So all that
is driven outside the tables is that one release. And nothing is held in S0 and S0S3. -/
theorem released_once (quiet : memory.mailbox.resetRequested = none)
    (run : Steps tree (.enter .g3 memory) events position)
    (others : ∀ event ∈ events, ∀ call ∈ event.calls, ¬call.AsksReset) :
    (position.isBoundary = true →
        Event.writes events = (Event.legs events).flatMap fun leg => Exchange.writes leg.trace) ∧
      (∀ before powerUp between after,
        Event.legs events = before ++ powerUp :: (between ++ after) → powerUp.origin = .s5s3 →
        (∀ leg ∈ between, leg.origin ≠ .s5s3) →
        (∀ leg ∈ powerUp :: between, leg.origin ≠ .s3s0 →
          Exchange.writes leg.trace <+: (tree.tables.edge leg.origin).map RailWrite.output) ∧
        (∀ earlier resume later, between = earlier ++ resume :: later → resume.origin = .s3s0 →
          Exchange.requests resume.trace =
            tree.resumeRequests (earlier.all fun leg => leg.origin ≠ .s3s0) resume.next) ∧
        (powerUp :: between).flatMap (Leg.untabled tree) =
          if between.any fun leg => leg.origin = .s3s0 then [(.sysRstL, .high)] else []) ∧
      (position.state = .s0 ∨ position.state = .s0s3 → position.memory.resetHeld = false) := by
  obtain ⟨chain, driven⟩ := run.chain quiet others
  refine ⟨driven, ?_, run.released_of_running⟩
  intro before powerUp between after whole powersUp noPowerUp
  rw [whole, Leg.chain_append] at chain
  obtain ⟨-, first, rest⟩ := chain
  rw [powersUp] at rest
  obtain ⟨follows, -⟩ := Leg.chain_append.mp rest
  refine ⟨?_, ?_, ?_⟩
  · intro leg member other
    rcases List.mem_cons.mp member with rfl | member
    · exact first.writes_prefix other
    · obtain ⟨earlier, later, rfl⟩ := List.append_of_mem member
      obtain ⟨-, step, -⟩ := Leg.chain_append.mp follows
      exact step.writes_prefix other
  · rintro earlier ⟨_, trace, final, next⟩ later rfl rfl
    rw [List.forall_mem_append] at noPowerUp
    obtain ⟨-, ⟨memory, worked, held, transition⟩, -⟩ := Leg.chain_append.mp follows
    have flag := held.trans (Leg.heldAfter_eq noPowerUp.1)
    rw [transition.requests_resume, flag, PowerState.heldAfter, Bool.true_and]
  · have untabled := follows.untabled_eq noPowerUp
    rw [List.flatMap_cons, first.untabled_eq, powersUp, untabled]
    rfl

end Runs

/-- The second tree is powered on; the supplies of S0 come at the second try. -/
def resumedTwice : List Event × Position :=
  (Position.enter .g3 (({} : Memory).hear [.requestPowerOn])).rehearse (.ofRevision .v1)
    (List.replicate 5 (.steady .allLines) ++
      [.steady (SignalMask.pp5000Good.union .suspendDeasserted), .steady .allLines])

/-- The reset line is released in the first try, and in the second no more. -/
theorem released_once_atSecondTry : ∃ before powerUp between,
    Event.legs resumedTwice.1 = before ++ powerUp :: (between ++ []) ∧ powerUp.origin = .s5s3 ∧
    between.map Leg.origin = [.s3, .s3s0, .s3s0] ∧
    (powerUp :: between).flatMap (Leg.untabled (.ofRevision .v1)) = [(.sysRstL, .high)] ∧
    resumedTwice.2.state = .s0 ∧ resumedTwice.2.memory.resetHeld = false := by
  have running : resumedTwice.2.state = .s0 := by decide +kernel
  have states : ((Event.legs resumedTwice.1).drop 3).map Leg.origin =
      [.s5s3, .s3, .s3s0, .s3s0] := by decide +kernel
  obtain ⟨-, once, released⟩ := released_once (by decide) (Steps.rehearse (.ofRevision .v1) _ _)
    (by decide +kernel : ∀ event ∈ resumedTwice.1, ∀ call ∈ event.calls, ¬call.AsksReset)
  obtain ⟨powerUp, between, rest, powersUp, origins⟩ := List.map_eq_cons_iff.mp states
  have whole : Event.legs resumedTwice.1 =
      (Event.legs resumedTwice.1).take 3 ++ powerUp :: (between ++ []) := by
    rw [List.append_nil, ← rest, List.take_append_drop]
  have noPowerUp : ∀ leg ∈ between, leg.origin ≠ .s5s3 := by
    intro leg member
    have origin := List.mem_map_of_mem (f := Leg.origin) member
    rw [origins] at origin
    intro same
    rw [same] at origin
    exact absurd origin (by decide)
  have resumes : (between.any fun leg => leg.origin = .s3s0) = true := by
    have origin : (between.map Leg.origin).any (· = .s3s0) = true := by
      rw [origins]
      decide
    rwa [List.any_map] at origin
  obtain ⟨-, -, untabled⟩ := once _ _ _ _ whole powersUp noPowerUp
  rw [if_pos resumes] at untabled
  exact ⟨_, _, _, whole, powersUp, origins, untabled, running, released (.inl running)⟩

end RailSequencer
