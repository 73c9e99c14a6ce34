import RailSequencer.Proofs.BenchRuns
import RailSequencer.Proofs.Descent
import RailSequencer.Proofs.LostSupply
import RailSequencer.Proofs.Notifications
import RailSequencer.Proofs.PowerOn
import RailSequencer.Proofs.StateGraph
import RailSequencer.Proofs.Timeline
import RailSequencer.Proofs.Unasked

/-!
# A power-up that fails is undone

Where a line of the supplies of S3 never comes, a power-up waits for it as long as a wait may take,
and then everything goes one way: power down, S5, G3. `PowerState.BacksOut` lists the states with
what has been made known on the way, and `Undone` says what so many steps have driven and told. No
step on the way looks at the lines, and the shutdown that the failure forces keeps the processor from
a second try.
-/

namespace RailSequencer

/-- A wait whose lines are never asserted together fails at its bound. -/
def Timeline.FailsAtBound (timeline : Timeline) (start : Nat) : Exchange → Nat → Prop
  | ⟨.waitForLines wanted timeoutUs, _, answer⟩, finish =>
    (∀ moment, ¬timeline.Asserts wanted moment) →
      answer ≠ .ok () ∧ timeline.time finish = timeline.time start + timeoutUs
  | _, _ => True

/-- A wait that wanted the line did not end well. -/
def Exchange.Denies (line : Nat) : Exchange → Prop
  | ⟨.waitForLines wanted _, _, answer⟩ => wanted.has line = true → answer ≠ .ok ()
  | _ => True

theorem Exchange.Lacks.denies {line : Nat} {exchange : Exchange} (lacks : exchange.Lacks line) :
    exchange.Denies line := by
  obtain ⟨request, calls, answer⟩ := exchange
  cases request with
  | waitForLines => exact lacks
  | _ => exact trivial

namespace Timeline

variable {timeline : Timeline} {line : Nat} {wanted : SignalMask}

/-- Lines of which one is always low are never asserted together. -/
theorem not_asserts_of_low (low : ∀ moment, (timeline.lines moment).has line = false)
    (supply : wanted.has line = true) (moment : Nat) : ¬timeline.Asserts wanted moment := by
  intro asserted
  have high := SignalMask.has_of_contains asserted supply
  exact absurd ((low moment).symm.trans high) Bool.false_ne_true

theorem FailsAtBound.denies {start finish : Nat} {exchange : Exchange}
    (low : ∀ moment, (timeline.lines moment).has line = false)
    (fails : timeline.FailsAtBound start exchange finish) : exchange.Denies line := by
  obtain ⟨request, calls, answer⟩ := exchange
  cases request with
  | waitForLines wanted timeoutUs =>
    intro supply
    exact (fails (not_asserts_of_low low supply)).1
  | _ => exact trivial

end Timeline

/-- The states that a power-up leads to whose supplies do not come, with what has been made known on
the way. -/
inductive PowerState.BacksOut : PowerState → List PowerState → Prop
  | poweringUp : BacksOut .s5s3 []
  | failed : BacksOut .s3s5 [.s3s5]
  | poweredDown : BacksOut .s5 [.s3s5, .s5]
  | turningOff : BacksOut .s5g3 [.s3s5, .s5, .s5g3]
  | off (stays : Nat) : BacksOut .g3 ([.s3s5, .s5, .s5g3, .g3] ++ List.replicate stays .g3)

theorem PowerState.BacksOut.path {state : PowerState} {known : List PowerState}
    (backs : state.BacksOut known) : ∃ stays, .s5s3 :: known <+:
      [.s5s3, .s3s5, .s5, .s5g3, .g3] ++ List.replicate stays .g3 := by
  cases backs with
  | off stays => exact ⟨stays, List.prefix_rfl⟩
  | poweringUp | failed | poweredDown | turningOff => exact ⟨0, by decide⟩

/-- Before G3 the power task does not rest. -/
theorem PowerState.BacksOut.goes_on {state : PowerState} {known : List PowerState}
    (backs : state.BacksOut known) (few : known.length < 4) :
    state ≠ .g3 ∧ state ∉ state.successors := by
  cases backs with
  | off stays =>
    rw [List.length_append] at few
    exact absurd few (Nat.not_lt_of_le (Nat.le_add_right _ _))
  | poweringUp | failed | poweredDown | turningOff => decide

/-- What so many steps of a power-up that is undone have asked for. -/
structure Undone (tree : PowerTree) (steps : Nat) (trace : List Exchange) (forcing : Bool) :
    Prop where
  writes : Exchange.writes trace =
    ([tree.tables.s5s3, tree.tables.s3s5].take steps).flatten.map RailWrite.output
  told : Exchange.notified trace = if 2 ≤ steps then [.shutdown] else []
  waits : Exchange.waits trace =
    if 1 ≤ steps then [(tree.pgoodS3, Timing.supplyTimeoutUs)] else []
  forcing : 1 ≤ steps → forcing = true

/-- What may have been asked for, also in the middle of a step. -/
structure Undoing (tree : PowerTree) (trace : List Exchange) : Prop where
  writes : Exchange.writes trace <+:
    (tree.tables.s5s3 ++ tree.tables.s3s5).map RailWrite.output
  told : Exchange.notified trace <+: [.shutdown]
  waits : Exchange.waits trace <+: [(tree.pgoodS3, Timing.supplyTimeoutUs)]

namespace Transition

variable {tree : PowerTree} {line : Nat} {memory final : Memory} {trace : List Exchange}
  {next : PowerState}

theorem failsPowerUp_of_denies (transition : Transition tree memory .s5s3 trace final next)
    (supply : tree.pgoodS3.has line = true) (denies : ∀ exchange ∈ trace, exchange.Denies line) :
    next = .s3s5 ∧ final.forcingShutdown = true ∧
      Exchange.waits trace = [(tree.pgoodS3, Timing.supplyTimeoutUs)] := by
  cases transition with
  | powersUp asked waited told whole =>
    have denied := denies
      ⟨.waitForLines tree.pgoodS3 Timing.supplyTimeoutUs, waited, .ok ()⟩ (by simp [whole])
    exact absurd rfl (denied supply)
  | failsPowerUp asked waited error whole =>
    refine ⟨rfl, rfl, ?_⟩
    rw [whole, Exchange.waits_append,
      Exchange.waits_eq_nil (forall_replayed asked (fun _ _ => rfl) fun _ => rfl)]
    rfl

theorem waits_powerDown (transition : Transition tree memory .s3s5 trace final next) :
    next = .s5 ∧ Exchange.waits trace = [] := by
  cases transition with
  | powersDown told asked =>
    have none := Exchange.waits_eq_nil (forall_replayed asked (fun _ _ => rfl) fun _ => rfl)
    exact ⟨rfl, none⟩

theorem turnsOff_of_forcing (transition : Transition tree memory .s5 trace final next)
    (forcing : memory.forcingShutdown = true) :
    next = .s5g3 ∧ trace = [] ∧ final.forcingShutdown = true := by
  cases transition with
  | fromS5 leads =>
    rw [forcing] at leads
    exact ⟨leads, rfl, forcing⟩

end Transition

namespace Undone

variable {tree : PowerTree} {line steps : Nat} {trace work : List Exchange} {forcing : Bool}
  {state next : PowerState} {known : List PowerState} {memory worked : Memory}

theorem start (tree : PowerTree) (forcing : Bool) : Undone tree 0 [] forcing :=
  ⟨rfl, rfl, rfl, nofun⟩

/-- Once everything has been undone, a step that asks for nothing adds nothing. -/
theorem idle (undone : Undone tree steps trace forcing) (done : 2 ≤ steps) {after : Bool}
    (forced : after = true) : Undone tree (steps + 1) trace after := by
  have tables (count : Nat) (all : 2 ≤ count) :
      [tree.tables.s5s3, tree.tables.s3s5].take count = [tree.tables.s5s3, tree.tables.s3s5] :=
    List.take_of_length_le all
  constructor
  · rw [undone.writes, tables _ done, tables _ (Nat.le_succ_of_le done)]
  · rw [undone.told, if_pos done, if_pos (Nat.le_succ_of_le done)]
  · rw [undone.waits, if_pos (by omega), if_pos (by omega)]
  · exact fun _ => forced

/-- A step of a power-up that is undone, as long as G3 is not left. -/
theorem step (backs : state.BacksOut known)
    (undone : Undone tree known.length trace memory.forcingShutdown)
    (transition : Transition tree memory.takeShutdown state work worked next)
    (supply : tree.pgoodS3.has line = true) (denies : ∀ exchange ∈ work, exchange.Denies line)
    (stays : next ≠ .g3s5) :
    next.BacksOut (known ++ [next]) ∧
      Undone tree (known ++ [next]).length (trace ++ work) worked.forcingShutdown := by
  have forcing (begun : 1 ≤ known.length) : memory.takeShutdown.forcingShutdown = true := by
    simp [Memory.takeShutdown, undone.forcing begun]
  have drives := transition.drives
  have notified := transition.notified
  cases backs with
  | poweringUp =>
    obtain ⟨rfl, forced, waited⟩ := transition.failsPowerUp_of_denies supply denies
    refine ⟨.failed, ?_, ?_, ?_, fun _ => forced⟩
    · rw [Exchange.writes_append, undone.writes, drives]
      simp
    · rw [Exchange.notified_append, undone.told, notified]
      rfl
    · rw [Exchange.waits_append, undone.waits, waited]
      rfl
  | failed =>
    obtain ⟨rfl, waited⟩ := transition.waits_powerDown
    have kept := transition.forcing_kept (forcing (Nat.le_refl _)) (by decide)
    refine ⟨.poweredDown, ?_, ?_, ?_, fun _ => kept⟩
    · rw [Exchange.writes_append, undone.writes, drives]
      simp
    · rw [Exchange.notified_append, undone.told, notified]
      rfl
    · rw [Exchange.waits_append, undone.waits, waited]
      rfl
  | poweredDown =>
    obtain ⟨rfl, rfl, kept⟩ := transition.turnsOff_of_forcing (forcing (by decide))
    rw [List.append_nil]
    exact ⟨.turningOff, undone.idle (by decide) kept⟩
  | turningOff =>
    have kept := transition.forcing_kept (forcing (by decide)) (by decide)
    cases transition with
    | turnsOff =>
      rw [List.append_nil]
      exact ⟨.off 0, undone.idle (by decide) kept⟩
  | off times =>
    have kept := transition.forcing_kept (forcing (by simp)) (by decide)
    have same : next = .g3 := by
      have edge : next = .g3 ∨ next = .g3s5 := by
        simpa [PowerState.successors] using transition.mem_successors
      exact edge.resolve_right stays
    subst same
    cases transition with
    | fromG3 =>
      have longer : [.s3s5, .s5, .s5g3, .g3] ++ List.replicate times .g3 ++ [PowerState.g3] =
          [.s3s5, .s5, .s5g3, .g3] ++ List.replicate (times + 1) .g3 := by
        rw [List.append_assoc, ← List.replicate_succ']
      rw [List.append_nil]
      constructor
      · rw [longer]
        exact .off (times + 1)
      · rw [List.length_append]
        exact undone.idle (by simp) kept

/-- So many steps are the first ones of all. -/
theorem undoing (undone : Undone tree steps trace forcing) : Undoing tree trace where
  writes := by
    have whole : (tree.tables.s5s3 ++ tree.tables.s3s5).map RailWrite.output =
        [tree.tables.s5s3, tree.tables.s3s5].flatten.map RailWrite.output := by simp
    rw [undone.writes, whole]
    exact (List.take_prefix _ _).flatten.map _
  told := by
    rw [undone.told]
    split
    · exact List.prefix_rfl
    · exact List.nil_prefix
  waits := by
    rw [undone.waits]
    split
    · exact List.prefix_rfl
    · exact List.nil_prefix

/-- Each of any number of subscribers has heard of the shutdown, once, when everything is undone. -/
theorem told_each (undone : Undone tree steps trace forcing) (done : 2 ≤ steps)
    (subscribers : Nat) :
    (trace.flatMap (Exchange.recorded subscribers)).filterMap Bench.Event.told? =
      (List.range subscribers).map (·, .shutdown) := by
  rw [told_recorded, undone.told, if_pos done, List.flatMap_cons]
  exact List.append_nil _

end Undone

theorem Undoing.left {tree : PowerTree} {first second : List Exchange}
    (undoing : Undoing tree (first ++ second)) : Undoing tree first := by
  obtain ⟨writes, told, waits⟩ := undoing
  rw [Exchange.writes_append] at writes
  rw [Exchange.notified_append] at told
  rw [Exchange.waits_append] at waits
  exact ⟨(List.prefix_append _ _).trans writes, (List.prefix_append _ _).trans told,
    (List.prefix_append _ _).trans waits⟩

/-- In the middle of a step nothing has been asked for but the beginning of what is asked for by its
end, on a board that goes on denying the line. -/
theorem Undone.of_reaches {tree : PowerTree} {line : Nat} {state : PowerState}
    {known : List PowerState} {earlier trace : List Exchange} {memory : Memory}
    {task : Task PowerState} (backs : state.BacksOut known)
    (undone : Undone tree known.length earlier memory.forcingShutdown)
    (supply : tree.pgoodS3.has line = true)
    (reached : (Program.step tree state memory).Reaches trace task)
    (denies : ∀ exchange ∈ trace, exchange.Denies line) : Undoing tree (earlier ++ trace) := by
  obtain ⟨rest, worked, next, ends, lacks⟩ := task.exists_runs_lacks line
  have ran : (Program.step tree state memory).Runs (trace ++ rest) worked next :=
    reached.trans ends
  by_cases leaves : next = .g3s5
  · subst leaves
    obtain ⟨-, nothing, -⟩ := Program.asked_of_runs_g3s5 ran
    obtain ⟨rfl, -⟩ := List.append_eq_nil_iff.mp nothing
    rw [List.append_nil]
    exact undone.undoing
  · have denied : ∀ exchange ∈ trace ++ rest, exchange.Denies line := by
      rw [List.forall_mem_append]
      exact ⟨denies, fun exchange member => (lacks exchange member).denies⟩
    have stepped := (undone.step backs (Program.step_runs ran) supply denied leaves).2
    have whole := stepped.undoing
    rw [← List.append_assoc] at whole
    exact whole.left

/-- A power-up that is undone, between two steps, as long as the line is denied and G3 is not left. -/
def UnaskedInvariant.undone {tree : PowerTree} {line : Nat}
    (supply : tree.pgoodS3.has line = true) : UnaskedInvariant tree where
  between events state memory :=
    (∀ exchange ∈ Event.exchanges events, exchange.Denies line) →
      .g3s5 ∉ Event.known events → state.BacksOut (Event.known events) ∧
        Undone tree (Event.known events).length (Event.exchanges events) memory.forcingShutdown
  step := by
    intro events state memory trace worked next known before transition denies stays
    rw [Event.exchanges_step] at denies ⊢
    rw [Event.known_step] at stays ⊢
    rw [List.forall_mem_append] at denies
    rw [List.mem_append, not_or, List.mem_singleton] at stays
    obtain ⟨backs, undone⟩ := before denies.1 stays.1
    have stepped := undone.step backs transition supply denies.2 (Ne.symm stays.2)
    exact stepped
  called := by
    intro events state memory call before
    rw [Event.exchanges_concat rfl, Event.known_concat rfl]
    exact before
  woke := by
    intro events state memory before
    rw [Event.exchanges_concat rfl, Event.known_concat rfl]
    exact before

section Runs

variable {tree : PowerTree} {timeline : Timeline} {line : Nat} {state : PowerState}
  {memory : Memory} {events : List Event} {position : Position}

/-- How far a run has come that backs out of a power-up. -/
structure BackingOut (tree : PowerTree) (timeline : Timeline) (events : List Event)
    (position : Position) : Prop where
  path : ∃ stays, .s5s3 :: Event.known events <+:
    [.s5s3, .s3s5, .s5, .s5g3, .g3] ++ List.replicate stays .g3
  asked : Undoing tree (Event.exchanges events)
  /-- Between two steps nothing is left half done. -/
  between : position.isBoundary = true →
    Undone tree (Event.known events).length (Event.exchanges events)
      position.memory.forcingShutdown
  /-- Each of any number of subscribers hears of the shutdown, and of nothing else. -/
  told : position.isBoundary = true → 2 ≤ (Event.known events).length → ∀ subscribers,
    ((Event.exchanges events).flatMap (Exchange.recorded subscribers)).filterMap
      Bench.Event.told? = (List.range subscribers).map (·, .shutdown)
  /-- The one wait takes a second. -/
  inTime : ∀ wanted timeoutUs calls answer start finish,
    ⟨.waitForLines wanted timeoutUs, calls, answer⟩ ∈ Event.exchanges events →
    timeline.FailsAtBound start ⟨.waitForLines wanted timeoutUs, calls, answer⟩ finish →
    timeline.time finish = timeline.time start + 1000000

/-- Before G3 is left, a run in which the line is denied is on the way to G3, or stays there. In the
middle of a step it has asked for what it will have asked for at the end. -/
theorem Steps.undoing (supply : tree.pgoodS3.has line = true)
    (quiet : memory.mailbox.resetRequested = none)
    (run : Steps tree (.enter .s5s3 memory) events position)
    (others : ∀ event ∈ events, ∀ call ∈ event.calls, ¬call.AsksReset)
    (denies : ∀ exchange ∈ Event.exchanges events, exchange.Denies line)
    (stays : .g3s5 ∉ Event.known events) :
    position.state.BacksOut (Event.known events) ∧ Undoing tree (Event.exchanges events) ∧
      (position.isBoundary = true → Undone tree (Event.known events).length
        (Event.exchanges events) position.memory.forcingShutdown) := by
  have entered : (UnaskedInvariant.undone supply).between [] .s5s3 (memory.publish .s5s3) :=
    fun _ _ => ⟨.poweringUp, .start tree _⟩
  have holds := UnaskedInvariant.at_of_steps entered quiet run others
  by_cases boundary : position.isBoundary = true
  · obtain ⟨backs, undone⟩ := holds.boundary boundary denies stays
    exact ⟨backs, undone.undoing, fun _ => undone⟩
  · cases position with
    | serving | resting => exact absurd rfl boundary
    | stepping state task =>
      obtain ⟨earlier, begun, trace, before, reached, rfl⟩ := holds
      rw [Event.exchanges_began] at denies ⊢
      rw [Event.known_began] at stays ⊢
      rw [List.forall_mem_append] at denies
      obtain ⟨backs, undone⟩ := before denies.1 stays
      have within := undone.of_reaches backs supply reached denies.2
      exact ⟨backs, within, fun between => absurd between boundary⟩

theorem Steps.backingOut (supply : tree.pgoodS3.has line = true)
    (low : ∀ moment, (timeline.lines moment).has line = false)
    (quiet : memory.mailbox.resetRequested = none)
    (run : Steps tree (.enter .s5s3 memory) events position)
    (others : ∀ event ∈ events, ∀ call ∈ event.calls, ¬call.AsksReset)
    (served : ∀ exchange ∈ Event.exchanges events,
      ∃ start finish, timeline.FailsAtBound start exchange finish)
    (stays : .g3s5 ∉ Event.known events) : BackingOut tree timeline events position := by
  have denies : ∀ exchange ∈ Event.exchanges events, exchange.Denies line := by
    intro exchange member
    obtain ⟨start, finish, fails⟩ := served exchange member
    exact fails.denies low
  obtain ⟨backs, undoing, between⟩ := run.undoing supply quiet others denies stays
  refine ⟨backs.path, undoing, between, fun boundary => (between boundary).told_each, ?_⟩
  intro wanted timeoutUs calls answer start finish member fails
  have waited : (wanted, timeoutUs) ∈ Exchange.waits (Event.exchanges events) :=
    List.mem_filterMap.mpr ⟨_, List.mem_map_of_mem member, rfl⟩
  obtain ⟨rfl, rfl⟩ := Prod.mk.inj (List.mem_singleton.mp (undoing.waits.subset waited))
  exact (fails (Timeline.not_asserts_of_low low supply)).2

/-- Where G3 is left, a power-on request was accepted in the run, or pending when it began. -/
theorem Move.accepted (run : Steps tree (.enter state memory) events position)
    {final : Memory} {following : Position}
    (move : Move tree position (.ended .g3s5 final) following) :
    memory.mailbox.powerOnRequested = true ∨
      Accepted tree (.enter state memory) events position := by
  by_cases pending : memory.mailbox.powerOnRequested = true
  · exact .inl pending
  · have entered : (LoopInvariant.attended tree).Holds [] (.enter state memory) :=
      ⟨[], memory.publish state, [], ⟨rfl, fun asked => absurd asked pending⟩, .refl _, rfl⟩
    have answers : position.Answers := by
      cases move with
      | conclude => exact .inr ⟨_, _, rfl⟩
    rcases run.answers entered answers with atStart | accepted
    · have asked := atStart.pending rfl
      rw [Position.enter, Position.memory, Program.memory_serveReset] at asked
      exact absurd asked pending
    · exact .inr accepted

/-- A turn without a reset request to serve is a step, which any reaction leads to its end. -/
theorem Steps.exists_step {start : Position} (react : Reaction)
    (prior : Steps tree start events (.serving state (Program.serveReset memory)))
    (quiet : memory.mailbox.resetRequested = none)
    (yields : react.Yields (Event.exchanges events)) :
    ∃ trace worked next final turn, (Program.step tree state memory).Runs trace worked next ∧
      Program.conclude state next worked = .done final turn ∧
      react.Yields (Event.exchanges events ++ trace) ∧
      Steps tree start (events ++ .began state memory :: trace.map .asked ++ [.ended next final])
        (turn.position final) := by
  obtain ⟨trace, worked, next, run, rest⟩ := (Program.step tree state memory).exists_runs_reacting
    fun earlier => react (Event.exchanges events ++ earlier)
  obtain ⟨final, turn, concluded⟩ := Program.conclude_done state next worked
  refine ⟨trace, worked, next, final, turn, run, concluded, yields.append rest, ?_⟩
  rw [Program.serveReset_of_none quiet, Memory.takeReset_of_none quiet] at prior
  have stepped := (prior.move .begin).trans (.stepping run)
  rw [List.append_assoc, List.singleton_append] at stepped
  exact stepped.move (.conclude concluded)

/-- A board that denies the line, and other tasks that ask for no reset. -/
structure Reaction.Fails (react : Reaction) (line : Nat) : Prop where
  denies : ∀ earlier wanted timeoutUs, wanted.has line = true →
    (react earlier (.waitForLines wanted timeoutUs)).2 ≠ .ok ()
  others : ∀ earlier request, ∀ call ∈ (react earlier request).1, ¬call.AsksReset

theorem Reaction.Fails.of_yields {react : Reaction} (fails : react.Fails line)
    {trace : List Exchange} (yields : react.Yields trace) :
    ∀ exchange ∈ trace, exchange.Denies line ∧ ∀ call ∈ exchange.calls, ¬call.AsksReset := by
  rintro ⟨request, calls, answer⟩ member
  obtain ⟨earlier, later, whole⟩ := List.append_of_mem member
  obtain ⟨called, answered⟩ := Prod.mk.inj (yields earlier _ later whole)
  constructor
  · cases request with
    | waitForLines wanted timeoutUs =>
      intro supply
      have denied := fails.denies earlier wanted timeoutUs supply
      rwa [← answered] at denied
    | _ => exact trivial
  · have others := fails.others earlier request
    rwa [← called] at others

/-- Whatever a board that denies the line does, and other tasks call, the run goes on to G3. -/
theorem Steps.exists_undone {react : Reaction} (supply : tree.pgoodS3.has line = true)
    (fails : react.Fails line) (quiet : memory.mailbox.resetRequested = none) (steps : Nat)
    (few : steps ≤ 4) : ∃ events state now,
      Steps tree (.enter .s5s3 memory) events (.serving state (Program.serveReset now)) ∧
      (∀ event ∈ events, ∀ call ∈ event.calls, ¬call.AsksReset) ∧
      react.Yields (Event.exchanges events) ∧ .g3s5 ∉ Event.known events ∧
      (Event.known events).length = steps := by
  induction steps with
  | zero =>
    exact ⟨[], .s5s3, memory.publish .s5s3, .refl, fun _ member => absurd member List.not_mem_nil,
      .nil react, List.not_mem_nil, rfl⟩
  | succ steps inductionHypothesis =>
    obtain ⟨events, state, now, run, others, yields, stays, length⟩ :=
      inductionHypothesis (Nat.le_of_succ_le few)
    have denies : ∀ exchange ∈ Event.exchanges events, exchange.Denies line :=
      fun exchange member => (fails.of_yields yields exchange member).1
    obtain ⟨backs, -, -⟩ := run.undoing supply quiet others denies stays
    obtain ⟨served, done, -⟩ := Steps.unasked .refl (Position.unasked_enter quiet) run others
    obtain ⟨trace, worked, next, final, turn, ran, concluded, yieldsOn, longer⟩ :=
      run.exists_step react (Program.resetRequested_of_served done) yields
    have transition := Program.step_runs ran
    obtain ⟨away, leaves⟩ := backs.goes_on (length ▸ few)
    have moves : next ≠ state := by
      rintro rfl
      exact leaves transition.mem_successors
    obtain ⟨-, rfl, rfl⟩ := ((Program.conclude_cases concluded).resolve_left
      fun rests => moves rests.1).resolve_left fun stops => moves stops.1
    refine ⟨_, next, _, longer, ?_, ?_, ?_, ?_⟩
    · have answers := (List.forall_mem_append.mp (fails.of_yields yieldsOn)).2
      rw [List.forall_mem_append, List.forall_mem_append, List.forall_mem_cons,
        List.forall_mem_map, List.forall_mem_singleton]
      exact ⟨⟨others, fun _ member => absurd member List.not_mem_nil,
        fun exchange member => (answers exchange member).2⟩,
        fun _ member => absurd member List.not_mem_nil⟩
    · rw [Event.exchanges_step]
      exact yieldsOn
    · rw [Event.known_step, List.mem_append, List.mem_singleton]
      exact fun left => left.elim stays fun same => transition.ne_g3s5 away same.symm
    · rw [Event.known_step, List.length_append, length]
      rfl

/-- A power-up of any tree is undone when a line of the supplies of S3 is low all the time, on any
board on which a wait for lines that are never asserted together fails at its bound, whatever else
the lines do, and whatever other tasks call but for a reset. The states that are made known are S3S5,
S5, S5G3 and G3, and no other until G3 is left again. Before that the tables of the power-up and of
the power-down are all that is driven, in this order; a shutdown is all that is told, to each
subscriber once; there is one wait, for the supplies of S3, which takes a second; and from the first
step on a shutdown is under way between any two steps. G3 is left only when a power-on request was
accepted. And any such board, with any such calls, brings the run to G3. -/
theorem failedPowerUp_undone (supply : tree.pgoodS3.has line = true)
    (low : ∀ moment, (timeline.lines moment).has line = false)
    (quiet : memory.mailbox.resetRequested = none) :
    (∀ events position, Steps tree (.enter .s5s3 memory) events position →
      (∀ event ∈ events, ∀ call ∈ event.calls, ¬call.AsksReset) →
      (∀ exchange ∈ Event.exchanges events,
        ∃ start finish, timeline.FailsAtBound start exchange finish) →
      (.g3s5 ∉ Event.known events → BackingOut tree timeline events position) ∧
      ∀ final following, Move tree position (.ended .g3s5 final) following →
        memory.mailbox.powerOnRequested = true ∨
          Accepted tree (.enter .s5s3 memory) events position) ∧
    ∀ react : Reaction, react.Fails line → ∃ events position,
      Steps tree (.enter .s5s3 memory) events position ∧ react.Yields (Event.exchanges events) ∧
      Event.known events = [.s3s5, .s5, .s5g3, .g3] ∧ position.isBoundary = true := by
  constructor
  · intro events position run others served
    exact ⟨run.backingOut supply low quiet others served, fun _ _ => Move.accepted run⟩
  · intro react fails
    obtain ⟨events, state, now, run, others, yields, stays, length⟩ :=
      Steps.exists_undone supply fails quiet 4 (Nat.le_refl 4)
    have denies : ∀ exchange ∈ Event.exchanges events, exchange.Denies line :=
      fun exchange member => (fails.of_yields yields exchange member).1
    obtain ⟨stays, path⟩ := (run.undoing supply quiet others denies stays).1.path
    have known : Event.known events = [.s3s5, .s5, .s5g3, .g3] := by
      obtain ⟨-, path⟩ := List.cons_prefix_cons.mp path
      have first := List.prefix_iff_eq_take.mp path
      rw [length] at first
      exact first
    exact ⟨events, _, run, yields, known, rfl⟩

end Runs

/-- The simplified tree with a supply that never comes, and power-on asked for again and again before
it counts. -/
private def deniedPowerUp : List Event × Position :=
  (Position.enter .s5s3 {}).rehearse (.ofRevision .v2)
    (List.replicate 5 ((Answering.steady .suspendDeasserted).calling [.requestPowerOn]))

/-- It is off after four steps, and stays so. -/
theorem failedPowerUp_undone_askedToPowerOn :
    Event.known deniedPowerUp.1 = [.s3s5, .s5, .s5g3, .g3, .g3] ∧
    Event.writes deniedPowerUp.1 =
      ((PowerTree.ofRevision .v2).tables.s5s3 ++ (PowerTree.ofRevision .v2).tables.s3s5).map
        RailWrite.output ∧
    Event.notified deniedPowerUp.1 = [.shutdown] ∧
    deniedPowerUp.2.memory.forcingShutdown = true := by
  let timeline : Timeline :=
    { time := fun moment => moment * Timing.supplyTimeoutUs
      lines := fun _ => .suspendDeasserted
      ordered := fun _ _ later => Nat.mul_le_mul_right _ later }
  have supply : (PowerTree.ofRevision .v2).pgoodS3.has 2 = true := by decide
  have low (moment : Nat) : (timeline.lines moment).has 2 = false :=
    (by decide : SignalMask.suspendDeasserted.has 2 = false)
  have known : Event.known deniedPowerUp.1 = [.s3s5, .s5, .s5g3, .g3, .g3] := by decide +kernel
  have waits : ∀ exchange ∈ Event.exchanges deniedPowerUp.1, exchange.request.wait? = none ∨
      exchange.timesOut (PowerTree.ofRevision .v2).pgoodS3 = true := by decide +kernel
  have served : ∀ exchange ∈ Event.exchanges deniedPowerUp.1,
      ∃ start finish, timeline.FailsAtBound start exchange finish := by
    intro exchange member
    refine ⟨0, 1, ?_⟩
    have waited := waits exchange member
    obtain ⟨request, calls, answer⟩ := exchange
    cases request with
    | waitForLines wanted timeoutUs =>
      have timedOut := waited.resolve_left nofun
      cases answer with
      | ok => exact absurd timedOut Bool.false_ne_true
      | error error =>
        obtain ⟨-, bound⟩ := Bool.and_eq_true_iff.mp timedOut
        obtain rfl : timeoutUs = Timing.supplyTimeoutUs := eq_of_beq bound
        exact fun _ => ⟨nofun, Nat.succ_mul 0 _⟩
    | _ => exact trivial
  obtain ⟨undone, -⟩ := (failedPowerUp_undone supply low rfl).1 deniedPowerUp.1 deniedPowerUp.2
    (.rehearse _ _ _) (by decide +kernel) served
  have backsOut := undone (by rw [known]; decide)
  have undone := backsOut.between (by decide +kernel)
  rw [known] at undone
  exact ⟨known, undone.writes, undone.told, undone.forcing (by decide)⟩

end RailSequencer
