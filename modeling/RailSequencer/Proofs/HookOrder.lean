import RailSequencer.Proofs.BenchRuns
import RailSequencer.Proofs.Notifications

/-!
# When subscribers are told

What a step tells comes at one place among all that it asks for. On the way up it comes last: the
table has been written, a held reset has been released, and the wait for the supplies has ended
well. On the way down it comes first. So nobody is told of anything while the rails are between two
states, and whoever is told hears it with all the others, in the order of the list.
-/

namespace RailSequencer

namespace Exchange

/-- A wait for lines that ended without them. -/
def FailedWait : Exchange → Prop
  | ⟨.waitForLines _ _, _, .error _⟩ => True
  | _ => False

theorem not_failedWait {trace : List Exchange}
    (goesOn : ∀ request ∈ requests trace, request.wait? = none) :
    ∀ exchange ∈ trace, ¬exchange.FailedWait := by
  rintro ⟨request, calls, answer⟩ member failed
  have none := goesOn request (List.mem_map_of_mem member)
  cases request with
  | waitForLines => exact absurd none nofun
  | _ => exact failed

/-- Where an event is told, that is not nothing. -/
theorem notified_ne_nil {earlier later : List Exchange} {event : HookEvent}
    {calls : List Mailbox.Call} :
    notified (earlier ++ ⟨.notify event, calls, ()⟩ :: later) ≠ [] := by
  rw [notified_append, notified_cons]
  exact List.append_ne_nil_of_right_ne_nil _ (List.cons_ne_nil _ _)

/-- Where nothing is told before and after an event, it has its place. -/
theorem place_of_notify {before after earlier later : List Exchange} {event again : HookEvent}
    {told calls : List Mailbox.Call} (silentBefore : notified before = [])
    (silentAfter : notified after = [])
    (same : before ++ ⟨.notify event, told, ()⟩ :: after =
      earlier ++ ⟨.notify again, calls, ()⟩ :: later) : earlier = before := by
  rcases List.append_eq_append_iff.mp same with ⟨between, rfl, rest⟩ | ⟨between, rfl, rest⟩
  · cases between with
    | nil => exact List.append_nil before
    | cons _ between =>
      obtain ⟨-, rfl⟩ := List.cons.inj rest
      exact absurd silentAfter notified_ne_nil
  · cases between with
    | nil => exact (List.append_nil earlier).symm
    | cons _ between =>
      obtain ⟨rfl, -⟩ := List.cons.inj rest
      exact absurd silentBefore notified_ne_nil

end Exchange

namespace PowerState

variable {state next : PowerState}

theorem of_startup_notice (told : .startup ∈ state.notices next) : state = .s5s3 ∧ next = .s3 := by
  revert told
  cases state <;> cases next <;> decide

theorem of_resume_notice (told : .resume ∈ state.notices next) : state = .s3s0 ∧ next = .s0 := by
  revert told
  cases state <;> cases next <;> decide

end PowerState

/-- What subscribers are told in a step, and where among all that the step asks for. -/
structure HookOrder (tree : PowerTree) (held : Bool) (state next : PowerState)
    (trace : List Exchange) : Prop where
  /-- A startup follows the whole table and a wait for the supplies of S3 that ended well. -/
  startup : ∀ earlier calls later, trace = earlier ++ ⟨.notify .startup, calls, ()⟩ :: later →
    state = .s5s3 ∧ ∃ replayed waited,
      Exchange.requests replayed = tableRequests sleepRequests tree.tables.s5s3 ∧
      earlier =
        replayed ++ [⟨.waitForLines tree.pgoodS3 Timing.supplyTimeoutUs, waited, .ok ()⟩]
  /-- A resume follows the whole table, the release of a held reset, and a wait for the supplies
  of S0 that ended well. -/
  resume : ∀ earlier calls later, trace = earlier ++ ⟨.notify .resume, calls, ()⟩ :: later →
    state = .s3s0 ∧ ∃ replayed released waited,
      Exchange.requests replayed = tableRequests sleepRequests tree.tables.s3s0 ∧
      Exchange.requests released = releaseRequests held ∧
      earlier = replayed ++ released ++
        [⟨.waitForLines tree.pgoodS0 Timing.supplyTimeoutUs, waited, .ok ()⟩]
  suspend : state = .s0s3 → ∃ calls later, trace = ⟨.notify .suspend, calls, ()⟩ :: later
  shutdown : state = .s3s5 → ∃ calls later, trace = ⟨.notify .shutdown, calls, ()⟩ :: later
  /-- Nothing else is told, and nothing twice. -/
  told : Exchange.notified trace = state.notices next
  failed : (∃ exchange ∈ trace, exchange.FailedWait) → Exchange.notified trace = []

namespace Transition

variable {tree : PowerTree} {memory final : Memory} {trace earlier later : List Exchange}
  {state next : PowerState} {calls : List Mailbox.Call}

theorem mem_notices {event : HookEvent}
    (transition : Transition tree memory state trace final next)
    (whole : trace = earlier ++ ⟨.notify event, calls, ()⟩ :: later) :
    event ∈ state.notices next := by
  rw [← transition.notified, whole, Exchange.notified_append, Exchange.notified_cons]
  exact List.mem_append_right _ List.mem_cons_self

theorem order_startup (transition : Transition tree memory state trace final next)
    (whole : trace = earlier ++ ⟨.notify .startup, calls, ()⟩ :: later) :
    state = .s5s3 ∧ ∃ replayed waited,
      Exchange.requests replayed = tableRequests sleepRequests tree.tables.s5s3 ∧
      earlier =
        replayed ++ [⟨.waitForLines tree.pgoodS3 Timing.supplyTimeoutUs, waited, .ok ()⟩] := by
  obtain ⟨rfl, rfl⟩ := PowerState.of_startup_notice (transition.mem_notices whole)
  cases transition with
  | @powersUp replayed _ asked waited told asks =>
    rw [asks, List.append_cons] at whole
    refine ⟨rfl, replayed, waited, asked, Exchange.place_of_notify ?_ rfl whole⟩
    rw [Exchange.notified_append, notified_replayed asked]
    rfl

theorem order_resume (transition : Transition tree memory state trace final next)
    (whole : trace = earlier ++ ⟨.notify .resume, calls, ()⟩ :: later) :
    state = .s3s0 ∧ ∃ replayed released waited,
      Exchange.requests replayed = tableRequests sleepRequests tree.tables.s3s0 ∧
      Exchange.requests released = releaseRequests memory.resetHeld ∧
      earlier = replayed ++ released ++
        [⟨.waitForLines tree.pgoodS0 Timing.supplyTimeoutUs, waited, .ok ()⟩] := by
  obtain ⟨rfl, rfl⟩ := PowerState.of_resume_notice (transition.mem_notices whole)
  cases transition with
  | @resumes replayed released _ asked release waited told kept asks =>
    rw [asks, List.append_cons] at whole
    refine ⟨rfl, replayed, released, waited, asked, release,
      Exchange.place_of_notify ?_ rfl whole⟩
    rw [Exchange.notified_append, Exchange.notified_append, notified_replayed asked,
      notified_released release]
    rfl

/-- A step that tells anybody of anything has not waited in vain. -/
theorem notices_of_failedWait (transition : Transition tree memory state trace final next)
    (failed : ∃ exchange ∈ trace, exchange.FailedWait) : state.notices next = [] := by
  obtain ⟨exchange, member, failed⟩ := failed
  have noneReplayed {table : List RailWrite} {replayed : List Exchange}
      (asked : Exchange.requests replayed = tableRequests sleepRequests table) :
      ∀ exchange ∈ replayed, ¬exchange.FailedWait :=
    Exchange.not_failedWait (forall_replayed asked (fun _ _ => rfl) fun _ => rfl)
  have noneSuspended {condition : AbortCondition} {memory final : Memory}
      {suspended : List Exchange} {outcome : Outcome}
      (run : AbortableRun condition tree.suspendRequests memory suspended final outcome) :
      ∀ exchange ∈ suspended, ¬exchange.FailedWait := by
    have goesOn : ∀ request ∈ tree.suspendRequests, request.wait? = none :=
      tree.forall_suspendRequests (fun _ _ => rfl) (fun _ => rfl) rfl
    exact Exchange.not_failedWait fun request asked => goesOn request (run.begun.subset asked)
  have noneIn (none : ∀ exchange ∈ trace, ¬exchange.FailedWait) : state.notices next = [] :=
    absurd failed (none exchange member)
  cases transition with
  | powersUp asked waited told whole =>
    apply noneIn
    rw [whole, List.forall_mem_append, List.forall_mem_cons, List.forall_mem_singleton]
    exact ⟨noneReplayed asked, id, id⟩
  | resumes asked release waited told kept whole =>
    have noneReleased := Exchange.not_failedWait
      (forall_released release (fun _ _ => rfl) fun _ => rfl)
    apply noneIn
    rw [whole, List.forall_mem_append, List.forall_mem_append, List.forall_mem_cons,
      List.forall_mem_cons, List.forall_mem_singleton]
    exact ⟨⟨noneReplayed asked, noneReleased⟩, id, id, id⟩
  | callsOffSuspend told aborted =>
    apply noneIn
    rw [List.forall_mem_cons]
    exact ⟨id, noneSuspended aborted⟩
  | suspends told completed idled looked pressed whole =>
    apply noneIn
    rw [whole, List.forall_mem_append, List.forall_mem_cons, List.forall_mem_cons,
      List.forall_mem_singleton]
    exact ⟨⟨id, noneSuspended completed⟩, id, id⟩
  | powersDown told asked =>
    apply noneIn
    rw [List.forall_mem_cons]
    exact ⟨id, noneReplayed asked⟩
  | _ => rfl

theorem hookOrder (transition : Transition tree memory state trace final next) :
    HookOrder tree memory.resetHeld state next trace where
  startup _ _ _ := transition.order_startup
  resume _ _ _ := transition.order_resume
  suspend := by
    rintro rfl
    cases transition with
    | callsOffSuspend told => exact ⟨told, _, rfl⟩
    | suspends told completed idled looked pressed whole => exact ⟨told, _, whole⟩
  shutdown := by
    rintro rfl
    cases transition with
    | powersDown told => exact ⟨told, _, rfl⟩
  told := transition.notified
  failed failed := by
    rw [transition.notified]
    exact transition.notices_of_failedWait failed

end Transition

/-- The order of hooks, rails and waits in a step, whatever the board answers and other tasks call. A
startup is told by a power-up alone, after the whole table and a wait for the supplies that ended
well; a resume by a step from S3S0 alone, after its table, the release of a held reset, and such a
wait. A suspend and a shutdown are told before the step asks for anything else. No other step tells
anything, and none in which a wait failed. On a bench with any number of subscribers, who may call
and change what they like when they are told, the record shows that each of them is told of each
event once, in the order of the list, where the step tells of it. -/
theorem hooks_in_order (tree : PowerTree) (state : PowerState) (memory : Memory) :
    (∀ trace final next, (Program.step tree state memory).Runs trace final next →
      HookOrder tree memory.resetHeld state next trace) ∧
    ∀ bench : Bench, ∃ trace,
      (Program.step tree state memory).Runs trace
        ((Program.step tree state memory).run Bench.board bench).2.1
        ((Program.step tree state memory).run Bench.board bench).2.2 ∧
      ((Program.step tree state memory).run Bench.board bench).1.shown =
        bench.shown ++ trace.flatMap (Exchange.recorded bench.setup.subscribers.length) :=
  ⟨fun _ _ _ run => (Program.step_runs run).hookOrder, Task.runs_on_bench _⟩

/-- A bench with three subscribers, of which the second asks for power-on when it hears of a
shutdown. -/
def observedBench : Bench := { setup := { subscribers := [[], [(.shutdown, .exitHardOff)], []] } }

/-- A power-down there: all three have been told before anything else is recorded. -/
theorem hooks_in_order_threeSubscribers : ∃ trace final next later,
    (Program.step (.ofRevision .v2) .s3s5 {}).Runs trace final next ∧
    HookOrder (.ofRevision .v2) false .s3s5 next trace ∧
    ((Program.step (.ofRevision .v2) .s3s5 {}).run Bench.board observedBench).1.shown =
      [.notified 0 .shutdown, .notified 1 .shutdown, .notified 2 .shutdown] ++ later := by
  obtain ⟨ordered, onBench⟩ := hooks_in_order (.ofRevision .v2) .s3s5 {}
  obtain ⟨trace, run, shown⟩ := onBench observedBench
  have order := ordered _ _ _ run
  obtain ⟨calls, later, rfl⟩ := order.shutdown rfl
  exact ⟨_, _, _, _, run, order, shown⟩

end RailSequencer
