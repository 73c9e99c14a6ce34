import RailSequencer.PowerTree.Revisions
import RailSequencer.Proofs.Step

/-!
# How a suspend ends

A suspend is called off at the end of a slice of one of its delays, by a look that finds the suspend
line deasserted with no shutdown under way or requested, or it goes all the way down. `CutShort`
says what is known of a program that was ended by its condition: everything up to the look at which
the condition held, and nothing after it. It is followed from one delay to a whole table, so that
the delay in which a suspend was called off is known, and what had been written by then.
-/

namespace RailSequencer

/-- A point of a delay of `ms` milliseconds at which its condition is looked at: a whole number of
slices, or its end. -/
structure SliceEnd (ms slept : Nat) : Prop where
  begun : 0 < slept
  within : slept ≤ ms
  boundary : Timing.abortSliceMs ∣ slept ∨ slept = ms

/-- After one more slice. -/
theorem SliceEnd.add {ms slept : Nat} (sliceEnd : SliceEnd ms slept) :
    SliceEnd (Timing.abortSliceMs + ms) (Timing.abortSliceMs + slept) where
  begun := Nat.add_pos_right _ sliceEnd.begun
  within := Nat.add_le_add_left sliceEnd.within _
  boundary := sliceEnd.boundary.imp (Nat.dvd_add_right (Nat.dvd_refl _)).mpr
    (congrArg (Timing.abortSliceMs + ·))

/-- A slice is the shortest delay with a look in it. -/
theorem slicedRequests_of_le {ms : Nat} (short : ms ≤ Timing.abortSliceMs) :
    slicedRequests ms = sleepRequests ms ++ [.readLines] := by
  have one : (ms - 1) / Timing.abortSliceMs = 0 := by
    apply Nat.div_eq_of_lt
    simp only [Timing.abortSliceMs] at short ⊢
    omega
  simp [slicedRequests, one, sliceRequests]

/-- A longer delay is a slice, and a delay of what is left. -/
theorem slicedRequests_add {ms : Nat} (more : 0 < ms) :
    slicedRequests (Timing.abortSliceMs + ms) =
      sleepRequests Timing.abortSliceMs ++ [.readLines] ++ slicedRequests ms := by
  have slices : (Timing.abortSliceMs + ms - 1) / Timing.abortSliceMs =
      (ms - 1) / Timing.abortSliceMs + 1 := by
    simp only [Timing.abortSliceMs]
    omega
  have last : Timing.abortSliceMs + ms -
      ((ms - 1) / Timing.abortSliceMs + 1) * Timing.abortSliceMs =
        ms - (ms - 1) / Timing.abortSliceMs * Timing.abortSliceMs := by
    simp only [Timing.abortSliceMs]
    omega
  simp only [slicedRequests, slices, last, sliceRequests]

/-- The run of a program that asked for `asked` and was ended by its condition, which held at the
look that came last. -/
structure CutShort (condition : AbortCondition) (asked : List Request) (memory : Memory)
    (trace : List Exchange) (final : Memory) : Prop where
  final_eq : final = memory.after trace
  asked : Exchange.requests trace = asked
  look : ∃ earlier calls lines, trace = earlier ++ [⟨.readLines, calls, lines⟩] ∧
    condition final.mailbox lines = true

variable {condition : AbortCondition} {asked : List Request} {memory final : Memory}
  {trace : List Exchange}

/-- What came before belongs to it. -/
theorem CutShort.precede {earlier : List Exchange}
    (cut : CutShort condition asked (memory.after earlier) trace final) :
    CutShort condition (Exchange.requests earlier ++ asked) memory (earlier ++ trace) final where
  final_eq := by rw [cut.final_eq, Memory.after_append]
  asked := by rw [Exchange.requests_append, cut.asked]
  look := by
    obtain ⟨before, calls, lines, rfl, held⟩ := cut.look
    exact ⟨earlier ++ before, calls, lines, (List.append_assoc _ _ _).symm, held⟩

/-- The look at the end of a slice is the last. -/
theorem CutShort.slice (ms : Nat) (memory : Memory) (slept called : List Mailbox.Call)
    {lines : SignalMask}
    (held : condition ((memory.hear slept).hear called).mailbox lines = true) :
    CutShort condition (sleepRequests ms ++ [.readLines]) memory
      [⟨.sleep (ms * Timing.usPerMs), slept, ()⟩, ⟨.readLines, called, lines⟩]
      ((memory.hear slept).hear called) where
  final_eq := by simp
  asked := rfl
  look := ⟨[_], called, lines, rfl, held⟩

namespace Program

/-- A delay is ended early at the end of one of its slices. -/
theorem sleepSlices_cutShort {lastMs slices : Nat} (some : 0 < lastMs)
    (short : lastMs ≤ Timing.abortSliceMs)
    (run : (sleepSlices condition lastMs slices memory).Runs trace final .aborted) :
    ∃ slept, SliceEnd (slices * Timing.abortSliceMs + lastMs) slept ∧
      CutShort condition (slicedRequests slept) memory trace final := by
  induction slices generalizing memory trace with
  | zero =>
    rw [sleepSlices] at run
    obtain ⟨slept, called, lines, _, rfl, ⟨held, rfl, rfl, -⟩ | ⟨-, ended⟩⟩ := slice_cases run
    · refine ⟨lastMs, ⟨some, by omega, .inr (by omega)⟩, ?_⟩
      rw [slicedRequests_of_le short]
      exact .slice lastMs memory slept called held
    · exact absurd (runs_pure_iff.mp ended).2.2 (by decide)
  | succ slices inductionHypothesis =>
    have total : (slices + 1) * Timing.abortSliceMs + lastMs =
        Timing.abortSliceMs + (slices * Timing.abortSliceMs + lastMs) := by
      rw [Nat.succ_mul]
      omega
    rw [sleepSlices] at run
    rw [total]
    obtain ⟨slept, called, lines, _, rfl, ⟨held, rfl, rfl, -⟩ | ⟨-, rested⟩⟩ := slice_cases run
    · refine ⟨Timing.abortSliceMs, ⟨by decide, by omega, .inl (Nat.dvd_refl _)⟩, ?_⟩
      rw [slicedRequests_of_le (Nat.le_refl _)]
      exact .slice _ memory slept called held
    · obtain ⟨spent, sliceEnd, cut⟩ := inductionHypothesis rested
      refine ⟨Timing.abortSliceMs + spent, sliceEnd.add, ?_⟩
      rw [slicedRequests_add sliceEnd.begun]
      rw [← Memory.after_nil ((memory.hear slept).hear called),
        ← Memory.after_cons _ ⟨.readLines, called, lines⟩,
        ← Memory.after_cons _ ⟨.sleep (Timing.abortSliceMs * Timing.usPerMs), slept, ()⟩] at cut
      exact cut.precede

theorem sleepAbortable_cutShort {ms : Nat} (some : 0 < ms)
    (run : (sleepAbortable condition ms memory).Runs trace final .aborted) :
    ∃ slept, SliceEnd ms slept ∧ CutShort condition (slicedRequests slept) memory trace final := by
  have split : (ms - 1) / Timing.abortSliceMs * Timing.abortSliceMs +
      (ms - (ms - 1) / Timing.abortSliceMs * Timing.abortSliceMs) = ms ∧
      0 < ms - (ms - 1) / Timing.abortSliceMs * Timing.abortSliceMs ∧
      ms - (ms - 1) / Timing.abortSliceMs * Timing.abortSliceMs ≤ Timing.abortSliceMs := by
    simp only [Timing.abortSliceMs]
    omega
  obtain ⟨slept, sliceEnd, cut⟩ := sleepSlices_cutShort split.2.1 split.2.2 run
  rw [split.1] at sliceEnd
  exact ⟨slept, sliceEnd, cut⟩

/-- A table is ended early in the delay of one of its entries, which is written, as are those before
it. -/
theorem replayAbortable_cutShort {table : List RailWrite}
    (run : (replayAbortable condition table memory).Runs trace final .aborted) :
    ∃ earlier write later slept, table = earlier ++ write :: later ∧ write.settleMs ≠ 0 ∧
      SliceEnd write.settleMs.toNat slept ∧
      CutShort condition (tableRequests slicedRequests earlier ++
        .drive write.rail write.level :: slicedRequests slept) memory trace final := by
  induction table generalizing memory trace with
  | nil =>
    rw [replayAbortable] at run
    exact absurd (runs_pure_iff.mp run).2.2 (by decide)
  | cons write rest inductionHypothesis =>
    rw [replayAbortable] at run
    obtain ⟨called, _, _, rfl, driven⟩ := runs_ask_bind_iff.mp run
    -- Whatever cuts the rest short comes after this entry.
    have behind {passed : List Exchange}
        (asked : Exchange.requests passed =
          if write.settleMs = 0 then [] else slicedRequests write.settleMs.toNat)
        {rested : List Exchange}
        (run : (replayAbortable condition rest ((memory.hear called).after passed)).Runs rested
          final .aborted) :
        ∃ earlier entry later slept, write :: rest = earlier ++ entry :: later ∧
          entry.settleMs ≠ 0 ∧ SliceEnd entry.settleMs.toNat slept ∧
          CutShort condition (tableRequests slicedRequests earlier ++
            .drive entry.rail entry.level :: slicedRequests slept) memory
            (⟨.drive write.rail write.level, called, ()⟩ :: (passed ++ rested)) final := by
      obtain ⟨earlier, entry, later, slept, rfl, delay, sliceEnd, cut⟩ := inductionHypothesis run
      refine ⟨write :: earlier, entry, later, slept, rfl, delay, sliceEnd, ?_⟩
      rw [← Memory.after_cons _ ⟨.drive write.rail write.level, called, ()⟩] at cut
      rw [tableRequests_cons, ← asked, List.append_assoc]
      exact cut.precede
    split at driven
    next noDelay => exact @behind [] (if_pos noDelay).symm _ driven
    next delay =>
      obtain ⟨slice, middle, verdict, rested, slept, ended, rfl⟩ := runs_bind_iff.mp driven
      cases verdict with
      | aborted =>
        obtain ⟨rfl, rfl, -⟩ := runs_pure_iff.mp ended
        have positive : 0 < write.settleMs.toNat :=
          Nat.pos_of_ne_zero fun none => delay (UInt8.toNat_inj.mp none)
        obtain ⟨spent, sliceEnd, cut⟩ := sleepAbortable_cutShort positive slept
        refine ⟨[], write, rest, spent, rfl, delay, sliceEnd, ?_⟩
        rw [List.append_nil]
        rw [← Memory.after_nil (memory.hear called),
          ← Memory.after_cons _ ⟨.drive write.rail write.level, called, ()⟩] at cut
        exact cut.precede
      | completed =>
        have sliced := sleepAbortable_runs slept
        rw [sliced.final_eq] at ended
        exact behind (by rw [if_neg delay, sliced.complete rfl]) ended

end Program

section Suspend

variable {tree : PowerTree} {before : List Request} {written : List RailWrite} {ms : Nat}
  {next : PowerState}

/-- The delays of a suspend: what is asked for ahead of a delay, which entries have been written by
then, and how long it is. The first comes ahead of the table; each of the others belongs to the
entry that was written last. -/
inductive PowerTree.SuspendDelay (tree : PowerTree) :
    List Request → List RailWrite → Nat → Prop where
  | grace : SuspendDelay tree [] [] Timing.suspendGraceMs
  | entry {earlier later : List RailWrite} {write : RailWrite}
      (table : tree.tables.s0s3 = earlier ++ write :: later) (settles : write.settleMs ≠ 0) :
      SuspendDelay tree
        (slicedRequests Timing.suspendGraceMs ++
          (tableRequests slicedRequests earlier ++ [.drive write.rail write.level]))
        (earlier ++ [write]) write.settleMs.toNat

/-- What has been written ahead of a delay is the beginning of the table. -/
theorem PowerTree.SuspendDelay.written_prefix (delay : tree.SuspendDelay before written ms) :
    written <+: tree.tables.s0s3 := by
  cases delay with
  | grace => exact List.nil_prefix
  | @entry earlier later write table settles =>
    exact ⟨later, by rw [table, List.append_assoc, List.singleton_append]⟩

theorem PowerTree.SuspendDelay.writes (delay : tree.SuspendDelay before written ms) :
    Request.writes before = written.map RailWrite.output := by
  cases delay with
  | grace => rfl
  | entry =>
    rw [Request.writes_append, Request.writes_append, writes_slicedRequests,
      writes_tableRequests writes_slicedRequests, List.map_append]
    rfl

theorem PowerTree.SuspendDelay.quiet (delay : tree.SuspendDelay before written ms) :
    ∀ request ∈ before, request.IsQuiet := by
  cases delay with
  | grace => exact fun _ member => absurd member List.not_mem_nil
  | entry =>
    rw [List.forall_mem_append, List.forall_mem_append, List.forall_mem_singleton]
    exact ⟨quiet_slicedRequests _, quiet_tableRequests quiet_slicedRequests _, trivial⟩

namespace Program

theorem settleS3_state (run : (settleS3 memory).Runs trace final next) : next = .s3 := by
  obtain ⟨_, _, _, rfl, asked⟩ := runs_ask_bind_iff.mp run
  obtain ⟨_, pressed, _, rfl, settled⟩ := runs_ask_bind_iff.mp asked
  cases pressed with
  | false => exact (Task.runs_done_iff.mp settled).2.2
  | true => exact (Task.runs_done_iff.mp settled).2.2

/-- A suspend that leads back up was cut short in one of its delays. -/
theorem stepS0S3_cutShort (run : (stepS0S3 tree memory).Runs trace final .s3s0) :
    ∃ told suspended before written ms slept, trace = ⟨.notify .suspend, told, ()⟩ :: suspended ∧
      tree.SuspendDelay before written ms ∧ SliceEnd ms slept ∧
      CutShort (suspendCancelled memory.forcingShutdown) (before ++ slicedRequests slept)
        (memory.hear told) suspended final := by
  obtain ⟨told, _, _, rfl, begun⟩ := runs_ask_bind_iff.mp run
  obtain ⟨graced, _, outcome, _, slept, rested, rfl⟩ :=
    runs_bind_iff.mp (runs_read_bind_iff.mp begun)
  cases outcome with
  | aborted =>
    obtain ⟨rfl, rfl, -⟩ := runs_pure_iff.mp rested
    obtain ⟨spent, sliceEnd, cut⟩ := sleepAbortable_cutShort (by decide) slept
    rw [List.append_nil]
    exact ⟨told, graced, [], [], _, spent, rfl, .grace, sliceEnd, cut⟩
  | completed =>
    have grace := sleepAbortable_runs slept
    rw [grace.final_eq] at rested
    obtain ⟨tabled, _, outcome, _, replayed, ended, rfl⟩ := runs_bind_iff.mp rested
    cases outcome with
    | aborted =>
      obtain ⟨rfl, rfl, -⟩ := runs_pure_iff.mp ended
      obtain ⟨earlier, write, later, spent, table, settles, sliceEnd, cut⟩ :=
        replayAbortable_cutShort replayed
      have whole := cut.precede
      rw [grace.complete rfl] at whole
      refine ⟨told, graced ++ tabled, _, _, _, spent, ?_, .entry table settles, sliceEnd, ?_⟩
      · rw [List.append_nil]
      · rw [List.append_assoc, List.append_assoc, List.singleton_append]
        exact whole
    | completed => exact absurd (settleS3_state ended) nofun

end Program

/-- A suspend was called off, from the memory in which its shutdown request was taken: at the end
of a slice, by a look at the suspend line, with no shutdown under way at the start and none
requested up to the look. -/
structure CalledOff (tree : PowerTree) (memory : Memory) (trace : List Exchange) (final : Memory) :
    Prop where
  final_eq : final = memory.after trace
  unforced : memory.forcingShutdown = false
  unrequested : final.mailbox.shutdownRequested = false
  deasserted : ∃ earlier calls lines, trace = earlier ++ [⟨.readLines, calls, lines⟩] ∧
    lines.contains .suspendDeasserted = true
  /-- A slice of one of the delays has ended, and what was written ahead of the delay is all that
  was written. -/
  stopped : ∃ before written ms slept, tree.SuspendDelay before written ms ∧ SliceEnd ms slept ∧
    Exchange.requests trace = .notify .suspend :: (before ++ slicedRequests slept) ∧
    written <+: tree.tables.s0s3 ∧ Exchange.writes trace = written.map RailWrite.output
  /-- The processor is not told that it may idle. -/
  kept : ∀ allowed, .allowIdle allowed ∉ Exchange.requests trace

/-- A suspend went all the way down. -/
structure Suspended (tree : PowerTree) (memory : Memory) (trace : List Exchange) (final : Memory) :
    Prop where
  asked : Exchange.requests trace =
    .notify .suspend :: (tree.suspendRequests ++ [.allowIdle true, .buttonPressed])
  writes : Exchange.writes trace = tree.tables.s0s3.map RailWrite.output
  /-- A button that is found pressed forces the shutdown and stops its timer, and nothing else is
  changed. -/
  settled : ∃ earlier calls pressed, trace = earlier ++ [⟨.buttonPressed, calls, pressed⟩] ∧
    final.forcingShutdown = (memory.forcingShutdown || pressed) ∧
    final.resetHeld = memory.resetHeld ∧
    final.mailbox =
      if pressed then (memory.after trace).mailbox.cancelTimer else (memory.after trace).mailbox

theorem Program.suspendCancelled_eq_true_iff {forcing : Bool} {mailbox : Mailbox}
    {lines : SignalMask} : suspendCancelled forcing mailbox lines = true ↔
      forcing = false ∧ mailbox.shutdownRequested = false ∧
        lines.contains .suspendDeasserted = true := by
  simp [suspendCancelled, and_assoc]

theorem Program.calledOff_of_runs (run : (stepS0S3 tree memory).Runs trace final .s3s0) :
    CalledOff tree memory trace final := by
  obtain ⟨told, suspended, before, written, ms, slept, rfl, delay, sliceEnd, cut⟩ :=
    stepS0S3_cutShort run
  obtain ⟨earlier, calls, lines, rfl, held⟩ := cut.look
  obtain ⟨unforced, unrequested, deasserted⟩ := suspendCancelled_eq_true_iff.mp held
  refine ⟨?_, unforced, unrequested, ⟨_ :: earlier, calls, lines, rfl, deasserted⟩, ?_, ?_⟩
  · rw [Memory.after_cons]
    exact cut.final_eq
  · refine ⟨before, written, ms, slept, delay, sliceEnd, ?_, delay.written_prefix, ?_⟩
    · rw [Exchange.requests_cons, cut.asked]
    · have tabled : Request.writes (before ++ slicedRequests slept) =
          written.map RailWrite.output := by
        rw [Request.writes_append, writes_slicedRequests, List.append_nil, delay.writes]
      rw [← tabled, ← cut.asked]
      rfl
  · intro allowed idles
    rw [Exchange.requests_cons, cut.asked] at idles
    rcases List.mem_cons.mp idles with told | idles
    · exact absurd told nofun
    · rcases List.mem_append.mp idles with early | late
      · exact delay.quiet _ early
      · exact quiet_slicedRequests _ _ late

/-- A suspend that no look ended asks for everything, and then for the button. -/
theorem suspended_of_completed {suspended : List Exchange} {told idled looked : List Mailbox.Call}
    {pressed : Bool}
    (completed : AbortableRun condition tree.suspendRequests (memory.hear told) suspended final
      .completed)
    (whole : trace = ⟨.notify .suspend, told, ()⟩ :: suspended ++
      [⟨.allowIdle true, idled, ()⟩, ⟨.buttonPressed, looked, pressed⟩]) :
    Suspended tree memory trace ((memory.after trace).settled pressed) where
  asked := by
    rw [whole, Exchange.requests_append, Exchange.requests_cons, completed.complete rfl]
    rfl
  writes := by
    have tabled : Exchange.writes suspended = tree.tables.s0s3.map RailWrite.output := by
      rw [Exchange.writes, completed.complete rfl, tree.writes_suspendRequests]
    rw [whole, Exchange.writes_append, ← tabled]
    exact List.append_nil _
  settled := by
    refine ⟨⟨.notify .suspend, told, ()⟩ :: suspended ++ [⟨.allowIdle true, idled, ()⟩], looked,
      pressed, ?_, ?_⟩
    · rw [whole, List.append_assoc]
      rfl
    · cases pressed with
      | false => exact ⟨(Bool.or_false _).symm, rfl, rfl⟩
      | true => exact ⟨(Bool.or_true _).symm, rfl, rfl⟩

/-- A suspend ends in one of two ways, whatever is answered and called for on the way. It leads back
up from the end of a slice where it was called off, with the beginning of its table written and
nobody told to idle; or it leads to S3 with the whole table written, after which the processor may
idle and a button that is still held forces the shutdown. The looks at the lines decide: it leads
back up exactly if one of them finds the suspend line deasserted with no shutdown under way at the
start and none requested by then. So it never does once a shutdown has been requested. -/
theorem suspend_outcome (run : (Program.step tree .s0s3 memory).Runs trace final next) :
    (next = .s3s0 ∧ CalledOff tree memory.takeShutdown trace final ∨
        next = .s3 ∧ Suspended tree memory.takeShutdown trace final) ∧
      (next = .s3s0 ↔ ∃ look ∈ memory.takeShutdown.looks trace,
        memory.takeShutdown.forcingShutdown = false ∧ look.1.shutdownRequested = false ∧
          look.2.contains .suspendDeasserted = true) ∧
      (∀ earlier later, trace = earlier ++ later →
        (memory.takeShutdown.after earlier).mailbox.shutdownRequested = true → next = .s3) ∧
      ∀ answer : (request : Request) → List Mailbox.Call × request.Answer,
        ∃ trace final next, (Program.step tree .s0s3 memory).Runs trace final next ∧
          ∀ exchange ∈ trace, (exchange.calls, exchange.answer) = answer exchange.request := by
  have suspends : (Program.stepS0S3 tree memory.takeShutdown).Runs trace final next :=
    Program.runs_modify_bind_iff.mp run
  have answered := (Program.step tree .s0s3 memory).exists_runs
  simp only [← Program.suspendCancelled_eq_true_iff]
  cases Program.step_runs run with
  | callsOffSuspend told aborted =>
    have off := Program.calledOff_of_runs suspends
    obtain ⟨earlier, last, split, held, -⟩ := aborted.follows
    refine ⟨.inl ⟨rfl, off⟩, iff_of_true rfl ⟨last, ?_, held⟩, ?_, answered⟩
    · exact split ▸ List.mem_append_right _ List.mem_cons_self
    · intro earlier later whole requested
      have still :=
        (Memory.heard_after (memory.takeShutdown.after earlier) later).shutdown requested
      rw [← Memory.after_append, ← whole] at still
      exact absurd still (by rw [off.unrequested]; decide)
  | @suspends told suspended _ _ completed idled looked pressed whole =>
    refine ⟨.inr ⟨rfl, suspended_of_completed completed whole⟩, iff_of_false nofun ?_,
      fun _ _ _ _ => rfl, answered⟩
    rintro ⟨look, member, held⟩
    rw [whole, Memory.looks_append] at member
    have seen : look ∈ (memory.takeShutdown.hear told).looks suspended := by
      simpa [Memory.looks] using member
    exact absurd held (by rw [completed.follows look seen]; decide)

/-- The processor changes its mind while the core supply settles: two rails have fallen by then. -/
theorem suspend_outcome_halfWay : ∃ trace final,
    (Program.step (.ofRevision .v2) .s0s3 {}).Runs trace final .s3s0 ∧
      CalledOff (.ofRevision .v2) (Memory.takeShutdown {}) trace final ∧
      Exchange.writes trace = [(.pp1800S0En, .low), (.apCoreEn, .low)] := by
  let dark := fun request : Request => (([] : List Mailbox.Call), request.darkAnswer)
  let awake := fun request : Request =>
    ([Mailbox.Call.powerButton true], request.steadyAnswer .suspendDeasserted)
  let suspending := (Program.step (.ofRevision .v2) .s0s3 {}).advance dark 15
  let waking := suspending.2.follow awake
  have leads : waking.2.2 = .s3s0 := by decide +kernel
  have fallen : Exchange.writes (suspending.1 ++ waking.1) =
      [(.pp1800S0En, .low), (.apCoreEn, .low)] := by decide +kernel
  have run : (Program.step (.ofRevision .v2) .s0s3 {}).Runs (suspending.1 ++ waking.1) waking.2.1
      .s3s0 := by
    rw [← leads]
    exact (Task.reaches_advance dark _ 15).trans (suspending.2.runs_follow awake)
  obtain ⟨⟨-, off⟩ | ⟨suspends, -⟩, -⟩ := suspend_outcome run
  · exact ⟨_, _, run, off, fallen⟩
  · exact absurd suspends nofun

end Suspend

end RailSequencer
