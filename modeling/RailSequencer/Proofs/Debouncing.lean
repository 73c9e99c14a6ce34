import Mathlib.Data.List.Chain
import Mathlib.Logic.Relation
import RailSequencer.Switch

/-!
# Switches on their lines

A `Contact` is a switch together with the line that it watches. The line may change its level at any
time and as often as it likes; the switch is looked at whenever it has something to do, and no time
passes before that. What has happened is kept in a log: each change of the level, and each level that
the switch reported.

The switch never believes a wrong level for long, whatever the line does. What makes it so is that a
switch that waits for an edge, and has seen none, agrees with its line, and that every time that it
lets the line settle goes back to a change of the level (`Debounced`). So no matter how the line
bounces, reports alternate, each is the level of the line when it had settled, and a line that stays
at its level for longer than that is known to be there (`Debounced.level_of_settled`).
-/

namespace RailSequencer

namespace Switch

variable {accepted level : Bool} {now wakeAt : Nat}

theorem poll_watching : (⟨accepted, .watching false⟩ : Switch).poll now level =
    (⟨accepted, .watching false⟩, none) := rfl

theorem poll_edge : (⟨accepted, .watching true⟩ : Switch).poll now level =
    (⟨accepted, .settling (now + settleUs)⟩, none) := rfl

theorem poll_early (early : now < wakeAt) : (⟨accepted, .settling wakeAt⟩ : Switch).poll now level =
    (⟨accepted, .settling wakeAt⟩, none) :=
  if_neg (Nat.not_le_of_lt early)

theorem poll_settled (accepted level : Bool) (settled : wakeAt ≤ now) :
    (⟨accepted, .settling wakeAt⟩ : Switch).poll now level =
      (⟨level, .watching false⟩, if level = accepted then none else some level) :=
  if_pos settled

theorem phase_of_deadline {switch : Switch} (waits : switch.deadline? = some wakeAt) :
    switch.phase = .settling wakeAt := by
  obtain ⟨accepted, phase⟩ := switch
  cases phase with
  | watching => exact absurd waits nofun
  | settling => exact congrArg Phase.settling (Option.some.inj waits)

/-- A switch that has been looked at has nothing more to do. -/
theorem isReady_poll (switch : Switch) (now : Nat) (level : Bool) :
    (switch.poll now level).1.isReady now = false := by
  obtain ⟨accepted, phase⟩ := switch
  cases phase with
  | watching edgeSeen =>
    cases edgeSeen with
    | false => rfl
    | true => exact decide_eq_false (Nat.not_le_of_lt (Nat.lt_add_of_pos_right (by decide)))
  | settling wakeAt =>
    rcases Nat.lt_or_ge now wakeAt with early | settled
    · rw [poll_early early]
      exact decide_eq_false (Nat.not_le_of_lt early)
    · rw [poll_settled _ _ settled]
      rfl

end Switch

/-- What happens to a line and the switch that watches it. -/
inductive Sight where
  /-- The level of the line changed. -/
  | flip (time : Nat)
  /-- The switch reported a level. -/
  | report (time : Nat) (level : Bool)
deriving DecidableEq, Repr

namespace Sight

def time : Sight → Nat
  | .flip time | .report time _ => time

/-- The level that is reported, if one is. -/
def reported? : Sight → Option Bool
  | .flip _ => none
  | .report _ level => some level

/-- The time of the change, if it is one. -/
def flipped? : Sight → Option Nat
  | .flip time => some time
  | .report _ _ => none

/-- The levels reported, in their order. -/
def reported (log : List Sight) : List Bool := log.filterMap reported?

/-- The times at which the level changed, in their order. -/
def flips (log : List Sight) : List Nat := log.filterMap flipped?

/-- The level of a line that began at `level`. -/
def levelAfter (level : Bool) (log : List Sight) : Bool :=
  (flips log).foldl (fun current _ => !current) level

variable {level : Bool} {log more : List Sight} {now : Nat}

@[simp] theorem reported_append : reported (log ++ more) = reported log ++ reported more :=
  List.filterMap_append

@[simp] theorem flips_append : flips (log ++ more) = flips log ++ flips more :=
  List.filterMap_append

@[simp] theorem reported_flip (time : Nat) : reported [.flip time] = [] := rfl

@[simp] theorem reported_report (time : Nat) (level : Bool) :
    reported [.report time level] = [level] := rfl

@[simp] theorem flips_flip (time : Nat) : flips [.flip time] = [time] := rfl

@[simp] theorem flips_report (time : Nat) (level : Bool) : flips [.report time level] = [] := rfl

@[simp] theorem levelAfter_flip (time : Nat) :
    levelAfter level (log ++ [.flip time]) = !levelAfter level log := by
  simp [levelAfter]

@[simp] theorem levelAfter_report (time : Nat) (reported : Bool) :
    levelAfter level (log ++ [.report time reported]) = levelAfter level log := by
  simp [levelAfter]

/-- Nothing in a log is from later than `now`, and all is in its order. -/
structure Ordered (log : List Sight) (now : Nat) : Prop where
  sorted : (log.map time).Pairwise (· ≤ ·)
  past : ∀ sight ∈ log, sight.time ≤ now

theorem Ordered.nil (now : Nat) : Ordered [] now := ⟨List.Pairwise.nil, nofun⟩

theorem Ordered.snoc {sight : Sight} (ordered : Ordered log now) (here : sight.time = now) :
    Ordered (log ++ [sight]) now := by
  constructor
  · rw [List.map_append, List.map_singleton, List.pairwise_append]
    refine ⟨ordered.sorted, List.pairwise_singleton _ _, fun earlier member last same => ?_⟩
    obtain ⟨sight', known, rfl⟩ := List.mem_map.mp member
    rw [List.mem_singleton.mp same, here]
    exact ordered.past sight' known
  · exact List.forall_mem_append.mpr
      ⟨ordered.past, List.forall_mem_singleton.mpr (Nat.le_of_eq here)⟩

/-- Every report tells the level of the line as it was, `Switch.settleUs` after a change of it. -/
def Genuine (start : Bool) (log : List Sight) : Prop :=
  ∀ earlier time level later, log = earlier ++ .report time level :: later →
    level = levelAfter start earlier ∧
      ∃ change ∈ flips earlier, time = change + Switch.settleUs

theorem Genuine.snoc {start : Bool} {sight : Sight} (genuine : Genuine start log)
    (last : ∀ time level, sight = .report time level → level = levelAfter start log ∧
      ∃ change ∈ flips log, time = change + Switch.settleUs) :
    Genuine start (log ++ [sight]) := by
  intro earlier time level later whole
  rcases List.eq_nil_or_concat later with rfl | ⟨between, final, rfl⟩
  · obtain ⟨rfl, same⟩ := List.append_inj' whole rfl
    exact last time level (List.singleton_inj.mp same)
  · rw [List.concat_eq_append, ← List.cons_append, ← List.append_assoc] at whole
    exact genuine earlier time level between (List.append_inj' whole rfl).1

end Sight

/-- A switch on its line, with what has happened to them so far. -/
structure Contact where
  now : Nat
  /-- The level of the line. -/
  level : Bool
  switch : Switch
  /-- What has happened, oldest first. -/
  log : List Sight := []
deriving DecidableEq, Repr

namespace Contact

/-- The level of the line is read, and the switch waits for an edge. -/
def begin (now : Nat) (level : Bool) : Contact := { now, level, switch := { accepted := level } }

/-- The line changes its level. -/
def flip (contact : Contact) : Contact :=
  { contact with
    level := !contact.level
    switch := contact.switch.edge
    log := contact.log ++ [.flip contact.now] }

/-- The switch is looked at. -/
def look (contact : Contact) : Contact :=
  let (switch, settled) := contact.switch.poll contact.now contact.level
  { contact with
    switch := switch
    log := contact.log ++ (settled.map (Sight.report contact.now)).toList }

/-- Time passes up to `time`. -/
def passTo (contact : Contact) (time : Nat) : Contact := { contact with now := time }

/-- What may happen. The switch does what it has to do before time passes, and is looked at when the
time comes that it waits for. -/
inductive Moves : Contact → Contact → Prop where
  | flips {contact : Contact} : Moves contact contact.flip
  | looks {contact : Contact} : Moves contact contact.look
  | passes {contact : Contact} {time : Nat} (later : contact.now ≤ time)
      (rested : contact.switch.isReady contact.now = false)
      (reached : ∀ deadline ∈ contact.switch.deadline?, time ≤ deadline) :
      Moves contact (contact.passTo time)

/-- Any number of such things. -/
abbrev Reaches : Contact → Contact → Prop := Relation.ReflTransGen Moves

/-- The levels that the switch has reported, in their order. -/
def reports (contact : Contact) : List Bool := Sight.reported contact.log

/-- The level that the switch believes in, if it began with `start`. -/
def believed (start : Bool) (contact : Contact) : Bool := contact.reports.getLastD start

/-- The line has been at its level for longer than it gets to settle. -/
def Settled (contact : Contact) : Prop :=
  ∀ change ∈ Sight.flips contact.log, change + Switch.settleUs < contact.now

variable {start : Bool} {contact next : Contact} {switch : Switch}

theorem look_quiet (quiet : contact.switch.poll contact.now contact.level = (switch, none)) :
    contact.look = { contact with switch := switch } := by
  simp [look, quiet]

theorem look_reports {level : Bool}
    (reports : contact.switch.poll contact.now contact.level = (switch, some level)) :
    contact.look = { contact with
      switch := switch
      log := contact.log ++ [.report contact.now level] } := by
  simp [look, reports]

/-- Where a switch is in its work fits its line and the clock. -/
def InStep (contact : Contact) : Prop :=
  match contact.switch.phase with
  | .watching false => contact.level = contact.switch.accepted
  | .watching true => contact.now ∈ Sight.flips contact.log
  | .settling wakeAt =>
    contact.now ≤ wakeAt ∧ ∃ change ∈ Sight.flips contact.log, wakeAt = change + Switch.settleUs

/-- What is true of a contact whose line began at `start`. -/
structure Debounced (start : Bool) (contact : Contact) : Prop where
  level : contact.level = Sight.levelAfter start contact.log
  accepted : contact.switch.accepted = contact.believed start
  alternating : (start :: contact.reports).IsChain (· ≠ ·)
  genuine : Sight.Genuine start contact.log
  ordered : Sight.Ordered contact.log contact.now
  inStep : contact.InStep

namespace Debounced

theorem begin (now : Nat) (level : Bool) : (Contact.begin now level).Debounced level where
  level := rfl
  accepted := rfl
  alternating := List.isChain_singleton _
  genuine _ _ _ _ whole := absurd whole (by simp [Contact.begin])
  ordered := .nil now
  inStep := rfl

theorem flip (debounced : contact.Debounced start) : contact.flip.Debounced start := by
  obtain ⟨now, level, ⟨accepted, phase⟩, log⟩ := contact
  refine ⟨?_, ?_, ?_, debounced.genuine.snoc nofun, debounced.ordered.snoc rfl, ?_⟩
  · simpa [Contact.flip] using debounced.level
  · have same := debounced.accepted
    cases phase <;> simpa [Contact.flip, believed, reports, Switch.edge] using same
  · simpa [Contact.flip, reports] using debounced.alternating
  · cases phase with
    | watching => simp [Contact.flip, InStep, Switch.edge]
    | settling wakeAt =>
      obtain ⟨ahead, change, known, woken⟩ := debounced.inStep
      exact ⟨ahead, change, by simpa [Contact.flip] using .inl known, woken⟩

/-- A settled level that differs from the accepted one is reported, and extends the alternation. -/
theorem report (debounced : contact.Debounced start) (news : contact.level ≠ contact.switch.accepted)
    (settled : ∃ change ∈ Sight.flips contact.log, contact.now = change + Switch.settleUs) :
    Debounced start { contact with
      switch := ⟨contact.level, .watching false⟩
      log := contact.log ++ [.report contact.now contact.level] } := by
  have reports : Sight.reported (contact.log ++ [.report contact.now contact.level]) =
      contact.reports ++ [contact.level] := Sight.reported_append
  refine ⟨?_, ?_, ?_, debounced.genuine.snoc ?_, debounced.ordered.snoc rfl, rfl⟩
  · exact debounced.level.trans (Sight.levelAfter_report _ _).symm
  · rw [believed, Contact.reports, reports]
    exact (List.getLastD_concat ..).symm
  · rw [Contact.reports, reports, ← List.cons_append]
    refine List.isChain_append.mpr ⟨debounced.alternating, List.isChain_singleton _, ?_⟩
    intro last among level same
    rw [List.getLast?_cons, ← List.getLastD_eq_getLast?] at among
    obtain rfl : contact.believed start = last := Option.some.inj among
    obtain rfl : contact.level = level := Option.some.inj same
    exact fun known => news (known.symm.trans debounced.accepted.symm)
  · rintro time level ⟨⟩
    exact ⟨debounced.level, settled⟩

theorem look (debounced : contact.Debounced start) : contact.look.Debounced start := by
  obtain ⟨now, level, ⟨accepted, phase⟩, log⟩ := contact
  cases phase with
  | watching edgeSeen =>
    cases edgeSeen with
    | false =>
      rw [look_quiet Switch.poll_watching]
      exact debounced
    | true =>
      rw [look_quiet Switch.poll_edge]
      exact { debounced with inStep := ⟨Nat.le_add_right _ _, now, debounced.inStep, rfl⟩ }
  | settling wakeAt =>
    obtain ⟨(ahead : now ≤ wakeAt), change, known, woken⟩ := debounced.inStep
    rcases Nat.eq_or_lt_of_le ahead with rfl | early
    · have settled := Switch.poll_settled accepted level (Nat.le_refl now)
      by_cases same : level = accepted
      · rw [if_pos same] at settled
        rw [look_quiet settled, same]
        exact { debounced with level := same ▸ debounced.level, inStep := rfl }
      · rw [if_neg same] at settled
        rw [look_reports settled]
        exact debounced.report same ⟨change, known, woken⟩
    · rw [look_quiet (Switch.poll_early early)]
      exact debounced

theorem passes {time : Nat} (debounced : contact.Debounced start) (later : contact.now ≤ time)
    (rested : contact.switch.isReady contact.now = false)
    (reached : ∀ deadline ∈ contact.switch.deadline?, time ≤ deadline) :
    (contact.passTo time).Debounced start := by
  obtain ⟨now, level, ⟨accepted, phase⟩, log⟩ := contact
  refine ⟨debounced.level, debounced.accepted, debounced.alternating, debounced.genuine,
    ⟨debounced.ordered.sorted, fun sight member => ?_⟩, ?_⟩
  · exact Nat.le_trans (debounced.ordered.past sight member) later
  · cases phase with
    | watching edgeSeen =>
      cases edgeSeen with
      | false => exact debounced.inStep
      | true => exact absurd rested nofun
    | settling wakeAt =>
      obtain ⟨-, change, known, woken⟩ := debounced.inStep
      exact ⟨reached wakeAt rfl, change, known, woken⟩

theorem moves (debounced : contact.Debounced start) (moves : Moves contact next) :
    next.Debounced start := by
  cases moves with
  | flips => exact debounced.flip
  | looks => exact debounced.look
  | passes later rested reached => exact debounced.passes later rested reached

theorem of_reaches {now : Nat} {level : Bool} (reaches : Reaches (Contact.begin now level) contact) :
    contact.Debounced level := by
  induction reaches with
  | refl => exact .begin now level
  | tail _ last inductionHypothesis => exact inductionHypothesis.moves last

/-- A switch that had the time to see its line settle knows its level. -/
theorem level_of_settled (debounced : contact.Debounced start) (settled : contact.Settled) :
    contact.level = contact.believed start := by
  obtain ⟨now, level, ⟨accepted, phase⟩, log⟩ := contact
  have inStep := debounced.inStep
  cases phase with
  | watching edgeSeen =>
    cases edgeSeen with
    | false => exact Eq.trans inStep debounced.accepted
    | true => exact absurd (settled now inStep) (Nat.not_lt_of_le (Nat.le_add_right _ _))
  | settling wakeAt =>
    obtain ⟨ahead, change, known, rfl⟩ := inStep
    exact absurd (settled change known) (Nat.not_lt_of_le ahead)

end Debounced

/-- A look changes nothing about the line. -/
theorem flips_look (contact : Contact) :
    Sight.flips contact.look.log = Sight.flips contact.log := by
  cases reported : (contact.switch.poll contact.now contact.level).2 with
  | none => rw [look_quiet (Prod.ext rfl reported)]
  | some level => simp [look_reports (Prod.ext rfl reported)]

/-- Time can be passed up to `time`, without a change of the level. -/
def CanPassTo (contact : Contact) (time : Nat) : Prop :=
  ∃ next, contact.Reaches next ∧ next.now = time ∧
    Sight.flips next.log = Sight.flips contact.log

theorem CanPassTo.of_look {time : Nat} (can : contact.look.CanPassTo time) :
    contact.CanPassTo time := by
  obtain ⟨next, reaches, now, same⟩ := can
  exact ⟨next, .head .looks reaches, now, same.trans contact.flips_look⟩

theorem canPassTo_of_watching {time : Nat} (watching : contact.switch.phase = .watching false)
    (later : contact.now ≤ time) : contact.CanPassTo time := by
  refine ⟨contact.passTo time, .single (.passes later ?_ ?_), rfl, rfl⟩
  · simp [Switch.isReady, watching]
  · simp [Switch.deadline?, watching]

theorem canPassTo_of_settling {time wakeAt : Nat}
    (settling : contact.switch.phase = .settling wakeAt) (later : contact.now ≤ time) :
    contact.CanPassTo time := by
  obtain ⟨now, level, ⟨accepted, phase⟩, log⟩ := contact
  obtain rfl : phase = .settling wakeAt := settling
  have looked (now : Nat) (awake : wakeAt ≤ now) (later : now ≤ time) :
      CanPassTo ⟨now, level, ⟨accepted, .settling wakeAt⟩, log⟩ time := by
    apply CanPassTo.of_look
    apply canPassTo_of_watching _ later
    rw [look, Switch.poll_settled _ _ awake]
  by_cases awake : wakeAt ≤ now
  · exact looked now awake later
  · have passes (till : Nat) (later : now ≤ till) (soon : till ≤ wakeAt) :
        Moves ⟨now, level, ⟨accepted, .settling wakeAt⟩, log⟩
          ⟨till, level, ⟨accepted, .settling wakeAt⟩, log⟩ :=
      .passes later (decide_eq_false awake) fun deadline same => Option.some.inj same ▸ soon
    rcases Nat.le_total time wakeAt with soon | long
    · exact ⟨_, .single (passes time later soon), rfl, rfl⟩
    · obtain ⟨next, reaches, now, same⟩ := looked wakeAt (Nat.le_refl _) long
      exact ⟨next, .head (passes wakeAt (Nat.le_of_not_le awake) (Nat.le_refl _)) reaches, now, same⟩

/-- Whatever the switch is doing, any time can be reached, with looks at the switch in between. -/
theorem canPassTo (contact : Contact) {time : Nat} (later : contact.now ≤ time) :
    contact.CanPassTo time := by
  cases doing : contact.switch.phase with
  | settling wakeAt => exact canPassTo_of_settling doing later
  | watching edgeSeen =>
    cases edgeSeen with
    | false => exact canPassTo_of_watching doing later
    | true =>
      obtain ⟨now, level, ⟨accepted, phase⟩, log⟩ := contact
      obtain rfl : phase = .watching true := doing
      have settling : (Switch.mk accepted (.settling (now + Switch.settleUs))).phase =
          .settling (now + Switch.settleUs) := rfl
      exact .of_look (canPassTo_of_settling settling later)

/-- Every waveform has its run. -/
theorem exists_reaches (contact : Contact) {changes : List Nat} {finish : Nat}
    (ordered : (contact.now :: (changes ++ [finish])).Pairwise (· ≤ ·)) :
    ∃ next, contact.Reaches next ∧ next.now = finish ∧
      Sight.flips next.log = Sight.flips contact.log ++ changes := by
  induction changes generalizing contact with
  | nil =>
    obtain ⟨next, passed, now, same⟩ :=
      contact.canPassTo ((List.pairwise_cons.mp ordered).1 finish (List.mem_singleton_self _))
    exact ⟨next, passed, now, same.trans (List.append_nil _).symm⟩
  | cons change rest inductionHypothesis =>
    obtain ⟨ahead, following⟩ := List.pairwise_cons.mp ordered
    obtain ⟨there, passed, rfl, same⟩ := contact.canPassTo (ahead change List.mem_cons_self)
    obtain ⟨next, reaches, now, all⟩ := inductionHypothesis there.flip following
    refine ⟨next, passed.trans (.head .flips reaches), now, ?_⟩
    rw [all, flip, Sight.flips_append, same, List.append_assoc]
    rfl

end Contact

end RailSequencer
