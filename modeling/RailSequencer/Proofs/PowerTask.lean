import RailSequencer.Proofs.Proceeding

/-!
# The power task of the controller runs the loop

`Live.OnRun` says what the turns that the controller takes amount to: the power task waits at a point
of a run of the endless loop, and the pins show what that run has driven, write by write, and what it
has told the USB switches. Where it is known how the charger and the button answer, this can be said
of all that was answered in the run (`Live.OnRunKnown`). Looking at the power task keeps it
(`Live.OnRunKnown.poll`), and so does whatever else happens to the controller, as long as it reaches
the power task through the mailbox alone (`Live.OnRunKnown.leaves`).

The number of turns that are taken at one look is bounded; `Turn.ahead` shows that the bound is never
reached.
-/

namespace RailSequencer.Controller

/-- What the power task does first: it picks a state, makes it known, and takes a turn. -/
def PowerTask.firstTurn (tree : PowerTree) (boot : BootInfo) : Program Turn := do
  let state ← Program.start tree boot
  Program.publish state
  Program.turn tree state

/-- Before the first turn the power task does not wait, drives nothing and tells nobody. -/
theorem Proceeds.of_firstTurn {tree : PowerTree} {boot : BootInfo} {memory : Memory}
    {live after : Live} {trace : List Exchange} {progress : Progress}
    (proceeded : Proceeds (PowerTask.firstTurn tree boot memory) live trace after progress) :
    ∃ (state : PowerState) (entered : Memory) (first later : List Exchange),
      (Program.start tree boot memory).Runs first entered state ∧
      (∀ exchange ∈ first, exchange.Reads live.ram.sampled.lines) ∧
      Proceeds (Program.turn tree state (entered.publish state)) live later after progress := by
  obtain ⟨atOnce, reads, told, of, untouched, sameTree, lines, mailbox, shows, usb⟩ := proceeded
  have split : ∃ (first : List Exchange) (entered : Memory) (state : PowerState)
      (later : List Exchange), (Program.start tree boot memory).Runs first entered state ∧
      progress.Of (Program.turn tree state (entered.publish state)) later ∧
      trace = first ++ later := by
    cases progress with
    | ended final turn => exact Task.runs_bind_iff.mp of
    | waiting power =>
      obtain ⟨task, reached, waits⟩ := of
      cases waits with
      | sleeping | watching =>
        rcases Task.reaches_bind_ask reached with
          ⟨rest, starting, -⟩ | ⟨first, entered, state, later, started, turned, whole⟩
        · rcases Program.start_asks_atOnce starting with asked | asked <;> cases asked
        · exact ⟨first, entered, state, later, started, ⟨_, turned, by constructor⟩, whole⟩
  obtain ⟨first, entered, state, later, started, turned, rfl⟩ := split
  rw [List.forall_mem_append] at atOnce reads told
  refine ⟨state, entered, first, later, started, reads.1, atOnce.2, reads.2, told.2, turned,
    untouched, sameTree, lines, mailbox, ?_, ?_⟩
  · intro levels shown
    have whole := shows levels shown
    rw [Exchange.writes_append, Program.start_writes started, List.nil_append] at whole
    exact whole
  · intro level shown
    have whole := usb level shown
    rw [Exchange.notified_append, Program.start_notified started, List.nil_append] at whole
    exact whole

/-- A run of the loop has come as far as the power task has. Since the power task last looked at the
mailbox others may have called. -/
inductive Progress.Comes (tree : PowerTree) (start : Position) (mailbox : Mailbox) :
    List Exchange → Progress → Prop where
  | ended {events : List Event} {memory : Memory} {turn : Turn}
      (run : Steps tree start events (turn.position { memory with mailbox := mailbox })) :
      Comes tree start mailbox (Event.exchanges events) (.ended memory turn)
  | atRest {events : List Event} {memory : Memory} {state : PowerState}
      (run : Steps tree start events (.resting state { memory with mailbox := mailbox })) :
      Comes tree start mailbox (Event.exchanges events) (.waiting (.resting memory state))
  | inTurn {events : List Event} {state : PowerState} {begun : Memory} {trace : List Exchange}
      {later : Task Turn} {power : PowerTask} {calls : List Mailbox.Call}
      (run : Steps tree start events (.serving state (Program.serveReset begun)))
      (reached : (Program.turn tree state begun).Reaches trace later)
      (waits : power.WaitsFor later)
      (heard : mailbox = (later.memory.hear calls).mailbox) :
      Comes tree start mailbox (Event.exchanges events ++ trace) (.waiting power)

/-- While the power task waits, a run of the loop has asked for what it has asked for, and has come
to a wait too: since then others can only have called, and no step of it is about to end. -/
theorem Progress.Comes.paused {tree : PowerTree} {start : Position} {mailbox : Mailbox}
    {trace : List Exchange} {power : PowerTask}
    (comes : (Progress.waiting power).Comes tree start mailbox trace) :
    ∃ events position, Steps tree start events position ∧ Event.exchanges events = trace ∧
      position.memory.mailbox.Heard mailbox ∧ position.isSpent = false := by
  cases comes with
  | @atRest _ memory _ run =>
    exact ⟨_, _, run, rfl, { memory with mailbox := mailbox }.heard_hear [], rfl⟩
  | @inTurn events _ _ _ later _ calls run reached waits heard =>
    cases waits with
    | sleeping | watching =>
      obtain ⟨later, position, exchanges, within, -, same, unspent⟩ := Steps.within_turn reached
      refine ⟨_, position, run.trans within, by rw [Event.exchanges_append, exchanges], ?_, unspent⟩
      rw [heard, same]
      exact Memory.heard_hear _ calls

/-- So the others see the state of that run. -/
theorem Progress.Comes.waits {tree : PowerTree} {state : PowerState} {memory : Memory}
    {mailbox : Mailbox} {trace : List Exchange} {power : PowerTask}
    (comes : (Progress.waiting power).Comes tree (.enter state memory) mailbox trace) :
    ∃ events position, Steps tree (.enter state memory) events position ∧
      Event.exchanges events = trace ∧ mailbox.published = position.state ∧
      position.isSpent = false := by
  obtain ⟨events, position, run, exchanges, heard, unspent⟩ := comes.paused
  exact ⟨events, position, run, exchanges, heard.published.trans run.published, unspent⟩

theorem Progress.Comes.steps {tree : PowerTree} {state : PowerState} {memory : Memory}
    {mailbox : Mailbox} {trace : List Exchange} {power : PowerTask}
    (comes : (Progress.waiting power).Comes tree (.enter state memory) mailbox trace) :
    ∃ events position, Steps tree (.enter state memory) events position ∧
      Event.exchanges events = trace ∧ mailbox.published = position.state := by
  obtain ⟨events, position, run, exchanges, published, -⟩ := comes.waits
  exact ⟨events, position, run, exchanges, published⟩

/-- A run of the loop has come as far as the power task has, and the pins show what was driven in
it and what subscribers were told. -/
structure Live.HasRun (tree : PowerTree) (start : Position) (levels : RailAssignment Level)
    (usb : Level) (live : Live) (progress : Progress) (trace : List Exchange) : Prop where
  comes : progress.Comes tree start live.ram.mailbox trace
  shows : live.Shows (levels.driveAll (Exchange.writes trace))
  usb : live.ShowsUsb (usbAfterAll usb (Exchange.notified trace))

/-- The power task follows a run of the loop from `start`, where the rails and the USB switches had
these levels. -/
structure Live.Follows (tree : PowerTree) (start : Position) (levels : RailAssignment Level)
    (usb : Level) (live : Live) (progress : Progress) : Prop where
  chosen : live.ram.tree = tree
  hasRun : ∃ trace, live.HasRun tree start levels usb progress trace

/-- The power task follows such a run, and all that was answered in it is `known`. -/
structure Live.FollowsKnown (known : Exchange → Prop) (tree : PowerTree) (start : Position)
    (levels : RailAssignment Level) (usb : Level) (live : Live) (progress : Progress) : Prop where
  chosen : live.ram.tree = tree
  hasRun : ∃ trace, live.HasRun tree start levels usb progress trace ∧
    ∀ exchange ∈ trace, known exchange

/-- Turns that may still be taken at once. -/
def Progress.ahead (mailbox : Mailbox) : Progress → Nat
  | .ended _ turn => turn.ahead mailbox
  | .waiting _ => 0

namespace Live.FollowsKnown

open PowerTask

variable {known : Exchange → Prop} {tree : PowerTree} {start : Position}
  {levels : RailAssignment Level} {usb : Level} {live after : Live} {progress : Progress}

/-- A turn that is begun, or gone on with, is followed as far as it comes. -/
theorem of_proceeds {events : List Event} {state : PowerState} {begun : Memory}
    {earlier trace : List Exchange} {task : Task Turn}
    (tells : ∀ exchange, live.Tells exchange → known exchange) (same : live.ram.tree = tree)
    (run : Steps tree start events (.serving state (Program.serveReset begun)))
    (reached : (Program.turn tree state begun).Reaches earlier task)
    (before : ∀ exchange ∈ Event.exchanges events ++ earlier, known exchange)
    (shows : live.Shows (levels.driveAll (Exchange.writes (Event.exchanges events ++ earlier))))
    (shownUsb : live.ShowsUsb
      (usbAfterAll usb (Exchange.notified (Event.exchanges events ++ earlier))))
    (proceeded : Proceeds task live trace after progress) :
    after.FollowsKnown known tree start levels usb progress := by
  refine ⟨proceeded.tree.trans same, Event.exchanges events ++ (earlier ++ trace),
    ⟨?_, ?_, ?_⟩, ?_⟩
  · rw [proceeded.mailbox]
    have of := proceeded.of
    cases progress with
    | ended memory turn =>
      obtain ⟨later, exchanges, rest⟩ := Steps.turn (reached.trans of)
      rw [← exchanges, ← Event.exchanges_append]
      exact .ended (run.trans rest)
    | waiting power =>
      obtain ⟨task, within, waits⟩ := of
      have heard : power.memory.mailbox = (task.memory.hear []).mailbox := by cases waits <;> rfl
      exact .inTurn run (reached.trans within) waits heard
  · have shown := proceeded.shows _ shows
    rw [← RailAssignment.driveAll_append, ← Exchange.writes_append, List.append_assoc] at shown
    exact shown
  · have shown := proceeded.usb _ shownUsb
    rw [← usbAfterAll_append, ← Exchange.notified_append, List.append_assoc] at shown
    exact shown
  · rw [← List.append_assoc, List.forall_mem_append]
    exact ⟨before, fun exchange member => tells exchange (proceeded.told exchange member)⟩

/-- A turn that is begun leaves fewer turns to take at once. -/
theorem turn {events : List Event} {state : PowerState} {memory : Memory} (pauses : tree.Pauses)
    (tells : ∀ exchange, live.Tells exchange → known exchange) (same : live.ram.tree = tree)
    (run : Steps tree start events
      (.serving state (Program.serveReset { memory with mailbox := live.ram.mailbox })))
    (before : ∀ exchange ∈ Event.exchanges events, known exchange)
    (shows : live.Shows (levels.driveAll (Event.writes events)))
    (shownUsb : live.ShowsUsb (usbAfterAll usb (Event.notified events))) :
    let taken := proceed (beginTurn live memory state) live
    taken.1.FollowsKnown known tree start levels usb taken.2 ∧
      (taken.2.ahead taken.1.ram.mailbox < (Turn.next state).ahead live.ram.mailbox) := by
  obtain ⟨trace, proceeded⟩ := proceeds (beginTurn live memory state) live
  intro taken
  subst same
  refine ⟨of_proceeds tells rfl run (.refl _) ?_ ?_ ?_ proceeded, ?_⟩
  · rw [List.append_nil]
    exact before
  · rw [List.append_nil]
    exact shows
  · rw [List.append_nil]
    exact shownUsb
  · have of := proceeded.of
    rw [proceeded.mailbox]
    cases ended : taken.2 with
    | ended final turn =>
      rw [ended] at of
      exact Turn.ahead_lt pauses of proceeded.atOnce
    | waiting power => exact Turn.ahead_pos live.ram.mailbox state

/-- Turn after turn is taken, until the power task waits. The bound on the turns is not reached. -/
theorem serve (pauses : tree.Pauses) {turns : Nat}
    (tells : ∀ exchange, live.Tells exchange → known exchange)
    (follows : live.FollowsKnown known tree start levels usb progress)
    (enough : progress.ahead live.ram.mailbox ≤ turns) :
    let served := PowerTask.serve turns (live, progress)
    served.1.FollowsKnown known tree start levels usb (.waiting served.2) := by
  induction turns generalizing live progress with
  | zero =>
    -- With no turn left to take there is none ahead either, so the loop does not stop in between.
    cases progress with
    | waiting power => exact follows
    | ended memory turn =>
      obtain ⟨same, trace, ⟨comes, shows, shownUsb⟩, before⟩ := follows
      cases turn with
      | next state =>
        exact absurd enough (Nat.not_le.mpr (Turn.ahead_pos live.ram.mailbox state))
      | rest state =>
        cases comes with
        | ended run => exact ⟨same, _, ⟨.atRest run, shows, shownUsb⟩, before⟩
  | succ turns inductionHypothesis =>
    cases progress with
    | waiting power => exact follows
    | ended memory turn =>
      obtain ⟨same, trace, ⟨comes, shows, shownUsb⟩, before⟩ := follows
      obtain @⟨events, _, _, run⟩ := comes
      cases turn with
      | next state =>
        obtain ⟨follows, fewer⟩ := turn pauses tells same run before shows shownUsb
        rw [← Live.tells_of_untouched (Live.untouched_proceed _ _)] at tells
        exact inductionHypothesis tells follows
          (Nat.le_of_lt_succ (Nat.lt_of_lt_of_le fewer enough))
      | rest state =>
        rw [PowerTask.serve]
        split
        next woken =>
          let taken := live.onMailbox fun mailbox => { mailbox with woken := false }
          have chosen : taken.ram.tree = tree := same
          have woke : Steps tree start (events ++ [.woke]) (.serving state
              (Program.serveReset { memory with mailbox := taken.ram.mailbox })) :=
            .move run (.wake woken)
          have shown : taken.Shows (levels.driveAll (Event.writes (events ++ [.woke]))) := by
            rw [Event.writes_concat rfl]
            exact shows
          have told : taken.ShowsUsb (usbAfterAll usb (Event.notified (events ++ [.woke]))) := by
            rw [Event.notified_append, Event.notified_singleton rfl, List.append_nil]
            exact shownUsb
          have still : ∀ exchange ∈ Event.exchanges (events ++ [.woke]), known exchange := by
            rw [Event.exchanges_concat rfl]
            exact before
          have sameTells : ∀ exchange, taken.Tells exchange → known exchange := tells
          obtain ⟨follows, fewer⟩ := FollowsKnown.turn pauses sameTells chosen woke still shown told
          rw [← Live.tells_of_untouched (Live.untouched_proceed _ _)] at sameTells
          refine inductionHypothesis sameTells follows ?_
          rw [Progress.ahead, Turn.ahead, if_pos woken] at enough
          exact Nat.le_of_lt_succ (Nat.lt_of_lt_of_le fewer enough)
        next => exact ⟨same, _, ⟨.atRest run, shows, shownUsb⟩, before⟩

end Live.FollowsKnown

/-- The power task waits where a run of the loop from `start` has come to. -/
def Live.OnRun (tree : PowerTree) (start : Position) (levels : RailAssignment Level)
    (usb : Level) (live : Live) : Prop :=
  live.Follows tree start levels usb (.waiting live.ram.power)

/-- And all that was answered in that run is `known`. -/
def Live.OnRunKnown (known : Exchange → Prop) (tree : PowerTree) (start : Position)
    (levels : RailAssignment Level) (usb : Level) (live : Live) : Prop :=
  live.FollowsKnown known tree start levels usb (.waiting live.ram.power)

namespace Live

open PowerTask

variable {known : Exchange → Prop} {tree : PowerTree} {start : Position}
  {levels : RailAssignment Level} {usb : Level} {live : Live}

/-- About a run of which nothing is to be known nothing is asked. -/
theorem onRun_iff : live.OnRun tree start levels usb ↔
    live.OnRunKnown (fun _ => True) tree start levels usb :=
  ⟨fun ⟨chosen, trace, run⟩ => ⟨chosen, trace, run, fun _ _ => trivial⟩,
    fun ⟨chosen, trace, run, _⟩ => ⟨chosen, trace, run⟩⟩

/-- What a look at the power task has taken on is put away where it waits. -/
theorem FollowsKnown.putAway {progress : Progress} (pauses : tree.Pauses)
    (tells : ∀ exchange, live.Tells exchange → known exchange)
    (follows : live.FollowsKnown known tree start levels usb progress) :
    (PowerTask.putAway (PowerTask.serve turnsAtOnce (live, progress))).OnRunKnown known tree start
      levels usb := by
  have enough : progress.ahead live.ram.mailbox ≤ turnsAtOnce := by
    cases progress with
    | ended memory turn => exact Nat.le_trans (turn.ahead_le live.ram.mailbox) (by decide)
    | waiting power => exact Nat.zero_le _
  obtain ⟨chosen, trace, ⟨comes, shows, shownUsb⟩, answered⟩ := follows.serve pauses tells enough
  exact ⟨chosen, trace, ⟨comes, shows.of_outputs rfl, shownUsb.of_outputs rfl⟩, answered⟩

/-- What the power task waited for has come, and it goes on with the answer. -/
theorem OnRunKnown.resumes {task : Task Turn} {seen : Live} (pauses : tree.Pauses)
    (tells : ∀ exchange, seen.Tells exchange → known exchange)
    (onRun : live.OnRunKnown known tree start levels usb)
    (resumes : PowerTask.Resumes live.ram.mailbox live.ram.power task)
    (sameTree : seen.ram.tree = live.ram.tree)
    (sameOutputs : seen.ram.outputs = live.ram.outputs) :
    (PowerTask.putAway (PowerTask.serve turnsAtOnce (proceed task seen))).OnRunKnown known tree
      start levels usb := by
  obtain ⟨chosen, trace, ⟨comes, shows, shownUsb⟩, before⟩ := onRun
  generalize live.ram.power = power at comes resumes
  cases comes with
  | atRest => cases resumes
  | @inTurn events state begun trace later _ calls run reached waits heard =>
    obtain ⟨memory, request, resume, answer, rfl, waiting, rfl⟩ := waits.resumes resumes
    have answered := reached.answer calls answer
    have mailbox : (memory.hear calls).mailbox = live.ram.mailbox := heard.symm
    rw [mailbox] at answered
    obtain ⟨further, proceeded⟩ := proceeds (resume live.ram.mailbox answer) seen
    obtain ⟨drivesNothing, tellsNobody⟩ := silent_of_waits waiting
    have unwritten : Exchange.writes [⟨request, calls, answer⟩] = [] := by
      simp [Exchange.writes, Exchange.requests, Request.writes, drivesNothing]
    have untold : Exchange.notified [⟨request, calls, answer⟩] = [] := by
      simp [Exchange.notified, Exchange.requests, tellsNobody]
    have follows : (proceed (resume live.ram.mailbox answer) seen).1.FollowsKnown known tree start
        levels usb (proceed (resume live.ram.mailbox answer) seen).2 := by
      refine .of_proceeds tells (sameTree.trans chosen) run answered ?_ ?_ ?_ proceeded
      · rw [← List.append_assoc, List.forall_mem_append, List.forall_mem_singleton]
        exact ⟨before, tells _ (seen.tells_of_waits waiting calls answer)⟩
      · rw [← List.append_assoc, Exchange.writes_append _ [_], unwritten, List.append_nil]
        exact shows.of_outputs sameOutputs
      · rw [← List.append_assoc, Exchange.notified_append _ [_], untold, List.append_nil]
        exact shownUsb.of_outputs sameOutputs
    rw [← Live.tells_of_untouched (Live.untouched_proceed _ _)] at tells
    exact follows.putAway pauses tells

/-- One look at the power task. -/
theorem OnRunKnown.poll (pauses : tree.Pauses)
    (tells : ∀ exchange, live.Tells exchange → known exchange)
    (onRun : live.OnRunKnown known tree start levels usb) :
    (PowerTask.poll live).OnRunKnown known tree start levels usb := by
  have looked := PowerTask.looked_poll live
  generalize PowerTask.poll live = after at looked
  cases looked with
  | asleep => exact onRun
  | watches watching sampled =>
    obtain ⟨chosen, trace, ⟨comes, shows, shownUsb⟩, before⟩ := onRun
    exact ⟨chosen, trace, ⟨comes, shows.of_outputs rfl, shownUsb.of_outputs rfl⟩, before⟩
  | resumes resumes sampled => exact onRun.resumes pauses tells resumes rfl rfl
  | wakes rests woken =>
    obtain ⟨chosen, trace, ⟨comes, shows, shownUsb⟩, before⟩ := onRun
    rw [rests] at comes
    cases comes with
    | atRest run =>
      exact FollowsKnown.putAway pauses tells ⟨chosen, _, ⟨.ended run, shows, shownUsb⟩, before⟩
    | inTurn _ _ waits => cases waits

/-- All that the power task finds changed is that others have called. It has been woken if the
sampled lines are others. -/
structure Leaves (before after : Live) : Prop where
  power : after.ram.power = before.ram.power
  tree : after.ram.tree = before.ram.tree
  outputs : after.ram.outputs = before.ram.outputs
  calls : ∃ calls, after.ram.mailbox = before.ram.mailbox.performAll calls
  wakes : after.ram.sampled.lines = before.ram.sampled.lines ∨ after.ram.mailbox.woken = true

theorem OnRunKnown.leaves {after : Live} (onRun : live.OnRunKnown known tree start levels usb)
    (leaves : live.Leaves after) : after.OnRunKnown known tree start levels usb := by
  obtain ⟨chosen, trace, ⟨comes, shows, shownUsb⟩, before⟩ := onRun
  obtain ⟨power, sameTree, outputs, ⟨called, mailbox⟩, -⟩ := leaves
  refine ⟨sameTree.trans chosen, trace,
    ⟨?_, shows.of_outputs outputs, shownUsb.of_outputs outputs⟩, before⟩
  rw [power, mailbox]
  generalize live.ram.power = power at comes
  cases comes with
  | @atRest events memory state run =>
    have heard := run.trans (.hears called)
    have exchanges : Event.exchanges (events ++ called.map .called) = Event.exchanges events := by
      rw [Event.exchanges_append, Event.exchanges_called, List.append_nil]
    rw [← exchanges]
    exact .atRest heard
  | @inTurn events state begun trace later _ calls run reached waits heard =>
    have further : live.ram.mailbox.performAll called =
        (later.memory.hear (calls ++ called)).mailbox := by
      rw [heard, ← Memory.hear_hear]
      rfl
    exact .inTurn run reached waits further

/-- The power task is launched, and begins a run in the state that its start picks. -/
theorem onRunKnown_launch (boot : BootInfo) (pauses : live.ram.tree.Pauses)
    (tells : ∀ exchange, live.Tells exchange → known exchange) (shows : live.Shows levels)
    (shownUsb : live.ShowsUsb usb) : ∃ first entered state,
      (Program.start live.ram.tree boot { mailbox := live.ram.mailbox }).Runs first entered state ∧
      (∀ exchange ∈ first, exchange.Reads live.ram.sampled.lines) ∧
      (PowerTask.launch live boot).OnRunKnown known live.ram.tree (.enter state entered) levels
        usb := by
  obtain ⟨trace, proceeded⟩ :=
    proceeds (firstTurn live.ram.tree boot { mailbox := live.ram.mailbox }) live
  obtain ⟨state, entered, first, later, started, reads, turned⟩ := proceeded.of_firstTurn
  have follows := FollowsKnown.of_proceeds tells rfl .refl (.refl _) nofun shows shownUsb turned
  rw [← Live.tells_of_untouched turned.untouched] at tells
  exact ⟨first, entered, state, started, reads, follows.putAway pauses tells⟩

end Live

end RailSequencer.Controller
