import RailSequencer.Proofs.AtOnce
import RailSequencer.Proofs.RestingLevels
import RailSequencer.Proofs.Untouched

/-!
# How far the power task goes at a look

The controller takes the programs of the power task on piece by piece, as far as each goes without
a wait. `Proceeds` says what comes of one piece: what is asked and how it is answered, what the pins
show after it, and what is left alone.

A look comes to one of four things (`PowerTask.looked_poll`), and what every turn keeps is kept by
all turns that are taken at it (`TurnInvariant.serve`).
-/

namespace RailSequencer.Controller

/-- No two rails share a pin. -/
theorem pinOf?_injective {left right : Rail} {pin : Pin} (atLeft : pinOf? left = some pin)
    (atRight : pinOf? right = some pin) : left = right := by
  have apart : ∀ left right : Rail, (pinOf? left).isSome = true → pinOf? left = pinOf? right →
      left = right := by decide +kernel
  exact apart left right (by rw [atLeft]; rfl) (atLeft.trans atRight.symm)

/-- No rail shares a pin with a USB switch. -/
theorem not_mem_usbSwitches {rail : Rail} {pin : Pin} (atPin : pinOf? rail = some pin) :
    pin ∉ usbSwitches := by
  have apart : ∀ rail : Rail, ∀ pin ∈ pinOf? rail, pin ∉ usbSwitches := by decide +kernel
  exact apart rail pin atPin

/-- To look at the lines does not change them. -/
theorem SampledLines.lines_of_look {sampled left : SampledLines} {wanted : SignalMask}
    {result : Option (Except PowerError Unit)} (looked : sampled.look wanted = (left, result)) :
    left.lines = sampled.lines := by
  rw [look] at looked
  split at looked
  · obtain ⟨rfl, -⟩ := Prod.mk.inj looked
    rfl
  · obtain ⟨rfl, -⟩ := Prod.mk.inj looked
    rfl

/-- The level of the USB switches after an event. -/
def usbAfter (level : Level) : HookEvent → Level
  | .startup => .high
  | .shutdown => .low
  | .resume | .suspend => level

/-- The level of the USB switches after events, the first one first. -/
def usbAfterAll (level : Level) (events : List HookEvent) : Level := events.foldl usbAfter level

theorem usbAfterAll_append (level : Level) (first second : List HookEvent) :
    usbAfterAll level (first ++ second) = usbAfterAll (usbAfterAll level first) second :=
  List.foldl_append

namespace Live

variable {live : Live} {levels : RailAssignment Level} {usb : Level}

/-- Every rail that has a pin has this level on it. -/
def Shows (live : Live) (levels : RailAssignment Level) : Prop :=
  ∀ rail pin, pinOf? rail = some pin → live.ram.outputs.get pin = some (levels.get rail)

/-- Every USB switch has this level. -/
def ShowsUsb (live : Live) (level : Level) : Prop :=
  ∀ switch ∈ usbSwitches, live.ram.outputs.get switch = some level

/-- Pins that are driven one after the other leave every other pin alone. -/
theorem outputs_drivePins {ι : Type} {items : List ι} {pinOf : ι → Pin} {levelOf : ι → Level}
    {pin : Pin} (apart : pin ∉ items.map pinOf) :
    (items.foldl (fun current item => current.drive (pinOf item) (levelOf item))
      live).ram.outputs.get pin = live.ram.outputs.get pin := by
  induction items generalizing live with
  | nil => rfl
  | cons first rest inductionHypothesis =>
    rw [List.map_cons, List.mem_cons, not_or] at apart
    rw [List.foldl_cons, inductionHypothesis apart.2]
    simp [drive, Ne.symm apart.1]

theorem Shows.driveUsb (shows : live.Shows levels) (level : Level) :
    (live.driveUsb level).Shows levels := by
  intro rail pin atPin
  have apart : pin ∉ usbSwitches.map id := by
    rw [List.map_id]
    exact not_mem_usbSwitches atPin
  exact (outputs_drivePins apart).trans (shows rail pin atPin)

/-- Driving a rail that has no pin shows on no pin. -/
theorem Shows.driveRail (shows : live.Shows levels) (rail : Rail) (level : Level) :
    (live.driveRail rail level).Shows (levels.set rail level) := by
  intro other pin atPin
  rw [RailAssignment.get_set, Live.driveRail]
  cases here : pinOf? rail with
  | none =>
    have apart : rail ≠ other := by
      rintro rfl
      exact absurd (here.symm.trans atPin) (Option.some_ne_none pin).symm
    rw [if_neg apart]
    exact shows other pin atPin
  | some driven =>
    by_cases same : rail = other
    · subst same
      obtain rfl := Option.some.inj (here.symm.trans atPin)
      simp [drive]
    · have apart : driven ≠ pin := by
        rintro rfl
        exact same (pinOf?_injective here atPin)
      have shown := shows other pin atPin
      simp [drive, same, apart, shown]

/-- Only outputs are looked at. -/
theorem Shows.of_outputs {after : Live} (shows : live.Shows levels)
    (same : after.ram.outputs = live.ram.outputs) : after.Shows levels := by
  intro rail pin atPin
  rw [same]
  exact shows rail pin atPin

/-- Pins that are all driven to one level are all found on it. -/
theorem outputs_driveSame {pins : List Pin} {pin : Pin} {level : Level} (member : pin ∈ pins) :
    (pins.foldl (fun current pin => current.drive pin level) live).ram.outputs.get pin =
      some level := by
  induction pins generalizing live with
  | nil => exact absurd member List.not_mem_nil
  | cons first rest inductionHypothesis =>
    rw [List.foldl_cons]
    by_cases later : pin ∈ rest
    · exact inductionHypothesis later
    · obtain rfl := (List.mem_cons.mp member).resolve_right later
      have apart : pin ∉ rest.map id := by rwa [List.map_id]
      refine (outputs_drivePins apart).trans ?_
      simp [drive]

theorem showsUsb_driveUsb (live : Live) (level : Level) : (live.driveUsb level).ShowsUsb level :=
  fun _ member => outputs_driveSame member

/-- Driving a rail moves no USB switch. -/
theorem ShowsUsb.driveRail (shows : live.ShowsUsb usb) (rail : Rail) (level : Level) :
    (live.driveRail rail level).ShowsUsb usb := by
  intro switch member
  rw [Live.driveRail]
  cases here : pinOf? rail with
  | none => exact shows switch member
  | some driven =>
    have apart : driven ≠ switch := by
      rintro rfl
      exact not_mem_usbSwitches here member
    have shown := shows switch member
    simp [drive, apart, shown]

theorem ShowsUsb.of_outputs {after : Live} (shows : live.ShowsUsb usb)
    (same : after.ram.outputs = live.ram.outputs) : after.ShowsUsb usb := by
  intro switch member
  rw [same]
  exact shows switch member

/-- Driving pins leaves the mailbox, the tree and the sampled lines alone. -/
theorem ram_drivePins {ι : Type} (live : Live) (items : List ι) (pinOf : ι → Pin)
    (levelOf : ι → Level) :
    let driven := items.foldl (fun current item => current.drive (pinOf item) (levelOf item)) live
    driven.ram.mailbox = live.ram.mailbox ∧ driven.ram.tree = live.ram.tree ∧
      driven.ram.sampled = live.ram.sampled := by
  induction items generalizing live with
  | nil => exact ⟨rfl, rfl, rfl⟩
  | cons first rest inductionHypothesis =>
    exact inductionHypothesis (live.drive (pinOf first) (levelOf first))

/-- So does every answer. -/
theorem answerAtOnce_ram (live : Live) (request : Request) :
    (live.answerAtOnce request).1.ram.mailbox = live.ram.mailbox ∧
      (live.answerAtOnce request).1.ram.tree = live.ram.tree ∧
      (live.answerAtOnce request).1.ram.sampled = live.ram.sampled := by
  cases request with
  | drive rail level =>
    simp only [answerAtOnce, driveRail]
    split
    · exact ⟨rfl, rfl, rfl⟩
    · exact ⟨rfl, rfl, rfl⟩
  | notify event =>
    cases event with
    | startup => exact live.ram_drivePins usbSwitches id fun _ => .high
    | shutdown => exact live.ram_drivePins usbSwitches id fun _ => .low
    | resume | suspend => exact ⟨rfl, rfl, rfl⟩
  | powerOnBlocked | shutdownWanted => simp only [answerAtOnce, and_self]
  | _ => exact ⟨rfl, rfl, rfl⟩

/-- An answer shows the write that was asked for, if there was one. -/
theorem answerAtOnce_shows (shows : live.Shows levels) (request : Request) :
    (live.answerAtOnce request).1.Shows (levels.driveAll (Request.writes [request])) := by
  cases request with
  | drive rail level => exact shows.driveRail rail level
  | notify event =>
    cases event with
    | startup => exact shows.driveUsb .high
    | shutdown => exact shows.driveUsb .low
    | resume | suspend => exact shows
  | powerOnBlocked | shutdownWanted =>
    simp only [answerAtOnce]
    exact shows
  | _ => exact shows

/-- The USB switches follow the event that subscribers are told of, if they are told of one. -/
theorem answerAtOnce_showsUsb (shows : live.ShowsUsb usb) (request : Request) :
    (live.answerAtOnce request).1.ShowsUsb (usbAfterAll usb request.event?.toList) := by
  cases request with
  | drive rail level => exact shows.driveRail rail level
  | notify event =>
    cases event with
    | startup => exact live.showsUsb_driveUsb .high
    | shutdown => exact live.showsUsb_driveUsb .low
    | resume | suspend => exact shows
  | powerOnBlocked | shutdownWanted =>
    simp only [answerAtOnce]
    exact shows
  | _ => exact shows

end Live

/-- What the power task has in memory while it waits. -/
def PowerTask.memory : PowerTask → Memory
  | .sleeping _ memory _ => memory
  | .watching _ _ memory _ => memory
  | .resting memory _ => memory

/-- What the power task has in memory as far as it has come. -/
def Progress.memory : Progress → Memory
  | .ended memory _ => memory
  | .waiting task => task.memory

/-- A task that has come to a request waits for the answer. -/
inductive PowerTask.WaitsFor : Task Turn → PowerTask → Prop where
  | sleeping {memory : Memory} {us wakeAt : Nat} {resume : Mailbox → Unit → Task Turn} :
      WaitsFor (.ask memory (.sleep us) resume)
        (.sleeping wakeAt memory fun mailbox => resume mailbox ())
  | watching {memory : Memory} {wanted : SignalMask} {timeoutUs deadline : Nat}
      {resume : Mailbox → Except PowerError Unit → Task Turn} :
      WaitsFor (.ask memory (.waitForLines wanted timeoutUs) resume)
        (.watching wanted deadline memory resume)

/-- What a task that waits goes on with when the wait is over. -/
inductive PowerTask.Resumes (mailbox : Mailbox) : PowerTask → Task Turn → Prop where
  | slept {wakeAt : Nat} {memory : Memory} {resume : Mailbox → Task Turn} :
      Resumes mailbox (.sleeping wakeAt memory resume) (resume mailbox)
  | watched {wanted : SignalMask} {deadline : Nat} {memory : Memory}
      {resume : Mailbox → Except PowerError Unit → Task Turn} {result : Except PowerError Unit} :
      Resumes mailbox (.watching wanted deadline memory resume) (resume mailbox result)

/-- Requests that the controller always answers at once. -/
def PowerTask.answersAtOnce : Request → Bool
  | .sleep _ | .waitForLines _ _ => false
  | _ => true

/-- It goes on from the request with an answer. -/
theorem PowerTask.WaitsFor.resumes {later task : Task Turn} {power : PowerTask} {mailbox : Mailbox}
    (waits : power.WaitsFor later) (resumes : Resumes mailbox power task) :
    ∃ memory request resume answer, later = .ask memory request resume ∧
      answersAtOnce request = false ∧ resume mailbox answer = task := by
  cases waits with
  | sleeping =>
    obtain ⟨⟩ := resumes
    exact ⟨_, _, _, (), rfl, rfl, rfl⟩
  | watching =>
    obtain ⟨⟩ := resumes
    exact ⟨_, _, _, _, rfl, rfl, rfl⟩

/-- Waits drive nothing, and nobody is told of them. -/
theorem PowerTask.silent_of_waits {request : Request} (waits : answersAtOnce request = false) :
    request.write? = none ∧ request.event? = none := by
  cases request with
  | sleep | waitForLines => exact ⟨rfl, rfl⟩
  | _ => exact absurd waits.symm Bool.false_ne_true

/-- They are answered by neither the charger nor the button. -/
theorem Live.tells_of_waits (live : Live) {request : Request}
    (waits : PowerTask.answersAtOnce request = false) (calls : List Mailbox.Call)
    (answer : request.Answer) : live.Tells ⟨request, calls, answer⟩ := by
  cases request with
  | sleep | waitForLines => exact trivial
  | _ => exact absurd waits.symm Bool.false_ne_true

/-- A task has come this far. -/
def Progress.Of (task : Task Turn) (trace : List Exchange) : Progress → Prop
  | .ended memory turn => task.Runs trace memory turn
  | .waiting power => ∃ later, task.Reaches trace later ∧ power.WaitsFor later

/-- What comes of a task that is taken on: it goes on at once as far as it can, sees the lines as
they were sampled last, hears what the charger and the button say, and drives the pins on the way. -/
structure Proceeds (task : Task Turn) (live : Live) (trace : List Exchange) (after : Live)
    (progress : Progress) : Prop where
  atOnce : ∀ exchange ∈ trace, exchange.AtOnce
  reads : ∀ exchange ∈ trace, exchange.Reads live.ram.sampled.lines
  told : ∀ exchange ∈ trace, live.Tells exchange
  of : progress.Of task trace
  untouched : after.untouched = live.untouched
  tree : after.ram.tree = live.ram.tree
  lines : after.ram.sampled.lines = live.ram.sampled.lines
  mailbox : after.ram.mailbox = progress.memory.mailbox
  shows : ∀ levels, live.Shows levels → after.Shows (levels.driveAll (Exchange.writes trace))
  usb : ∀ usb, live.ShowsUsb usb → after.ShowsUsb (usbAfterAll usb (Exchange.notified trace))

namespace Proceeds

variable {memory : Memory} {request : Request} {resume : Mailbox → request.Answer → Task Turn}
  {live middle after : Live} {trace : List Exchange} {progress : Progress}

/-- A request that is answered at once comes first. -/
theorem ask {answer : request.Answer} (undelayed : ∀ us, request ≠ .sleep us)
    (tree : middle.ram.tree = live.ram.tree)
    (lines : middle.ram.sampled.lines = live.ram.sampled.lines)
    (reads : Exchange.Reads live.ram.sampled.lines ⟨request, [], answer⟩)
    (told : live.Tells ⟨request, [], answer⟩) (untouched : middle.untouched = live.untouched)
    (shows : ∀ levels, live.Shows levels →
      middle.Shows (levels.driveAll (Request.writes [request])))
    (usb : ∀ usb, live.ShowsUsb usb →
      middle.ShowsUsb (usbAfterAll usb request.event?.toList))
    (rest : Proceeds (resume memory.mailbox answer) middle trace after progress) :
    Proceeds (.ask memory request resume) live (⟨request, [], answer⟩ :: trace) after progress where
  atOnce := List.forall_mem_cons.mpr ⟨⟨rfl, undelayed⟩, rest.atOnce⟩
  reads := List.forall_mem_cons.mpr ⟨reads, lines ▸ rest.reads⟩
  told := List.forall_mem_cons.mpr ⟨told, Live.tells_of_untouched untouched ▸ rest.told⟩
  of := by
    have of := rest.of
    cases progress with
    | ended memory turn => exact Task.Reaches.ask of
    | waiting power =>
      obtain ⟨later, reached, waits⟩ := of
      exact ⟨later, Task.Reaches.ask reached, waits⟩
  untouched := rest.untouched.trans untouched
  tree := rest.tree.trans tree
  lines := rest.lines.trans lines
  mailbox := rest.mailbox
  shows := by
    intro levels shown
    have first := rest.shows _ (shows levels shown)
    rw [← RailAssignment.driveAll_append, Exchange.writes, ← Request.writes_append] at first
    exact first
  usb := by
    intro level shown
    rw [Exchange.notified_cons, usbAfterAll_append]
    exact rest.usb _ (usb level shown)

end Proceeds

namespace PowerTask

theorem proceed_ask {request : Request} (immediate : answersAtOnce request = true)
    (memory : Memory) (resume : Mailbox → request.Answer → Task Turn) (live : Live) :
    proceed (.ask memory request resume) live =
      proceed (resume ((live.handOver memory).answerAtOnce request).1.ram.mailbox
          ((live.handOver memory).answerAtOnce request).2)
        ((live.handOver memory).answerAtOnce request).1 := by
  cases request with
  | sleep | waitForLines => exact absurd immediate Bool.false_ne_true
  | _ => rfl

/-- A wait for lines that are all asserted is over at once. -/
theorem proceed_wait {memory : Memory} {wanted : SignalMask} {timeoutUs : Nat}
    {resume : Mailbox → Except PowerError Unit → Task Turn} {live : Live}
    {sampled : SampledLines} {result : Except PowerError Unit}
    (looked : live.ram.sampled.look wanted = (sampled, some result)) :
    proceed (.ask memory (.waitForLines wanted timeoutUs) resume) live =
      proceed (resume memory.mailbox result) ((live.handOver memory).keepSampled sampled) := by
  rw [proceed, looked]

/-- Whatever is taken on goes as far as it can. -/
theorem proceeds (task : Task Turn) (live : Live) :
    ∃ trace, Proceeds task live trace (proceed task live).1 (proceed task live).2 := by
  -- The controller answers as long as it need not wait: the induction is on what is left to do.
  induction task generalizing live with
  | done memory turn =>
    exact ⟨[], nofun, nofun, nofun, .refl _, rfl, rfl, rfl, rfl,
      fun _ shown => shown.of_outputs rfl, fun _ shown => shown.of_outputs rfl⟩
  | ask memory request resume inductionHypothesis =>
    cases immediate : answersAtOnce request with
    | true =>
      have answered := (live.handOver memory).answerAtOnce_ram request
      obtain ⟨trace, rest⟩ := inductionHypothesis memory.mailbox
        ((live.handOver memory).answerAtOnce request).2
        ((live.handOver memory).answerAtOnce request).1
      have handed : ((live.handOver memory).answerAtOnce request).1.ram.mailbox =
          memory.mailbox := answered.1
      rw [proceed_ask immediate, handed]
      refine ⟨_, rest.ask ?_ answered.2.1 (congrArg SampledLines.lines answered.2.2) ?_
        ((live.handOver memory).tells_answerAtOnce request [])
        ((live.handOver memory).untouched_answerAtOnce request) ?_ ?_⟩
      · rintro us rfl
        exact absurd immediate Bool.false_ne_true
      · cases request with
        | readLines => rfl
        | _ => trivial
      · intro levels shown
        have handed : (live.handOver memory).Shows levels := shown.of_outputs rfl
        exact Live.answerAtOnce_shows handed request
      · intro usb shown
        have handed : (live.handOver memory).ShowsUsb usb := shown.of_outputs rfl
        exact Live.answerAtOnce_showsUsb handed request
    | false =>
      cases request with
      | sleep us =>
        exact ⟨[], nofun, nofun, nofun, ⟨_, .refl _, .sleeping⟩, rfl, rfl, rfl, rfl,
          fun _ shown => shown.of_outputs rfl, fun _ shown => shown.of_outputs rfl⟩
      | waitForLines wanted timeoutUs =>
        cases looked : live.ram.sampled.look wanted with
        | mk sampled result =>
          have lines : ((live.handOver memory).keepSampled sampled).ram.sampled.lines =
              live.ram.sampled.lines := SampledLines.lines_of_look looked
          cases result with
          | none =>
            rw [proceed, looked]
            exact ⟨[], nofun, nofun, nofun, ⟨_, .refl _, .watching⟩, rfl, rfl, lines, rfl,
              fun _ shown => shown.of_outputs rfl, fun _ shown => shown.of_outputs rfl⟩
          | some result =>
            obtain ⟨trace, rest⟩ := inductionHypothesis memory.mailbox result
              ((live.handOver memory).keepSampled sampled)
            rw [proceed_wait looked]
            have tree : ((live.handOver memory).keepSampled sampled).ram.tree = live.ram.tree := rfl
            exact ⟨_, rest.ask nofun tree lines trivial trivial rfl
              (fun _ shown => shown.of_outputs rfl) fun _ shown => shown.of_outputs rfl⟩
      | _ => exact absurd immediate.symm Bool.false_ne_true

end PowerTask

/-- What is known as far as the power task has come, and is kept by every turn that it takes. -/
structure TurnInvariant (holds : Live → Progress → Prop) : Prop where
  turn : ∀ {live : Live} {memory : Memory} {state : PowerState},
    holds live (.ended memory (.next state)) →
      let taken := PowerTask.proceed (PowerTask.beginTurn live memory state) live
      holds taken.1 taken.2
  /-- A turn that begins because the power task was woken. -/
  wake : ∀ {live : Live} {memory : Memory} {state : PowerState},
    holds live (.ended memory (.rest state)) →
      let awake := live.onMailbox fun mailbox => { mailbox with woken := false }
      let taken := PowerTask.proceed (PowerTask.beginTurn awake memory state) awake
      holds taken.1 taken.2
  rest : ∀ {live : Live} {memory : Memory} {state : PowerState},
    holds live (.ended memory (.rest state)) → holds live (.waiting (.resting memory state))
  /-- Turns that are left over are put off. -/
  putOff : ∀ {live : Live} {memory : Memory} {state : PowerState},
    holds live (.ended memory (.next state)) →
      holds live (.waiting (.sleeping live.now memory fun mailbox =>
        Program.turn live.ram.tree state { memory with mailbox := mailbox }))

/-- It is still known when the power task has to wait, however many turns it has taken. -/
theorem TurnInvariant.serve {holds : Live → Progress → Prop} (kept : TurnInvariant holds)
    (turns : Nat) {live : Live} {progress : Progress} (begun : holds live progress) :
    let served := PowerTask.serve turns (live, progress)
    holds served.1 (.waiting served.2) := by
  induction turns generalizing live progress with
  | zero =>
    cases progress with
    | waiting power => exact begun
    | ended memory turn =>
      cases turn with
      | next state => exact kept.putOff begun
      | rest state => exact kept.rest begun
  | succ turns inductionHypothesis =>
    cases progress with
    | waiting power => exact begun
    | ended memory turn =>
      cases turn with
      | next state => exact inductionHypothesis (kept.turn begun)
      | rest state =>
        rw [PowerTask.serve]
        split
        · exact inductionHypothesis (kept.wake begun)
        · exact kept.rest begun

/-- What a look at the power task comes to. -/
inductive PowerTask.Looked (live : Live) : Live → Prop where
  | asleep : Looked live live
  /-- Some lines have been seen asserted, and others not yet. -/
  | watches {wanted : SignalMask} {deadline : Nat} {memory : Memory}
      {resume : Mailbox → Except PowerError Unit → Task Turn}
      (watching : live.ram.power = .watching wanted deadline memory resume)
      (sampled : SampledLines) : Looked live (live.keepSampled sampled)
  | resumes {task : Task Turn} (resumes : Resumes live.ram.mailbox live.ram.power task)
      (sampled : SampledLines) :
      Looked live (putAway (serve turnsAtOnce (proceed task (live.keepSampled sampled))))
  | wakes {memory : Memory} {state : PowerState} (rests : live.ram.power = .resting memory state)
      (woken : live.ram.mailbox.woken = true) :
      Looked live (putAway (serve turnsAtOnce (live, .ended memory (.rest state))))

theorem PowerTask.looked_poll (live : Live) : Looked live (poll live) := by
  by_cases ready : isReady live = true
  · rw [poll, if_pos ready]
    cases waits : live.ram.power with
    | sleeping wakeAt memory resume =>
      have resumes : Resumes live.ram.mailbox live.ram.power (resume live.ram.mailbox) :=
        waits ▸ .slept
      exact .resumes resumes live.ram.sampled
    | watching wanted deadline memory resume =>
      simp only
      cases seen : live.ram.sampled.lookAgain wanted deadline live.now with
      | mk sampled result =>
        cases result with
        | none => exact .watches waits sampled
        | some result =>
          have resumes : Resumes live.ram.mailbox live.ram.power
              (resume live.ram.mailbox result) := waits ▸ .watched
          exact .resumes resumes sampled
    | resting memory state =>
      rw [isReady, waits] at ready
      exact .wakes waits ready
  · rw [poll, if_neg ready]
    exact .asleep

namespace Live

/-- However far the power task goes on, it leaves the rest alone. -/
theorem untouched_proceed (task : Task Turn) (live : Live) :
    (PowerTask.proceed task live).1.untouched = live.untouched := by
  obtain ⟨trace, proceeded⟩ := PowerTask.proceeds task live
  exact proceeded.untouched

/-- However many turns it takes. -/
theorem untouched_turns (first : Live) :
    TurnInvariant fun live _ => live.untouched = first.untouched where
  turn same := (untouched_proceed _ _).trans same
  wake same := (untouched_proceed _ _).trans same
  rest same := same
  putOff same := same

theorem untouched_putAway (live : Live) (progress : Progress) (turns : Nat) :
    (PowerTask.putAway (PowerTask.serve turns (live, progress))).untouched = live.untouched :=
  (untouched_turns live).serve turns rfl

theorem untouched_poll (live : Live) : (PowerTask.poll live).untouched = live.untouched := by
  have looked := PowerTask.looked_poll live
  generalize PowerTask.poll live = after at looked
  cases looked with
  | asleep => rfl
  | watches => rfl
  | resumes => exact (untouched_putAway _ _ _).trans (untouched_proceed _ _)
  | wakes => exact untouched_putAway _ _ _

theorem untouched_launch (live : Live) (boot : BootInfo) :
    (PowerTask.launch live boot).untouched = live.untouched :=
  (untouched_putAway _ _ _).trans (untouched_proceed _ _)

end Live

end RailSequencer.Controller
