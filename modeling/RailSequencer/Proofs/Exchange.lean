import RailSequencer.Program
import RailSequencer.Proofs.Calls

/-!
# Runs of a task

A task asks, the board answers, and meanwhile other tasks call. An `Exchange` is one request with
everything that came back, and `Task.Reaches` says to which point of a task a stretch of exchanges
leads. Nothing is assumed of the answers or of the calls: what a board promises is a condition on
the exchanges, stated where it is needed. `runs_bind_iff` splits a run where the program splits.
-/

namespace RailSequencer

/-- A request that was answered: what other tasks called before the answer came, and the answer. -/
structure Exchange where
  request : Request
  calls : List Mailbox.Call
  answer : request.Answer

/-- Where the lines are looked at, these lines are seen. -/
def Exchange.Reads (lines : SignalMask) : Exchange → Prop
  | ⟨.readLines, _, seen⟩ => seen = lines
  | _ => True

/-- The output line that a request drives, if it drives one. -/
def Request.write? : Request → Option (Rail × Level)
  | .drive rail level => some (rail, level)
  | _ => none

/-- The answer of a board with no supply and nobody at the button. -/
def Request.darkAnswer : (request : Request) → request.Answer
  | .readLines => .empty
  | .waitForLines wanted _ => .error (.signalTimeout wanted)
  | .powerOnBlocked | .shutdownWanted | .buttonPressed => false
  | .drive _ _ | .sleep _ | .spin _ | .allowIdle _ | .notify _ => ()

/-- The answer of a board on which these lines are asserted all the time, with a charger that agrees
and nobody at the button. -/
def Request.steadyAnswer (lines : SignalMask) : (request : Request) → request.Answer
  | .readLines => lines
  | .waitForLines wanted _ =>
    if lines.contains wanted then .ok () else .error (.signalTimeout (wanted.missing lines))
  | .powerOnBlocked | .shutdownWanted | .buttonPressed => false
  | .drive _ _ | .sleep _ | .spin _ | .allowIdle _ | .notify _ => ()

/-- The output lines that requests drive, in order. -/
def Request.writes (requests : List Request) : List (Rail × Level) := requests.filterMap write?

@[simp]
theorem Request.writes_append (first second : List Request) :
    writes (first ++ second) = writes first ++ writes second :=
  List.filterMap_append

/-- The event that subscribers are told of by a request, if they are told of one. -/
def Request.event? : Request → Option HookEvent
  | .notify event => some event
  | _ => none

/-- The lines that a request waits for, and for how long at most, if it waits for any. -/
def Request.wait? : Request → Option (SignalMask × Nat)
  | .waitForLines wanted timeoutUs => some (wanted, timeoutUs)
  | _ => none

/-- Requests that concern lines, time and inputs; nobody is told anything. -/
def Request.IsQuiet : Request → Prop
  | .notify _ | .allowIdle _ => False
  | _ => True

theorem Request.events_eq_nil {requests : List Request}
    (quiet : ∀ request ∈ requests, request.IsQuiet) : requests.filterMap event? = [] := by
  apply List.filterMap_eq_nil_iff.mpr
  intro request member
  cases request with
  | notify event => exact absurd (quiet _ member) id
  | _ => rfl

namespace Exchange

/-- What was asked, in order. -/
def requests (trace : List Exchange) : List Request := trace.map request

/-- The output lines that were driven, in order. -/
def writes (trace : List Exchange) : List (Rail × Level) := Request.writes (requests trace)

/-- The events that subscribers were told of, in order. -/
def notified (trace : List Exchange) : List HookEvent := (requests trace).filterMap Request.event?

/-- The waits for lines, in order. -/
def waits (trace : List Exchange) : List (SignalMask × Nat) :=
  (requests trace).filterMap Request.wait?

/-- All that other tasks called, in order. -/
def heard (trace : List Exchange) : List Mailbox.Call := trace.flatMap calls

@[simp]
theorem requests_cons (exchange : Exchange) (trace : List Exchange) :
    requests (exchange :: trace) = exchange.request :: requests trace := rfl

@[simp]
theorem requests_append (first second : List Exchange) :
    requests (first ++ second) = requests first ++ requests second :=
  List.map_append

@[simp]
theorem writes_append (first second : List Exchange) :
    writes (first ++ second) = writes first ++ writes second := by
  simp [writes]

@[simp]
theorem notified_append (first second : List Exchange) :
    notified (first ++ second) = notified first ++ notified second := by
  simp [notified]

theorem notified_cons (exchange : Exchange) (trace : List Exchange) :
    notified (exchange :: trace) = exchange.request.event?.toList ++ notified trace := by
  rw [notified, requests_cons, List.filterMap_cons]
  cases exchange.request.event? <;> rfl

@[simp]
theorem waits_append (first second : List Exchange) :
    waits (first ++ second) = waits first ++ waits second := by
  simp [waits]

theorem waits_eq_nil {trace : List Exchange}
    (goesOn : ∀ request ∈ requests trace, request.wait? = none) : waits trace = [] :=
  List.filterMap_eq_nil_iff.mpr goesOn

theorem notified_eq_nil {trace : List Exchange}
    (quiet : ∀ request ∈ requests trace, request.IsQuiet) : notified trace = [] :=
  Request.events_eq_nil quiet

end Exchange

/-- What is called, and answered, after all that has come before: a board and the tasks around it. -/
abbrev Reaction := List Exchange → (request : Request) → List Mailbox.Call × request.Answer

/-- Everything in a trace comes of a reaction. -/
def Reaction.Yields (react : Reaction) (trace : List Exchange) : Prop :=
  ∀ earlier exchange later, trace = earlier ++ exchange :: later →
    (exchange.calls, exchange.answer) = react earlier exchange.request

namespace Reaction

variable {react : Reaction} {first second trace : List Exchange} {exchange : Exchange}

theorem Yields.nil (react : Reaction) : react.Yields [] := by
  intro earlier exchange later whole
  exact absurd whole.symm (List.append_ne_nil_of_right_ne_nil _ (List.cons_ne_nil _ _))

theorem Yields.append (before : react.Yields first)
    (after : Yields (fun earlier => react (first ++ earlier)) second) :
    react.Yields (first ++ second) := by
  intro earlier exchange later whole
  rcases List.append_eq_append_iff.mp whole with ⟨between, rfl, rest⟩ | ⟨between, rfl, rest⟩
  · exact after between exchange later rest
  · cases between with
    | nil =>
      have came : (exchange.calls, exchange.answer) =
          react (earlier ++ [] ++ []) exchange.request := after [] exchange later rest.symm
      rwa [List.append_nil, List.append_nil] at came
    | cons _ between =>
      obtain ⟨rfl, rfl⟩ := List.cons.inj rest
      exact before earlier exchange between rfl

theorem Yields.singleton (came : (exchange.calls, exchange.answer) = react [] exchange.request) :
    react.Yields [exchange] := by
  intro earlier other later whole
  rcases List.singleton_eq_append_iff.mp whole with ⟨rfl, same⟩ | ⟨-, nothing⟩
  · obtain ⟨rfl, -⟩ := List.cons.inj same
    exact came
  · exact absurd nothing (List.cons_ne_nil _ _)

end Reaction

namespace Memory

/-- The memory after other tasks have called. -/
def hear (memory : Memory) (calls : List Mailbox.Call) : Memory :=
  { memory with mailbox := memory.mailbox.performAll calls }

/-- The memory after exchanges in which the power task itself changed nothing. -/
def after (memory : Memory) (trace : List Exchange) : Memory := memory.hear (Exchange.heard trace)

@[simp]
theorem forcingShutdown_hear (memory : Memory) (calls : List Mailbox.Call) :
    (memory.hear calls).forcingShutdown = memory.forcingShutdown := rfl

theorem hear_hear (memory : Memory) (first second : List Mailbox.Call) :
    (memory.hear first).hear second = memory.hear (first ++ second) := by
  simp [hear, Mailbox.performAll_append]

@[simp]
theorem after_nil (memory : Memory) : memory.after [] = memory := rfl

@[simp]
theorem after_cons (memory : Memory) (exchange : Exchange) (trace : List Exchange) :
    memory.after (exchange :: trace) = (memory.hear exchange.calls).after trace := by
  simp [after, Exchange.heard, hear_hear]

theorem after_append (memory : Memory) (first second : List Exchange) :
    memory.after (first ++ second) = (memory.after first).after second := by
  simp [after, Exchange.heard, hear_hear]

@[simp]
theorem forcingShutdown_after (memory : Memory) (trace : List Exchange) :
    (memory.after trace).forcingShutdown = memory.forcingShutdown := rfl

theorem heard_hear (memory : Memory) (calls : List Mailbox.Call) :
    memory.mailbox.Heard (memory.hear calls).mailbox :=
  Mailbox.heard_performAll _ _

theorem heard_after (memory : Memory) (trace : List Exchange) :
    memory.mailbox.Heard (memory.after trace).mailbox :=
  memory.heard_hear _

end Memory

namespace Task

variable {α β : Type}

/-- The exchanges lead from one point of a task to another. -/
inductive Reaches : Task α → List Exchange → Task α → Prop where
  | refl (task : Task α) : Reaches task [] task
  | ask {memory : Memory} {request : Request} {resume : Mailbox → request.Answer → Task α}
      {calls : List Mailbox.Call} {answer : request.Answer} {trace : List Exchange} {task : Task α}
      (rest : Reaches (resume (memory.hear calls).mailbox answer) trace task) :
      Reaches (.ask memory request resume) (⟨request, calls, answer⟩ :: trace) task

/-- The exchanges lead a task to its end. -/
def Runs (task : Task α) (trace : List Exchange) (memory : Memory) (result : α) : Prop :=
  task.Reaches trace (.done memory result)

theorem Reaches.trans {first middle last : Task α} {earlier later : List Exchange}
    (begin : first.Reaches earlier middle) (rest : middle.Reaches later last) :
    first.Reaches (earlier ++ later) last := by
  induction begin with
  | refl => exact rest
  | ask _ inductionHypothesis => exact .ask (inductionHypothesis rest)

/-- A task that has come to a request is led on by an answer to it. -/
theorem Reaches.answer {task : Task α} {trace : List Exchange} {memory : Memory}
    {request : Request} {resume : Mailbox → request.Answer → Task α}
    (reached : task.Reaches trace (.ask memory request resume)) (calls : List Mailbox.Call)
    (answer : request.Answer) :
    task.Reaches (trace ++ [⟨request, calls, answer⟩])
      (resume (memory.hear calls).mailbox answer) :=
  reached.trans (.ask (.refl _))

theorem reaches_done_iff {memory : Memory} {result : α} {trace : List Exchange} {task : Task α} :
    (Task.done memory result).Reaches trace task ↔ trace = [] ∧ task = .done memory result := by
  constructor
  · intro reached
    cases reached
    exact ⟨rfl, rfl⟩
  · rintro ⟨rfl, rfl⟩
    exact .refl _

theorem reaches_ask_iff {memory : Memory} {request : Request}
    {resume : Mailbox → request.Answer → Task α} {trace : List Exchange} {task : Task α} :
    (Task.ask memory request resume).Reaches trace task ↔
      trace = [] ∧ task = .ask memory request resume ∨
        ∃ calls answer rest, trace = ⟨request, calls, answer⟩ :: rest ∧
          (resume (memory.hear calls).mailbox answer).Reaches rest task := by
  constructor
  · intro reached
    cases reached with
    | refl => exact .inl ⟨rfl, rfl⟩
    | ask rest => exact .inr ⟨_, _, _, rfl, rest⟩
  · rintro (⟨rfl, rfl⟩ | ⟨calls, answer, rest, rfl, reached⟩)
    · exact .refl _
    · exact .ask reached

@[simp]
theorem runs_done_iff {memory final : Memory} {result answer : α} {trace : List Exchange} :
    (Task.done memory result).Runs trace final answer ↔
      trace = [] ∧ final = memory ∧ answer = result := by
  constructor
  · intro run
    cases run
    exact ⟨rfl, rfl, rfl⟩
  · rintro ⟨rfl, rfl, rfl⟩
    exact .refl _

theorem runs_ask_iff {memory final : Memory} {request : Request}
    {resume : Mailbox → request.Answer → Task α} {result : α} {trace : List Exchange} :
    (Task.ask memory request resume).Runs trace final result ↔
      ∃ calls answer rest, trace = ⟨request, calls, answer⟩ :: rest ∧
        (resume (memory.hear calls).mailbox answer).Runs rest final result := by
  constructor
  · intro run
    cases run with
    | ask rest => exact ⟨_, _, _, rfl, rest⟩
  · rintro ⟨calls, answer, rest, rfl, run⟩
    exact .ask run

/-- A run of a program in two parts is a run of the first part and, from where it ends, a run of
the second. -/
theorem runs_bind_iff {task : Task α} {next : α → Program β} {final : Memory} {result : β}
    {trace : List Exchange} :
    (task.bind next).Runs trace final result ↔
      ∃ first middle value second, task.Runs first middle value ∧
        (next value middle).Runs second final result ∧ trace = first ++ second := by
  induction task generalizing trace with
  | done memory value =>
    constructor
    · intro run
      exact ⟨[], memory, value, trace, .refl _, run, rfl⟩
    · rintro ⟨first, middle, value', second, ended, run, rfl⟩
      obtain ⟨rfl, rfl, rfl⟩ := runs_done_iff.mp ended
      exact run
  | ask memory request resume inductionHypothesis =>
    rw [bind_ask, runs_ask_iff]
    constructor
    · rintro ⟨calls, answer, rest, rfl, run⟩
      obtain ⟨first, middle, value, second, begun, ended, rfl⟩ := (inductionHypothesis _ _).mp run
      exact ⟨_ :: first, middle, value, second, .ask begun, ended, rfl⟩
    · rintro ⟨first, middle, value, second, begun, ended, rfl⟩
      obtain ⟨calls, answer, rest, rfl, resumed⟩ := runs_ask_iff.mp begun
      exact ⟨calls, answer, rest ++ second, rfl,
        (inductionHypothesis _ _).mpr ⟨rest, middle, value, second, resumed, ended, rfl⟩⟩

/-- A program in two parts that has come to a request is in its first part, or in the second. -/
theorem reaches_bind_ask {task : Task α} {next : α → Program β} {memory : Memory}
    {request : Request} {resume : Mailbox → request.Answer → Task β} {trace : List Exchange}
    (reached : (task.bind next).Reaches trace (.ask memory request resume)) :
    (∃ rest, task.Reaches trace (.ask memory request rest) ∧
        resume = fun mailbox answer => (rest mailbox answer).bind next) ∨
      ∃ first middle value second, task.Runs first middle value ∧
        (next value middle).Reaches second (.ask memory request resume) ∧
        trace = first ++ second := by
  induction task generalizing trace with
  | done middle value => exact .inr ⟨[], middle, value, trace, .refl _, reached, rfl⟩
  | ask asking question answers inductionHypothesis =>
    rw [bind_ask] at reached
    rcases reaches_ask_iff.mp reached with ⟨rfl, here⟩ | ⟨calls, answer, rest, rfl, later⟩
    · obtain ⟨rfl, rfl, same⟩ := Task.ask.inj here
      exact .inl ⟨answers, .refl _, eq_of_heq same⟩
    · rcases inductionHypothesis _ _ later with
        ⟨left, first, whole⟩ | ⟨first, middle, value, second, begun, ended, rfl⟩
      · exact .inl ⟨left, .ask first, whole⟩
      · exact .inr ⟨_ :: first, middle, value, second, .ask begun, ended, rfl⟩

/-- What comes of a task when every request is answered, and called into, in one way: the exchanges,
the memory that is left and the result. -/
def follow (answer : (request : Request) → List Mailbox.Call × request.Answer) :
    Task α → List Exchange × Memory × α
  | .done memory result => ([], memory, result)
  | .ask memory request resume =>
    let rest := (resume (memory.hear (answer request).1).mailbox (answer request).2).follow answer
    (⟨request, (answer request).1, (answer request).2⟩ :: rest.1, rest.2)

theorem runs_follow (answer : (request : Request) → List Mailbox.Call × request.Answer)
    (task : Task α) :
    task.Runs (task.follow answer).1 (task.follow answer).2.1 (task.follow answer).2.2 := by
  induction task with
  | done memory result => exact .refl _
  | ask memory request resume inductionHypothesis => exact .ask (inductionHypothesis _ _)

/-- How far a task comes when so many of its requests are answered, and called into, in one way. -/
def advance (answer : (request : Request) → List Mailbox.Call × request.Answer) :
    Task α → Nat → List Exchange × Task α
  | .ask memory request resume, count + 1 =>
    let rest :=
      (resume (memory.hear (answer request).1).mailbox (answer request).2).advance answer count
    (⟨request, (answer request).1, (answer request).2⟩ :: rest.1, rest.2)
  | task, _ => ([], task)

theorem reaches_advance (answer : (request : Request) → List Mailbox.Call × request.Answer)
    (task : Task α) (count : Nat) :
    task.Reaches (task.advance answer count).1 (task.advance answer count).2 := by
  induction count generalizing task with
  | zero => cases task <;> exact .refl _
  | succ count inductionHypothesis =>
    cases task with
    | done memory result => exact .refl _
    | ask memory request resume => exact .ask (inductionHypothesis _)

/-- Every way to answer, and to call meanwhile, leads a task to its end. -/
theorem exists_runs_reacting (react : Reaction) (task : Task α) :
    ∃ trace memory result, task.Runs trace memory result ∧ react.Yields trace := by
  induction task generalizing react with
  | done memory result => exact ⟨[], memory, result, .refl _, .nil react⟩
  | ask memory request resume inductionHypothesis =>
    rcases reaction : react [] request with ⟨calls, answer⟩
    let first : Exchange := ⟨request, calls, answer⟩
    obtain ⟨rest, final, result, run, yields⟩ :=
      inductionHypothesis (memory.hear calls).mailbox answer fun earlier => react (first :: earlier)
    have begun : react.Yields [first] := .singleton reaction.symm
    exact ⟨[first] ++ rest, final, result, .ask run, begun.append yields⟩

/-- The same where the answers, and the calls, depend on the request alone. -/
theorem exists_runs (answer : (request : Request) → List Mailbox.Call × request.Answer)
    (task : Task α) : ∃ trace memory result, task.Runs trace memory result ∧
      ∀ exchange ∈ trace, (exchange.calls, exchange.answer) = answer exchange.request := by
  obtain ⟨trace, memory, result, run, yields⟩ := task.exists_runs_reacting fun _ => answer
  refine ⟨trace, memory, result, run, ?_⟩
  intro exchange member
  obtain ⟨earlier, later, whole⟩ := List.append_of_mem member
  exact yields earlier exchange later whole

/-- Wherever a task has come, it has an end before it. -/
theorem Reaches.extend {task later : Task α} {trace : List Exchange}
    (reached : task.Reaches trace later) :
    ∃ rest memory result, task.Runs (trace ++ rest) memory result := by
  obtain ⟨rest, memory, result, run, -⟩ :=
    exists_runs (fun request => ([], request.darkAnswer)) later
  exact ⟨rest, memory, result, reached.trans run⟩

end Task

namespace Program

variable {α β : Type} {memory final : Memory} {trace : List Exchange} {result : β}

/-- A program that asks goes on from the memory in which the answer finds it. -/
theorem runs_ask_bind_iff {request : Request} {next : request.Answer → Program β} :
    ((ask request >>= next) memory).Runs trace final result ↔
      ∃ calls answer rest, trace = ⟨request, calls, answer⟩ :: rest ∧
        (next answer (memory.hear calls)).Runs rest final result :=
  Task.runs_ask_iff

/-- A program in two parts. -/
theorem runs_bind_iff {program : Program α} {next : α → Program β} :
    ((program >>= next) memory).Runs trace final result ↔
      ∃ first middle value second, (program memory).Runs first middle value ∧
        (next value middle).Runs second final result ∧ trace = first ++ second :=
  Task.runs_bind_iff

theorem runs_pure_iff {value : β} :
    ((pure value : Program β) memory).Runs trace final result ↔
      trace = [] ∧ final = memory ∧ result = value :=
  Task.runs_done_iff

/-- A choice between two results. -/
theorem runs_ite_iff {condition : Prop} [Decidable condition] {yes no : β} :
    ((if condition then pure yes else pure no : Program β) memory).Runs trace final result ↔
      trace = [] ∧ final = memory ∧ result = if condition then yes else no := by
  split
  · exact runs_pure_iff
  · exact runs_pure_iff

/-- A change of the memory asks for nothing. -/
theorem runs_modify_bind_iff {change : Memory → Memory} {next : Unit → Program β} :
    ((modify change >>= next) memory).Runs trace final result ↔
      (next () (change memory)).Runs trace final result :=
  Iff.rfl

theorem runs_read_bind_iff {next : Memory → Program β} :
    ((read >>= next) memory).Runs trace final result ↔
      (next memory memory).Runs trace final result :=
  Iff.rfl

theorem runs_ask_iff {request : Request} {answer : request.Answer} :
    (ask request memory).Runs trace final answer ↔
      ∃ calls, trace = [⟨request, calls, answer⟩] ∧ final = memory.hear calls := by
  constructor
  · intro run
    obtain ⟨calls, reply, rest, rfl, ended⟩ := Task.runs_ask_iff.mp run
    obtain ⟨rfl, rfl, rfl⟩ := Task.runs_done_iff.mp ended
    exact ⟨calls, rfl, rfl⟩
  · rintro ⟨calls, rfl, rfl⟩
    exact .ask (.refl _)

end Program

end RailSequencer
