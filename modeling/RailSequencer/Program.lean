import RailSequencer.Mailbox
import RailSequencer.PowerError
import RailSequencer.Rail

/-!
# Programs of the power task

The power task is written once, against an arbitrary board. A `Task` is the tree of what it
asks of that board: every node holds what the task has in memory, one request, and what it
does with each answer. A board answers requests; while it does so, other tasks may change
the mailbox, so the answer comes with a mailbox of its own. The two flags belong to the power
task alone, and the type says so: nobody else can hand back other flags.

`Program` is the same tree as a function of the memory that it starts from.
-/

namespace RailSequencer

/-- Chipset transitions that other subsystems are told about. -/
inductive HookEvent where
  | startup
  | resume
  | suspend
  | shutdown
deriving DecidableEq, Repr

/-- What the power task asks of its board. -/
inductive Request where
  /-- Drive an output line. It says nothing about whether the supply behind it responds. -/
  | drive (rail : Rail) (level : Level)
  /-- Look at the input lines, without waiting. -/
  | readLines
  /-- Wait until every line of `wanted` is asserted, for `timeoutUs` at most. -/
  | waitForLines (wanted : SignalMask) (timeoutUs : Nat)
  | sleep (us : Nat)
  /-- Keep the processor busy, where sleeping is not possible. -/
  | spin (us : Nat)
  /-- Does the charger want power-on to wait? -/
  | powerOnBlocked
  /-- Does the charger want the processor to stay off? -/
  | shutdownWanted
  | buttonPressed
  | allowIdle (allowed : Bool)
  /-- Tell every subscriber, in the order in which they registered. -/
  | notify (event : HookEvent)
deriving DecidableEq, Repr

/-- The type of the answer to a request. -/
abbrev Request.Answer : Request → Type
  | .readLines => SignalMask
  | .waitForLines _ _ => Except PowerError Unit
  | .powerOnBlocked | .shutdownWanted | .buttonPressed => Bool
  | _ => Unit

/-- What the power task has in memory. -/
structure Memory where
  mailbox : Mailbox := {}
  /-- A shutdown is under way and holds until the next attempt to power on. -/
  forcingShutdown : Bool := false
  /-- The reset line has been held since the last power-up and is released on resume. -/
  resetHeld : Bool := false
deriving DecidableEq, Repr

/-- A run of the power task up to a result: the requests that it makes, and how it goes on
from each answer. -/
inductive Task (α : Type) where
  | done (memory : Memory) (result : α)
  | ask (memory : Memory) (request : Request)
      (resume : Mailbox → request.Answer → Task α)

/-- A piece of the power task. -/
def Program (α : Type) : Type := Memory → Task α

namespace Task

variable {α β : Type}

/-- Go on with `next` where a task ends. -/
def bind (next : α → Program β) : Task α → Task β
  | .done memory result => next result memory
  | .ask memory request resume =>
    .ask memory request fun mailbox answer => (resume mailbox answer).bind next

/-- The memory at the point that the task has reached. -/
def memory : Task α → Memory
  | .done memory _ => memory
  | .ask memory _ _ => memory

end Task

namespace Program

variable {α β : Type}

instance : Monad Program where
  pure result := fun memory => .done memory result
  bind program next := fun memory => (program memory).bind next

/-- Ask the board, and go on with the mailbox that comes with the answer. -/
def ask (request : Request) : Program request.Answer := fun memory =>
  .ask memory request fun mailbox answer => .done { memory with mailbox := mailbox } answer

def read : Program Memory := fun memory => .done memory memory

def modify (change : Memory → Memory) : Program Unit := fun memory => .done (change memory) ()

/-- Look at the mailbox and change it in one step, which nobody can interrupt. -/
def onMailbox (change : Mailbox → Mailbox) : Program Unit :=
  modify fun memory => { memory with mailbox := change memory.mailbox }

@[simp]
theorem pure_apply (result : α) (memory : Memory) :
    (pure result : Program α) memory = .done memory result := rfl

@[simp]
theorem bind_apply (program : Program α) (next : α → Program β) (memory : Memory) :
    (program >>= next) memory = (program memory).bind next := rfl

end Program

namespace Task

variable {α β γ : Type}

@[simp]
theorem bind_done (memory : Memory) (result : α) (next : α → Program β) :
    (Task.done memory result).bind next = next result memory := rfl

@[simp]
theorem bind_ask (memory : Memory) (request : Request)
    (resume : Mailbox → request.Answer → Task α) (next : α → Program β) :
    (Task.ask memory request resume).bind next =
      .ask memory request fun mailbox answer => (resume mailbox answer).bind next := rfl

theorem bind_pure (task : Task α) : task.bind (fun result => (pure result : Program α)) = task := by
  induction task with
  | done memory result => rfl
  | ask memory request resume inductionHypothesis =>
    simp only [bind_ask]
    congr
    funext mailbox answer
    exact inductionHypothesis mailbox answer

theorem bind_bind (task : Task α) (first : α → Program β) (second : β → Program γ) :
    (task.bind first).bind second = task.bind fun result => first result >>= second := by
  induction task with
  | done memory result => rfl
  | ask memory request resume inductionHypothesis =>
    simp only [bind_ask]
    congr
    funext mailbox answer
    exact inductionHypothesis mailbox answer

end Task

instance : LawfulMonad Program := LawfulMonad.mk' Program
  (fun program => funext fun memory => Task.bind_pure (program memory))
  (fun _ _ => rfl)
  (fun program first second => funext fun memory =>
    Task.bind_bind (program memory) first second)

end RailSequencer
