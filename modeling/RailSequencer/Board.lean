import RailSequencer.Program

/-!
# Boards

A board is whatever answers the requests of the power task: any state with any way to answer,
which may also change the mailbox as other tasks would. A task runs on a board to its end.
-/

namespace RailSequencer

/-- A way to answer every request from a state. It is given the mailbox that the power task
hands over, and gives back the mailbox with which the task goes on. -/
structure Board (State : Type) where
  answer : (request : Request) → Mailbox → State → State × Mailbox × request.Answer

/-- Run a task to its end: the state of the board, the memory and the result. -/
def Task.run {State α : Type} (board : Board State) : Task α → State → State × Memory × α
  | .done memory result, state => (state, memory, result)
  | .ask memory request resume, state =>
    let (next, mailbox, reply) := board.answer request memory.mailbox state
    (resume mailbox reply).run board next

/-- A task in two parts runs the first part and then, from where that ends, the second. -/
theorem Task.run_bind {State α β : Type} (board : Board State) (task : Task α)
    (next : α → Program β) (state : State) :
    (task.bind next).run board state =
      let first := task.run board state
      (next first.2.2 first.2.1).run board first.1 := by
  induction task generalizing state with
  | done memory result => rfl
  | ask memory request resume inductionHypothesis =>
    simp only [Task.bind, Task.run]
    exact inductionHypothesis _ _ _

end RailSequencer
