import RailSequencer.Proofs.Loop

/-!
# Rehearsed runs

A run of the loop in which every turn is answered, and called into, in a way that is known
beforehand. `Position.rehearse` computes what is seen of such a run and where it leads, and
`Steps.rehearse` says that it is a run, so what holds of one board can be decided.
-/

namespace RailSequencer

/-- A way to answer, and to call into, whatever is asked. -/
abbrev Answering := (request : Request) → List Mailbox.Call × request.Answer

/-- These lines are asserted all the time, the charger agrees, and nobody calls. -/
def Answering.steady (lines : SignalMask) : Answering :=
  fun request => ([], request.steadyAnswer lines)

/-- The same answers, and the same calls while any of them is on its way. -/
def Answering.calling (answering : Answering) (calls : List Mailbox.Call) : Answering :=
  fun request => (calls, (answering request).2)

namespace Position

variable (tree : PowerTree)

/-- To the next boundary where the power task may rest: the end of the turn, or of the rest if the
power task has been woken. -/
def rehearseTurn (answering : Answering) : Position → List Event × Position
  | .serving state task =>
    let served := task.follow answering
    let stepped := (Program.step tree state served.2.1).follow answering
    let turn := (Program.conclude state stepped.2.2 stepped.2.1).follow answering
    (served.1.map .asked ++ .began state served.2.1 :: stepped.1.map .asked ++
      [.ended stepped.2.2 turn.2.1], turn.2.2.position turn.2.1)
  | .stepping state task =>
    let stepped := task.follow answering
    let turn := (Program.conclude state stepped.2.2 stepped.2.1).follow answering
    (stepped.1.map .asked ++ [.ended stepped.2.2 turn.2.1], turn.2.2.position turn.2.1)
  | .resting state memory =>
    if memory.mailbox.woken then ([.woke], .serving state (Program.serveReset memory.takeWake))
    else ([], .resting state memory)

/-- As many turns as there are ways to answer. -/
def rehearse (start : Position) : List Answering → List Event × Position
  | [] => ([], start)
  | answering :: rest =>
    let turn := start.rehearseTurn tree answering
    let later := turn.2.rehearse rest
    (turn.1 ++ later.1, later.2)

end Position

/-- The end of a turn is there at once. -/
theorem Program.follow_conclude (answering : Answering) (state next : PowerState)
    (memory : Memory) :
    Program.conclude state next memory =
      .done ((Program.conclude state next memory).follow answering).2.1
        ((Program.conclude state next memory).follow answering).2.2 := by
  obtain ⟨final, turn, concluded⟩ := Program.conclude_done state next memory
  rw [concluded]
  rfl

namespace Steps

variable (tree : PowerTree) (answering : Answering)

/-- What is left of a step is followed to its end. -/
private theorem rehearse_step (state : PowerState) (task : Task PowerState) :
    Steps tree (.stepping state task) ((Position.stepping state task).rehearseTurn tree answering).1
      ((Position.stepping state task).rehearseTurn tree answering).2 :=
  .move (.stepping (task.runs_follow answering))
    (.conclude (Program.follow_conclude answering state _ _))

theorem rehearseTurn (start : Position) :
    Steps tree start (start.rehearseTurn tree answering).1
      (start.rehearseTurn tree answering).2 := by
  cases start with
  | serving state task =>
    have begins : Steps tree (.serving state task) _ _ :=
      .move (.serving (task.runs_follow answering)) .begin
    have run := begins.trans (rehearse_step tree answering state _)
    simpa [Position.rehearseTurn] using run
  | stepping state task => exact rehearse_step tree answering state task
  | resting state memory =>
    by_cases woken : memory.mailbox.woken = true
    · have run : Steps tree (.resting state memory) ([] ++ [.woke]) _ := .move .refl (.wake woken)
      simpa [Position.rehearseTurn, woken] using run
    · simpa [Position.rehearseTurn, woken] using Steps.refl

/-- What is rehearsed is a run. -/
theorem rehearse (answers : List Answering) (start : Position) :
    Steps tree start (start.rehearse tree answers).1 (start.rehearse tree answers).2 := by
  induction answers generalizing start with
  | nil => exact .refl
  | cons answering rest inductionHypothesis =>
    exact (rehearseTurn tree answering start).trans (inductionHypothesis _)

end Steps

end RailSequencer
