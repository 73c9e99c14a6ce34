import RailSequencer.PowerTree
import RailSequencer.Program
import RailSequencer.Timing

/-!
# Replaying a table

A table is written from top to bottom, never reordered, skipped or overlapped. A replay may
be given an abort condition, which is looked at between the slices of every delay and never
in the middle of one; without a condition each delay is a single sleep.
-/

namespace RailSequencer

/-- How a replay ended. -/
inductive Outcome where
  | completed
  | aborted
deriving DecidableEq, Repr

/-- A condition that ends a replay early, seen from the mailbox and the input lines. -/
abbrev AbortCondition := Mailbox → SignalMask → Bool

namespace Program

def sleepMs (ms : Nat) : Program Unit := ask (.sleep (ms * Timing.usPerMs))

/-- Does the condition hold now? -/
def aborts (condition : AbortCondition) : Program Bool := do
  let lines ← ask .readLines
  let memory ← read
  return condition memory.mailbox lines

/-- Sleep `slices` whole slices and then `lastMs`, looking at the condition after each. -/
def sleepSlices (condition : AbortCondition) (lastMs : Nat) : Nat → Program Outcome
  | 0 => do
    sleepMs lastMs
    if ← aborts condition then return .aborted else return .completed
  | slices + 1 => do
    sleepMs Timing.abortSliceMs
    if ← aborts condition then return .aborted else sleepSlices condition lastMs slices

/-- Sleep `ms` milliseconds unless the condition holds at the end of a slice. The last slice
is what remains after as many whole slices as leave something over, so it is empty only for
an empty sleep. -/
def sleepAbortable (condition : AbortCondition) (ms : Nat) : Program Outcome :=
  let slices := (ms - 1) / Timing.abortSliceMs
  sleepSlices condition (ms - slices * Timing.abortSliceMs) slices

/-- Write a table with no way to stop it. -/
def replay : List RailWrite → Program Unit
  | [] => return ()
  | write :: rest => do
    ask (.drive write.rail write.level)
    if write.settleMs ≠ 0 then sleepMs write.settleMs.toNat
    replay rest

/-- Write a table until the condition is seen to hold. Entries without a delay are written
without a look at the condition. -/
def replayAbortable (condition : AbortCondition) : List RailWrite → Program Outcome
  | [] => return .completed
  | write :: rest => do
    ask (.drive write.rail write.level)
    if write.settleMs = 0 then
      replayAbortable condition rest
    else
      match ← sleepAbortable condition write.settleMs.toNat with
      | .aborted => return .aborted
      | .completed => replayAbortable condition rest

/-- Hold the reset line low for the width of a pulse. -/
def pulseReset : Program Unit := do
  ask (.drive .sysRstL .low)
  ask (.sleep Timing.resetPulseUs)
  ask (.drive .sysRstL .high)

/-- A reset pulse for callers that cannot sleep, such as an interrupt handler. -/
def pulseResetBlocking : Program Unit := do
  ask (.drive .sysRstL .low)
  ask (.spin Timing.resetPulseUs)
  ask (.drive .sysRstL .high)

end Program

end RailSequencer
