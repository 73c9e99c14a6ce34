/-!
# Debounced switches

A switch waits for an edge, lets the line settle, and then compares its level with the one
that it last accepted. Edges count only while the switch waits for one: what happens on the
line while it settles is not remembered.
-/

namespace RailSequencer

/-- What a switch is doing. -/
inductive Switch.Phase where
  /-- Waiting for an edge, which may have come already. -/
  | watching (edgeSeen : Bool)
  | settling (wakeAt : Nat)
deriving DecidableEq, Repr

/-- A debounced input line. -/
structure Switch where
  /-- The level last accepted. -/
  accepted : Bool
  phase : Switch.Phase := .watching false
deriving DecidableEq, Repr

namespace Switch

/-- Time that a line gets to settle. -/
def settleUs : Nat := 30000

/-- The line changed its level. -/
def edge (switch : Switch) : Switch :=
  match switch.phase with
  | .watching _ => { switch with phase := .watching true }
  | .settling _ => switch

/-- The next time at which the switch wants to look at its line, if there is one. -/
def deadline? (switch : Switch) : Option Nat :=
  match switch.phase with
  | .watching _ => none
  | .settling wakeAt => some wakeAt

/-- There is something to do: an edge was seen, or the line has settled. -/
def isReady (switch : Switch) (now : Nat) : Bool :=
  match switch.phase with
  | .watching edgeSeen => edgeSeen
  | .settling wakeAt => wakeAt ≤ now

/-- Do what there is to do at time `now` with the line at `level`. A settled level that
differs from the one last accepted is reported. -/
def poll (switch : Switch) (now : Nat) (level : Bool) : Switch × Option Bool :=
  match switch.phase with
  | .watching true => ({ switch with phase := .settling (now + settleUs) }, none)
  | .watching false => (switch, none)
  | .settling wakeAt =>
    if wakeAt ≤ now then
      (⟨level, .watching false⟩, if level = switch.accepted then none else some level)
    else
      (switch, none)

end Switch

end RailSequencer
