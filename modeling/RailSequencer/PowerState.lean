/-!
# Power states of the application processor

The ten states carry their ACPI names: four stable ones and the six transitions between
neighbours. Everything else in this module is a view of a state: its code, its class bits,
its coarse activity and the states that one step may lead to.
-/

namespace RailSequencer

/-- A power state. The stable states come first, then the transitions, each named for the
state it leaves and the state it heads for. -/
inductive PowerState where
  | g3
  | s5
  | s3
  | s0
  | g3s5
  | s5s3
  | s3s0
  | s0s3
  | s3s5
  | s5g3
deriving DecidableEq, Repr, Inhabited

/-- A set of state classes, one bit per class. Bits without a class are kept and behave like
any other bit. -/
structure StateMask where
  bits : BitVec 8
deriving DecidableEq, Repr

namespace StateMask

def hardOff : StateMask := ⟨0x01⟩
def softOff : StateMask := ⟨0x02⟩
def suspend : StateMask := ⟨0x04⟩
def on : StateMask := ⟨0x08⟩

/-- Both classes, bit by bit. -/
def union (left right : StateMask) : StateMask := ⟨left.bits ||| right.bits⟩

/-- Hard and soft off together: the mask that callers use for "the processor is off". -/
def anyOff : StateMask := hardOff.union softOff

/-- Every class of `other` is in `mask`. -/
def contains (mask other : StateMask) : Bool := mask.bits &&& other.bits == other.bits

/-- The four classes with their names, lowest bit first. -/
def named : List (StateMask × String) :=
  [(hardOff, "HARD_OFF"), (softOff, "SOFT_OFF"), (suspend, "SUSPEND"), (on, "ON")]

/-- Names of the classes in a mask, lowest bit first. A composite mask adds no name, since
each of its bits is named already. -/
def names (mask : StateMask) : List String :=
  (named.filter fun entry => mask.contains entry.1).map Prod.snd

/-- All four classes. -/
def anyClass : StateMask := (hardOff.union softOff).union (suspend.union on)

/-- No bit outside the four classes is set. -/
def isDefined (mask : StateMask) : Bool := anyClass.contains mask

end StateMask

/-- What other subsystems ask about a state: is the processor off, suspended or running? -/
inductive Activity where
  | off
  | suspended
  | running
deriving DecidableEq, Repr

namespace Activity

def name : Activity → String
  | .off => "AnyOff"
  | .suspended => "AnySuspend"
  | .running => "On"

/-- The number a host reads for an activity. -/
def code : Activity → Nat
  | .off => 0
  | .suspended => 1
  | .running => 2

end Activity

namespace PowerState

/-- Every state, in the order of their codes. -/
def all : List PowerState :=
  [.g3, .s5, .s3, .s0, .g3s5, .s5s3, .s3s0, .s0s3, .s3s5, .s5g3]

def name : PowerState → String
  | .g3 => "G3"
  | .s5 => "S5"
  | .s3 => "S3"
  | .s0 => "S0"
  | .g3s5 => "G3S5"
  | .s5s3 => "S5S3"
  | .s3s0 => "S3S0"
  | .s0s3 => "S0S3"
  | .s3s5 => "S3S5"
  | .s5g3 => "S5G3"

/-- The position of a state in `all`, which is also the byte a host reads. -/
def code : PowerState → Nat
  | .g3 => 0
  | .s5 => 1
  | .s3 => 2
  | .s0 => 3
  | .g3s5 => 4
  | .s5s3 => 5
  | .s3s0 => 6
  | .s0s3 => 7
  | .s3s5 => 8
  | .s5g3 => 9

def ofCode? (code : Nat) : Option PowerState := all[code]?

theorem ofCode?_code (state : PowerState) : ofCode? state.code = some state := by
  cases state <;> rfl

theorem mem_all (state : PowerState) : state ∈ all := by
  cases state <;> decide

/-- A stable state may stay put; a transition does its work once and moves on. -/
def isStable : PowerState → Bool
  | .g3 | .s5 | .s3 | .s0 => true
  | _ => false

/-- Every state that one step may return. -/
def successors : PowerState → List PowerState
  | .g3 => [.g3, .g3s5]
  | .s5 => [.s5g3, .s5s3]
  | .s3 => [.s3, .s3s5, .s3s0]
  | .s0 => [.s0, .s0s3]
  | .g3s5 => [.g3, .s5]
  | .s5s3 => [.s3, .s3s5]
  | .s3s0 => [.s0, .s3s0]
  | .s0s3 => [.s3, .s3s0]
  | .s3s5 => [.s5]
  | .s5g3 => [.g3]

/-- The classes of a state. A transition sits between two classes and belongs to both. -/
def classes : PowerState → StateMask
  | .g3 => .hardOff
  | .g3s5 | .s5g3 => StateMask.hardOff.union .softOff
  | .s5 => .softOff
  | .s5s3 | .s3s5 => StateMask.softOff.union .suspend
  | .s3 => .suspend
  | .s3s0 | .s0s3 => StateMask.suspend.union .on
  | .s0 => .on

/-- A mask matches a state when it covers every class of the state. -/
def isIn (state : PowerState) (mask : StateMask) : Bool := mask.contains state.classes

def activity : PowerState → Activity
  | .g3 | .g3s5 | .s5 | .s5g3 => .off
  | .s0 => .running
  | _ => .suspended

end PowerState

end RailSequencer
