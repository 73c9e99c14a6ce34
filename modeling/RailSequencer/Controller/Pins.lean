import RailSequencer.PowerTree.Revisions

/-!
# Pins of the controller

Which pin carries which line on the board. Only the rails of the simplified tree are wired, so
only revisions that drive no other rail can run here.
-/

namespace RailSequencer.Controller

/-- A pin of the controller, by number. -/
abbrev Pin := Fin 30

/-- One value for each pin. -/
structure PinMap (α : Type) where
  cells : Vector α 30

namespace PinMap

variable {α : Type}

/-- The same value on every pin. -/
def constant (value : α) : PinMap α := ⟨Vector.replicate 30 value⟩

def get (map : PinMap α) (pin : Pin) : α := map.cells[pin]

/-- Give one pin a new value. -/
def set (map : PinMap α) (pin : Pin) (value : α) : PinMap α := ⟨map.cells.set pin value⟩

/-- The values in the order of the pins. -/
def toList (map : PinMap α) : List α := map.cells.toList

@[simp]
theorem get_constant (value : α) (pin : Pin) : (constant value).get pin = value := by
  simp [constant, get]

/-- A write is seen on its own pin and on no other. -/
@[simp]
theorem get_set (map : PinMap α) (pin other : Pin) (value : α) :
    (map.set pin value).get other = if pin = other then value else map.get other := by
  simp [set, get, Vector.getElem_set, Fin.ext_iff]

end PinMap

/-- The power button, low while pressed. -/
def Pin.button : Pin := 2

/-- The lid switch, high while open. -/
def Pin.lid : Pin := 3

/-- The rails that have a pin on this board. -/
def wiredRails : List Rail :=
  [.sysRstL, .apCoreEn, .pp900S3En, .pp3300S3En, .pp1800S3En, .pp1250S3En, .pp900S0En,
   .pp1800UsbEn, .pp3300S0En, .pp1800S0En]

/-- The pins of rails, in the order in which they are set up. -/
def wiring : List (Rail × Pin) :=
  [(.sysRstL, 0), (.apCoreEn, 1), (.pp900S3En, 4), (.pp3300S3En, 5), (.pp1800S3En, 6),
   (.pp1250S3En, 7), (.pp900S0En, 8), (.pp1800UsbEn, 9), (.pp3300S0En, 10), (.pp1800S0En, 11)]

/-- The pin of a rail, if it has one. -/
def pinOf? (rail : Rail) : Option Pin := wiring.lookup rail

/-- Power switches of the four USB sockets, in the order in which they are written. -/
def usbSwitches : List Pin := [25, 24, 23, 22]

/-- The monitored lines with their pins. -/
def monitored : List (Pin × SignalMask) :=
  [(16, .pp5000Good), (17, .sysGood), (18, .pp1250S3Good), (19, .pp900S0Good), (20, .apGood),
   (21, .suspendDeasserted)]

/-- The output that makes a power-good input follow, where the supply behind it is wired. -/
def supplyOf? (pin : Pin) : Option Pin :=
  [((18 : Pin), (7 : Pin)), (19, 8), (20, 11)].lookup pin

/-- The revision with a stored number, if this board can drive every rail that it needs. -/
def drivable? (hardwareVersion : UInt8) : Option Revision :=
  (Revision.ofNumber? hardwareVersion.toNat).filter fun revision =>
    (EdgeTables.ofRevision revision).drivesOnly wiredRails

/-- The revision that runs for a stored number. One that this board cannot drive gives way
to the simplified tree. -/
def runningRevision (hardwareVersion : UInt8) : Revision :=
  (drivable? hardwareVersion).getD .v2

end RailSequencer.Controller
