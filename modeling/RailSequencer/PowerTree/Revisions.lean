import RailSequencer.PowerTree

/-!
# The built-in power trees

Three revisions of the power tree exist. The two split trees (`v0`, `v1`) share their upper
edges; the simplified tree (`v2`) drives fewer lines and needs no debounce.
-/

namespace RailSequencer

namespace EdgeTables

/-- First power-up of the initial tree. The reset line is pulled low halfway. -/
def initialS5S3 : List RailWrite :=
  [⟨.ppvarLogicEn, .high, 0⟩,
   ⟨.pp900ApEn, .high, 0⟩,
   ⟨.pp900PcieEn, .high, 2⟩,
   ⟨.pp900PmuEn, .high, 0⟩,
   ⟨.pp900PllEn, .high, 0⟩,
   ⟨.pp900UsbEn, .high, 2⟩,
   ⟨.sysRstL, .low, 0⟩,
   ⟨.pp1800PmuEnL, .low, 2⟩,
   ⟨.lpddrPwrEn, .high, 2⟩,
   ⟨.pp1800UsbEnL, .low, 2⟩,
   ⟨.pp3300UsbEnL, .low, 0⟩,
   ⟨.pp5000En, .high, 0⟩,
   ⟨.pp3300TrackpadEnL, .low, 1⟩,
   ⟨.pp1800LidEnL, .low, 0⟩,
   ⟨.pp1800SixaxisEnL, .low, 2⟩,
   ⟨.pp1800SensorEnL, .low, 0⟩]

/-- The same power-up where the pmu and pll enables are merged into the usb one. -/
def mergedS5S3 : List RailWrite :=
  [⟨.ppvarLogicEn, .high, 0⟩,
   ⟨.pp900ApEn, .high, 0⟩,
   ⟨.pp900PcieEn, .high, 2⟩,
   ⟨.pp900UsbEn, .high, 2⟩,
   ⟨.sysRstL, .low, 0⟩,
   ⟨.pp1800PmuEnL, .low, 2⟩,
   ⟨.lpddrPwrEn, .high, 2⟩,
   ⟨.pp1800UsbEnL, .low, 2⟩,
   ⟨.pp3300UsbEnL, .low, 0⟩,
   ⟨.pp5000En, .high, 0⟩,
   ⟨.pp3300TrackpadEnL, .low, 1⟩,
   ⟨.pp1800LidEnL, .low, 0⟩,
   ⟨.pp1800SixaxisEnL, .low, 2⟩,
   ⟨.pp1800SensorEnL, .low, 0⟩]

/-- Resume of both split trees. -/
def splitS3S0 : List RailWrite :=
  [⟨.ppvarClogicEn, .high, 2⟩,
   ⟨.pp900DdrpllEn, .high, 2⟩,
   ⟨.pp1800ApAvddEnL, .low, 2⟩,
   ⟨.apCoreEn, .high, 2⟩,
   ⟨.pp1800S0EnL, .low, 2⟩,
   ⟨.pp3300S0EnL, .low, 0⟩]

/-- Suspend of both split trees. -/
def splitS0S3 : List RailWrite :=
  [⟨.pp3300S0EnL, .high, 20⟩,
   ⟨.pp1800S0EnL, .high, 1⟩,
   ⟨.apCoreEn, .low, 20⟩,
   ⟨.pp1800ApAvddEnL, .high, 1⟩,
   ⟨.pp900DdrpllEn, .low, 1⟩,
   ⟨.ppvarClogicEn, .low, 0⟩]

/-- Power-down of the initial tree. -/
def initialS3S5 : List RailWrite :=
  [⟨.pp1800SensorEnL, .high, 0⟩,
   ⟨.pp1800SixaxisEnL, .high, 0⟩,
   ⟨.pp1800LidEnL, .high, 0⟩,
   ⟨.pp3300TrackpadEnL, .high, 0⟩,
   ⟨.pp5000En, .low, 0⟩,
   ⟨.pp3300UsbEnL, .high, 20⟩,
   ⟨.pp1800UsbEnL, .high, 10⟩,
   ⟨.lpddrPwrEn, .low, 20⟩,
   ⟨.pp1800PmuEnL, .high, 2⟩,
   ⟨.pp900PllEn, .low, 0⟩,
   ⟨.pp900PmuEn, .low, 0⟩,
   ⟨.pp900UsbEn, .low, 6⟩,
   ⟨.pp900PcieEn, .low, 0⟩,
   ⟨.pp900ApEn, .low, 0⟩,
   ⟨.ppvarLogicEn, .low, 0⟩]

/-- Power-down of the tree with merged enables. -/
def mergedS3S5 : List RailWrite :=
  [⟨.pp1800SensorEnL, .high, 0⟩,
   ⟨.pp1800SixaxisEnL, .high, 0⟩,
   ⟨.pp1800LidEnL, .high, 0⟩,
   ⟨.pp3300TrackpadEnL, .high, 0⟩,
   ⟨.pp5000En, .low, 0⟩,
   ⟨.pp3300UsbEnL, .high, 20⟩,
   ⟨.pp1800UsbEnL, .high, 10⟩,
   ⟨.lpddrPwrEn, .low, 20⟩,
   ⟨.pp1800PmuEnL, .high, 2⟩,
   ⟨.pp900UsbEn, .low, 6⟩,
   ⟨.pp900PcieEn, .low, 0⟩,
   ⟨.pp900ApEn, .low, 0⟩,
   ⟨.ppvarLogicEn, .low, 0⟩]

/-- Power-up of the simplified tree, which releases the reset line as it goes. -/
def simplifiedS5S3 : List RailWrite :=
  [⟨.pp900S3En, .high, 2⟩,
   ⟨.sysRstL, .high, 0⟩,
   ⟨.pp3300S3En, .high, 2⟩,
   ⟨.pp1800S3En, .high, 2⟩,
   ⟨.pp1250S3En, .high, 2⟩]

/-- Resume of the simplified tree. -/
def simplifiedS3S0 : List RailWrite :=
  [⟨.pp900S0En, .high, 2⟩,
   ⟨.pp1800UsbEn, .high, 2⟩,
   ⟨.pp3300S0En, .high, 2⟩,
   ⟨.apCoreEn, .high, 2⟩,
   ⟨.pp1800S0En, .high, 0⟩]

/-- Suspend of the simplified tree. -/
def simplifiedS0S3 : List RailWrite :=
  [⟨.pp1800S0En, .low, 1⟩,
   ⟨.apCoreEn, .low, 20⟩,
   ⟨.pp3300S0En, .low, 20⟩,
   ⟨.pp1800UsbEn, .low, 1⟩,
   ⟨.pp900S0En, .low, 1⟩]

/-- Power-down of the simplified tree. -/
def simplifiedS3S5 : List RailWrite :=
  [⟨.pp1250S3En, .low, 2⟩,
   ⟨.pp1800S3En, .low, 2⟩,
   ⟨.pp3300S3En, .low, 2⟩,
   ⟨.pp900S3En, .low, 0⟩]

/-- The tables of a revision. -/
def ofRevision : Revision → EdgeTables
  | .v0 => ⟨initialS5S3, splitS3S0, splitS0S3, initialS3S5⟩
  | .v1 => ⟨mergedS5S3, splitS3S0, splitS0S3, mergedS3S5⟩
  | .v2 => ⟨simplifiedS5S3, simplifiedS3S0, simplifiedS0S3, simplifiedS3S5⟩

end EdgeTables

namespace PowerTree

/-- A split tree: one five volt supply below, and two supplies above that are debounced
because they glitch when the core voltage changes. -/
private def split (revision : Revision) : PowerTree where
  revision := revision
  pgoodS3 := .pp5000Good
  pgoodS0 := (SignalMask.pp5000Good.union .apGood).union .sysGood
  debounce := some (SignalMask.apGood.union .sysGood)
  tables := .ofRevision revision

/-- The power tree of a revision. -/
def ofRevision : Revision → PowerTree
  | .v0 => split .v0
  | .v1 => split .v1
  | .v2 =>
    { revision := .v2
      pgoodS3 := .pp1250S3Good
      pgoodS0 := (SignalMask.pp1250S3Good.union .pp900S0Good).union .apGood
      debounce := none
      tables := .ofRevision .v2 }

end PowerTree

end RailSequencer
