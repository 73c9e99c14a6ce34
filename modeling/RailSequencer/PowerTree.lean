import RailSequencer.Rail.Assignment
import RailSequencer.SignalMask

/-!
# Power trees

A power tree says in which order the rails of a board are written on each of the four edges
between suspend and its neighbours, and which input lines show that the supplies are up.
Later rails may depend on earlier ones having settled, so a table is a list and its order
is part of its meaning.
-/

namespace RailSequencer

/-- One entry of a table: drive `rail` to `level`, then give it `settleMs` milliseconds. -/
structure RailWrite where
  rail : Rail
  level : Level
  settleMs : UInt8
deriving DecidableEq, Repr

/-- The tables of the four edges, each named for the transition that replays it. -/
structure EdgeTables where
  s5s3 : List RailWrite
  s3s0 : List RailWrite
  s0s3 : List RailWrite
  s3s5 : List RailWrite
deriving DecidableEq, Repr

/-- Board revisions, in the order in which they were made. -/
inductive Revision where
  | v0
  | v1
  | v2
deriving DecidableEq, Repr

namespace Revision

def all : List Revision := [.v0, .v1, .v2]

def name : Revision → String
  | .v0 => "V0"
  | .v1 => "V1"
  | .v2 => "V2"

/-- The revision with a stored number, if there is one. -/
def ofNumber? (number : Nat) : Option Revision := all[number]?

end Revision

namespace RailAssignment

/-- The levels after a table has been written: each rail has the level last written to it. -/
def writeAll (levels : RailAssignment Level) (table : List RailWrite) : RailAssignment Level :=
  table.foldl (fun current write => current.set write.rail write.level) levels

end RailAssignment

namespace EdgeTables

/-- Every entry of the four tables. -/
def writes (tables : EdgeTables) : List RailWrite :=
  tables.s5s3 ++ tables.s3s0 ++ tables.s0s3 ++ tables.s3s5

/-- The level on which each rail settles: with the processor running when `powered`, and
hard off otherwise. Rails that no table writes rest low; the reset line is released exactly
when powered. -/
def restingLevels (tables : EdgeTables) (powered : Bool) : RailAssignment Level :=
  let edges := if powered then tables.s5s3 ++ tables.s3s0 else tables.s0s3 ++ tables.s3s5
  ((RailAssignment.constant .low).writeAll edges).set .sysRstL (.ofBool powered)

/-- Every rail that can be driven is wired: those of the tables, and the reset line, which
is driven whatever the tables say. -/
def drivesOnly (tables : EdgeTables) (wired : List Rail) : Bool :=
  wired.contains .sysRstL && tables.writes.all fun write => wired.contains write.rail

end EdgeTables

/-- All that differs between boards. It is chosen once and never changes while the
sequencer runs. -/
structure PowerTree where
  revision : Revision
  /-- Lines that must be asserted in S3. -/
  pgoodS3 : SignalMask
  /-- Lines that must be asserted in S0. -/
  pgoodS0 : SignalMask
  /-- Lines that may glitch in S0 and get a window to come back; `none` gives no window. -/
  debounce : Option SignalMask
  tables : EdgeTables
deriving DecidableEq, Repr

/-- Every input of a running processor: its supplies, and no wish to suspend. -/
def PowerTree.allS0 (tree : PowerTree) : SignalMask := tree.pgoodS0.union .suspendDeasserted

end RailSequencer
