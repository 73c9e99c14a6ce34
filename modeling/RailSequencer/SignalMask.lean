/-!
# Monitored input lines

One bit per line. Bits without a line are kept: a configuration may ask for one, and then it
behaves as a line that the board may or may not assert.
-/

namespace RailSequencer

/-- A set of input lines, as a 32-bit word. -/
structure SignalMask where
  bits : BitVec 32
deriving DecidableEq, Repr

namespace SignalMask

def empty : SignalMask := ⟨0⟩

/-- Five volt supply good, on the split trees. -/
def pp5000Good : SignalMask := ⟨0x01⟩
/-- System supply good, on the split trees. -/
def sysGood : SignalMask := ⟨0x02⟩
/-- Memory supply good, on the simplified tree. -/
def pp1250S3Good : SignalMask := ⟨0x04⟩
/-- Core support supply good, on the simplified tree. -/
def pp900S0Good : SignalMask := ⟨0x08⟩
/-- Processor core supply good. -/
def apGood : SignalMask := ⟨0x10⟩
/-- The processor is not asking to be suspended. -/
def suspendDeasserted : SignalMask := ⟨0x20⟩

def union (left right : SignalMask) : SignalMask := ⟨left.bits ||| right.bits⟩

def inter (left right : SignalMask) : SignalMask := ⟨left.bits &&& right.bits⟩

def diff (left right : SignalMask) : SignalMask := ⟨left.bits &&& ~~~right.bits⟩

/-- Every line of `wanted` is asserted in `lines`. -/
def contains (lines wanted : SignalMask) : Bool := lines.bits &&& wanted.bits == wanted.bits

/-- Some line is in both. -/
def intersects (left right : SignalMask) : Bool := left.inter right != empty

/-- The lines of `wanted` that `lines` does not assert. -/
def missing (wanted lines : SignalMask) : SignalMask := wanted.diff lines

/-- The six lines with their names, lowest bit first. -/
def named : List (SignalMask × String) :=
  [(pp5000Good, "PP5000_PWR_GOOD"), (sysGood, "SYS_PWR_GOOD"),
   (pp1250S3Good, "PP1250_S3_PWR_GOOD"), (pp900S0Good, "PP900_S0_PWR_GOOD"),
   (apGood, "AP_PWR_GOOD"), (suspendDeasserted, "SUSPEND_DEASSERTED")]

/-- All six lines. -/
def allLines : SignalMask := named.foldl (fun known entry => known.union entry.1) empty

/-- A mask without the bits that stand for no line. -/
def known (mask : SignalMask) : SignalMask := mask.inter allLines

/-- No bit outside the six lines is set. -/
def isDefined (mask : SignalMask) : Bool := allLines.contains mask

/-- Names of the lines in a mask, lowest bit first. -/
def names (mask : SignalMask) : List String :=
  (named.filter fun entry => mask.contains entry.1).map Prod.snd

/-- Nothing is missing exactly when every wanted line is asserted. -/
theorem missing_eq_empty_iff (wanted lines : SignalMask) :
    missing wanted lines = empty ↔ lines.contains wanted = true := by
  obtain ⟨wanted⟩ := wanted
  obtain ⟨lines⟩ := lines
  have bitwise : ∀ w l : Bool, (w && !l) = false ↔ (l && w) = w := by decide
  simp [missing, diff, empty, contains, BitVec.eq_of_getElem_eq_iff, bitwise,
    -Bool.and_eq_false_imp, -Bool.and_eq_right_iff_imp]

/-- Lines that are wanted together are asserted together. -/
theorem contains_union_iff (lines first second : SignalMask) :
    lines.contains (first.union second) = true ↔
      lines.contains first = true ∧ lines.contains second = true := by
  obtain ⟨lines⟩ := lines
  obtain ⟨first⟩ := first
  obtain ⟨second⟩ := second
  have bitwise : ∀ l f s : Bool,
      (l && (f || s)) = (f || s) ↔ (l && f) = f ∧ (l && s) = s := by decide
  simp only [contains, union, beq_iff_eq, BitVec.eq_of_getElem_eq_iff, BitVec.getElem_and,
    BitVec.getElem_or, bitwise, forall_and]

end SignalMask

end RailSequencer
