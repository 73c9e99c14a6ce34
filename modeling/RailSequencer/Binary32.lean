/-!
# Single-precision numbers

A number is its 32 bits: a sign, eight bits of exponent and 23 of fraction. Every operation is
the exact result of its operands, rounded once to the nearest number, and of two numbers that
are equally near to the one whose last bit is zero. So one function rounds (`magnitudeOf`), and
the operations differ only in the exact quotient that they hand to it.
-/

namespace RailSequencer

/-- A single-precision number, as its bits. -/
structure Binary32 where
  bits : UInt32
deriving DecidableEq, Repr

namespace Binary32

/-- The weight of the sign bit. -/
def signWeight : Nat := 1 <<< 31

/-- The number of fractions, which is also the least significand with a leading one. -/
def fractions : Nat := 1 <<< 23

/-- The magnitude bits of infinity; larger ones stand for no number. -/
def infinity : Nat := 255 * fractions

def isNegative (x : Binary32) : Bool := signWeight ≤ x.bits.toNat

/-- The bits below the sign. Magnitudes are ordered as the numbers are. -/
def magnitude (x : Binary32) : Nat := x.bits.toNat % signWeight

def isNaN (x : Binary32) : Bool := infinity < x.magnitude

def isInfinite (x : Binary32) : Bool := x.magnitude = infinity

/-- A finite magnitude is `significand * 2 ^ exponent`. -/
def significand (x : Binary32) : Nat :=
  let fraction := x.magnitude % fractions
  if x.magnitude < fractions then fraction else fraction + fractions

/-- The exponent of the last place. The smallest numbers share that of the ones above them. -/
def exponent (x : Binary32) : Int := max (x.magnitude / fractions : Nat) 1 - 150

def ofParts (negative : Bool) (magnitude : Nat) : Binary32 :=
  ⟨UInt32.ofNat (magnitude + if negative then signWeight else 0)⟩

def nan : Binary32 := ofParts false (infinity + fractions / 2)

/-- The quotient to the nearest integer, a half to the even one. -/
def roundQuotient (numerator denominator : Nat) : Nat :=
  let quotient := numerator / denominator
  let rest := numerator % denominator
  if 2 * rest < denominator then quotient
  else if denominator < 2 * rest then quotient + 1
  else quotient + quotient % 2

/-- The quotient in units of `2 ^ scale`, as a numerator and a denominator. -/
def inUnits (numerator denominator : Nat) : (scale : Int) → Nat × Nat
  | .ofNat scale => (numerator, denominator <<< scale)
  | .negSucc scale => (numerator <<< (scale + 1), denominator)

/-- The exponent of the last place of a positive quotient: such that 24 binary digits remain,
but never below that of the smallest numbers. -/
def lastPlace (numerator denominator : Nat) : Int :=
  let guess : Int := (numerator.log2 : Int) - denominator.log2 - 24
  let (scaled, unit) := inUnits numerator denominator guess
  max (if unit <<< 24 ≤ scaled then guess + 1 else guess) (-149)

/-- The magnitude bits nearest to a quotient. A significand that rounds up to 25 digits
carries into the exponent by itself, and one that is too large becomes infinite. -/
def magnitudeOf (numerator denominator : Nat) : Nat :=
  if numerator = 0 then 0
  else
    let place := lastPlace numerator denominator
    let (scaled, unit) := inUnits numerator denominator place
    min ((place + 149).toNat * fractions + roundQuotient scaled unit) infinity

/-- The number nearest to `numerator / denominator * 2 ^ scale`, with a given sign. -/
def nearest (negative : Bool) (numerator denominator : Nat) (scale : Int) : Binary32 :=
  let (scaled, unit) := inUnits numerator denominator (-scale)
  ofParts negative (magnitudeOf scaled unit)

/-- The number nearest to a quotient of naturals. -/
def ofQuotient (numerator denominator : Nat) : Binary32 := nearest false numerator denominator 0

instance : NatCast Binary32 := ⟨fun value => ofQuotient value 1⟩

/-- The finite value in units of `2 ^ scale`, for a scale not above its last place. -/
def signedUnits (x : Binary32) (scale : Int) : Int :=
  let units : Int := (x.significand <<< (x.exponent - scale).toNat : Nat)
  if x.isNegative then -units else units

/-- Sums are exact in units of the finer last place. An exact zero is positive unless both
operands are negative. -/
protected def add (x y : Binary32) : Binary32 :=
  if x.isNaN || y.isNaN then nan
  else if x.isInfinite then
    if y.isInfinite && x.isNegative != y.isNegative then nan else x
  else if y.isInfinite then y
  else
    let scale := min x.exponent y.exponent
    let sum := x.signedUnits scale + y.signedUnits scale
    if sum = 0 then ofParts (x.isNegative && y.isNegative) 0
    else nearest (sum < 0) sum.natAbs 1 scale

protected def neg (x : Binary32) : Binary32 := ofParts (!x.isNegative) x.magnitude

protected def sub (x y : Binary32) : Binary32 := x.add y.neg

protected def mul (x y : Binary32) : Binary32 :=
  let negative := x.isNegative != y.isNegative
  if x.isNaN || y.isNaN then nan
  else if x.isInfinite || y.isInfinite then
    if x.magnitude = 0 || y.magnitude = 0 then nan else ofParts negative infinity
  else nearest negative (x.significand * y.significand) 1 (x.exponent + y.exponent)

protected def div (x y : Binary32) : Binary32 :=
  let negative := x.isNegative != y.isNegative
  if x.isNaN || y.isNaN then nan
  else if x.isInfinite then
    if y.isInfinite then nan else ofParts negative infinity
  else if y.isInfinite then ofParts negative 0
  else if y.magnitude = 0 then
    if x.magnitude = 0 then nan else ofParts negative infinity
  else nearest negative x.significand y.significand (x.exponent - y.exponent)

instance : Add Binary32 := ⟨Binary32.add⟩
instance : Sub Binary32 := ⟨Binary32.sub⟩
instance : Mul Binary32 := ⟨Binary32.mul⟩
instance : Div Binary32 := ⟨Binary32.div⟩

/-- The magnitude with its sign, ordered as the numbers are; both zeros are zero. -/
def orderKey (x : Binary32) : Int :=
  if x.isNegative then -(x.magnitude : Int) else x.magnitude

/-- Strictly less. Nothing is less than what is no number, nor the other way round. -/
def lt (x y : Binary32) : Bool := !x.isNaN && !y.isNaN && x.orderKey < y.orderKey

/-- The integer part of a number, cut to the range from zero to `most`. What is no number
gives zero. -/
def truncate (x : Binary32) (most : Nat) : Nat :=
  if x.isNaN || x.isNegative then 0
  else if x.isInfinite then most
  else
    let (scaled, unit) := inUnits x.significand 1 (-x.exponent)
    min (scaled / unit) most

end Binary32

end RailSequencer
