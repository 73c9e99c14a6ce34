import Mathlib.Tactic.Ring
import RailSequencer.Binary32

/-!
# How quotients are rounded

A quotient that lies between two neighbouring powers of two has a known last place, and its nearest
number is one rounding to an integer away (`Keeps.magnitudeOf_eq`). `Reads` is what such a number shows
of itself: its digits, and how many of them stand behind the point. Rounding may carry into the next
power of two, where the number shows one digit less behind the point; its integer part does not notice
(`Keeps.truncate`).
-/

namespace RailSequencer.Binary32

theorem inUnits_neg (numerator denominator places : Nat) :
    inUnits numerator denominator (-(places : Int)) = (numerator * 2 ^ places, denominator) := by
  cases places with
  | zero => simp [inUnits]
  | succ places =>
    rw [← Nat.shiftLeft_eq]
    rfl

theorem inUnits_natCast (numerator denominator places : Nat) :
    inUnits numerator denominator (places : Int) = (numerator, denominator * 2 ^ places) := by
  rw [← Nat.shiftLeft_eq]
  rfl

/-- A common factor does not matter. -/
theorem roundQuotient_mul_left {factor : Nat} (positive : 0 < factor) (numerator denominator : Nat) :
    roundQuotient (factor * numerator) (factor * denominator) =
      roundQuotient numerator denominator := by
  have twice (n : Nat) : 2 * (factor * n) = factor * (2 * n) := Nat.mul_left_comm 2 factor n
  simp only [roundQuotient, Nat.mul_div_mul_left _ _ positive, Nat.mul_mod_mul_left, twice,
    Nat.mul_lt_mul_left positive]

theorem div_le_roundQuotient (numerator denominator : Nat) :
    numerator / denominator ≤ roundQuotient numerator denominator := by
  simp only [roundQuotient]
  split
  · exact Nat.le_refl _
  · split
    · exact Nat.le_succ _
    · exact Nat.le_add_right _ _

theorem roundQuotient_one (numerator : Nat) : roundQuotient numerator 1 = numerator := by
  simp [roundQuotient, Nat.mod_one]

/-- What a positive number shows: `digits` in all, and `places` of them behind the point. -/
structure Reads (x : Binary32) (digits places : Nat) : Prop where
  positive : x.magnitude ≠ 0
  isNegative : x.isNegative = false
  isNaN : x.isNaN = false
  isInfinite : x.isInfinite = false
  significand : x.significand = digits
  exponent : x.exponent = -(places : Int)

theorem reads_ofParts {digits places : Nat} (low : fractions ≤ digits)
    (high : digits < 2 * fractions) (few : places ≤ 149) :
    (ofParts false ((149 - places) * fractions + digits)).Reads digits places := by
  have unit : fractions = 8388608 := by decide
  have weight : signWeight = 2147483648 := by decide
  have most : infinity = 2139095040 := by decide
  obtain ⟨value, whole⟩ : ∃ value, value = (149 - places) * fractions + digits := ⟨_, rfl⟩
  rw [← whole]
  rw [unit] at low high whole
  have bits : (ofParts false value).bits.toNat = value := by
    simp only [ofParts, Bool.false_eq_true, if_false, Nat.add_zero, UInt32.toNat_ofNat']
    omega
  have magnitude : (ofParts false value).magnitude = value := by
    rw [Binary32.magnitude, bits, weight]
    omega
  refine ⟨?_, ?_, ?_, ?_, ?_, ?_⟩
  · omega
  · rw [isNegative, bits, weight, decide_eq_false_iff_not]
    omega
  · rw [isNaN, magnitude, most, decide_eq_false_iff_not]
    omega
  · rw [isInfinite, magnitude, most, decide_eq_false_iff_not]
    omega
  · simp only [significand, magnitude, unit]
    rw [if_neg (by omega)]
    omega
  · rw [exponent, magnitude, unit]
    omega

/-- A quotient that keeps 24 digits when it is cut behind its `places`-th binary place. -/
structure Keeps (numerator denominator places : Nat) : Prop where
  low : denominator * 2 ^ 23 ≤ numerator * 2 ^ places
  high : numerator * 2 ^ places < denominator * 2 ^ 24
  few : places ≤ 149

namespace Keeps

variable {numerator denominator places : Nat}

theorem denominator_pos (keeps : Keeps numerator denominator places) : 0 < denominator := by
  apply Nat.pos_of_ne_zero
  rintro rfl
  have high := keeps.high
  rw [Nat.zero_mul] at high
  exact Nat.not_lt_zero _ high

theorem numerator_pos (keeps : Keeps numerator denominator places) : 0 < numerator := by
  apply Nat.pos_of_ne_zero
  rintro rfl
  have low := keeps.low
  rw [Nat.zero_mul, Nat.le_zero] at low
  exact absurd low (Nat.mul_ne_zero keeps.denominator_pos.ne' (by decide))

theorem mul_left {factor : Nat} (positive : 0 < factor) (keeps : Keeps numerator denominator places) :
    Keeps (factor * numerator) (factor * denominator) places where
  low := by
    rw [Nat.mul_assoc, Nat.mul_assoc]
    exact Nat.mul_le_mul_left factor keeps.low
  high := by
    rw [Nat.mul_assoc, Nat.mul_assoc]
    exact Nat.mul_lt_mul_of_pos_left keeps.high positive
  few := keeps.few

/-- The lengths of the numerator and the denominator leave two last places to choose from. -/
private theorem log2_add_le (keeps : Keeps numerator denominator places) :
    denominator.log2 + 23 ≤ numerator.log2 + places ∧
      numerator.log2 + places ≤ denominator.log2 + 24 := by
  have shorter {n m : Nat} : 2 ^ n < 2 ^ m → n < m := (Nat.pow_lt_pow_iff_right Nat.one_lt_two).mp
  have below : 2 ^ (denominator.log2 + 23) < 2 ^ (numerator.log2 + 1 + places) := calc
    2 ^ (denominator.log2 + 23) = 2 ^ denominator.log2 * 2 ^ 23 := Nat.pow_add ..
    _ ≤ denominator * 2 ^ 23 :=
      Nat.mul_le_mul_right _ (Nat.log2_self_le keeps.denominator_pos.ne')
    _ ≤ numerator * 2 ^ places := keeps.low
    _ < 2 ^ (numerator.log2 + 1) * 2 ^ places :=
      Nat.mul_lt_mul_of_pos_right Nat.lt_log2_self (Nat.two_pow_pos _)
    _ = 2 ^ (numerator.log2 + 1 + places) := (Nat.pow_add ..).symm
  have above : 2 ^ (numerator.log2 + places) < 2 ^ (denominator.log2 + 1 + 24) := calc
    2 ^ (numerator.log2 + places) = 2 ^ numerator.log2 * 2 ^ places := Nat.pow_add ..
    _ ≤ numerator * 2 ^ places := Nat.mul_le_mul_right _ (Nat.log2_self_le keeps.numerator_pos.ne')
    _ < denominator * 2 ^ 24 := keeps.high
    _ ≤ 2 ^ (denominator.log2 + 1) * 2 ^ 24 := Nat.mul_le_mul_right _ Nat.lt_log2_self.le
    _ = 2 ^ (denominator.log2 + 1 + 24) := (Nat.pow_add ..).symm
  have floor := shorter below
  have ceiling := shorter above
  omega

/-- The last place is the one that leaves 24 digits. -/
theorem lastPlace_eq (keeps : Keeps numerator denominator places) :
    lastPlace numerator denominator = -(places : Int) := by
  obtain ⟨least, most⟩ := keeps.log2_add_le
  have few := keeps.few
  have guesses : (numerator.log2 : Int) - denominator.log2 - 24 = -(places : Int) ∨
      (numerator.log2 : Int) - denominator.log2 - 24 = -((places + 1 : Nat) : Int) := by omega
  rcases guesses with right | short
  · have enough : ¬denominator <<< 24 ≤ numerator * 2 ^ places := by
      rw [Nat.shiftLeft_eq]
      exact Nat.not_le.mpr keeps.high
    simp only [lastPlace, right, inUnits_neg, if_neg enough]
    omega
  · have room : denominator <<< 24 ≤ numerator * 2 ^ (places + 1) := by
      rw [Nat.shiftLeft_eq, Nat.pow_succ 2 23, Nat.pow_succ 2 places, ← Nat.mul_assoc,
        ← Nat.mul_assoc]
      exact Nat.mul_le_mul_right 2 keeps.low
    simp only [lastPlace, short, inUnits_neg, if_pos room]
    omega

/-- All of the 24 digits count, so the first of them is not zero. -/
theorem fractions_le (keeps : Keeps numerator denominator places) :
    fractions ≤ roundQuotient (numerator * 2 ^ places) denominator := by
  have unit : fractions = 2 ^ 23 := by decide
  rw [unit]
  refine Nat.le_trans ?_ (div_le_roundQuotient _ _)
  rw [Nat.le_div_iff_mul_le keeps.denominator_pos, Nat.mul_comm]
  exact keeps.low

/-- Rounding carries into the next power of two, but not beyond. -/
theorem le_fractions (keeps : Keeps numerator denominator places) :
    roundQuotient (numerator * 2 ^ places) denominator ≤ 2 * fractions := by
  have unit : 2 * fractions = 2 ^ 24 := by decide
  have below : numerator * 2 ^ places / denominator < 2 ^ 24 := by
    rw [Nat.div_lt_iff_lt_mul keeps.denominator_pos, Nat.mul_comm (2 ^ 24)]
    exact keeps.high
  rw [unit]
  simp only [roundQuotient]
  split
  · omega
  · split <;> omega

/-- What is behind the 24 digits is rounded. -/
theorem magnitudeOf_eq (keeps : Keeps numerator denominator places) :
    magnitudeOf numerator denominator =
      (149 - places) * fractions + roundQuotient (numerator * 2 ^ places) denominator := by
  have unit : fractions = 8388608 := by decide
  have most : infinity = 2139095040 := by decide
  have above : (-(places : Int) + 149).toNat = 149 - places := by
    have few := keeps.few
    omega
  have short := keeps.le_fractions
  simp only [magnitudeOf, if_neg keeps.numerator_pos.ne', keeps.lastPlace_eq, inUnits_neg, above]
  rw [unit] at short
  rw [unit, most]
  omega

variable {scale : Int} {above below factor : Nat}

theorem nearest_eq (keeps : Keeps numerator denominator places) (positive : 0 < factor)
    (scaled : inUnits above below (-scale) = (factor * numerator, factor * denominator)) :
    nearest false above below scale = ofParts false
      ((149 - places) * fractions + roundQuotient (numerator * 2 ^ places) denominator) := by
  simp only [nearest, scaled, (keeps.mul_left positive).magnitudeOf_eq, Nat.mul_assoc,
    roundQuotient_mul_left positive]

/-- What the number nearest to a quotient shows, if nothing is carried. -/
theorem reads (keeps : Keeps numerator denominator places) (positive : 0 < factor)
    (scaled : inUnits above below (-scale) = (factor * numerator, factor * denominator))
    (short : roundQuotient (numerator * 2 ^ places) denominator < 2 * fractions) :
    (nearest false above below scale).Reads
      (roundQuotient (numerator * 2 ^ places) denominator) places := by
  rw [keeps.nearest_eq positive scaled]
  exact reads_ofParts keeps.fractions_le short keeps.few

end Keeps

theorem Reads.truncate {x : Binary32} {digits places : Nat} (reads : x.Reads digits places)
    (most : Nat) : x.truncate most = min (digits / 2 ^ places) most := by
  simp only [Binary32.truncate, reads.isNaN, reads.isNegative, reads.isInfinite, reads.significand,
    reads.exponent, neg_neg, inUnits_natCast, Nat.one_mul, Bool.or_self, Bool.false_eq_true, if_false]

/-- The integer part of the number nearest to a quotient, also if rounding carries. -/
theorem Keeps.truncate {numerator denominator places : Nat} {scale : Int} {above below factor : Nat}
    (keeps : Keeps numerator denominator (places + 1)) (positive : 0 < factor)
    (scaled : inUnits above below (-scale) = (factor * numerator, factor * denominator))
    (most : Nat) :
    (nearest false above below scale).truncate most =
      min (roundQuotient (numerator * 2 ^ (places + 1)) denominator / 2 ^ (places + 1)) most := by
  rcases Nat.lt_or_eq_of_le keeps.le_fractions with short | carried
  · exact (keeps.reads positive scaled short).truncate most
  · have next : (149 - (places + 1)) * fractions + 2 * fractions =
        (149 - places) * fractions + fractions := by
      have few := keeps.few
      rw [show 149 - places = 149 - (places + 1) + 1 by omega]
      ring
    have reads := reads_ofParts (Nat.le_refl fractions) (by decide)
      (Nat.le_of_succ_le keeps.few)
    rw [keeps.nearest_eq positive scaled, carried, next, reads.truncate, Nat.pow_succ,
      Nat.mul_comm (2 ^ places), Nat.mul_div_mul_left _ _ Nat.two_pos]

theorem inUnits_sub (numerator denominator more fewer : Nat) :
    inUnits (numerator * 2 ^ more) (denominator * 2 ^ fewer) ((more : Int) - fewer) =
      (2 ^ max more fewer * numerator, 2 ^ max more fewer * denominator) := by
  rcases Nat.le_total fewer more with enough | short
  · have places : (more : Int) - fewer = (more - fewer : Nat) := by omega
    rw [places, inUnits_natCast, Nat.max_eq_left enough, Nat.mul_assoc, ← Nat.pow_add,
      Nat.add_sub_cancel' enough, Nat.mul_comm, Nat.mul_comm denominator]
  · have places : (more : Int) - fewer = -((fewer - more : Nat) : Int) := by omega
    rw [places, inUnits_neg, Nat.max_eq_right short, Nat.mul_assoc, ← Nat.pow_add,
      Nat.add_sub_cancel' short, Nat.mul_comm, Nat.mul_comm denominator]

/-- A natural of up to 24 digits is a number as it is. -/
theorem reads_natCast {value places : Nat} (low : 2 ^ 23 ≤ value * 2 ^ places)
    (high : value * 2 ^ places < 2 ^ 24) (few : places ≤ 149) :
    (value : Binary32).Reads (value * 2 ^ places) places := by
  have keeps : Keeps value 1 places := ⟨by omega, by omega, few⟩
  have reads := @keeps.reads _ _ _ 0 value 1 1 Nat.one_pos
    (by rw [Nat.one_mul]; rfl) (by rw [roundQuotient_one]; exact high)
  rw [roundQuotient_one] at reads
  exact reads

namespace Reads

variable {x y : Binary32} {numerator denominator digits more fewer places : Nat}

/-- The quotient of two naturals is rounded once. -/
theorem div (dividend : x.Reads (numerator * 2 ^ more) more)
    (divisor : y.Reads (denominator * 2 ^ fewer) fewer)
    (keeps : Keeps numerator denominator places)
    (short : roundQuotient (numerator * 2 ^ places) denominator < 2 * fractions) :
    (x / y).Reads (roundQuotient (numerator * 2 ^ places) denominator) places := by
  have exact : x / y = nearest false (numerator * 2 ^ more) (denominator * 2 ^ fewer)
      (-(more : Int) - -(fewer : Int)) := by
    change Binary32.div x y = _
    simp only [Binary32.div, dividend.isNaN, divisor.isNaN, dividend.isInfinite, divisor.isInfinite,
      divisor.positive, dividend.isNegative, divisor.isNegative, dividend.significand,
      divisor.significand, dividend.exponent, divisor.exponent, Bool.or_self, bne_self_eq_false,
      Bool.false_eq_true, if_false]
  have scaled := inUnits_sub numerator denominator more fewer
  rw [show (more : Int) - fewer = -(-(more : Int) - -(fewer : Int)) by omega] at scaled
  rw [exact]
  exact keeps.reads (Nat.two_pow_pos _) scaled short

/-- The integer part of a product of a natural and a number is rounded once, and then cut. -/
theorem truncate_mul (natural : x.Reads (numerator * 2 ^ more) more) (number : y.Reads digits fewer)
    (keeps : Keeps (numerator * digits) (2 ^ fewer) (places + 1)) (most : Nat) :
    (x * y).truncate most =
      min (roundQuotient (numerator * digits * 2 ^ (places + 1)) (2 ^ fewer) / 2 ^ (places + 1))
        most := by
  have exact : x * y = nearest false (numerator * 2 ^ more * digits) 1
      (-(more : Int) + -(fewer : Int)) := by
    change Binary32.mul x y = _
    simp only [Binary32.mul, natural.isNaN, number.isNaN, natural.isInfinite, number.isInfinite,
      natural.isNegative, number.isNegative, natural.significand, number.significand,
      natural.exponent, number.exponent, Bool.or_self, bne_self_eq_false, Bool.false_eq_true,
      if_false]
  have scaled : inUnits (numerator * 2 ^ more * digits) 1 (-(-(more : Int) + -(fewer : Int))) =
      (2 ^ more * (numerator * digits), 2 ^ more * 2 ^ fewer) := by
    rw [show -(-(more : Int) + -(fewer : Int)) = (more + fewer : Nat) by omega, inUnits_natCast,
      Nat.one_mul, Nat.pow_add, Nat.mul_comm numerator, Nat.mul_assoc]
  rw [exact]
  exact keeps.truncate (Nat.two_pow_pos _) scaled most

end Reads

end RailSequencer.Binary32
