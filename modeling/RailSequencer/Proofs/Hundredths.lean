import RailSequencer.Controller.Ram
import RailSequencer.Proofs.Rounding

/-!
# Hundredths of a volt

The host writes a voltage in hundredths of a volt. It is kept as a quotient, rounded once, and read back
as the integer part of a product, which is rounded once more. The two roundings meet where the
product falls short of the number that was written: there it is read back as one less
(`wholeHundredths_hundredths`), and everywhere else as it was.

A number of hundredths fits 16 bits, so it ends in eight zeros when it is written with the 24 digits of
a single-precision number (`Digits`). Its hundredth has six or seven binary places more.
-/

namespace RailSequencer.Controller

open Binary32

/-- The voltage that is so many hundredths of a volt. -/
def hundredths (word : Nat) : Binary32 := (word : Binary32) / ((100 : Nat) : Binary32)

/-- The hundredths of a volt in a voltage, as they are read back. -/
def wholeHundredths (volts : Binary32) : Nat := (((100 : Nat) : Binary32) * volts).truncate 65535

/-- The 24 binary digits of a number of hundredths. -/
def digitsOf (word : Nat) : Nat := word * 2 ^ (23 - word.log2)

/-- A hundredth is rounded down, and so far that a hundred of them are rounded down, too. -/
def FallsShort (word : Nat) : Prop :=
  25 * 2 ^ 19 ≤ digitsOf word ∧
    32 < digitsOf word * 2 ^ 6 % 100 ∧ digitsOf word * 2 ^ 6 % 100 < 50

instance (word : Nat) : Decidable (FallsShort word) := inferInstanceAs (Decidable (_ ∧ _))

/-- A hundred times the hundredth of so many units is off by what has been rounded. -/
private theorem hundred_roundQuotient {units : Nat} (even : units % 4 = 0) :
    units % 100 < 50 ∧ 100 * roundQuotient units 100 + units % 100 = units ∨
      50 < units % 100 ∧ 100 * roundQuotient units 100 + units % 100 = units + 100 := by
  simp only [roundQuotient]
  split
  · omega
  · split <;> omega

/-- To the nearest multiple of 64: a number that is less by more than 32 comes down to the one
before. -/
private theorem roundQuotient_sixtyFour {product digits : Nat} (even : digits % 2 = 0) :
    (64 * digits < product + 64 → product + 32 < 64 * digits →
      roundQuotient product 64 + 1 = digits) ∧
    (64 * digits ≤ product + 32 → product < 64 * digits + 64 →
      digits ≤ roundQuotient product 64 ∧ roundQuotient product 64 ≤ digits + 1) := by
  simp only [roundQuotient]
  split
  · omega
  · split <;> omega

/-- To the nearest multiple of 128. -/
private theorem roundQuotient_double {product digits : Nat} (least : 128 * digits < product + 64)
    (most : product < 128 * digits + 64) : roundQuotient product 128 = digits := by
  simp only [roundQuotient]
  split
  · omega
  · split <;> omega

private theorem reads_hundred : ((100 : Nat) : Binary32).Reads (100 * 2 ^ 17) 17 :=
  reads_natCast (by decide) (by decide) (by decide)

/-- What is read back are the digits of the product, rounded once more, that stand before the point. -/
private theorem wholeHundredths_eq {volts : Binary32} {digits places finer : Nat}
    (reads : volts.Reads digits (places + 1 + finer)) (few : places + 1 ≤ 149)
    (least : 2 ^ finer * 2 ^ 23 ≤ 100 * digits) (most : 100 * digits < 2 ^ finer * 2 ^ 24) :
    wholeHundredths volts =
      min (roundQuotient (100 * digits) (2 ^ finer) / 2 ^ (places + 1)) 65535 := by
  have unit : 2 ^ (places + 1 + finer) = 2 ^ (places + 1) * 2 ^ finer := Nat.pow_add ..
  have some : 0 < 2 ^ (places + 1) := Nat.two_pow_pos _
  have keeps : Keeps (100 * digits) (2 ^ (places + 1 + finer)) (places + 1) := by
    rw [unit]
    refine ⟨?_, ?_, few⟩
    · rw [Nat.mul_comm (100 * digits), Nat.mul_assoc]
      exact Nat.mul_le_mul_left _ least
    · rw [Nat.mul_comm (100 * digits), Nat.mul_assoc]
      exact Nat.mul_lt_mul_of_pos_left most some
  rw [wholeHundredths, reads_hundred.truncate_mul reads keeps, unit, Nat.mul_comm (100 * digits),
    roundQuotient_mul_left some]

/-- The digits of a word fill 24 places, of which eight at least are behind the point. -/
private structure Digits (word places digits : Nat) : Prop where
  fits : word < 65536
  whole : word * 2 ^ (places + 8) = digits
  low : 2 ^ 23 ≤ digits
  high : digits < 2 ^ 24
  few : places ≤ 15

private theorem digits_digitsOf {word : Nat} (some : word ≠ 0) (fits : word < 65536) :
    ∃ places, Digits word places (digitsOf word) := by
  have long : word.log2 < 16 := (Nat.log2_lt some).mpr fits
  have count : 23 - word.log2 = 15 - word.log2 + 8 := by omega
  refine ⟨15 - word.log2, fits, by rw [digitsOf, count], ?_, ?_, Nat.sub_le _ _⟩
  · calc
      2 ^ 23 = 2 ^ word.log2 * 2 ^ (23 - word.log2) := by
        rw [← Nat.pow_add, Nat.add_sub_cancel' (by omega)]
      _ ≤ digitsOf word := Nat.mul_le_mul_right _ (Nat.log2_self_le some)
  · calc
      digitsOf word < 2 ^ (word.log2 + 1) * 2 ^ (23 - word.log2) :=
        Nat.mul_lt_mul_of_pos_right Nat.lt_log2_self (Nat.two_pow_pos _)
      _ = 2 ^ 24 := by
        rw [← Nat.pow_add]
        congr 1
        omega

namespace Digits

variable {word places digits finer quotient : Nat}

private theorem zeros (fill : Digits word places digits) : digits % 256 = 0 := by
  rw [← fill.whole, Nat.pow_add, ← Nat.mul_assoc]
  exact Nat.mul_mod_left _ _

/-- What comes close from above has the word before the point. -/
private theorem cut {near : Nat} (fill : Digits word places digits) (least : digits ≤ near)
    (most : near < digits + 256) : min (near / 2 ^ (places + 8)) 65535 = word := by
  have unit : 2 ^ 8 ≤ 2 ^ (places + 8) :=
    Nat.pow_le_pow_right Nat.two_pos (Nat.le_add_left 8 places)
  have exact : near / 2 ^ (places + 8) = word := by
    rw [← fill.whole] at least most
    refine Nat.div_eq_of_lt_le least ?_
    rw [Nat.succ_mul]
    omega
  have fits := fill.fits
  omega

/-- What is one less has one less before the point. -/
private theorem cut_less {near : Nat} (fill : Digits word places digits) (less : near + 1 = digits) :
    min (near / 2 ^ (places + 8)) 65535 = word - 1 := by
  have some : 0 < word := by
    apply Nat.pos_of_ne_zero
    rintro rfl
    have whole := fill.whole
    omega
  obtain ⟨before, rfl⟩ := Nat.exists_eq_add_one.mpr some
  have unit := Nat.two_pow_pos (places + 8)
  have exact : near / 2 ^ (places + 8) = before := by
    have whole := fill.whole
    rw [Nat.succ_mul] at whole
    refine Nat.div_eq_of_lt_le ?_ ?_
    · omega
    · rw [Nat.succ_mul]
      omega
  have fits := fill.fits
  omega

/-- A hundredth of the word has the digits of the word, a hundredth of them, and more places. -/
private theorem reads (fill : Digits word places digits) (few : finer ≤ 7)
    (least : 100 * 2 ^ 23 ≤ digits * 2 ^ finer) (most : digits * 2 ^ finer < 100 * 2 ^ 24 - 100) :
    (hundredths word).Reads (roundQuotient (digits * 2 ^ finer) 100) (places + 8 + finer) := by
  obtain ⟨-, rfl, low, high, short⟩ := fill
  have whole : word * 2 ^ (places + 8) * 2 ^ finer = word * 2 ^ (places + 8 + finer) := by
    rw [Nat.mul_assoc, Nat.pow_add _ _ finer]
  have uncarried : roundQuotient (word * 2 ^ (places + 8) * 2 ^ finer) 100 < 2 * fractions := by
    have unit : 2 * fractions = 2 ^ 24 := by decide
    rw [unit]
    simp only [roundQuotient]
    split
    · omega
    · split <;> omega
  rw [whole] at least most uncarried ⊢
  have natural : (word : Binary32).Reads (word * 2 ^ (places + 8)) (places + 8) :=
    reads_natCast low high (by omega)
  exact natural.div reads_hundred ⟨least, by omega, by omega⟩ uncarried

/-- Where the hundredth needs seven places more, the product is exact. -/
private theorem flat (fill : Digits word places digits) (least : digits < 25 * 2 ^ 19) :
    wholeHundredths (hundredths word) = word := by
  have zeros := fill.zeros
  have ⟨_, _, low, high, few⟩ := fill
  have reads : (hundredths word).Reads (roundQuotient (digits * 2 ^ 7) 100) (places + 8 + 7) :=
    fill.reads (by decide) (by omega) (by omega)
  have rounded := @hundred_roundQuotient (digits * 2 ^ 7) (by omega)
  generalize roundQuotient (digits * 2 ^ 7) 100 = quotient at reads rounded
  rcases Nat.lt_or_ge (100 * quotient) (2 ^ 30) with below | above
  · -- Only the product of a power of two is below that power, and then has a place more itself.
    have power : digits = 2 ^ 23 := by omega
    have hundredth : quotient = 10737418 := by omega
    have twice : roundQuotient (100 * quotient) (2 ^ 6) = 2 * digits := by
      rw [power, hundredth]
      decide
    have finer : (hundredths word).Reads quotient (places + 8 + 1 + 6) := reads
    rw [wholeHundredths_eq finer (by omega) (by omega) (by omega), twice, Nat.pow_succ,
      Nat.mul_comm _ 2, Nat.mul_div_mul_left _ _ Nat.two_pos]
    exact fill.cut (Nat.le_refl _) (by omega)
  · have nearest : roundQuotient (100 * quotient) (2 ^ 7) = digits :=
      roundQuotient_double (by omega) (by omega)
    rw [wholeHundredths_eq reads (by omega) (by omega) (by omega), nearest]
    exact fill.cut (Nat.le_refl _) (by omega)

/-- Where it needs six places more, the product may be one digit off. -/
private theorem steep (fill : Digits word places digits) (least : 25 * 2 ^ 19 ≤ digits) :
    wholeHundredths (hundredths word) =
      if 32 < digits * 2 ^ 6 % 100 ∧ digits * 2 ^ 6 % 100 < 50 then word - 1 else word := by
  have zeros := fill.zeros
  have ⟨_, _, low, high, few⟩ := fill
  have reads : (hundredths word).Reads (roundQuotient (digits * 2 ^ 6) 100) (places + 8 + 6) :=
    fill.reads (by decide) (by omega) (by omega)
  have rounded := @hundred_roundQuotient (digits * 2 ^ 6) (by omega)
  generalize roundQuotient (digits * 2 ^ 6) 100 = quotient at reads rounded
  obtain ⟨down, near⟩ := @roundQuotient_sixtyFour (100 * quotient) digits (by omega)
  rw [wholeHundredths_eq reads (by omega) (by omega) (by omega)]
  split
  next falls => exact fill.cut_less (down (by omega) (by omega))
  next kept =>
    obtain ⟨atLeast, atMost⟩ := near (by omega) (by omega)
    exact fill.cut atLeast (Nat.lt_of_le_of_lt atMost (by omega))

end Digits

/-- The hundredths of a volt are read back as they were written, or as one less where they fall
short. -/
theorem wholeHundredths_hundredths {word : Nat} (fits : word < 65536) :
    wholeHundredths (hundredths word) = if FallsShort word then word - 1 else word := by
  by_cases none : word = 0
  · subst none
    decide
  · obtain ⟨places, fill⟩ := digits_digitsOf none fits
    rcases Nat.lt_or_ge (digitsOf word) (25 * 2 ^ 19) with flat | steep
    · have whole : ¬FallsShort word := fun falls => absurd falls.1 (Nat.not_le.mpr flat)
      rw [if_neg whole]
      exact fill.flat flat
    · have falls : FallsShort word ↔
          32 < digitsOf word * 2 ^ 6 % 100 ∧ digitsOf word * 2 ^ 6 % 100 < 50 :=
        and_iff_right steep
      simp only [falls]
      exact fill.steep steep

end RailSequencer.Controller
