import Mathlib.Data.Rat.Cast.Defs
import Mathlib.Algebra.Order.Ring.Rat
import Mathlib.Data.Rat.Floor

/-!
# Converting exact values to machine integers

A conversion of a floating-point value to an integer type drops the fraction, towards zero,
and then the bits that the type has no room for. Values are taken as exact rationals, so
the only loss is the one the conversion itself makes.
-/

namespace Conversion

/-- Drop the fraction of a number, rounding towards zero. -/
def truncate (q : ℚ) : ℤ := q.num.tdiv q.den

/-- Conversion of a number to a 32-bit unsigned integer, without its fraction. -/
def toUInt32 (q : ℚ) : UInt32 := UInt32.ofInt (truncate q)

/-- Conversion of a number to a 16-bit signed integer, without its fraction. -/
def toInt16 (q : ℚ) : Int16 := Int16.ofInt (truncate q)

/-- `truncate` of a natural number is that number, as there is no fraction to drop. -/
@[simp] theorem truncate_natCast (n : ℕ) : truncate (n : ℚ) = n := by
  rw [truncate, Rat.num_natCast, Rat.den_natCast, Nat.cast_one, Int.tdiv_one]

/-- Dropping the fraction of a value that is not negative rounds it down. -/
theorem truncate_of_nonneg {q : ℚ} (h : 0 ≤ q) : truncate q = ⌊q⌋ := by
  rw [truncate, Int.tdiv_eq_ediv_of_nonneg (Rat.num_nonneg.mpr h), Rat.floor_def']

/-- A value that fits a word is rounded down by the conversion. -/
theorem toNat_toUInt32 {q : ℚ} (h : 0 ≤ q) (hfit : ⌊q⌋ < 2 ^ 32) : ((toUInt32 q).toNat : ℤ) = ⌊q⌋ := by
  have hfloor : 0 ≤ ⌊q⌋ := Int.floor_nonneg.mpr h
  rw [toUInt32, truncate_of_nonneg h, UInt32.ofInt, UInt32.toNat_ofNat', Int.emod_eq_of_lt hfloor hfit]
  omega

/-- A word survives the conversion to an exact value and back. -/
@[simp] theorem toUInt32_toNat (w : UInt32) : toUInt32 (w.toNat : ℚ) = w := by
  have hfit := w.toNat_lt
  have hmod : ((w.toNat : ℤ) % 2 ^ 32).toNat = w.toNat := by omega
  rw [toUInt32, truncate_natCast, UInt32.ofInt, hmod, UInt32.ofNat_toNat]

/-- A value that is not negative keeps the low byte of its whole part. -/
theorem toNat_byte_toInt16 {q : ℚ} (h : 0 ≤ q) :
    (toInt16 q).toUInt16.toUInt8.toNat = ⌊q⌋.toNat % 256 := by
  obtain ⟨n, hn⟩ := Int.eq_ofNat_of_zero_le (Int.floor_nonneg.mpr h)
  rw [toInt16, truncate_of_nonneg h, hn, Int16.ofInt_eq_ofNat, Int16.toUInt16_ofNat', UInt16.toNat_toUInt8,
    UInt16.toNat_ofNat']
  exact Nat.mod_mod_of_dvd n (by decide)

/-- The unsigned word that a signed word is stored in. -/
theorem toNat_toUInt32_int32 (x : Int32) : (x.toUInt32.toNat : ℤ) = x.toInt % 2 ^ 32 := by
  have hcond := BitVec.toInt_eq_toNat_cond x.toBitVec
  have hlt := x.toBitVec.isLt
  rw [← Int32.toNat_toBitVec, ← Int32.toInt_toBitVec]
  split at hcond <;> omega

/-- `toInt16` of zero is zero, as for every value that 16 bits hold. -/
@[simp] theorem toInt16_zero : toInt16 0 = 0 := rfl

end Conversion
