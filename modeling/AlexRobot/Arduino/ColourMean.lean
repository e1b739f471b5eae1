import AlexRobot.Arduino.Alex
import Mathlib.Algebra.BigOperators.Fin
import Mathlib.Algebra.Order.BigOperators.Group.Finset

/-!
# The mean of five pulses

`average_freq` adds five pulse lengths in a 16-bit signed total and divides by five. Addition
commutes with losing the upper bits, so the total is the 16-bit remainder of the true sum:
the mean is right as long as the true sum is below 2^15, and in the dark it is not.
-/

namespace AlexRobot

open Alex (averageFreq)
open Conversion

/-- The longest pulse that `pulseIn` reports before it gives up, in microseconds. -/
def pulseTimeout : UInt32 := 1000000

/-- The sum of five pulses as a natural number, which cannot wrap. -/
def pulseSum (pulses : Fin 5 → UInt32) : ℕ := ∑ i, (pulses i).toNat

/-- The word is the rounded mean of the five pulses, and so between the least and the greatest. -/
structure IsMean (word : UInt32) (pulses : Fin 5 → UInt32) : Prop where
  floor : word.toNat = pulseSum pulses / 5
  least : ∃ i, pulses i ≤ word
  greatest : ∃ i, word ≤ pulses i

/-- The word that `findColor` stores for five pulses. -/
def storedFreq (pulses : Fin 5 → UInt32) : UInt32 := (averageFreq pulses).toInt32.toUInt32

/-- Five pulses of at least some length have at least five times that sum. -/
theorem le_pulseSum {pulses : Fin 5 → UInt32} {n : ℕ} (h : ∀ i, n ≤ (pulses i).toNat) :
    5 * n ≤ pulseSum pulses := by
  have hsum := Finset.card_nsmul_le_sum Finset.univ (fun i => (pulses i).toNat) n fun i _ => h i
  rwa [Finset.card_fin, smul_eq_mul] at hsum

/-- Five pulses of at most some length have at most five times that sum. -/
theorem pulseSum_le {pulses : Fin 5 → UInt32} {n : ℕ} (h : ∀ i, (pulses i).toNat ≤ n) :
    pulseSum pulses ≤ 5 * n := by
  have hsum := Finset.sum_le_card_nsmul Finset.univ (fun i => (pulses i).toNat) n fun i _ => h i
  rwa [Finset.card_fin, smul_eq_mul] at hsum

/-- The rounded mean is between the least and the greatest pulse. -/
theorem isMean_iff (word : UInt32) (pulses : Fin 5 → UInt32) :
    IsMean word pulses ↔ word.toNat = pulseSum pulses / 5 := by
  refine ⟨IsMean.floor, fun hfloor => ⟨hfloor, ?_, ?_⟩⟩
  · by_contra hnone
    simp only [not_exists, UInt32.le_iff_toNat_le, not_le] at hnone
    have hsum := le_pulseSum (n := word.toNat + 1) hnone
    omega
  · by_contra hnone
    simp only [not_exists, UInt32.le_iff_toNat_le, not_le] at hnone
    have hsum := pulseSum_le (n := word.toNat - 1) fun i => Nat.le_sub_one_of_lt (hnone i)
    have hpositive := Nat.zero_lt_of_lt (hnone 0)
    omega

/-- Adding a reading to the 16-bit total adds its lower 16 bits. -/
theorem ofNat_add_reading (total : ℕ) (pulse : UInt32) :
    Int16.ofNat total + pulse.toUInt16.toInt16 = Int16.ofNat (total + pulse.toNat) := by
  have hreading : pulse.toUInt16.toInt16 = Int16.ofNat pulse.toNat := by
    rw [← UInt16.toInt16_ofNat']
    rfl
  rw [hreading, Int16.ofNat_add]

/-- The total after some readings holds the lower bits of their sum. -/
theorem foldl_readings (pulses : Fin 5 → UInt32) (readings : List (Fin 5)) (total : ℕ) :
    readings.foldl (fun total i => total + (pulses i).toUInt16.toInt16) (Int16.ofNat total) =
      Int16.ofNat (total + (readings.map fun i => (pulses i).toNat).sum) := by
  induction readings generalizing total with
  | nil => rfl
  | cons i rest ih =>
    rw [List.foldl_cons, ofNat_add_reading, ih, List.map_cons, List.sum_cons, Nat.add_assoc]

/-- The mean is taken of the lower 16 bits of the sum, read as a signed number. -/
theorem averageFreq_eq (pulses : Fin 5 → UInt32) : averageFreq pulses = Int16.ofNat (pulseSum pulses) / 5 := by
  have htotal := foldl_readings pulses (List.finRange 5) 0
  have hsum : ((List.finRange 5).map fun i => (pulses i).toNat).sum = pulseSum pulses :=
    (Fin.sum_univ_def _).symm
  rw [hsum, Nat.zero_add] at htotal
  rw [averageFreq]
  exact congrArg (· / 5) htotal

/-- The stored word, from the remainder of the sum that 16 signed bits hold. -/
theorem storedFreq_toNat (pulses : Fin 5 → UInt32) :
    ((storedFreq pulses).toNat : ℤ) = ((pulseSum pulses : ℤ).bmod (2 ^ 16)).tdiv 5 % 2 ^ 32 := by
  have hdiv : (Int16.ofNat (pulseSum pulses) / 5).toInt = ((pulseSum pulses : ℤ).bmod (2 ^ 16)).tdiv 5 := by
    rw [Int16.toInt_div_of_ne_right _ _ (by decide), Int16.toInt_ofNat']
    rfl
  rw [storedFreq, toNat_toUInt32_int32, Int16.toInt_toInt32, averageFreq_eq, hdiv]

/-- As long as no pulse is longer than the timeout, the stored word is the mean of five pulses exactly
if their sum is below 2^15. -/
theorem storedFreq_iff {pulses : Fin 5 → UInt32} (hpulses : ∀ i, pulses i ≤ pulseTimeout) :
    IsMean (storedFreq pulses) pulses ↔ pulseSum pulses < 2 ^ 15 := by
  have hbound : pulseSum pulses ≤ 5 * 1000000 :=
    pulseSum_le fun i => UInt32.le_iff_toNat_le.mp (hpulses i)
  have hstored := storedFreq_toNat pulses
  rw [isMean_iff]
  generalize pulseSum pulses = total at hbound hstored ⊢
  rw [Int.bmod_def] at hstored
  constructor
  · intro hmean
    by_contra hlarge
    split at hstored
    · rename_i hpositive
      rw [Int.tdiv_eq_ediv_of_nonneg (by omega)] at hstored
      omega
    · rename_i hnegative
      -- A negative total rounds towards zero and is stored as a huge word, or as zero.
      rw [← Int.neg_neg ((total : ℤ) % ((2 ^ 16 : ℕ) : ℤ) - ((2 ^ 16 : ℕ) : ℤ)), Int.neg_tdiv,
        Int.tdiv_eq_ediv_of_nonneg (by omega)] at hstored
      omega
  · intro hsmall
    rw [if_pos (by omega), Int.tdiv_eq_ediv_of_nonneg (by omega)] at hstored
    omega

/-- Each of the three words that `findColor` stores is the mean of its five pulses exactly if their
sum is below 2^15. -/
theorem color_mean (a : Alex) (sensors : Sensors) (hred : ∀ i, sensors.red i ≤ pulseTimeout)
    (hgreen : ∀ i, sensors.green i ≤ pulseTimeout) (hblue : ∀ i, sensors.blue i ≤ pulseTimeout) :
    (IsMean (a.findColor sensors).redFreq sensors.red ↔ pulseSum sensors.red < 2 ^ 15) ∧
      (IsMean (a.findColor sensors).greenFreq sensors.green ↔ pulseSum sensors.green < 2 ^ 15) ∧
        (IsMean (a.findColor sensors).blueFreq sensors.blue ↔ pulseSum sensors.blue < 2 ^ 15) :=
  ⟨storedFreq_iff hred, storedFreq_iff hgreen, storedFreq_iff hblue⟩

/-- Five equal pulses of the red sensor; the other two report timeouts. -/
def redPulses (pulse : UInt32) : Sensors := { Sensors.silent with red := fun _ => pulse }

/-- Five pulses of 7 ms have a sum beyond 2^15, and the word stored for their mean is near 2^32. -/
theorem color_mean_refuted : ¬ ∀ (a : Alex) (sensors : Sensors), (∀ i, sensors.red i ≤ pulseTimeout) →
    IsMean (a.findColor sensors).redFreq sensors.red := by
  intro hclaim
  have hmean := hclaim .fresh (redPulses 7000) (by decide)
  exact absurd hmean.floor (by decide)

/-- Five red pulses of 30 μs have their mean stored. -/
theorem short_color_mean :
    IsMean (Alex.fresh.findColor (redPulses 30)).redFreq (redPulses 30).red := by
  have hmean := color_mean .fresh (redPulses 30) (by decide) (by decide) (by decide)
  exact hmean.1.mpr (by decide)

end AlexRobot
