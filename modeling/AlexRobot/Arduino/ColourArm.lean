import AlexRobot.Arduino.Alex
import Mathlib.Data.Rat.Floor
import Mathlib.Tactic.Linarith
import Mathlib.Tactic.SplitIfs

/-!
# The colour arm and the free gap

`sendColor` extends the arm by what the ultrasonic sensor leaves free, reads the colour and
pulls the arm back. The free gap is a difference of `int`s that is stored in an unsigned word
before it is compared: a reading closer than the shroud becomes a huge gap, and the arm
extends as far as it can.
-/

namespace AlexRobot

open Alex (getUltrasonicDistance)
open Conversion

/-- The way that a move takes the arm, in cm, at the speed that the source reckons with. -/
def ServoMove.cm (move : ServoMove) : ℚ := move.millis.toNat * distpersec / 1000

/-- How far the moves at one angle take the arm, in centimetres. -/
def armWay (angle : ℕ) (moves : List ServoMove) : ℚ :=
  ((moves.filter fun move => move.angle = angle).map ServoMove.cm).sum

/-- The moves of the arm that one call of `sendColor` makes. -/
def colorMoves (a : Alex) (sensors : Sensors) : List ServoMove :=
  (a.sendColor sensors).servo.drop a.servo.length

/-- The arm stays in the free gap and within its reach, and comes back; the angles are those of
`distance_forward` and `distance_reverse`. -/
structure ArmLaw (a : Alex) (sensors : Sensors) : Prop where
  gap : armWay 135 (colorMoves a sensors) ≤ max 0 ((getUltrasonicDistance sensors.echo).toInt - 7 - 2 : ℤ)
  reach : armWay 135 (colorMoves a sensors) ≤ 7
  retracted : armWay 135 (colorMoves a sensors) ≤ armWay 45 (colorMoves a sensors)
  reset : (a.sendColor sensors).linearactuatordist = 0

/-- The argument of `delay` for moving the arm by a distance. -/
def armMillis (dist : ℚ) : UInt32 := toUInt32 (dist / distpersec * 1000)

/-- The milliseconds for a distance within reach are rounded down. -/
theorem armMillis_toNat {dist : ℚ} (hnonneg : 0 ≤ dist) (hreach : dist ≤ 8) :
    ((armMillis dist).toNat : ℚ) ≤ dist / 6 * 1000 ∧ dist / 6 * 1000 < (armMillis dist).toNat + 1 := by
  have hvalue : 0 ≤ dist / distpersec * 1000 := by
    rw [distpersec]
    positivity
  have hfit : ⌊dist / distpersec * 1000⌋ < 2 ^ 32 := by
    rw [Int.floor_lt, distpersec]
    push_cast
    linarith
  have hfloor : ((armMillis dist).toNat : ℚ) = (⌊dist / distpersec * 1000⌋ : ℤ) := by
    exact_mod_cast toNat_toUInt32 hvalue hfit
  rw [hfloor]
  exact ⟨Int.floor_le _, Int.lt_floor_add_one _⟩

/-- `currentdist`: the free gap before the mouth of the shroud, in unsigned arithmetic. -/
def currentdist (sensors : Sensors) : UInt32 :=
  (getUltrasonicDistance sensors.echo - shroudMouthToUltrasonic).toInt32.toUInt32

/-- `currentdist` is the difference of the reading and the offset, in 16 bits and then in 32. -/
theorem currentdist_toNat (sensors : Sensors) :
    ((currentdist sensors).toNat : ℤ) =
      ((getUltrasonicDistance sensors.echo).toInt - 7).bmod (2 ^ 16) % 2 ^ 32 := by
  rw [currentdist, toNat_toUInt32_int32, Int16.toInt_toInt32, Int16.toInt_sub]
  rfl

/-- An object at the shroud's mouth or before it makes `currentdist` the free gap. -/
theorem currentdist_of_far {sensors : Sensors} (h : 7 ≤ (getUltrasonicDistance sensors.echo).toInt) :
    ((currentdist sensors).toNat : ℤ) = (getUltrasonicDistance sensors.echo).toInt - 7 := by
  have hlt := (getUltrasonicDistance sensors.echo).toInt_lt
  rw [currentdist_toNat, Int.bmod_def]
  split <;> omega

/-- An object closer than the shroud's mouth makes `currentdist` wrap far above every free gap. -/
theorem currentdist_of_close {sensors : Sensors} (h : (getUltrasonicDistance sensors.echo).toInt < 7) :
    10 ≤ (currentdist sensors).toNat := by
  have hle := (getUltrasonicDistance sensors.echo).le_toInt
  have hvalue := currentdist_toNat sensors
  rw [Int.bmod_def] at hvalue
  split at hvalue <;> omega

/-- What `sendColor` extends the arm by when the gap is free: the gap less the stop distance, at most 7. -/
def armLength (sensors : Sensors) : UInt32 :=
  if 7 < currentdist sensors - distancetoStop then 7 else currentdist sensors - distancetoStop

/-- The length by which the arm is extended, as a natural number. -/
theorem armLength_toNat {sensors : Sensors} (h : 2 < (currentdist sensors).toNat) :
    (armLength sensors).toNat = min ((currentdist sensors).toNat - 2) 7 := by
  have hle : distancetoStop ≤ currentdist sensors := UInt32.le_iff_toNat_le.mpr h.le
  have hsub : (currentdist sensors - distancetoStop).toNat = (currentdist sensors).toNat - 2 :=
    UInt32.toNat_sub_of_le _ _ hle
  have hseven : (7 : UInt32).toNat = 7 := rfl
  unfold armLength
  split
  · rename_i hlong
    rw [UInt32.lt_iff_toNat_lt, hsub, hseven] at hlong
    rw [hseven]
    omega
  · rename_i hshort
    rw [UInt32.lt_iff_toNat_lt, hsub, hseven] at hshort
    rw [hsub]
    omega

/-- With more than the stop distance free, `sendColor` first moves the arm out. -/
theorem extendArm_of_free {sensors : Sensors} (h : 2 < (currentdist sensors).toNat) (a : Alex) :
    a.extendArm sensors = { a with
      linearactuatordist := armLength sensors
      servo := a.servo ++ [⟨135, armMillis (armLength sensors).toNat⟩] } := by
  have hfree : distancetoStop <
      (getUltrasonicDistance sensors.echo - shroudMouthToUltrasonic).toInt32.toUInt32 :=
    UInt32.lt_iff_toNat_lt.mpr h
  rw [Alex.extendArm, if_pos hfree, armLength, currentdist]
  generalize (getUltrasonicDistance sensors.echo - shroudMouthToUltrasonic).toInt32.toUInt32 = gap
  by_cases hlong : 7 < gap - distancetoStop
  · simp only [if_pos hlong]
    rfl
  · simp only [if_neg hlong]
    rfl

/-- With no more than the stop distance free, `sendColor` does not move the arm out. -/
theorem extendArm_of_tight {sensors : Sensors} (h : ¬ 2 < (currentdist sensors).toNat) (a : Alex) :
    a.extendArm sensors = a := by
  have htight : ¬ distancetoStop <
      (getUltrasonicDistance sensors.echo - shroudMouthToUltrasonic).toInt32.toUInt32 :=
    fun hlt => h (UInt32.lt_iff_toNat_lt.mp hlt)
  simp only [Alex.extendArm, if_neg htight]

/-- The moves of `sendColor`: those of `extendArm`, and a last one back. -/
theorem sendColor_servo (a : Alex) (sensors : Sensors) :
    (a.sendColor sensors).servo = (a.extendArm sensors).servo ++
      [⟨45, armMillis ((a.extendArm sensors).linearactuatordist.toNat + 1 / 4)⟩] := by
  unfold Alex.sendColor
  rfl

/-- With a free gap one call of `sendColor` moves the arm out, and then back by a little more. -/
theorem colorMoves_of_free {sensors : Sensors} (h : 2 < (currentdist sensors).toNat) (a : Alex) :
    colorMoves a sensors =
      [⟨135, armMillis (armLength sensors).toNat⟩, ⟨45, armMillis ((armLength sensors).toNat + 1 / 4)⟩] := by
  rw [colorMoves, sendColor_servo, extendArm_of_free h, List.append_assoc, List.drop_left]
  rfl

/-- Without a free gap one call of `sendColor` only moves the arm back, by the last length. -/
theorem colorMoves_of_tight {sensors : Sensors} (h : ¬ 2 < (currentdist sensors).toNat) (a : Alex) :
    colorMoves a sensors = [⟨45, armMillis (a.linearactuatordist.toNat + 1 / 4)⟩] := by
  rw [colorMoves, sendColor_servo, extendArm_of_tight h, List.drop_left]

/-- With a free gap the arm goes out by at most the length computed for it, and back at least as far. -/
theorem armWay_of_free {sensors : Sensors} (h : 2 < (currentdist sensors).toNat) (a : Alex) :
    armWay 135 (colorMoves a sensors) ≤ (armLength sensors).toNat ∧
      (0 < (armLength sensors).toNat → 0 < armWay 135 (colorMoves a sensors)) ∧
      armWay 135 (colorMoves a sensors) ≤ armWay 45 (colorMoves a sensors) := by
  have hreach : (armLength sensors).toNat ≤ 7 := by
    rw [armLength_toNat h]
    exact min_le_right _ _
  have hcast : ((armLength sensors).toNat : ℚ) ≤ 7 := by exact_mod_cast hreach
  have hnonneg : (0 : ℚ) ≤ (armLength sensors).toNat := Nat.cast_nonneg _
  obtain ⟨hout, hout'⟩ := armMillis_toNat hnonneg (hcast.trans (by norm_num))
  obtain ⟨-, hback⟩ := armMillis_toNat (add_nonneg hnonneg (by norm_num : (0 : ℚ) ≤ 1 / 4))
    (by linarith : ((armLength sensors).toNat : ℚ) + 1 / 4 ≤ 8)
  have hways : armWay 135 (colorMoves a sensors) = (armMillis (armLength sensors).toNat).toNat * 6 / 1000 ∧
      armWay 45 (colorMoves a sensors) =
        (armMillis ((armLength sensors).toNat + 1 / 4)).toNat * 6 / 1000 := by
    rw [colorMoves_of_free h]
    constructor <;> simp [armWay, ServoMove.cm, distpersec]
  rw [hways.1, hways.2]
  refine ⟨by linarith, fun hpositive => ?_, by linarith⟩
  have hone : (1 : ℚ) ≤ (armLength sensors).toNat := by exact_mod_cast hpositive
  linarith

/-- Without a free gap the arm does not go out at all. -/
theorem armWay_of_tight {sensors : Sensors} (h : ¬ 2 < (currentdist sensors).toNat) (a : Alex) :
    armWay 135 (colorMoves a sensors) = 0 ∧ 0 ≤ armWay 45 (colorMoves a sensors) := by
  rw [colorMoves_of_tight h]
  constructor
  · simp [armWay]
  · simp only [armWay, ServoMove.cm, distpersec, decide_true, List.filter_cons_of_pos, List.filter_nil,
      List.map_cons, List.map_nil, List.sum_cons, List.sum_nil, add_zero]
    positivity

/-- Closer than the shroud the arm is extended although nothing is free. -/
theorem not_armLaw_of_close {sensors : Sensors} (h : (getUltrasonicDistance sensors.echo).toInt < 7)
    (a : Alex) : ¬ ArmLaw a sensors := by
  intro hlaw
  have hwrapped := currentdist_of_close h
  have hfree : 2 < (currentdist sensors).toNat := by omega
  have hlength : 0 < (armLength sensors).toNat := by
    rw [armLength_toNat hfree]
    omega
  have hpositive := (armWay_of_free hfree a).2.1 hlength
  have hnone : max 0 ((getUltrasonicDistance sensors.echo).toInt - 7 - 2) = 0 := max_eq_left (by omega)
  have hgap := hlaw.gap
  rw [hnone, Int.cast_zero] at hgap
  exact hgap.not_gt hpositive

/-- Behind the shroud's mouth the arm stays in the free gap, for every reading of the sensor. -/
theorem armLaw_of_far {sensors : Sensors} (h : 7 ≤ (getUltrasonicDistance sensors.echo).toInt)
    (a : Alex) : ArmLaw a sensors := by
  have hgap := currentdist_of_far h
  by_cases hfree : 2 < (currentdist sensors).toNat
  · obtain ⟨hlength, -, hback⟩ := armWay_of_free hfree a
    have hfits : ((armLength sensors).toNat : ℤ) ≤
        max 0 ((getUltrasonicDistance sensors.echo).toInt - 7 - 2) := by
      rw [armLength_toNat hfree]
      omega
    have hreach : (armLength sensors).toNat ≤ 7 := by
      rw [armLength_toNat hfree]
      exact min_le_right _ _
    exact ⟨hlength.trans (by exact_mod_cast hfits), hlength.trans (by exact_mod_cast hreach), hback, rfl⟩
  · obtain ⟨hout, hback⟩ := armWay_of_tight hfree a
    refine ⟨?_, ?_, hout.trans_le hback, rfl⟩
    · rw [hout]
      exact_mod_cast le_max_left _ _
    · rw [hout]
      norm_num

/-- Without an echo the arm is extended although an object may be right in front of it. -/
theorem color_arm_gap_refuted :
    ¬ ∀ (alexCirc : ℚ) (stack : Stack) (memory : TracedMemory.Memory Obj UInt8) (earlier : List Sensors)
      (sensors : Sensors), 0 ≤ getUltrasonicDistance sensors.echo →
        ArmLaw (earlier.foldl Alex.sendColor (Alex.setup alexCirc stack memory)) sensors := by
  intro hclaim
  have hlaw := hclaim 0 ⟨fun _ => .bare .commandKeyboard .stop, fun _ => zeroComms⟩ ⟨fun _ _ => 0, []⟩ []
    .silent (by decide +kernel)
  exact not_armLaw_of_close (by decide +kernel) _ hlaw

/-- From any state, `sendColor` keeps the arm in the free gap exactly when the reading is not closer
than the shroud. -/
theorem color_arm_gap (a : Alex) (sensors : Sensors) :
    ArmLaw a sensors ↔ 7 ≤ getUltrasonicDistance sensors.echo := by
  have hseven : (7 : Int16).toInt = 7 := rfl
  rw [Int16.le_iff_toInt_le, hseven]
  constructor
  · intro hlaw
    by_contra hclose
    exact not_armLaw_of_close (Int.lt_of_not_ge hclose) a hlaw
  · intro hfar
    exact armLaw_of_far hfar a

end AlexRobot
