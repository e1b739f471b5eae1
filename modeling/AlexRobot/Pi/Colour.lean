import AlexRobot.Pi.Command
import Mathlib.Algebra.Order.Ring.Rat
import Mathlib.Tactic.FieldSimp
import Mathlib.Tactic.Linarith
import Mathlib.Tactic.Positivity

/-!
# The colour report

A difference in percent is the difference of two readings over the greater of them. A reading
of 0 is what a sensor that timed out reports, and two of them make the divisor 0: the result
is then not a number, no comparison with it holds, and the report falls through to green.
-/

namespace AlexRobot

/-- `getPercentDiff`, in exact arithmetic; `none` is the NaN of `0 / 0`, which is the only division by
zero there is. -/
def getPercentDiff (a b : UInt32) : Option ℚ :=
  let diff := if b < a then a - b else b - a
  let large := if b < a then a else b
  if large = 0 then none else some (diff.toNat / large.toNat * 100)

/-- A comparison of floats; with a NaN it does not hold. -/
def floatLt : Option ℚ → Option ℚ → Bool
  | some x, some y => x < y
  | _, _ => false

/-- `Verdict`: the colour that the last line of a colour report names. -/
inductive Verdict
  | red
  | neither
  | green
  deriving DecidableEq, Repr

/-- `ColourReport`: what a colour report shows, the readings, the differences and the verdict. -/
structure ColourReport where
  red : UInt32
  green : UInt32
  blue : UInt32
  redGreenDiff : Option ℚ
  redBlueDiff : Option ℚ
  blueGreenDiff : Option ℚ
  verdict : Verdict
  deriving DecidableEq

/-- The body shared by `print_colourf` and `print_colourw`. -/
def printColour (red green blue : UInt32) (redGreenDiff redBlueDiff blueGreenDiff : Option ℚ) :
    ColourReport where
  red := red
  green := green
  blue := blue
  redGreenDiff := redGreenDiff
  redBlueDiff := redBlueDiff
  blueGreenDiff := blueGreenDiff
  verdict :=
    if floatLt redBlueDiff redGreenDiff && floatLt redBlueDiff blueGreenDiff then .red
    else if floatLt redGreenDiff (some 4) then .neither
    else .green

/-- `print_colourf`: the colour report as it is printed on the terminal. -/
def printColourf := printColour

/-- `print_colourw`: the colour report as it is printed on the ncurses screen. -/
def printColourw := printColour

/-- `handleColor`: the colour report for the three readings that a packet carries. -/
def handleColorReport (u : Ui) (packet : TPacket) : ColourReport :=
  let red := packet.param 0
  let green := packet.param 1
  let blue := packet.param 2
  let redGreenDiff := getPercentDiff red green
  let redBlueDiff := getPercentDiff red blue
  let blueGreenDiff := getPercentDiff blue green
  if u.keyboardMode = .params ∨ u.keyboardMode = .keyHold then
    printColourf red green blue redGreenDiff redBlueDiff blueGreenDiff
  else printColourw red green blue redGreenDiff redBlueDiff blueGreenDiff

/-- A difference of two readings is a number of percent, the same in both directions, and 0 for equal
readings alone. -/
structure PercentLaw (diff : Option ℚ) (a b : UInt32) : Prop where
  defined : ∃ percent, diff = some percent ∧ 0 ≤ percent ∧ percent ≤ 100 ∧ (percent = 0 ↔ a = b)
  symmetric : getPercentDiff b a = diff

/-- The three differences are well defined, and only readings that differ are called red or green. -/
structure ColourLaw (report : ColourReport) : Prop where
  redGreen : PercentLaw report.redGreenDiff report.red report.green
  redBlue : PercentLaw report.redBlueDiff report.red report.blue
  blueGreen : PercentLaw report.blueGreenDiff report.blue report.green
  verdict : report.verdict ≠ .neither →
    report.red ≠ report.green ∨ report.red ≠ report.blue ∨ report.blue ≠ report.green

/-- `BothZero a b`: both readings of a pair are 0, so that the larger one is 0 too. -/
def BothZero (a b : UInt32) : Prop := a = 0 ∧ b = 0

instance (a b : UInt32) : Decidable (BothZero a b) := inferInstanceAs (Decidable (_ ∧ _))

/-- `getPercentDiff` as one formula: no value if both readings are 0, else the difference in percent of
the larger. -/
theorem getPercentDiff_eq (a b : UInt32) : getPercentDiff a b =
    if BothZero a b then none
    else some (|(a.toNat : ℚ) - b.toNat| / max (a.toNat : ℚ) b.toNat * 100) := by
  unfold getPercentDiff BothZero
  by_cases hlt : b < a
  · have hnat : b.toNat < a.toNat := UInt32.lt_iff_toNat_lt.mp hlt
    have hcast : (b.toNat : ℚ) ≤ a.toNat := Nat.cast_le.mpr hnat.le
    have hne : a ≠ 0 := by
      rintro rfl
      exact absurd hnat (Nat.not_lt_zero _)
    have hsub : ((a - b).toNat : ℚ) = a.toNat - b.toNat := by
      rw [UInt32.toNat_sub_of_le _ _ (UInt32.le_of_lt hlt), Nat.cast_sub hnat.le]
    simp only [if_pos hlt, hne, false_and, if_false, hsub, abs_of_nonneg (sub_nonneg.mpr hcast),
      max_eq_left hcast]
  · have hle : a ≤ b := UInt32.not_lt.mp hlt
    have hnat : a.toNat ≤ b.toNat := UInt32.le_iff_toNat_le.mp hle
    have hcast : (a.toNat : ℚ) ≤ b.toNat := Nat.cast_le.mpr hnat
    have hsub : ((b - a).toNat : ℚ) = b.toNat - a.toNat := by
      rw [UInt32.toNat_sub_of_le _ _ hle, Nat.cast_sub hnat]
    have hzero : b = 0 ↔ a = 0 ∧ b = 0 := by
      refine ⟨fun h => ⟨UInt32.toNat_inj.mp ?_, h⟩, And.right⟩
      rw [h] at hnat
      exact Nat.le_zero.mp hnat
    simp only [if_neg hlt, hsub, abs_sub_comm (a.toNat : ℚ), abs_of_nonneg (sub_nonneg.mpr hcast),
      max_eq_right hcast, ← hzero]

/-- `getPercentDiff` is symmetric: the order of the two readings does not matter. -/
theorem getPercentDiff_comm (a b : UInt32) : getPercentDiff a b = getPercentDiff b a := by
  have hboth : BothZero a b ↔ BothZero b a := and_comm
  simp only [getPercentDiff_eq, hboth, abs_sub_comm (a.toNat : ℚ), max_comm (a.toNat : ℚ)]

/-- The ratio of a difference to the greater of two values, in percent. -/
theorem percent_bounds {x y : ℚ} (hx : 0 ≤ x) (hy : 0 ≤ y) (hpos : 0 < max x y) :
    0 ≤ |x - y| / max x y * 100 ∧ |x - y| / max x y * 100 ≤ 100 ∧
      (|x - y| / max x y * 100 = 0 ↔ x = y) := by
  have hdiff : |x - y| ≤ max x y := by
    rw [abs_sub_le_iff]
    constructor
    · linarith [le_max_left x y]
    · linarith [le_max_right x y]
  have hratio : |x - y| / max x y ≤ 1 := (div_le_one hpos).mpr hdiff
  refine ⟨by positivity, by linarith, ?_⟩
  rw [mul_eq_zero, or_iff_left (by norm_num), div_eq_zero_iff, or_iff_left hpos.ne', abs_eq_zero, sub_eq_zero]

/-- A difference is well defined exactly if not both readings are 0. -/
theorem percentLaw_iff (a b : UInt32) : PercentLaw (getPercentDiff a b) a b ↔ ¬ BothZero a b := by
  constructor
  · rintro ⟨⟨percent, hdiff, -⟩, -⟩ hzero
    rw [getPercentDiff_eq, if_pos hzero] at hdiff
    cases hdiff
  · intro hzero
    have hpos : 0 < max (a.toNat : ℚ) b.toNat := by
      rw [lt_max_iff]
      by_contra hnone
      apply hzero
      simp only [not_or, not_lt, Nat.cast_nonpos] at hnone
      exact ⟨UInt32.toNat_inj.mp hnone.1, UInt32.toNat_inj.mp hnone.2⟩
    obtain ⟨hnonneg, hle, hiff⟩ := percent_bounds (Nat.cast_nonneg a.toNat) (Nat.cast_nonneg b.toNat) hpos
    refine ⟨⟨_, (getPercentDiff_eq a b).trans (if_neg hzero), hnonneg, hle, hiff.trans ?_⟩,
      getPercentDiff_comm b a⟩
    rw [Nat.cast_inj, UInt32.toNat_inj]

/-- Equal readings that are not 0 are neither red nor green. -/
theorem printColour_of_equal {reading : UInt32} (hreading : reading ≠ 0) :
    (printColour reading reading reading (getPercentDiff reading reading) (getPercentDiff reading reading)
      (getPercentDiff reading reading)).verdict = .neither := by
  have hdiff : getPercentDiff reading reading = some 0 := by
    rw [getPercentDiff_eq, if_neg fun hzero => hreading hzero.1, sub_self, abs_zero, zero_div, zero_mul]
  rw [hdiff]
  rfl

/-- The report of `handleColor` obeys the law exactly if no two of the three readings are both 0. -/
theorem colour_report (u : Ui) (packet : TPacket) :
    ColourLaw (handleColorReport u packet) ↔
      ¬ BothZero (packet.param 0) (packet.param 1) ∧ ¬ BothZero (packet.param 0) (packet.param 2) ∧
        ¬ BothZero (packet.param 2) (packet.param 1) := by
  have hreport : handleColorReport u packet = printColour (packet.param 0) (packet.param 1) (packet.param 2)
      (getPercentDiff (packet.param 0) (packet.param 1)) (getPercentDiff (packet.param 0) (packet.param 2))
      (getPercentDiff (packet.param 2) (packet.param 1)) := ite_self _
  rw [hreport]
  generalize packet.param 0 = red
  generalize packet.param 1 = green
  generalize packet.param 2 = blue
  constructor
  · intro hlaw
    exact ⟨(percentLaw_iff red green).mp hlaw.redGreen, (percentLaw_iff red blue).mp hlaw.redBlue,
      (percentLaw_iff blue green).mp hlaw.blueGreen⟩
  · rintro ⟨hredGreen, hredBlue, hblueGreen⟩
    refine ⟨(percentLaw_iff red green).mpr hredGreen, (percentLaw_iff red blue).mpr hredBlue,
      (percentLaw_iff blue green).mpr hblueGreen, ?_⟩
    intro hverdict
    by_contra hequal
    simp only [not_or, ne_eq, not_not] at hequal
    obtain ⟨hgreen, hblue, -⟩ := hequal
    change red = green at hgreen
    change red = blue at hblue
    subst hgreen hblue
    exact hverdict (printColour_of_equal fun hzero => hredGreen ⟨hzero, hzero⟩)

/-- The colour response when all three sensors time out. -/
def timedOutColour : TPacket :=
  { TPacket.bare .response .forward with command := TResponseType.color.code }

/-- The colour report of three sensors that time out names green, though the readings are all equal. -/
theorem colour_report_refuted : ¬ ∀ (u : Ui) (packet : TPacket), packet.packetType = TPacketType.response.code →
    packet.command = TResponseType.color.code → ColourLaw (handleColorReport u packet) := by
  intro hclaim
  have hlaw := hclaim .initial timedOutColour rfl rfl
  have hgreen : (handleColorReport .initial timedOutColour).verdict = .green := by decide
  rcases hlaw.verdict (by rw [hgreen]; decide) with hne | hne | hne
  · exact hne rfl
  · exact hne rfl
  · exact hne rfl

end AlexRobot
