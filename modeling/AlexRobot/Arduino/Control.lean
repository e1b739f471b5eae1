import AlexRobot.Arduino.Effect
import Mathlib.Data.Nat.Cast.Order.Ring
import Mathlib.Tactic.SplitIfs

/-!
# The control part of the motion

Direction, collision guard, the two remaining distances and the motor settings decide how
the robot moves on. Interrupts leave them alone; the checks of `loop()` leave them alone or
halt; a packet halts, disarms, starts a movement with a positive remaining distance, or
leaves them alone. Invariants of the motion are proved from these facts.
-/

namespace AlexRobot

open Conversion

/-- The globals that decide how the robot moves on, without the counters. -/
structure Control where
  dir : Fin 5
  preventCollision : Bool
  deltaDist : UInt32
  deltaTicks : UInt32
  motors : Motors

/-- `Motion.control`: the control part of the driving globals. -/
def Motion.control (m : Motion) : Control where
  dir := m.dir
  preventCollision := m.preventCollision
  deltaDist := m.deltaDist
  deltaTicks := m.deltaTicks
  motors := m.motors

namespace Control

/-- What `stop` leaves of the controls: nothing to travel or to turn, no guard, and motors at speed 0. -/
def halted (c : Control) : Control where
  dir := Tdir.stop.code
  preventCollision := false
  deltaDist := 0
  deltaTicks := 0
  motors := c.motors.move 0 Tdir.stop.code

/-- What `clearCounters` leaves: nothing remains to be travelled, and the motors run on. -/
def disarmed (c : Control) : Control := { c with deltaDist := 0, deltaTicks := 0 }

/-- What starting a movement leaves. Only `forward` sets the collision guard, and no movement
function clears it. -/
def started (c : Control) (d : TDirection) (delta : UInt32) (speed : ℚ) : Control :=
  match d with
  | .forward =>
    { c with
      dir := d.code
      preventCollision := true
      deltaDist := delta
      motors := c.motors.move speed d.code }
  | .backward => { c with dir := d.code, deltaDist := delta, motors := c.motors.move speed d.code }
  | .left => { c with dir := d.code, deltaTicks := delta, motors := c.motors.move speed d.code }
  | .right => { c with dir := d.code, deltaTicks := delta, motors := c.motors.move speed d.code }

/-- Halting a robot twice leaves what halting it once does. -/
@[simp] theorem halted_halted (c : Control) : c.halted.halted = c.halted := rfl

/-- A movement that was started has its own direction. -/
@[simp] theorem started_dir (c : Control) (d : TDirection) (delta : UInt32) (speed : ℚ) :
    (c.started d delta speed).dir = d.code := by
  cases d <;> rfl

end Control

namespace Motion

/-- A pulse of the left encoder changes none of the controls. -/
@[simp] theorem leftISR_control (m : Motion) : m.leftISR.control = m.control := by
  unfold leftISR
  split_ifs <;> rfl

/-- A pulse of the right encoder changes none of the controls. -/
@[simp] theorem rightISR_control (m : Motion) : m.rightISR.control = m.control := by
  unfold rightISR
  split_ifs <;> rfl

/-- `stop` leaves the controls of a halted robot. -/
@[simp] theorem stop_control (m : Motion) : m.stop.control = m.control.halted := rfl

/-- `clearCounters` leaves the controls with nothing to be travelled. -/
@[simp] theorem clearCounters_control (m : Motion) : m.clearCounters.control = m.control.disarmed := rfl

/-- The distance rule of `loop()` halts the robot or does nothing. -/
theorem distanceRule_cases (m : Motion) :
    m.distanceRule = m ∨ m.distanceRule.control = m.control.halted := by
  unfold distanceRule
  split_ifs
  all_goals first | exact Or.inl rfl | exact Or.inr rfl

/-- The turn rule of `loop()` halts the robot or does nothing. -/
theorem turnRule_cases (m : Motion) : m.turnRule = m ∨ m.turnRule.control = m.control.halted := by
  unfold turnRule
  split_ifs
  all_goals first | exact Or.inl rfl | exact Or.inr rfl

/-- The two rules of `loop()`, one after the other, halt the robot or do nothing. -/
theorem rules_cases (m : Motion) :
    m.distanceRule.turnRule = m ∨ m.distanceRule.turnRule.control = m.control.halted := by
  rcases m.distanceRule_cases with hdist | hdist
  · rw [hdist]
    exact m.turnRule_cases
  · right
    rcases m.distanceRule.turnRule_cases with hturn | hturn
    · rw [hturn, hdist]
    · rw [hturn, hdist, Control.halted_halted]

/-- A turn takes at least one tick, whatever the angle. -/
theorem computeDeltaTicks_pos (m : Motion) (ang : ℚ) : 0 < m.computeDeltaTicks ang := by
  simp only [computeDeltaTicks]
  split
  · decide
  · rename_i hticks
    rw [UInt32.lt_iff_toNat_lt] at hticks ⊢
    exact Nat.le_of_not_lt hticks

/-- The distance that `forward` and `backward` set out for is positive. -/
theorem travel_pos (dist : Option UInt32) :
    0 < (if 0 < distArgument dist then toUInt32 (distArgument dist) else 9999999) := by
  split
  · rename_i hdist
    cases dist with
    | none => exact absurd hdist (by decide +kernel)
    | some w =>
      rw [distArgument, Nat.cast_pos] at hdist
      rw [distArgument, toUInt32_toNat, UInt32.lt_iff_toNat_lt]
      exact hdist
  · decide

/-- The ticks that `left` and `right` set out for are positive. -/
theorem turn_pos (m : Motion) (ang : ℚ) :
    0 < (if ang < 0 then 99999999 else m.computeDeltaTicks ang) := by
  split
  · decide
  · exact m.computeDeltaTicks_pos ang

/-- A movement always starts with something left to travel. -/
theorem drive_control (d : TDirection) (dist : Option UInt32) (speed : ℚ) (m : Motion) :
    ∃ delta, 0 < delta ∧
      (Alex.drive d (distArgument dist) speed m).control = m.control.started d delta speed := by
  cases d with
  | forward => exact ⟨_, travel_pos dist, rfl⟩
  | backward => exact ⟨_, travel_pos dist, rfl⟩
  | left => exact ⟨_, turn_pos m (distArgument dist), rfl⟩
  | right => exact ⟨_, turn_pos m (distArgument dist), rfl⟩

end Motion

/-- The checks of `loop()` together halt the robot or do nothing. -/
theorem checked_cases (m : Motion) (guardEcho : UInt32) :
    Alex.checked m guardEcho = m ∨ (Alex.checked m guardEcho).control = m.control.halted := by
  unfold Alex.checked
  split
  · right
    rcases m.stop.rules_cases with hrules | hrules
    · rw [hrules, Motion.stop_control]
    · rw [hrules, Motion.stop_control, Control.halted_halted]
  · exact m.rules_cases

/-- A timed movement has ended, with a halted robot, when its command is done. -/
theorem timed_control (d : TDirection) (ms : ℕ) (m : Motion) :
    (Effect.apply m (.timed d ms)).control = m.control.halted := by
  cases d <;> rfl

section Preserved

variable {Holds : Control → Prop} (hhalted : ∀ c : Control, Holds c.halted)

include hhalted

/-- A property of every halted robot survives the checks of `loop()`. -/
theorem checked_preserves {m : Motion} (h : Holds m.control) (guardEcho : UInt32) :
    Holds (Alex.checked m guardEcho).control := by
  rcases checked_cases m guardEcho with hsame | hstopped
  · rw [hsame]
    exact h
  · rw [hstopped]
    exact hhalted _

/-- A property of every halted robot survives every operation that handles no packet; in any other
operation the packet finds it true. -/
theorem step_preserves {a : Alex} (h : Holds a.control) (op : Alex.Op) :
    (a.handles op = none ∧ Holds (a.step op).control) ∨
      ∃ packet m, a.handles op = some (packet, m) ∧ Holds m.control ∧
        (a.step op).toMotion = packet.effect.apply m := by
  cases hhandles : a.handles op with
  | none =>
    refine Or.inl ⟨rfl, ?_⟩
    rcases Alex.step_of_handles_none hhandles with hstep | hstep | ⟨echo, hstep⟩ <;> rw [hstep]
    · rw [Motion.leftISR_control]
      exact h
    · rw [Motion.rightISR_control]
      exact h
    · exact checked_preserves hhalted h echo
  | some handled =>
    obtain ⟨packet, m⟩ := handled
    obtain ⟨hstep, hm⟩ := Alex.step_of_handles hhandles
    refine Or.inr ⟨packet, m, rfl, ?_, hstep⟩
    rcases hm with rfl | ⟨echo, rfl⟩
    · exact h
    · exact checked_preserves hhalted h echo

end Preserved

end AlexRobot
