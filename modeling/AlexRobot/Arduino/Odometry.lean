import AlexRobot.Arduino.Control
import AlexRobot.Common.Run
import Mathlib.Data.List.DropRight

/-!
# Counting the pulses of the wheels

The interrupts choose a counter by `dir`, and `dir` is written together with the pattern that
`move` gives the motors. Each counter therefore holds the pulses that its wheel made under its
own pattern since the counters were last cleared, as far as 32 bits can tell.
-/

namespace AlexRobot

open TracedMemory

/-- `Wheel`: the two wheels of the robot that have an encoder. -/
inductive Wheel
  | left
  | right
  deriving DecidableEq, Repr

/-- What `move` tells the front left, front right, back left and back right motor to do. -/
def Tdir.motorCommands : Tdir → Fin 5 × Fin 5 × Fin 5 × Fin 5
  | .stop => (Tdir.stop.code, Tdir.stop.code, Tdir.stop.code, Tdir.stop.code)
  | .go =>
    (TDirection.forward.code, TDirection.forward.code, TDirection.backward.code, TDirection.backward.code)
  | .back =>
    (TDirection.backward.code, TDirection.backward.code, TDirection.forward.code, TDirection.forward.code)
  | .ccw =>
    (TDirection.backward.code, TDirection.forward.code, TDirection.forward.code, TDirection.backward.code)
  | .cw =>
    (TDirection.forward.code, TDirection.backward.code, TDirection.backward.code, TDirection.forward.code)

/-- What the four motors were last told to do, in the same order. -/
def Motors.commands (motors : Motors) : Fin 5 × Fin 5 × Fin 5 × Fin 5 :=
  (motors.fl.command, motors.fr.command, motors.bl.command, motors.br.command)

/-- The motors were last told to run in the given pattern. -/
def Motors.InPattern (motors : Motors) (pattern : Tdir) : Prop := motors.commands = pattern.motorCommands

instance (motors : Motors) (pattern : Tdir) : Decidable (motors.InPattern pattern) :=
  inferInstanceAs (Decidable (_ = _))

/-- `move` puts the motors in the pattern of its direction. -/
theorem inPattern_move (motors : Motors) (speed : ℚ) (direction : Fin 5) :
    (motors.move speed direction).InPattern (Tdir.ofCode direction) := by
  rw [Motors.InPattern, Motors.move]
  cases Tdir.ofCode direction <;> rfl

/-- Different patterns give the motors different commands. -/
theorem motorCommands_injective : Function.Injective Tdir.motorCommands := by
  intro p q h
  cases p <;> cases q <;> first | rfl | exact absurd h (by decide)

/-- The motors were last told to run in the pattern that `dir` names. -/
def Patterned (c : Control) : Prop := c.motors.InPattern (Tdir.ofCode c.dir)

/-- A halted robot has its motors in the pattern of the stop, which `dir` names. -/
theorem patterned_halted (c : Control) : Patterned c.halted := inPattern_move c.motors 0 Tdir.stop.code

/-- Starting a movement gives the motors the pattern that `dir` then names. -/
theorem patterned_started (c : Control) (d : TDirection) (delta : UInt32) (speed : ℚ) :
    Patterned (c.started d delta speed) := by
  cases d <;> exact inPattern_move c.motors speed _

/-- Carrying out the effect of a packet keeps the motors in the pattern that `dir` names. -/
theorem patterned_effect {m : Motion} (h : Patterned m.control) (effect : Effect) :
    Patterned (effect.apply m).control := by
  cases effect with
  | ignore => exact h
  | halt => exact patterned_halted m.control
  | clear => exact h
  | start d dist speed =>
    obtain ⟨delta, -, hstarted⟩ := Motion.drive_control d dist speed m
    rw [Effect.apply, hstarted]
    exact patterned_started m.control d delta speed
  | timed d ms =>
    rw [timed_control]
    exact patterned_halted _

/-- One operation keeps the motors in the pattern that `dir` names. -/
theorem step_patterned (a : Alex) (op : Alex.Op) (h : Patterned a.control) :
    Patterned (a.step op).control := by
  rcases step_preserves patterned_halted h op with ⟨-, hstep⟩ | ⟨packet, m, -, hpatterned, hstep⟩
  · exact hstep
  · rw [hstep]
    exact patterned_effect hpatterned packet.effect

/-- What the encoders have counted: a counter for each wheel and movement, and the distances. -/
@[ext] structure Odometer where
  counter : Wheel → TDirection → UInt32
  forwardDist : UInt32
  reverseDist : UInt32

/-- The odometer part of the driving globals: the ticks, the turns and the distances. -/
def Motion.odometer (m : Motion) : Odometer where
  counter wheel d :=
    match wheel, d with
    | .left, .forward => m.leftForwardTicks
    | .left, .backward => m.leftReverseTicks
    | .left, .left => m.leftReverseTurns
    | .left, .right => m.leftForwardTurns
    | .right, .forward => m.rightForwardTicks
    | .right, .backward => m.rightReverseTicks
    | .right, .left => m.rightForwardTurns
    | .right, .right => m.rightReverseTurns
  forwardDist := m.forwardDist
  reverseDist := m.reverseDist

/-- The odometer after `clearCounters`, with every count at zero. -/
def Odometer.zero : Odometer where
  counter _ _ := 0
  forwardDist := 0
  reverseDist := 0

/-- One more pulse of a wheel under a movement; the distances follow the left wheel. -/
def Odometer.count (o : Odometer) (wheel : Wheel) (d : TDirection) : Odometer where
  counter wheel' d' := if wheel = wheel' ∧ d = d' then o.counter wheel d + 1 else o.counter wheel' d'
  forwardDist :=
    if wheel = .left ∧ d = .forward then Motion.tickDistance (o.counter .left .forward + 1) else o.forwardDist
  reverseDist :=
    if wheel = .left ∧ d = .backward then Motion.tickDistance (o.counter .left .backward + 1)
    else o.reverseDist

/-- The pattern that a movement in the given direction gives the motors. -/
def TDirection.pattern : TDirection → Tdir
  | .forward => .go
  | .backward => .back
  | .left => .ccw
  | .right => .cw

/-- Movements in different directions have different patterns. -/
theorem pattern_injective : Function.Injective TDirection.pattern := by
  intro d d' h
  cases d <;> cases d' <;> first | rfl | cases h

/-- No movement has the pattern of the stop. -/
theorem pattern_ne_stop (d : TDirection) : d.pattern ≠ .stop := by
  cases d <;> decide

/-- Every pattern other than the stop's is that of a movement. -/
theorem stop_or_pattern (pattern : Tdir) : pattern = .stop ∨ ∃ d : TDirection, pattern = d.pattern := by
  cases pattern with
  | stop => exact Or.inl rfl
  | go => exact Or.inr ⟨.forward, rfl⟩
  | back => exact Or.inr ⟨.backward, rfl⟩
  | ccw => exact Or.inr ⟨.left, rfl⟩
  | cw => exact Or.inr ⟨.right, rfl⟩

/-- The direction code of the stop is that of its pattern. -/
theorem code_of_stop {dir : Fin 5} (h : Tdir.ofCode dir = .stop) : dir = Tdir.stop.code := by
  revert h
  revert dir
  decide

/-- The direction code of a movement is that of its pattern. -/
theorem code_of_pattern {dir : Fin 5} {d : TDirection} (h : Tdir.ofCode dir = d.pattern) :
    dir = d.code := by
  revert h
  cases d <;> revert dir <;> decide

namespace Motion

/-- `clearCounters` leaves the odometer with every count at zero. -/
theorem clearCounters_odometer (m : Motion) : m.clearCounters.odometer = .zero := by
  ext wheel d
  · cases wheel <;> cases d <;> rfl
  · rfl
  · rfl

/-- The distance rule of `loop()` counts nothing. -/
theorem distanceRule_odometer (m : Motion) : m.distanceRule.odometer = m.odometer := by
  unfold distanceRule
  split_ifs <;> rfl

/-- The turn rule of `loop()` counts nothing. -/
theorem turnRule_odometer (m : Motion) : m.turnRule.odometer = m.odometer := by
  unfold turnRule
  split_ifs <;> rfl

/-- A pulse of the left encoder is counted under the movement in progress. -/
theorem leftISR_odometer {m : Motion} {d : TDirection} (h : m.dir = d.code) :
    m.leftISR.odometer = m.odometer.count .left d := by
  cases d <;> ext wheel d' <;>
    first
      | (cases wheel <;> cases d' <;> simp [leftISR, h, odometer, Odometer.count, TDirection.code])
      | simp [leftISR, h, odometer, Odometer.count, TDirection.code]

/-- A pulse of the right encoder is counted under the movement in progress. -/
theorem rightISR_odometer {m : Motion} {d : TDirection} (h : m.dir = d.code) :
    m.rightISR.odometer = m.odometer.count .right d := by
  cases d <;> ext wheel d' <;>
    first
      | (cases wheel <;> cases d' <;> simp [rightISR, h, odometer, Odometer.count, TDirection.code])
      | simp [rightISR, h, odometer, Odometer.count, TDirection.code]

/-- A pulse of the left encoder of a stopped robot is counted nowhere. -/
theorem leftISR_of_stopped {m : Motion} (h : m.dir = Tdir.stop.code) : m.leftISR = m := by
  simp [leftISR, h, Tdir.code, TDirection.code]

/-- While `dir` says stop, a pulse of the right encoder is not counted. -/
theorem rightISR_of_stopped {m : Motion} (h : m.dir = Tdir.stop.code) : m.rightISR = m := by
  simp [rightISR, h, Tdir.code, TDirection.code]

end Motion

/-- The checks of `loop()` count nothing. -/
theorem checked_odometer (m : Motion) (guardEcho : UInt32) :
    (Alex.checked m guardEcho).odometer = m.odometer := by
  rw [Alex.checked, Motion.turnRule_odometer, Motion.distanceRule_odometer]
  split <;> rfl

/-- A packet that does not clear the counters leaves the odometer alone. -/
theorem effect_odometer (m : Motion) {effect : Effect} (h : effect ≠ .clear) :
    (effect.apply m).odometer = m.odometer := by
  cases effect with
  | ignore => rfl
  | halt => rfl
  | clear => exact absurd rfl h
  | start d dist speed => cases d <;> rfl
  | timed d ms => cases d <;> rfl

/-- The operation is a pulse of the given wheel's encoder. -/
def Alex.Op.isPulse (wheel : Wheel) : Alex.Op → Bool
  | .leftPulse => wheel = .left
  | .rightPulse => wheel = .right
  | .packet _ _ => false
  | .loop _ => false

/-- The operation handles a packet that clears the counters. -/
def Alex.clears (a : Alex) (op : Alex.Op) : Bool :=
  match a.handles op with
  | some (packet, _) => decide (packet.IsCommand ∧ packet.command = TCommandType.clearStats.code)
  | none => false

/-- The steps of a run since the counters were last cleared. -/
def sinceClear (past : List (Alex × Alex.Op)) : List (Alex × Alex.Op) :=
  past.rtakeWhile fun taken => !taken.1.clears taken.2

/-- The pulses of a wheel since the counters were last cleared, while the motors ran in a pattern. -/
def pulses (past : List (Alex × Alex.Op)) (wheel : Wheel) (pattern : Tdir) : ℕ :=
  (sinceClear past).countP fun taken => taken.2.isPulse wheel && decide (taken.1.motors.InPattern pattern)

/-- One more step starts the count again, or adds the pulse that it is. -/
theorem pulses_concat (past : List (Alex × Alex.Op)) (a : Alex) (op : Alex.Op) (wheel : Wheel)
    (pattern : Tdir) :
    pulses (past ++ [(a, op)]) wheel pattern =
      if a.clears op then 0
      else pulses past wheel pattern + if op.isPulse wheel ∧ a.motors.InPattern pattern then 1 else 0 := by
  rw [pulses, sinceClear, List.rtakeWhile_concat]
  cases hclears : a.clears op with
  | true => rfl
  | false =>
    simp only [Bool.not_false, if_true, List.countP_append, List.countP_singleton, Bool.and_eq_true,
      decide_eq_true_eq, Bool.false_eq_true, if_false]
    rfl

/-- The odometer agrees with the history: every counter holds the pulses of its wheel under its
pattern, and the distances are those of the left wheel. -/
structure Tallied (o : Odometer) (past : List (Alex × Alex.Op)) : Prop where
  counter : ∀ wheel d, o.counter wheel d = UInt32.ofNat (pulses past wheel d.pattern)
  forwardDist : o.forwardDist = Motion.tickDistance (o.counter .left .forward)
  reverseDist : o.reverseDist = Motion.tickDistance (o.counter .left .backward)

/-- A zeroed odometer agrees with a history that has counted nothing. -/
theorem tallied_zero {past : List (Alex × Alex.Op)} (h : ∀ wheel pattern, pulses past wheel pattern = 0) :
    Tallied .zero past where
  counter wheel d := by
    rw [h]
    rfl
  forwardDist := by decide +kernel
  reverseDist := by decide +kernel

/-- A step that counts nothing keeps the odometer in agreement with the history. -/
theorem Tallied.of_same {o : Odometer} {past past' : List (Alex × Alex.Op)} (h : Tallied o past)
    (hsame : ∀ wheel d, pulses past' wheel (TDirection.pattern d) = pulses past wheel d.pattern) :
    Tallied o past' where
  counter wheel d := (h.counter wheel d).trans (congrArg UInt32.ofNat (hsame wheel d).symm)
  forwardDist := h.forwardDist
  reverseDist := h.reverseDist

/-- A pulse that history and odometer count alike keeps the agreement. -/
theorem Tallied.count {o : Odometer} {past past' : List (Alex × Alex.Op)} (h : Tallied o past)
    {wheel : Wheel} {d : TDirection} (hcount : ∀ wheel' d', pulses past' wheel' d'.pattern =
      pulses past wheel' d'.pattern + if wheel = wheel' ∧ d = d' then 1 else 0) :
    Tallied (o.count wheel d) past' where
  counter wheel' d' := by
    rw [hcount, Odometer.count]
    dsimp only
    by_cases hcase : wheel = wheel' ∧ d = d'
    · obtain ⟨rfl, rfl⟩ := hcase
      rw [if_pos ⟨rfl, rfl⟩, if_pos ⟨rfl, rfl⟩, UInt32.ofNat_add, h.counter]
      rfl
    · rw [if_neg hcase, if_neg hcase, Nat.add_zero, h.counter]
  forwardDist := by
    by_cases hcase : wheel = .left ∧ d = .forward
    · obtain ⟨rfl, rfl⟩ := hcase
      rfl
    · simp only [Odometer.count, if_neg hcase]
      exact h.forwardDist
  reverseDist := by
    by_cases hcase : wheel = .left ∧ d = .backward
    · obtain ⟨rfl, rfl⟩ := hcase
      rfl
    · simp only [Odometer.count, if_neg hcase]
      exact h.reverseDist

/-- The motors of a patterned robot run in one pattern, that of `dir`. -/
theorem inPattern_iff {a : Alex} (h : Patterned a.control) (pattern : Tdir) :
    a.motors.InPattern pattern ↔ Tdir.ofCode a.dir = pattern := by
  have hcommands : a.motors.commands = (Tdir.ofCode a.dir).motorCommands := h
  rw [Motors.InPattern, hcommands]
  exact motorCommands_injective.eq_iff

section Steps

variable {a : Alex} {past : List (Alex × Alex.Op)} (h : Tallied a.odometer past)

include h

/-- An operation that handles a packet keeps the agreement. -/
theorem tallied_handled {op : Alex.Op} {packet : TPacket} {m : Motion}
    (hhandles : a.handles op = some (packet, m)) : Tallied (a.step op).odometer (past ++ [(a, op)]) := by
  obtain ⟨hstep, hm⟩ := Alex.step_of_handles hhandles
  have hsame : m.odometer = a.odometer := by
    rcases hm with rfl | ⟨echo, rfl⟩
    · rfl
    · exact checked_odometer a.toMotion echo
  have hpulse (wheel : Wheel) : op.isPulse wheel = false := by
    cases op with
    | leftPulse => cases hhandles
    | rightPulse => cases hhandles
    | packet _ _ => rfl
    | loop _ => rfl
  have hclears : a.clears op = true ↔ packet.effect = .clear := by
    rw [Alex.clears, hhandles, decide_eq_true_iff, effect_eq_clear_iff]
  rw [hstep]
  by_cases hclear : packet.effect = .clear
  · rw [hclear, Effect.apply, Motion.clearCounters_odometer]
    apply tallied_zero
    intro wheel pattern
    rw [pulses_concat, if_pos (hclears.mpr hclear)]
  · rw [effect_odometer m hclear, hsame]
    apply h.of_same
    intro wheel d
    rw [pulses_concat, if_neg fun hc => hclear (hclears.mp hc), if_neg fun hc => by
      rw [hpulse wheel] at hc
      exact Bool.false_ne_true hc.1, Nat.add_zero]

/-- An iteration of `loop()` that handles no packet keeps the agreement. -/
theorem tallied_unhandled {s : Alex.Surroundings} (hnone : a.accepted s = none) :
    Tallied (a.step (.loop s)).odometer (past ++ [(a, .loop s)]) := by
  have hclears : a.clears (.loop s) = false := by
    rw [Alex.clears, Alex.handles, hnone]
    rfl
  have hstep : (a.step (.loop s)).odometer = a.odometer := by
    rw [Alex.step, Alex.loop_toMotion, hnone]
    exact checked_odometer a.toMotion s.guardEcho
  rw [hstep]
  apply h.of_same
  intro wheel d
  rw [pulses_concat, hclears, if_neg Bool.false_ne_true, if_neg fun hc => Bool.false_ne_true hc.1,
    Nat.add_zero]

/-- A pulse of a wheel keeps the agreement, when the operation counts it as the interrupt does. -/
theorem tallied_pulse {op : Alex.Op} (wheel : Wheel) (hpattern : Patterned a.control)
    (hop : ∀ wheel', op.isPulse wheel' = decide (wheel = wheel')) (hnone : a.handles op = none)
    (hstopped : a.dir = Tdir.stop.code → (a.step op).odometer = a.odometer)
    (hmoving : ∀ d : TDirection, a.dir = d.code → (a.step op).odometer = a.odometer.count wheel d) :
    Tallied (a.step op).odometer (past ++ [(a, op)]) := by
  have hclears : a.clears op = false := by
    rw [Alex.clears, hnone]
  rcases stop_or_pattern (Tdir.ofCode a.dir) with hstop | ⟨d, hd⟩
  · rw [hstopped (code_of_stop hstop)]
    apply h.of_same
    intro wheel' d
    have hother : ¬ a.motors.InPattern d.pattern := by
      rw [inPattern_iff hpattern, hstop]
      exact (pattern_ne_stop d).symm
    rw [pulses_concat, hclears, if_neg Bool.false_ne_true, if_neg fun hc => hother hc.2, Nat.add_zero]
  · rw [hmoving d (code_of_pattern hd)]
    apply h.count
    intro wheel' d'
    have hcounted : (op.isPulse wheel' = true ∧ a.motors.InPattern d'.pattern) ↔
        wheel = wheel' ∧ d = d' := by
      rw [hop, decide_eq_true_iff, inPattern_iff hpattern, hd, pattern_injective.eq_iff]
    rw [pulses_concat, hclears, if_neg Bool.false_ne_true]
    exact congrArg _ (if_congr hcounted rfl rfl)

end Steps

/-- One operation keeps the odometer in agreement with the history. -/
theorem step_tallied (a : Alex) (past : List (Alex × Alex.Op)) (op : Alex.Op)
    (h : Patterned a.control ∧ Tallied a.odometer past) :
    Patterned (a.step op).control ∧ Tallied (a.step op).odometer (past ++ [(a, op)]) := by
  obtain ⟨hpattern, htallied⟩ := h
  refine ⟨step_patterned a op hpattern, ?_⟩
  cases op with
  | leftPulse =>
    apply tallied_pulse htallied .left hpattern
    · intro wheel
      cases wheel <;> rfl
    · rfl
    · exact fun hstop => congrArg Motion.odometer (Motion.leftISR_of_stopped hstop)
    · exact fun d hd => Motion.leftISR_odometer hd
  | rightPulse =>
    apply tallied_pulse htallied .right hpattern
    · intro wheel
      cases wheel <;> rfl
    · rfl
    · exact fun hstop => congrArg Motion.odometer (Motion.rightISR_of_stopped hstop)
    · exact fun d hd => Motion.rightISR_odometer hd
  | packet packet sensors => exact tallied_handled htallied rfl
  | loop s =>
    cases haccepted : a.accepted s with
    | none => exact tallied_unhandled htallied haccepted
    | some packet => exact tallied_handled htallied (by rw [Alex.handles, haccepted]; rfl)

/-- The exact distance in cm, rounded down, for a number of ticks. -/
def tickCentimetres (ticks : UInt32) : ℤ := ⌊(ticks.toNat : ℚ) * wheelCirc / countsPerRev⌋

/-- A distance in centimetres that fits 32 bits is the exact one, without its fraction. -/
theorem tickDistance_eq {ticks : UInt32} (hfit : tickCentimetres ticks < 2 ^ 32) :
    ((Motion.tickDistance ticks).toNat : ℤ) = tickCentimetres ticks := by
  have hvalue : (ticks.toNat : ℚ) / countsPerRev * wheelCirc = ticks.toNat * wheelCirc / countsPerRev :=
    div_mul_eq_mul_div _ _ _
  have hnonneg : 0 ≤ (ticks.toNat : ℚ) * wheelCirc / countsPerRev := by
    apply div_nonneg
    · exact mul_nonneg (Nat.cast_nonneg _) (by decide +kernel)
    · decide +kernel
  rw [Motion.tickDistance, hvalue]
  exact Conversion.toNat_toUInt32 hnonneg hfit

/-- What the counters and the distances hold, for a count of the pulses of each wheel under each
pattern. -/
structure Motion.Conserved (m : Motion) (count : Wheel → Tdir → ℕ) : Prop where
  leftForwardTicks : m.leftForwardTicks = UInt32.ofNat (count .left .go)
  leftReverseTicks : m.leftReverseTicks = UInt32.ofNat (count .left .back)
  leftReverseTurns : m.leftReverseTurns = UInt32.ofNat (count .left .ccw)
  leftForwardTurns : m.leftForwardTurns = UInt32.ofNat (count .left .cw)
  rightForwardTicks : m.rightForwardTicks = UInt32.ofNat (count .right .go)
  rightReverseTicks : m.rightReverseTicks = UInt32.ofNat (count .right .back)
  rightForwardTurns : m.rightForwardTurns = UInt32.ofNat (count .right .ccw)
  rightReverseTurns : m.rightReverseTurns = UInt32.ofNat (count .right .cw)
  forwardDist : tickCentimetres m.leftForwardTicks < 2 ^ 32 →
    (m.forwardDist.toNat : ℤ) = tickCentimetres m.leftForwardTicks
  reverseDist : tickCentimetres m.leftReverseTicks < 2 ^ 32 →
    (m.reverseDist.toNat : ℤ) = tickCentimetres m.leftReverseTicks

/-- An odometer in agreement with the history conserves the pulses. -/
theorem Tallied.conserved {m : Motion} {past : List (Alex × Alex.Op)} (h : Tallied m.odometer past) :
    m.Conserved (pulses past) where
  leftForwardTicks := h.counter .left .forward
  leftReverseTicks := h.counter .left .backward
  leftReverseTurns := h.counter .left .left
  leftForwardTurns := h.counter .left .right
  rightForwardTicks := h.counter .right .forward
  rightReverseTicks := h.counter .right .backward
  rightForwardTurns := h.counter .right .left
  rightReverseTurns := h.counter .right .right
  forwardDist hfit := (congrArg (fun dist => (dist.toNat : ℤ)) h.forwardDist).trans (tickDistance_eq hfit)
  reverseDist hfit := (congrArg (fun dist => (dist.toNat : ℤ)) h.reverseDist).trans (tickDistance_eq hfit)

/-- After every run each counter holds the pulses of its wheel under its pattern since the counters
were last cleared, the distances are those of the left wheel, and a pulse while the motors are
stopped counts nowhere. -/
theorem odometry_conserved (alexCirc : ℚ) (stack : Stack) (memory : Memory Obj UInt8)
    (ops : List Alex.Op) :
    let setup := Alex.setup alexCirc stack memory
    let a := Run.after Alex.step setup ops
    a.toMotion.Conserved (pulses (Run.trace Alex.step setup ops)) ∧
      (a.motors.InPattern .stop →
        (a.step .leftPulse).toMotion = a.toMotion ∧ (a.step .rightPulse).toMotion = a.toMotion) := by
  intro setup a
  have hsetup : Patterned setup.control ∧ Tallied setup.odometer [] := by
    refine ⟨rfl, ?_⟩
    have hzero : setup.odometer = .zero := Motion.clearCounters_odometer _
    rw [hzero]
    exact tallied_zero fun _ _ => rfl
  obtain ⟨hpattern, htallied⟩ := Run.after_trace_invariant
    (fun a past => Patterned a.control ∧ Tallied a.odometer past) step_tallied hsetup ops
  refine ⟨htallied.conserved, fun hstop => ?_⟩
  have hdir : a.dir = Tdir.stop.code := code_of_stop ((inPattern_iff hpattern .stop).mp hstop)
  exact ⟨Motion.leftISR_of_stopped hdir, Motion.rightISR_of_stopped hdir⟩

end AlexRobot
