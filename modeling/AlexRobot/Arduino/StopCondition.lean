import AlexRobot.Arduino.Control
import AlexRobot.Common.Run

/-!
# Moving and stopping

A moving robot is armed when the stop rule for its motion still has something to count down.
Starting a movement arms it, halting ends it, and only clearing the counters can take the
condition away from a running motion. A stopped robot stays quiet until an accepted movement
command of the two untimed types.
-/

namespace AlexRobot

open Alex (handlePacket_toMotion)
open TracedMemory

/-- The stop condition of the motion in progress is live. -/
structure Armed (c : Control) : Prop where
  distance : c.dir = TDirection.forward.code ∨ c.dir = TDirection.backward.code → 0 < c.deltaDist
  turn : c.dir = TDirection.left.code ∨ c.dir = TDirection.right.code → 0 < c.deltaTicks

/-- A stopped robot is armed, as it does not move at all. -/
theorem armed_of_stopped {c : Control} (h : c.dir = Tdir.stop.code) : Armed c := by
  constructor
  · rw [h]
    rintro (hdir | hdir) <;> exact absurd hdir (by decide)
  · rw [h]
    rintro (hdir | hdir) <;> exact absurd hdir (by decide)

/-- A halted robot is armed, as it is stopped. -/
theorem armed_halted (c : Control) : Armed c.halted := armed_of_stopped rfl

/-- A movement that starts with something left to travel is armed. -/
theorem armed_started (c : Control) (d : TDirection) {delta : UInt32} (hdelta : 0 < delta) (speed : ℚ) :
    Armed (c.started d delta speed) := by
  constructor
  · rw [Control.started_dir]
    intro hdir
    cases d with
    | forward => exact hdelta
    | backward => exact hdelta
    | left => rcases hdir with hdir | hdir <;> exact absurd hdir (by decide)
    | right => rcases hdir with hdir | hdir <;> exact absurd hdir (by decide)
  · rw [Control.started_dir]
    intro hdir
    cases d with
    | forward => rcases hdir with hdir | hdir <;> exact absurd hdir (by decide)
    | backward => rcases hdir with hdir | hdir <;> exact absurd hdir (by decide)
    | left => exact hdelta
    | right => exact hdelta

/-- Every direction but the stop is one of the four movements. -/
theorem dir_cases (dir : Fin 5) :
    dir = Tdir.stop.code ∨ (dir = TDirection.forward.code ∨ dir = TDirection.backward.code) ∨
      (dir = TDirection.left.code ∨ dir = TDirection.right.code) := by
  revert dir
  decide

/-- Clearing the counters keeps a robot armed only when it is stopped. -/
theorem armed_disarmed_iff (c : Control) : Armed c.disarmed ↔ c.dir = Tdir.stop.code := by
  constructor
  · intro h
    rcases dir_cases c.dir with hstop | hmoving | hturning
    · exact hstop
    · exact absurd (h.distance hmoving) (lt_irrefl 0)
    · exact absurd (h.turn hturning) (lt_irrefl 0)
  · intro hstop
    exact armed_of_stopped hstop

/-- A packet keeps the robot armed exactly when it does not clear the counters of a moving robot. -/
theorem armed_effect_iff {m : Motion} (h : Armed m.control) (effect : Effect) :
    Armed (effect.apply m).control ↔ (effect = .clear → m.dir = Tdir.stop.code) := by
  cases effect with
  | ignore => exact iff_of_true h nofun
  | halt => exact iff_of_true (armed_halted m.control) nofun
  | clear =>
    rw [Effect.apply, Motion.clearCounters_control, armed_disarmed_iff]
    exact ⟨fun hstop _ => hstop, fun hstop => hstop rfl⟩
  | start d dist speed =>
    obtain ⟨delta, hdelta, hstarted⟩ := Motion.drive_control d dist speed m
    refine iff_of_true ?_ nofun
    rw [Effect.apply, hstarted]
    exact armed_started _ d hdelta speed
  | timed d ms =>
    rw [timed_control]
    exact iff_of_true (armed_halted _) nofun

/-- The operation clears no counters while the robot moves: a packet that it handles is not a
`COMMAND_CLEAR_STATS` of a command type, unless `dir` is then `STOP`. -/
def ClearsAtRest (a : Alex) (op : Alex.Op) : Prop :=
  ∀ packet m, a.handles op = some (packet, m) → packet.IsCommand →
    packet.command = TCommandType.clearStats.code → m.dir = Tdir.stop.code

/-- One operation keeps an armed robot armed exactly when it clears no counters under way. -/
theorem step_armed_iff {a : Alex} (h : Armed a.control) (op : Alex.Op) :
    Armed (a.step op).control ↔ ClearsAtRest a op := by
  rcases step_preserves armed_halted h op with ⟨hnone, hstep⟩ | ⟨packet, m, hsome, harmed, hstep⟩
  · refine iff_of_true hstep fun packet m hsome => ?_
    rw [hnone] at hsome
    cases hsome
  · rw [hstep, armed_effect_iff harmed, effect_eq_clear_iff]
    constructor
    · intro hrest packet' m' hsome' hcommand hclear
      rw [hsome] at hsome'
      cases hsome'
      exact hrest ⟨hcommand, hclear⟩
    · intro hrest hclear
      exact hrest packet m hsome hclear.1 hclear.2

/-- After `setup()` the robot is stopped, and so it is armed. -/
theorem armed_setup (alexCirc : ℚ) (stack : Stack) (memory : Memory Obj UInt8) :
    Armed (Alex.setup alexCirc stack memory).control := armed_of_stopped rfl

/-- Clearing the statistics of a robot that drives forward leaves it driving with no stop. -/
theorem stop_condition_refuted :
    ¬ ∀ (alexCirc : ℚ) (stack : Stack) (memory : Memory Obj UInt8) (ops : List Alex.Op),
      Run.Throughout Alex.step (fun a => Armed a.control) (Alex.setup alexCirc stack memory) ops := by
  intro hclaim
  let forward : Alex.Op := .packet (.bare .commandKeyboard .forward) .silent
  let clear : Alex.Op := .packet (.bare .commandKeyboard .clearStats) .silent
  obtain ⟨-, harmed, hcleared⟩ := hclaim 0 ⟨fun _ => .bare .commandKeyboard .stop, fun _ => zeroComms⟩
    ⟨fun _ _ => 0, []⟩ [forward, clear]
  have hmoving : (Alex.fresh.step forward).dir = TDirection.forward.code :=
    congrArg Motion.dir (handlePacket_toMotion _ _ Alex.fresh)
  have hrest := (step_armed_iff harmed clear).mp hcleared _ _ rfl (Or.inr (Or.inl rfl)) rfl
  exact absurd (hmoving.symm.trans hrest) (by decide)

/-- Throughout a run a moving robot has an armed stop condition exactly when no operation of the
run clears the counters of a moving robot. -/
theorem stop_condition (alexCirc : ℚ) (stack : Stack) (memory : Memory Obj UInt8) (ops : List Alex.Op) :
    Run.Throughout Alex.step (fun a => Armed a.control) (Alex.setup alexCirc stack memory) ops ↔
      Run.Along Alex.step ClearsAtRest (Alex.setup alexCirc stack memory) ops := by
  apply Run.throughout_iff_along fun a => Armed a.control
  · intro a h
    exact h
  · intro a op h hguard
    exact (step_armed_iff h op).mpr hguard
  · intro a op h hnext
    exact (step_armed_iff h op).mp hnext
  · exact armed_setup alexCirc stack memory

/-- All four motors were last given the speed 0. -/
structure Motors.Still (motors : Motors) : Prop where
  fl : motors.fl.speed = 0
  fr : motors.fr.speed = 0
  bl : motors.bl.speed = 0
  br : motors.br.speed = 0

/-- Moving at speed 0 gives every motor speed 0, whatever the direction. -/
theorem still_move_zero (motors : Motors) (direction : Fin 5) : (motors.move 0 direction).Still := by
  have hspeed : (motors.setSpeed (Conversion.toInt16 (0 / 100 * 255))).Still := by
    rw [zero_div, zero_mul, Conversion.toInt16_zero]
    exact ⟨rfl, rfl, rfl, rfl⟩
  unfold Motors.move
  cases Tdir.ofCode direction with
  | stop => exact ⟨hspeed.fl, hspeed.fr, hspeed.bl, hspeed.br⟩
  | go => exact ⟨hspeed.fl, hspeed.fr, hspeed.bl, hspeed.br⟩
  | back => exact ⟨hspeed.fl, hspeed.fr, hspeed.bl, hspeed.br⟩
  | ccw => exact ⟨hspeed.fl, hspeed.fr, hspeed.bl, hspeed.br⟩
  | cw => exact ⟨hspeed.fl, hspeed.fr, hspeed.bl, hspeed.br⟩

/-- What a stopped robot is to have: still motors, nothing left to travel or to turn, and no guard. -/
structure AtRest (c : Control) : Prop where
  still : c.motors.Still
  deltaDist : c.deltaDist = 0
  deltaTicks : c.deltaTicks = 0
  preventCollision : c.preventCollision = false

/-- A halted robot is at rest, whatever it did before. -/
theorem atRest_halted (c : Control) : AtRest c.halted where
  still := still_move_zero c.motors Tdir.stop.code
  deltaDist := rfl
  deltaTicks := rfl
  preventCollision := rfl

/-- Whenever `dir` says stop, the robot is at rest. -/
def Quiet (c : Control) : Prop := c.dir = Tdir.stop.code → AtRest c

/-- The code of a movement's direction is never that of the stop. -/
theorem code_ne_stop (d : TDirection) : d.code ≠ Tdir.stop.code := by
  cases d <;> decide

/-- A halted robot is quiet, as it is at rest. -/
theorem quiet_halted (c : Control) : Quiet c.halted := fun _ => atRest_halted c

/-- Carrying out the effect of a packet keeps a robot quiet. -/
theorem quiet_effect {m : Motion} (h : Quiet m.control) (effect : Effect) :
    Quiet (effect.apply m).control := by
  cases effect with
  | ignore => exact h
  | halt => exact quiet_halted m.control
  | clear =>
    intro hstop
    obtain ⟨hstill, -, -, hguard⟩ := h hstop
    exact ⟨hstill, rfl, rfl, hguard⟩
  | start d dist speed =>
    obtain ⟨delta, -, hstarted⟩ := Motion.drive_control d dist speed m
    intro hstop
    rw [Effect.apply, hstarted, Control.started_dir] at hstop
    exact absurd hstop (code_ne_stop d)
  | timed d ms =>
    rw [timed_control]
    exact quiet_halted _

/-- One operation of the sketch keeps a robot quiet. -/
theorem step_quiet (a : Alex) (op : Alex.Op) (h : Quiet a.control) : Quiet (a.step op).control := by
  rcases step_preserves quiet_halted h op with ⟨-, hstep⟩ | ⟨packet, m, -, hquiet, hstep⟩
  · exact hstep
  · rw [hstep]
    exact quiet_effect hquiet packet.effect

/-- The checks of `loop()` leave a stopped robot stopped. -/
theorem checked_dir {m : Motion} (h : m.dir = Tdir.stop.code) (guardEcho : UInt32) :
    (Alex.checked m guardEcho).dir = Tdir.stop.code := by
  let stopped (c : Control) : Prop := c.dir = Tdir.stop.code
  have hchecked : stopped (Alex.checked m guardEcho).control := checked_preserves (fun _ => rfl) h guardEcho
  exact hchecked

/-- Only starting a movement makes a stopped robot move. -/
theorem effect_of_moves {m : Motion} (h : m.dir = Tdir.stop.code) {effect : Effect}
    (hmoves : (effect.apply m).dir ≠ Tdir.stop.code) : ∃ d dist speed, effect = .start d dist speed := by
  cases effect with
  | ignore => exact absurd h hmoves
  | halt => exact absurd rfl hmoves
  | clear => exact absurd h hmoves
  | start d dist speed => exact ⟨d, dist, speed, rfl⟩
  | timed d ms => exact absurd (congrArg Control.dir (timed_control d ms m)) hmoves

/-- An iteration of `loop()` that sets a stopped robot moving accepted an untimed movement command. -/
theorem accepted_of_moves {a : Alex} (h : a.dir = Tdir.stop.code) {s : Alex.Surroundings}
    (hmoves : (a.step (.loop s)).dir ≠ Tdir.stop.code) :
    ∃ packet, a.accepted s = some packet ∧ ∃ d, packet.Starts d := by
  have hloop : (a.step (.loop s)).dir = (((a.accepted s).elim Effect.ignore TPacket.effect).apply
      (Alex.checked a.toMotion s.guardEcho)).dir := congrArg Motion.dir (Alex.loop_toMotion a s)
  rw [hloop] at hmoves
  obtain ⟨d, dist, speed, heffect⟩ := effect_of_moves (checked_dir h s.guardEcho) hmoves
  cases haccepted : a.accepted s with
  | none =>
    rw [haccepted] at heffect
    cases heffect
  | some packet =>
    rw [haccepted] at heffect
    exact ⟨packet, rfl, d, (effect_eq_start_iff packet d).mp ⟨dist, speed, heffect⟩⟩

/-- After every run a stopped robot is at rest, and an iteration of `loop()` sets it moving only by
accepting a movement command of one of the two untimed types. -/
theorem stopped_stays_stopped (alexCirc : ℚ) (stack : Stack) (memory : Memory Obj UInt8)
    (ops : List Alex.Op) :
    let a := Run.after Alex.step (Alex.setup alexCirc stack memory) ops
    (a.dir = Tdir.stop.code → AtRest a.control) ∧
      ∀ s, a.dir = Tdir.stop.code → (a.step (.loop s)).dir ≠ Tdir.stop.code →
        ∃ packet, a.accepted s = some packet ∧ ∃ d, packet.Starts d := by
  intro a
  have hsetup : Quiet (Alex.setup alexCirc stack memory).control :=
    fun _ => ⟨⟨rfl, rfl, rfl, rfl⟩, rfl, rfl, rfl⟩
  have hquiet : Quiet a.control := Run.after_invariant step_quiet hsetup ops
  exact ⟨hquiet, fun s hstop hmoves => accepted_of_moves hstop hmoves⟩

end AlexRobot
