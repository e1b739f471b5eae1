import AlexRobot.Arduino.Control
import AlexRobot.Common.Run

/-!
# The collision guard

`forward` sets the guard of the ultrasonic stop and `stop` clears it. The other three
movements neither set nor clear it, so the guard matches the direction until one of them
takes over from a forward motion that was not stopped first.
-/

namespace AlexRobot

open TracedMemory

/-- The guard is set exactly while the robot drives forward. -/
def Guarded (c : Control) : Prop := c.preventCollision = true ↔ c.dir = TDirection.forward.code

/-- A halted robot is guarded, as it does not move forward. -/
theorem guarded_halted (c : Control) : Guarded c.halted := by
  have hdir : Tdir.stop.code ≠ TDirection.forward.code := by decide
  exact iff_of_false Bool.false_ne_true hdir

/-- Among the four directions only `forward` has the code of `forward`. -/
theorem code_eq_forward_iff (d : TDirection) : d.code = TDirection.forward.code ↔ d = .forward := by
  cases d <;> decide

/-- Only `forward` sets the guard, and no movement clears it. -/
theorem started_preventCollision (c : Control) (d : TDirection) (delta : UInt32) (speed : ℚ) :
    (c.started d delta speed).preventCollision = (decide (d = .forward) || c.preventCollision) := by
  cases d <;> rfl

/-- Starting a movement keeps the guard right exactly when it is a forward movement or does not
replace one. -/
theorem guarded_started_iff {c : Control} (h : Guarded c) (d : TDirection) (delta : UInt32) (speed : ℚ) :
    Guarded (c.started d delta speed) ↔ (d ≠ .forward → c.dir ≠ TDirection.forward.code) := by
  rw [Guarded, Control.started_dir, started_preventCollision, code_eq_forward_iff]
  by_cases hforward : d = .forward
  · simp [hforward]
  · have hguard : c.preventCollision = true ↔ c.dir = TDirection.forward.code := h
    rw [decide_eq_false hforward, Bool.false_or, hguard]
    simp [hforward]

/-- A packet keeps the guard right exactly when it does not replace a forward motion by another. -/
theorem guarded_effect_iff {m : Motion} (h : Guarded m.control) (effect : Effect) :
    Guarded (effect.apply m).control ↔
      ∀ d dist speed, effect = .start d dist speed → d ≠ .forward → m.dir ≠ TDirection.forward.code := by
  cases effect with
  | ignore => exact iff_of_true h nofun
  | halt => exact iff_of_true (guarded_halted m.control) nofun
  | clear => exact iff_of_true h nofun
  | start d dist speed =>
    obtain ⟨delta, -, hstarted⟩ := Motion.drive_control d dist speed m
    rw [Effect.apply, hstarted, guarded_started_iff h]
    constructor
    · intro hkeeps d' dist' speed' heffect
      cases heffect
      exact hkeeps
    · intro hkeeps
      exact hkeeps d dist speed rfl
  | timed d ms =>
    rw [timed_control]
    exact iff_of_true (guarded_halted _) nofun

/-- The operation replaces no forward motion by another one: a packet that it handles is not an
untimed reverse or turn command, unless `dir` is then not `FORWARD`. -/
def ReplacesNoForward (a : Alex) (op : Alex.Op) : Prop :=
  ∀ packet m, a.handles op = some (packet, m) →
    (packet.Starts .backward ∨ packet.Starts .left ∨ packet.Starts .right) →
      m.dir ≠ TDirection.forward.code

/-- A movement that is not forward is one of the other three. -/
theorem starts_other_iff (packet : TPacket) :
    (packet.Starts .backward ∨ packet.Starts .left ∨ packet.Starts .right) ↔
      ∃ d, d ≠ .forward ∧ packet.Starts d := by
  constructor
  · rintro (h | h | h)
    · exact ⟨.backward, by decide, h⟩
    · exact ⟨.left, by decide, h⟩
    · exact ⟨.right, by decide, h⟩
  · rintro ⟨d, hne, h⟩
    cases d with
    | forward => exact absurd rfl hne
    | backward => exact Or.inl h
    | left => exact Or.inr (Or.inl h)
    | right => exact Or.inr (Or.inr h)

/-- One operation keeps the guard right exactly when it replaces no forward motion. -/
theorem step_guarded_iff {a : Alex} (h : Guarded a.control) (op : Alex.Op) :
    Guarded (a.step op).control ↔ ReplacesNoForward a op := by
  rcases step_preserves guarded_halted h op with ⟨hnone, hstep⟩ | ⟨packet, m, hsome, hguarded, hstep⟩
  · refine iff_of_true hstep fun packet m hsome => ?_
    rw [hnone] at hsome
    cases hsome
  · rw [hstep, guarded_effect_iff hguarded]
    constructor
    · intro hkeeps packet' m' hsome' hstarts
      rw [hsome] at hsome'
      cases hsome'
      obtain ⟨d, hne, hd⟩ := (starts_other_iff packet).mp hstarts
      obtain ⟨dist, speed, heffect⟩ := (effect_eq_start_iff packet d).mpr hd
      exact hkeeps d dist speed heffect hne
    · intro hkeeps d dist speed heffect hne
      have hd := (effect_eq_start_iff packet d).mp ⟨dist, speed, heffect⟩
      exact hkeeps packet m hsome ((starts_other_iff packet).mpr ⟨d, hne, hd⟩)

/-- After `setup()` the robot is stopped and unguarded. -/
theorem guarded_setup (alexCirc : ℚ) (stack : Stack) (memory : Memory Obj UInt8) :
    Guarded (Alex.setup alexCirc stack memory).control := by
  have hdir : Tdir.stop.code ≠ TDirection.forward.code := by decide
  exact iff_of_false Bool.false_ne_true hdir

/-- A reverse command during a forward motion leaves the robot backing away with the guard set. -/
theorem collision_guard_refuted :
    ¬ ∀ (alexCirc : ℚ) (stack : Stack) (memory : Memory Obj UInt8) (ops : List Alex.Op),
      Run.Throughout Alex.step (fun a => a.preventCollision = true ↔ a.dir = TDirection.forward.code)
        (Alex.setup alexCirc stack memory) ops := by
  intro hclaim
  let forward : Alex.Op := .packet (.bare .commandKeyboard .forward) .silent
  let reverse : Alex.Op := .packet (.bare .commandKeyboard .reverse) .silent
  obtain ⟨-, hguarded, hreversed⟩ := hclaim 0 ⟨fun _ => .bare .commandKeyboard .stop, fun _ => zeroComms⟩
    ⟨fun _ _ => 0, []⟩ [forward, reverse]
  have hmoving : (Alex.fresh.step forward).dir = TDirection.forward.code :=
    congrArg Motion.dir (Alex.handlePacket_toMotion _ _ Alex.fresh)
  have hbefore : Guarded (Alex.fresh.step forward).control := hguarded
  have hreplaces := (step_guarded_iff hbefore reverse).mp hreversed
  exact hreplaces _ _ rfl (Or.inl ⟨Or.inr rfl, rfl⟩) hmoving

/-- Throughout a run the guard is set exactly while the robot drives forward, if and only if no
operation of the run replaces a forward motion by another. -/
theorem collision_guard (alexCirc : ℚ) (stack : Stack) (memory : Memory Obj UInt8) (ops : List Alex.Op) :
    Run.Throughout Alex.step (fun a => a.preventCollision = true ↔ a.dir = TDirection.forward.code)
        (Alex.setup alexCirc stack memory) ops ↔
      Run.Along Alex.step ReplacesNoForward (Alex.setup alexCirc stack memory) ops := by
  apply Run.throughout_iff_along fun a => Guarded a.control
  · intro a h
    exact h
  · intro a op h hguard
    exact (step_guarded_iff h op).mpr hguard
  · intro a op h hnext
    exact (step_guarded_iff h op).mp hnext
  · exact guarded_setup alexCirc stack memory

end AlexRobot
