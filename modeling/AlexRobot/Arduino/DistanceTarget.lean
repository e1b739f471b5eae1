import AlexRobot.Arduino.AutomaticStop

/-!
# Distance targets and the 32-bit sum

Driving by a distance ends at `newDist`, the sum of the odometer reading and the distance of
the command. The parameter comes from the wire unchecked. A sum that fits 32 bits is a real
target; one that does not lies behind the reading, and the next iteration of `loop()` stops
the robot where it stands.
-/

namespace AlexRobot

open Alex (checked obstructed)
open TracedMemory

/-- The driving globals when `loop()` comes to its stop rules. -/
def afterGuard (m : Motion) (guardEcho : UInt32) : Motion := if obstructed m guardEcho then m.stop else m

/-- The iteration stops a moving robot by its distance rule. -/
def DistanceRuleStops (a : Alex) (s : Alex.Surroundings) : Prop :=
  (afterGuard a.toMotion s.guardEcho).dir ≠ Tdir.stop.code ∧
    (afterGuard a.toMotion s.guardEcho).distanceRule.dir = Tdir.stop.code

/-- The operation handles no untimed movement command. -/
def StartsNothing (a : Alex) (op : Alex.Op) : Prop :=
  ∀ packet m, a.handles op = some (packet, m) → ∀ d, ¬ packet.Starts d

/-- As long as no other movement is started, the distance rule stops the robot only with a reading
of at least `distance`. -/
def TravelsTo (d : TDirection) (distance : ℕ) (a : Alex) : Prop :=
  ∀ ops s, Run.Along Alex.step StartsNothing a ops →
    DistanceRuleStops (Run.after Alex.step a ops) s →
      distance ≤ (d.reading (Run.after Alex.step a ops).toMotion).toNat

/-- The movement is still under way, or the distance rule has nothing left to do. -/
def Awaits (d : TDirection) (target : UInt32) (m : Motion) : Prop :=
  m.dir = Tdir.stop.code ∨ m.deltaDist = 0 ∨ Underway d target m

/-- A robot that was told to halt awaits no target. -/
theorem awaits_of_halted {d : TDirection} {target : UInt32} {m : Motion} {c : Control}
    (h : m.control = c.halted) : Awaits d target m := Or.inl (congrArg Control.dir h)

section Kept

variable {d : TDirection} {target : UInt32} {m : Motion} (h : Awaits d target m)

include h

/-- Awaiting a target depends on the controls and on the targets alone. -/
theorem Awaits.congr {m' : Motion} (hcontrol : m'.control = m.control)
    (hunderway : Underway d target m → Underway d target m') : Awaits d target m' := by
  rcases h with hstop | hnothing | hm
  · exact Or.inl ((congrArg Control.dir hcontrol).trans hstop)
  · exact Or.inr (Or.inl ((congrArg Control.deltaDist hcontrol).trans hnothing))
  · exact Or.inr (Or.inr (hunderway hm))

/-- The checks of `loop()` keep the robot awaiting its target, or halt it. -/
theorem Awaits.checked (guardEcho : UInt32) : Awaits d target (checked m guardEcho) := by
  rcases checked_cases m guardEcho with hsame | hhalted
  · rw [hsame]
    exact h
  · exact awaits_of_halted hhalted

/-- Every packet that starts no other movement keeps it. -/
theorem Awaits.effect {effect : Effect} (hstarts : ∀ d dist speed, effect ≠ .start d dist speed) :
    Awaits d target (effect.apply m) := by
  cases effect with
  | ignore => exact h
  | halt => exact Or.inl rfl
  | clear => exact Or.inr (Or.inl rfl)
  | start d dist speed => exact absurd rfl (hstarts d dist speed)
  | timed d ms => exact awaits_of_halted (timed_control d ms m)

/-- The distance rule stops the robot only from its target on. -/
theorem Awaits.reached {guardEcho : UInt32} (hmoving : (afterGuard m guardEcho).dir ≠ Tdir.stop.code)
    (hstops : (afterGuard m guardEcho).distanceRule.dir = Tdir.stop.code) :
    d.Reached m target := by
  have hclear : afterGuard m guardEcho = m := by
    rw [afterGuard]
    split
    · rename_i hobstructed
      rw [afterGuard, if_pos hobstructed] at hmoving
      exact absurd rfl hmoving
    · rfl
  rw [hclear] at hmoving hstops
  rcases h with hstop | hnothing | hm
  · exact absurd hstop hmoving
  · have hrule : m.distanceRule = m := if_neg (by rw [hnothing]; decide)
    rw [hrule] at hstops
    exact absurd hstops hmoving
  · by_contra hshort
    rw [(rules_of_not_reached hm hshort).1] at hstops
    exact hmoving hstops

end Kept

/-- Every operation that starts no other movement keeps it. -/
theorem step_awaits {d : TDirection} {target : UInt32} {a : Alex} {op : Alex.Op}
    (h : Awaits d target a.toMotion) (hstarts : StartsNothing a op) :
    Awaits d target (a.step op).toMotion := by
  cases hhandles : a.handles op with
  | none =>
    rcases Alex.step_of_handles_none hhandles with hstep | hstep | ⟨echo, hstep⟩ <;> rw [hstep]
    · exact h.congr (Motion.leftISR_control _) Underway.leftISR
    · exact h.congr (Motion.rightISR_control _) Underway.rightISR
    · exact h.checked echo
  | some handled =>
    obtain ⟨packet, m⟩ := handled
    obtain ⟨hstep, hm⟩ := Alex.step_of_handles hhandles
    have hawaits : Awaits d target m := by
      rcases hm with rfl | ⟨echo, rfl⟩
      · exact h
      · exact h.checked echo
    rw [hstep]
    refine hawaits.effect fun d' dist speed heffect => ?_
    exact hstarts packet m hhandles d' ((effect_eq_start_iff packet d').mp ⟨dist, speed, heffect⟩)

section Command

variable {a : Alex} {command : Alex.Op} {packet : TPacket} {m : Motion} {d : TDirection}
  (hstraight : d = .forward ∨ d = .backward) (hhandles : a.handles command = some (packet, m))
  (hmoves : packet.MovesBy d)

include hstraight

/-- The target of a straight movement is the reading plus the distance, in 32 bits. -/
theorem target_of_straight (m : Motion) (dist : UInt32) : d.target m dist = d.reading m + dist := by
  rcases hstraight with rfl | rfl <;> rfl

/-- A straight movement has reached its target when the reading exceeds it. -/
theorem reached_of_straight (m : Motion) (target : UInt32) :
    d.Reached m target ↔ target.toNat < (d.reading m).toNat := by
  rw [← UInt32.lt_iff_toNat_lt]
  rcases hstraight with rfl | rfl <;> rfl

/-- A straight movement that has reached its target is stopped by the distance rule. -/
theorem distanceRule_of_reached {m : Motion} {target : UInt32} (h : Underway d target m)
    (hreached : d.Reached m target) : m.distanceRule.dir = Tdir.stop.code := by
  rcases m.distanceRule_cases with hsame | hhalted
  · have hdir : m.dir = TDirection.forward.code ∨ m.dir = TDirection.backward.code := by
      rw [h.dir]
      exact hstraight.imp (congrArg TDirection.code) (congrArg TDirection.code)
    have hstopped := congrArg Control.dir (rules_of_reached h hreached)
    rw [hsame, turnRule_of_straight hdir] at hstopped
    rw [hsame]
    exact hstopped
  · exact congrArg Control.dir hhalted

include hhandles hmoves

/-- With a sum that fits, the distance rule waits for the distance. -/
theorem travelsTo_of_fits (hfits : (d.reading m).toNat + (packet.param 0).toNat < 2 ^ 32) :
    TravelsTo d ((d.reading m).toNat + (packet.param 0).toNat) (a.step command) := by
  intro ops s hops hstops
  have hawaits := Run.after_of_along (fun a : Alex => Awaits d (d.target m (packet.param 0)) a.toMotion)
    (fun a op h hguard => step_awaits h hguard) (Or.inr (Or.inr (underway_of_handles hhandles hmoves))) hops
  have hreached := (reached_of_straight hstraight _ _).mp (hawaits.reached hstops.1 hstops.2)
  rw [target_of_straight hstraight, UInt32.toNat_add, Nat.mod_eq_of_lt hfits] at hreached
  exact hreached.le

/-- With a sum that wraps, the next iteration of `loop()` stops the robot at once. -/
theorem not_travelsTo_of_wraps (hwraps : 2 ^ 32 ≤ (d.reading m).toNat + (packet.param 0).toNat) :
    ¬ TravelsTo d ((d.reading m).toNat + (packet.param 0).toNat) (a.step command) := by
  intro htravels
  have hunderway := underway_of_handles hhandles hmoves
  have hreading : d.reading (a.step command).toMotion = d.reading m := by
    rw [step_of_movesBy hhandles hmoves]
    cases d <;> rfl
  have hpositive : 0 < (packet.param 0).toNat := UInt32.lt_iff_toNat_lt.mp hmoves.positive
  have hreached : d.Reached (a.step command).toMotion (d.target m (packet.param 0)) := by
    have hparam := (packet.param 0).toNat_lt
    rw [reached_of_straight hstraight, hreading, target_of_straight hstraight, UInt32.toNat_add]
    omega
  have hclear : afterGuard (a.step command).toMotion idle.guardEcho = (a.step command).toMotion := by
    have hunobstructed := (leavesMotion_idle (a.step command)).unobstructed idle rfl
    rw [afterGuard, obstructed_eq_false _ hunobstructed, if_neg Bool.false_ne_true]
  have hstops : DistanceRuleStops (a.step command) idle := by
    rw [DistanceRuleStops, hclear, hunderway.dir]
    exact ⟨code_ne_stop d, distanceRule_of_reached hstraight hunderway hreached⟩
  have htravelled := htravels [] idle trivial hstops
  rw [Run.after, List.foldl_nil, hreading] at htravelled
  omega

end Command

/-- After the command to drive a distance, the distance rule waits for the reading at the command plus
the distance exactly when that sum fits 32 bits. -/
theorem distance_target (alexCirc : ℚ) (stack : Stack) (memory : Memory Obj UInt8) (before : List Alex.Op)
    (command : Alex.Op) (packet : TPacket) (m : Motion) (d : TDirection)
    (hstraight : d = .forward ∨ d = .backward)
    (hhandles : (Run.after Alex.step (Alex.setup alexCirc stack memory) before).handles command =
      some (packet, m))
    (hmoves : packet.MovesBy d) :
    TravelsTo d ((d.reading m).toNat + (packet.param 0).toNat)
        ((Run.after Alex.step (Alex.setup alexCirc stack memory) before).step command) ↔
      (d.reading m).toNat + (packet.param 0).toNat < 2 ^ 32 := by
  constructor
  · intro htravels
    by_contra hwraps
    exact not_travelsTo_of_wraps hstraight hhandles hmoves (Nat.le_of_not_lt hwraps) htravels
  · exact travelsTo_of_fits hstraight hhandles hmoves

/-- From `setup()` a robot told to drive 5 cm drives 5 cm. -/
theorem forward_distance_target :
    TravelsTo .forward 5 (Alex.fresh.step (.packet (forwardPacket 5) .silent)) :=
  (distance_target 0 ⟨fun _ => .bare .commandKeyboard .stop, fun _ => zeroComms⟩ ⟨fun _ _ => 0, []⟩ []
    (.packet (forwardPacket 5) .silent) (forwardPacket 5) Alex.fresh.toMotion .forward (Or.inl rfl) rfl
    (forwardPacket_movesBy (by decide))).mpr (by decide)

/-- A robot that has driven 259 cm and is told to drive `2 ^ 32 - 256` more stops at once. -/
theorem distance_target_refuted :
    ¬ ∀ (alexCirc : ℚ) (stack : Stack) (memory : Memory Obj UInt8) (before : List Alex.Op)
      (command : Alex.Op) (packet : TPacket) (m : Motion) (d : TDirection),
      d = .forward ∨ d = .backward →
      (Run.after Alex.step (Alex.setup alexCirc stack memory) before).handles command = some (packet, m) →
      packet.MovesBy d →
      TravelsTo d ((d.reading m).toNat + (packet.param 0).toNat)
        ((Run.after Alex.step (Alex.setup alexCirc stack memory) before).step command) := by
  intro hclaim
  let start : Alex.Op := .packet (forwardPacket 5) .silent
  let far : TPacket := forwardPacket 4294967040
  have hstart : Underway .forward _ (Alex.fresh.step start).toMotion :=
    underway_of_handles rfl (forwardPacket_movesBy (by decide : 0 < (5 : UInt32)))
  have hdriven := (after_leftPulses hstart.dir (by decide +kernel) 50).trans
    (by decide +kernel : _ = (259 : UInt32))
  have hafter := hclaim 0 ⟨fun _ => .bare .commandKeyboard .stop, fun _ => zeroComms⟩ ⟨fun _ _ => 0, []⟩
    (start :: List.replicate 50 .leftPulse) (.packet far .silent) far
  rw [Run.after_cons, ← Alex.fresh] at hafter
  generalize Run.after Alex.step (Alex.fresh.step start) (List.replicate 50 .leftPulse) = driven
    at hdriven hafter
  have hmoves : far.MovesBy .forward := forwardPacket_movesBy (by decide)
  have hhandles : driven.handles (.packet far .silent) = some (far, driven.toMotion) := rfl
  refine not_travelsTo_of_wraps (Or.inl rfl) hhandles hmoves ?_ (hafter _ _ (Or.inl rfl) hhandles hmoves)
  have hreading : (TDirection.forward.reading driven.toMotion).toNat = 259 := congrArg UInt32.toNat hdriven
  have hparam : (far.param 0).toNat = 4294967040 := rfl
  rw [hreading, hparam]
  decide

end AlexRobot
