import AlexRobot.Arduino.StopCondition

/-!
# The automatic stop

A movement that is under way waits in `loop()` for one counter to reach one target, both
fixed by its direction: the rule for the other kind of movement does not look at them. The
target is a sum of 32 bits, taken when the command is handled, so it lies ahead of the
counter exactly when the sum does not wrap.
-/

namespace AlexRobot

open Alex (checked getUltrasonicDistance obstructed)
open TracedMemory

/-- Where a command to move ends the movement; the sums have 32 bits. -/
def TDirection.target (m : Motion) (dist : UInt32) : TDirection → UInt32
  | .forward => m.forwardDist + dist
  | .backward => m.reverseDist + dist
  | .left => m.leftReverseTurns + m.computeDeltaTicks dist.toNat
  | .right => m.rightReverseTurns + m.computeDeltaTicks dist.toNat

/-- The counter that the stop rule compares with the target of a movement. -/
def TDirection.reading (m : Motion) : TDirection → UInt32
  | .forward => m.forwardDist
  | .backward => m.reverseDist
  | .left => m.leftReverseTurns
  | .right => m.rightReverseTurns

/-- The comparison that the stop rule makes: a distance must be exceeded, a turn only reached. -/
def TDirection.Reached (m : Motion) (target : UInt32) : TDirection → Prop
  | .forward => target < m.forwardDist
  | .backward => target < m.reverseDist
  | .left => target ≤ m.leftReverseTurns
  | .right => target ≤ m.rightReverseTurns

/-- The robot drives in direction `d`, and the rule of that movement waits for the target. -/
structure Underway (d : TDirection) (target : UInt32) (m : Motion) : Prop where
  dir : m.dir = d.code
  distance : d = .forward ∨ d = .backward → 0 < m.deltaDist ∧ m.newDist = target
  turn : d = .left ∨ d = .right → 0 < m.deltaTicks ∧ m.targetTicks = target

/-- The part of the driving globals that an interrupt leaves alone decides what is under way. -/
theorem Underway.congr {d : TDirection} {target : UInt32} {m m' : Motion} (h : Underway d target m)
    (hcontrol : m'.control = m.control) (hdist : m'.newDist = m.newDist)
    (hticks : m'.targetTicks = m.targetTicks) : Underway d target m' where
  dir := (congrArg Control.dir hcontrol).trans h.dir
  distance hd := by
    rw [hdist, show m'.deltaDist = m.deltaDist from congrArg Control.deltaDist hcontrol]
    exact h.distance hd
  turn hd := by
    rw [hticks, show m'.deltaTicks = m.deltaTicks from congrArg Control.deltaTicks hcontrol]
    exact h.turn hd

/-- A pulse of the left encoder changes nothing of what is under way. -/
theorem Underway.leftISR {d : TDirection} {target : UInt32} {m : Motion} (h : Underway d target m) :
    Underway d target m.leftISR := by
  refine h.congr m.leftISR_control ?_ ?_
  · unfold Motion.leftISR
    split_ifs <;> rfl
  · unfold Motion.leftISR
    split_ifs <;> rfl

/-- A pulse of the right encoder leaves the robot under way to the same target. -/
theorem Underway.rightISR {d : TDirection} {target : UInt32} {m : Motion} (h : Underway d target m) :
    Underway d target m.rightISR := by
  refine h.congr m.rightISR_control ?_ ?_
  · unfold Motion.rightISR
    split_ifs <;> rfl
  · unfold Motion.rightISR
    split_ifs <;> rfl

/-- A command with a distance puts its movement under way. -/
theorem underway_drive (d : TDirection) {dist : UInt32} (hdist : 0 < dist) (speed : ℚ) (m : Motion) :
    Underway d (d.target m dist) (Alex.drive d dist.toNat speed m) := by
  have hpos : (0 : ℚ) < dist.toNat := by
    rw [Nat.cast_pos]
    exact UInt32.lt_iff_toNat_lt.mp hdist
  have hturn : ¬ (dist.toNat : ℚ) < 0 := hpos.not_gt
  cases d with
  | forward =>
    refine ⟨rfl, fun _ => ?_, fun hturning => absurd hturning (by decide)⟩
    simp only [Alex.drive, Motion.forward, Motion.move, if_pos hpos, Conversion.toUInt32_toNat,
      TDirection.target]
    exact ⟨hdist, trivial⟩
  | backward =>
    refine ⟨rfl, fun _ => ?_, fun hturning => absurd hturning (by decide)⟩
    simp only [Alex.drive, Motion.backward, Motion.move, if_pos hpos, Conversion.toUInt32_toNat,
      TDirection.target]
    exact ⟨hdist, trivial⟩
  | left =>
    refine ⟨rfl, fun hstraight => absurd hstraight (by decide), fun _ => ?_⟩
    simp only [Alex.drive, Motion.left, Motion.ccw, Motion.move, if_neg hturn, TDirection.target]
    exact ⟨m.computeDeltaTicks_pos _, trivial⟩
  | right =>
    refine ⟨rfl, fun hstraight => absurd hstraight (by decide), fun _ => ?_⟩
    simp only [Alex.drive, Motion.right, Motion.cw, Motion.move, if_neg hturn, TDirection.target]
    exact ⟨m.computeDeltaTicks_pos _, trivial⟩

/-- The distance rule does not look at a turning robot. -/
theorem distanceRule_of_turning {m : Motion}
    (h : m.dir = TDirection.left.code ∨ m.dir = TDirection.right.code) : m.distanceRule = m := by
  rcases h with h | h <;> simp [Motion.distanceRule, h, TDirection.code, Tdir.code]

/-- The turn rule does not look at a robot that drives straight. -/
theorem turnRule_of_straight {m : Motion}
    (h : m.dir = TDirection.forward.code ∨ m.dir = TDirection.backward.code) : m.turnRule = m := by
  rcases h with h | h <;> simp [Motion.turnRule, h, TDirection.code, Tdir.code]

section Rules

variable {d : TDirection} {target : UInt32} {m : Motion} (h : Underway d target m)

include h

/-- Short of the target both rules of `loop()` leave a movement alone. -/
theorem rules_of_not_reached (hshort : ¬ d.Reached m target) :
    m.distanceRule = m ∧ m.turnRule = m := by
  have hdir := h.dir
  cases d with
  | forward =>
    obtain ⟨hdelta, htarget⟩ := h.distance (Or.inl rfl)
    refine ⟨?_, turnRule_of_straight (Or.inl hdir)⟩
    rw [Motion.distanceRule, if_pos hdelta, if_pos hdir, htarget]
    exact if_neg hshort
  | backward =>
    obtain ⟨hdelta, htarget⟩ := h.distance (Or.inr rfl)
    refine ⟨?_, turnRule_of_straight (Or.inr hdir)⟩
    rw [Motion.distanceRule, if_pos hdelta, if_neg (by rw [hdir]; decide), if_pos hdir, htarget]
    exact if_neg hshort
  | left =>
    obtain ⟨hdelta, htarget⟩ := h.turn (Or.inl rfl)
    refine ⟨distanceRule_of_turning (Or.inl hdir), ?_⟩
    rw [Motion.turnRule, if_pos hdelta, if_pos hdir, htarget]
    exact if_neg hshort
  | right =>
    obtain ⟨hdelta, htarget⟩ := h.turn (Or.inr rfl)
    refine ⟨distanceRule_of_turning (Or.inr hdir), ?_⟩
    rw [Motion.turnRule, if_pos hdelta, if_neg (by rw [hdir]; decide), if_pos hdir, htarget]
    exact if_neg hshort

/-- From the target on the rules of `loop()` halt the movement. -/
theorem rules_of_reached (hreached : d.Reached m target) :
    m.distanceRule.turnRule.control = m.control.halted := by
  have hdir := h.dir
  cases d with
  | forward =>
    obtain ⟨hdelta, htarget⟩ := h.distance (Or.inl rfl)
    have hpast : target < m.forwardDist := hreached
    rw [Motion.distanceRule, if_pos hdelta, if_pos hdir, htarget, if_pos hpast]
    rfl
  | backward =>
    obtain ⟨hdelta, htarget⟩ := h.distance (Or.inr rfl)
    have hpast : target < m.reverseDist := hreached
    rw [Motion.distanceRule, if_pos hdelta, if_neg (by rw [hdir]; decide), if_pos hdir, htarget, if_pos hpast]
    rfl
  | left =>
    obtain ⟨hdelta, htarget⟩ := h.turn (Or.inl rfl)
    have hpast : target ≤ m.leftReverseTurns := hreached
    rw [distanceRule_of_turning (Or.inl hdir), Motion.turnRule, if_pos hdelta, if_pos hdir, htarget,
      if_pos hpast]
    rfl
  | right =>
    obtain ⟨hdelta, htarget⟩ := h.turn (Or.inr rfl)
    have hpast : target ≤ m.rightReverseTurns := hreached
    rw [distanceRule_of_turning (Or.inr hdir), Motion.turnRule, if_pos hdelta, if_neg (by rw [hdir]; decide),
      if_pos hdir, htarget, if_pos hpast]
    rfl

/-- Without an obstacle an iteration's checks leave a movement alone until it reaches its target. -/
theorem checked_of_not_reached {guardEcho : UInt32} (hclear : obstructed m guardEcho = false)
    (hshort : ¬ d.Reached m target) : checked m guardEcho = m := by
  obtain ⟨hdist, hturn⟩ := rules_of_not_reached h hshort
  rw [checked, hclear, if_neg Bool.false_ne_true, hdist, hturn]

/-- Without an obstacle an iteration's checks halt a movement that has reached its target. -/
theorem checked_of_reached {guardEcho : UInt32} (hclear : obstructed m guardEcho = false)
    (hreached : d.Reached m target) : (checked m guardEcho).control = m.control.halted := by
  rw [checked, hclear, if_neg Bool.false_ne_true]
  exact rules_of_reached h hreached

end Rules

/-- The commands that move or stop the robot or clear its counters. -/
def redirecting : List TCommandType := [.forward, .reverse, .turnLeft, .turnRight, .stop, .clearStats]

/-- `Redirects`: the packet is of a command type, with one of the `redirecting` commands. -/
def TPacket.Redirects (packet : TPacket) : Prop :=
  packet.IsCommand ∧ ∃ c ∈ redirecting, packet.command = c.code

/-- A packet with no redirecting command does not concern the wheels. -/
theorem effect_eq_ignore {packet : TPacket} (h : ¬ packet.Redirects) : packet.effect = .ignore := by
  revert h
  unfold TPacket.Redirects TPacket.effect TPacket.IsCommand commandEffect
  simp only [← TPacketType.ofCode?_eq_some_iff, ← TCommandType.ofCode?_eq_some_iff]
  cases TPacketType.ofCode? packet.packetType with
  | none => simp
  | some t =>
    cases TCommandType.ofCode? packet.command with
    | none => cases t <;> simp
    | some c => cases t <;> cases c <;> simp [redirecting]

/-- The operation handles no command that redirects the robot, and if it is an iteration of
`loop()`, the ultrasonic sensor does not read 11 to 14 cm. -/
structure LeavesMotion (a : Alex) (op : Alex.Op) : Prop where
  handled : ∀ packet m, a.handles op = some (packet, m) → ¬ packet.Redirects
  unobstructed : ∀ s, op = .loop s →
    ¬ (10 < getUltrasonicDistance s.guardEcho ∧ getUltrasonicDistance s.guardEcho < 15)

/-- The condition of the collision check is false when the sensor reads outside its range. -/
theorem obstructed_eq_false (m : Motion) {guardEcho : UInt32}
    (h : ¬ (10 < getUltrasonicDistance guardEcho ∧ getUltrasonicDistance guardEcho < 15)) :
    obstructed m guardEcho = false := by
  rw [obstructed, Bool.and_eq_false_iff, Bool.and_eq_false_iff, decide_eq_false_iff_not,
    decide_eq_false_iff_not]
  tauto

/-- An operation that leaves the motion alone at most runs the checks of `loop()` on the driving
globals. -/
theorem LeavesMotion.step_toMotion {a : Alex} {op : Alex.Op} (h : LeavesMotion a op) :
    (a.step op).toMotion =
      match op with
      | .leftPulse => a.toMotion.leftISR
      | .rightPulse => a.toMotion.rightISR
      | .packet _ _ => a.toMotion
      | .loop s => checked a.toMotion s.guardEcho := by
  cases op with
  | leftPulse => rfl
  | rightPulse => rfl
  | packet packet sensors =>
    rw [Alex.step, Alex.handlePacket_toMotion, effect_eq_ignore (h.handled packet a.toMotion rfl)]
    rfl
  | loop s =>
    rw [Alex.step, Alex.loop_toMotion]
    cases haccepted : a.accepted s with
    | none => rfl
    | some packet =>
      have hhandles : a.handles (.loop s) = some (packet, checked a.toMotion s.guardEcho) := by
        rw [Alex.handles, haccepted]
        rfl
      rw [Option.elim_some, effect_eq_ignore (h.handled packet _ hhandles)]
      rfl

/-- The operation is an iteration of `loop()` that begins with the target of the movement reached. -/
def BeginsReached (d : TDirection) (target : UInt32) (a : Alex) (op : Alex.Op) : Prop :=
  (∃ s, op = .loop s) ∧ d.Reached a.toMotion target

/-- Until an iteration begins with the target reached, every such operation keeps the movement under
way. -/
theorem step_underway {d : TDirection} {target : UInt32} {a : Alex} {op : Alex.Op}
    (h : Underway d target a.toMotion) (hleaves : LeavesMotion a op)
    (hshort : ¬ BeginsReached d target a op) : Underway d target (a.step op).toMotion := by
  rw [hleaves.step_toMotion]
  cases op with
  | leftPulse => exact h.leftISR
  | rightPulse => exact h.rightISR
  | packet packet sensors => exact h
  | loop s =>
    have hclear := obstructed_eq_false a.toMotion (hleaves.unobstructed s rfl)
    have hsame := checked_of_not_reached h hclear fun hreached => hshort ⟨⟨s, rfl⟩, hreached⟩
    change Underway d target (checked a.toMotion s.guardEcho)
    rw [hsame]
    exact h

/-- A `PACKET_TYPE_COMMAND_PARAM` command to move by a positive amount. -/
structure TPacket.MovesBy (packet : TPacket) (d : TDirection) : Prop where
  packetType : packet.packetType = TPacketType.commandParam.code
  command : packet.command = d.command.code
  positive : 0 < packet.param 0

section Command

variable {a : Alex} {command : Alex.Op} {packet : TPacket} {m : Motion} {d : TDirection}
  (hhandles : a.handles command = some (packet, m)) (hmoves : packet.MovesBy d)

include hhandles hmoves

/-- Handling a command to move by an amount calls the function of its movement. -/
theorem step_of_movesBy :
    (a.step command).toMotion = Alex.drive d (packet.param 0).toNat (packet.param 1).toNat m := by
  have heffect : packet.effect = .start d (some (packet.param 0)) (packet.param 1).toNat := by
    rw [TPacket.effect, (TPacketType.ofCode?_eq_some_iff _ _).mpr hmoves.packetType]
    change commandEffect _ packet.command = _
    rw [commandEffect, (TCommandType.ofCode?_eq_some_iff _ _).mpr hmoves.command]
    cases d <;> rfl
  rw [(Alex.step_of_handles hhandles).1, heffect]
  rfl

/-- Handling a command to move by an amount puts its movement under way. -/
theorem underway_of_handles : Underway d (d.target m (packet.param 0)) (a.step command).toMotion := by
  rw [step_of_movesBy hhandles hmoves]
  exact underway_drive d hmoves.positive _ m

end Command

/-- After a command to move by an amount, and while nothing else concerns the wheels, the robot keeps
its direction up to the first iteration of `loop()` that begins with the target reached, and that
iteration halts it. -/
theorem automatic_stop (a : Alex) (command : Alex.Op) (packet : TPacket) (m : Motion) (d : TDirection)
    (hhandles : a.handles command = some (packet, m)) (hmoves : packet.MovesBy d) :
    let target := d.target m (packet.param 0)
    ∀ ops, Run.Along Alex.step (fun a op => LeavesMotion a op ∧ ¬ BeginsReached d target a op)
        (a.step command) ops →
      let now := Run.after Alex.step (a.step command) ops
      now.dir = d.code ∧
        ∀ s, LeavesMotion now (.loop s) →
          (¬ d.Reached now.toMotion target → (now.step (.loop s)).dir = d.code) ∧
            (d.Reached now.toMotion target → (now.step (.loop s)).control = now.control.halted) := by
  intro target ops hops now
  have hunderway : Underway d target now.toMotion :=
    Run.after_of_along (fun a : Alex => Underway d target a.toMotion)
      (fun a op h hguard => step_underway h hguard.1 hguard.2) (underway_of_handles hhandles hmoves) hops
  refine ⟨hunderway.dir, fun s hleaves => ⟨fun hshort => ?_, fun hreached => ?_⟩⟩
  · exact (step_underway hunderway hleaves fun hbegins => hshort hbegins.2).dir
  · have hclear := obstructed_eq_false now.toMotion (hleaves.unobstructed s rfl)
    have hstep : (now.step (.loop s)).toMotion = checked now.toMotion s.guardEcho := hleaves.step_toMotion
    rw [hstep]
    exact checked_of_reached hunderway hclear hreached

/-- A `PACKET_TYPE_COMMAND_PARAM` command to drive forward by `dist` cm, over zeroed memory. -/
def forwardPacket (dist : UInt32) : TPacket := (TPacket.bare .commandParam .forward).setParam 0 dist

/-- The packet is a command to move by the distance, unless that is zero. -/
theorem forwardPacket_movesBy {dist : UInt32} (h : 0 < dist) : (forwardPacket dist).MovesBy .forward where
  packetType := rfl
  command := rfl
  positive := h

/-- Pulses of the left wheel of a robot that drives forward add to its distance. -/
theorem after_leftPulses {a : Alex} (hdir : a.dir = TDirection.forward.code)
    (hdist : a.forwardDist = Motion.tickDistance a.leftForwardTicks) (count : ℕ) :
    (Run.after Alex.step a (List.replicate count .leftPulse)).forwardDist =
      Motion.tickDistance (a.leftForwardTicks + UInt32.ofNat count) := by
  induction count generalizing a with
  | zero =>
    rw [show UInt32.ofNat 0 = 0 from rfl, UInt32.add_zero]
    exact hdist
  | succ count ih =>
    have hpulse : (a.step .leftPulse).toMotion = { a.toMotion with
        leftForwardTicks := a.leftForwardTicks + 1
        forwardDist := Motion.tickDistance (a.leftForwardTicks + 1) } := if_pos hdir
    have hticks : (a.step .leftPulse).leftForwardTicks = a.leftForwardTicks + 1 := by rw [hpulse]
    have hnext := ih (a := a.step .leftPulse) (by rw [hpulse]; exact hdir) (by rw [hpulse])
    rw [List.replicate_succ]
    refine hnext.trans (congrArg Motion.tickDistance ?_)
    rw [hticks, UInt32.add_assoc, UInt32.add_comm 1, UInt32.ofNat_add]
    rfl

/-- An iteration of `loop()` that meets no obstacle and no bytes. -/
def idle : Alex.Surroundings := ⟨0, .silent, fun _ => 0, []⟩

/-- An idle iteration of `loop()` leaves the motion alone. -/
theorem leavesMotion_idle (a : Alex) : LeavesMotion a (.loop idle) where
  handled packet m h := by cases h
  unobstructed s hs := by
    cases hs
    decide +kernel

/-- Told to drive 5 cm, the robot still drives after one pulse and an idle iteration. -/
theorem forward_automatic_stop :
    ((Alex.fresh.step (.packet (forwardPacket 5) .silent)).step .leftPulse |>.step (.loop idle)).dir =
      TDirection.forward.code := by
  let command : Alex.Op := .packet (forwardPacket 5) .silent
  have hmoves : (forwardPacket 5).MovesBy .forward := forwardPacket_movesBy (by decide)
  obtain ⟨-, hloop⟩ := automatic_stop Alex.fresh command (forwardPacket 5) Alex.fresh.toMotion .forward rfl
    hmoves [.leftPulse] ⟨⟨⟨nofun, nofun⟩, nofun⟩, trivial⟩
  refine (hloop idle (leavesMotion_idle _)).1 fun hreached => ?_
  have hunderway : Underway .forward _ (Alex.fresh.step command).toMotion := underway_of_handles rfl hmoves
  have hdist := after_leftPulses (a := Alex.fresh.step command) hunderway.dir (by decide +kernel) 1
  have hpast : 5 < (Run.after Alex.step (Alex.fresh.step command) [.leftPulse]).forwardDist := hreached
  rw [show [Alex.Op.leftPulse] = List.replicate 1 .leftPulse from rfl, hdist] at hpast
  exact absurd hpast (by decide +kernel)

end AlexRobot
