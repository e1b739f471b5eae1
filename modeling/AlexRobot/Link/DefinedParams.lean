import AlexRobot.Arduino.Effect
import AlexRobot.Pi.Command

/-!
# Which parameters drive the robot

`commandPacket` is a local variable of `sendCommand` that is never initialised. In the three
keyboard modes the one parameter that the Arduino reads is always set; in params mode both
come from a `scanf` whose result nobody looks at, and what it does not store is whatever the
stack holds.
-/

namespace AlexRobot

/-- The movement that a character asks for, if it is a movement key. -/
def movement? : Char → Option TDirection
  | 'w' | 'W' => some .forward
  | 's' | 'S' => some .backward
  | 'a' | 'A' => some .left
  | 'd' | 'D' => some .right
  | _ => none

/-- The parameters that the Arduino's handler of a movement packet reads. -/
def TPacket.paramsRead (packet : TPacket) : List ℕ :=
  match TPacketType.ofCode? packet.packetType with
  | some .commandParam => [0, 1]
  | some .commandKeyboard => [0]
  | some .commandTime => [0]
  | _ => []

/-- The packets that a command character makes `sendCommand` send. -/
def newPackets (u : Ui) (c : Char) (residue : TPacket) (scan : Scan) : List TPacket :=
  (u.sendCommand c residue scan).sent.drop u.sent.length

/-- `getParams` stores a value of its own in the parameter. -/
def Assigned (u : Ui) (scan : Scan) (i : ℕ) : Prop :=
  ∀ packet packet' : TPacket, (u.getParams packet scan).param i = (u.getParams packet' scan).param i

/-- Every parameter that the Arduino reads was assigned, and nothing is sent when the two numbers of
params mode cannot be parsed. -/
structure ParamsLaw (u : Ui) (c : Char) (input : List Char) : Prop where
  assigned : ∀ residue, ∀ packet ∈ newPackets u c residue (scanf input), ∀ i ∈ packet.paramsRead,
    Assigned u (scanf input) i
  silent : u.keyboardMode = .params → (¬ ∃ a b, scanf input = .both a b) →
    ∀ residue, newPackets u c residue (scanf input) = []

/-- The driving globals after the Arduino has handled some packets. -/
def motionAfter (a : Alex) (packets : List TPacket) (sensors : Sensors) : Motion :=
  (packets.foldl (fun a packet => Alex.handlePacket packet sensors a) a).toMotion

/-- What the stack holds does not matter to the motions of the robot. -/
def SameMotions (u : Ui) (c : Char) (input : List Char) : Prop :=
  ∀ residue residue' a sensors, motionAfter a (newPackets u c residue (scanf input)) sensors =
    motionAfter a (newPackets u c residue' (scanf input)) sensors

/-- In params mode the two numbers of a movement can be parsed. -/
def Parses (u : Ui) (input : List Char) : Prop :=
  u.keyboardMode = .params → ∃ a b, scanf input = .both a b

/-- A packet acts on the wheels through its type, its command and the parameters that are read. -/
theorem TPacket.effect_congr {packet packet' : TPacket} (htype : packet.packetType = packet'.packetType)
    (hcommand : packet.command = packet'.command)
    (hparams : ∀ i ∈ packet.paramsRead, packet.param i = packet'.param i) :
    packet.effect = packet'.effect := by
  unfold TPacket.paramsRead at hparams
  unfold TPacket.effect
  rw [← htype, ← hcommand]
  cases hcase : TPacketType.ofCode? packet.packetType with
  | none => rfl
  | some t =>
    rw [hcase] at hparams
    cases t with
    | commandParam =>
      have hdist : packet.param 0 = packet'.param 0 := hparams 0 (by simp)
      have hspeed : packet.param 1 = packet'.param 1 := hparams 1 (by simp)
      simp only [hdist, hspeed]
    | commandKeyboard =>
      have hspeed : packet.param 0 = packet'.param 0 := hparams 0 (by simp)
      simp only [hspeed]
    | commandTime =>
      have hdelay : packet.param 0 = packet'.param 0 := hparams 0 (by simp)
      simp only [hdelay]
    | response => rfl
    | error => rfl
    | message => rfl
    | hello => rfl

/-- A single packet changes the driving globals by its effect. -/
theorem motionAfter_singleton (a : Alex) (packet : TPacket) (sensors : Sensors) :
    motionAfter a [packet] sensors = packet.effect.apply a.toMotion :=
  Alex.handlePacket_toMotion packet sensors a

/-- Starting a movement sets the speed of the front left motor from the power. -/
theorem drive_speed (m : Motion) (d : TDirection) (dist speed : ℚ) :
    (Alex.drive d dist speed m).motors.fl.speed =
      (Conversion.toInt16 (speed / 100 * 255)).toUInt16.toUInt8 := by
  cases d <;> rfl

section GetParams

variable (u : Ui)

/-- The type of the packet is set before the parameters. -/
theorem getParams_packetType (packet : TPacket) (scan : Scan) :
    (u.getParams packet scan).packetType = packet.packetType := by
  unfold Ui.getParams Ui.scanParams
  cases u.keyboardMode <;> cases scan <;> rfl

/-- Outside params mode the first parameter is always assigned. -/
theorem assigned_zero (h : u.keyboardMode ≠ .params) (scan : Scan) : Assigned u scan 0 := by
  intro packet packet'
  unfold Ui.getParams
  cases hmode : u.keyboardMode with
  | params => exact absurd hmode h
  | keyHold => simp only [TPacket.param_setParam _ (Nat.zero_lt_succ 15), if_true]
  | keyPress => simp only [TPacket.param_setParam _ (Nat.zero_lt_succ 15), if_true]
  | smallAdjustment => simp only [TPacket.param_setParam _ (Nat.zero_lt_succ 15), if_true]

/-- When `scanf` reads two numbers, both parameters of the packet are assigned. -/
theorem assigned_both (h : u.keyboardMode = .params) (a b : UInt32) {i : ℕ} (hi : i ∈ [0, 1]) :
    Assigned u (.both a b) i := by
  have hzero : 0 < 16 := Nat.zero_lt_succ 15
  have hone : 1 < 16 := Nat.one_lt_succ_succ 14
  intro packet packet'
  simp only [Ui.getParams, h, Ui.scanParams, TPacket.param_setParam _ hzero, TPacket.param_setParam _ hone]
  simp only [List.mem_cons, List.not_mem_nil, or_false] at hi
  obtain rfl | rfl := hi
  · simp
  · simp

/-- Fewer than two numbers leave the second parameter as the stack has it. -/
theorem getParams_param_one (h : u.keyboardMode = .params) {scan : Scan}
    (hscan : ¬ ∃ a b, scan = .both a b) (packet : TPacket) :
    (u.getParams packet scan).param 1 = packet.param 1 := by
  simp only [Ui.getParams, h]
  cases scan with
  | none => rfl
  | first a =>
    rw [Ui.scanParams, TPacket.param_setParam packet (Nat.zero_lt_succ 15), if_neg Nat.zero_ne_one]
  | both a b => exact absurd ⟨a, b, rfl⟩ hscan

end GetParams

/-- The packet that a movement key sends, by what `scanf` finds behind it. -/
def movementPacket (u : Ui) (d : TDirection) (residue : TPacket) (scan : Scan) : TPacket :=
  { u.getParams { residue with packetType := u.commandType.code } scan with
    command := d.command.code }

/-- The packet of a movement has the command type of the mode. -/
theorem movementPacket_packetType (u : Ui) (d : TDirection) (residue : TPacket) (scan : Scan) :
    (movementPacket u d residue scan).packetType = u.commandType.code := getParams_packetType u _ scan

/-- The Arduino reads both parameters of a movement of params mode, otherwise the first. -/
theorem movementPacket_paramsRead (u : Ui) (d : TDirection) (residue : TPacket) (scan : Scan) :
    (movementPacket u d residue scan).paramsRead =
      if u.keyboardMode = .params then [0, 1] else [0] := by
  rw [TPacket.paramsRead, movementPacket_packetType, Ui.commandType]
  cases u.keyboardMode <;> rfl

/-- If the two numbers can be parsed in params mode, every parameter that is read was assigned. -/
theorem assigned_of_parses {u : Ui} {input : List Char} (h : Parses u input) (d : TDirection)
    (residue : TPacket) {i : ℕ} (hi : i ∈ (movementPacket u d residue (scanf input)).paramsRead) :
    Assigned u (scanf input) i := by
  rw [movementPacket_paramsRead] at hi
  by_cases hmode : u.keyboardMode = .params
  · rw [if_pos hmode] at hi
    obtain ⟨a, b, hscan⟩ := h hmode
    rw [hscan]
    exact assigned_both u hmode a b hi
  · rw [if_neg hmode, List.mem_singleton] at hi
    rw [hi]
    exact assigned_zero u hmode (scanf input)

section Movement

variable {c : Char} {d : TDirection} (hmove : movement? c = some d) (u : Ui)

include hmove

/-- A movement key sends exactly one packet, in every mode. -/
theorem newPackets_eq (residue : TPacket) (scan : Scan) :
    newPackets u c residue scan = [movementPacket u d residue scan] := by
  have hsent : (u.sendCommand c residue scan).sent = u.sent ++ [movementPacket u d residue scan] := by
    unfold movement? at hmove
    split at hmove <;> cases hmove <;> rfl
  rw [newPackets, hsent, List.drop_left]

/-- The law holds exactly when the two numbers can be parsed in params mode. -/
theorem paramsLaw_iff (input : List Char) : ParamsLaw u c input ↔ Parses u input := by
  constructor
  · intro hlaw hmode
    by_contra hscan
    have hnone := hlaw.silent hmode hscan (.bare .commandParam .forward)
    rw [newPackets_eq hmove] at hnone
    exact List.cons_ne_nil _ _ hnone
  · intro hparses
    refine ⟨fun residue packet hpacket i hi => ?_, fun hmode hscan => absurd (hparses hmode) hscan⟩
    rw [newPackets_eq hmove, List.mem_singleton] at hpacket
    rw [hpacket] at hi
    exact assigned_of_parses hparses d residue hi

/-- If the power is not parsed, the motors run at the speed that the stack holds. -/
theorem speed_of_residue {input : List Char} (hmode : u.keyboardMode = .params)
    (hscan : ¬ ∃ a b, scanf input = .both a b) (residue : TPacket) (a : Alex) (sensors : Sensors) :
    (motionAfter a (newPackets u c residue (scanf input)) sensors).motors.fl.speed =
      (Conversion.toInt16 ((residue.param 1).toNat / 100 * 255)).toUInt16.toUInt8 := by
  have htype : TPacketType.ofCode? (movementPacket u d residue (scanf input)).packetType =
      some .commandParam := by
    rw [movementPacket_packetType, Ui.commandType, hmode]
    rfl
  have hpower : (movementPacket u d residue (scanf input)).param 1 = residue.param 1 :=
    getParams_param_one u hmode hscan _
  have heffect : (movementPacket u d residue (scanf input)).effect =
      .start d (some ((movementPacket u d residue (scanf input)).param 0)) (residue.param 1).toNat := by
    rw [TPacket.effect, htype, hpower]
    exact commandEffect_command _ d
  rw [newPackets_eq hmove, motionAfter_singleton, heffect]
  exact drive_speed _ d _ _

/-- The stack is without influence on the motions exactly then. -/
theorem sameMotions_iff (input : List Char) : SameMotions u c input ↔ Parses u input := by
  constructor
  · intro hsame hmode
    by_contra hscan
    -- A power of 0 and one of 100 on the stack give the motors speeds of 0 and 255.
    let residue (power : UInt32) : TPacket := (TPacket.bare .commandParam .forward).setParam 1 power
    have hpower (power : UInt32) : (residue power).param 1 = power :=
      (TPacket.param_setParam _ (Nat.one_lt_succ_succ 14) 1 power).trans (if_pos rfl)
    have hequal := congrArg (fun m => m.motors.fl.speed) (hsame (residue 0) (residue 100) .fresh .silent)
    rw [speed_of_residue hmove u hmode hscan, speed_of_residue hmove u hmode hscan, hpower, hpower] at hequal
    revert hequal
    decide +kernel
  · intro hparses residue residue' a sensors
    rw [newPackets_eq hmove, newPackets_eq hmove, motionAfter_singleton, motionAfter_singleton]
    congr 1
    apply TPacket.effect_congr
    · rw [movementPacket_packetType, movementPacket_packetType]
    · rfl
    · intro i hi
      exact assigned_of_parses hparses d residue hi _ _

end Movement

/-- A movement drives the robot by assigned parameters alone, and what the stack holds does not
matter, exactly if the two numbers can be parsed in params mode. -/
theorem defined_params (u : Ui) (c : Char) (d : TDirection) (input : List Char)
    (hmove : movement? c = some d) :
    (ParamsLaw u c input ↔ Parses u input) ∧ (SameMotions u c input ↔ Parses u input) :=
  ⟨paramsLaw_iff hmove u input, sameMotions_iff hmove u input⟩

/-- For a word instead of two numbers params mode sends a movement anyway. -/
theorem defined_params_refuted : ¬ ∀ (u : Ui) (c : Char) (d : TDirection) (input : List Char),
    movement? c = some d → ParamsLaw u c input := by
  intro hclaim
  have hscan : scanf "x\n".toList = .none := by decide
  have hunparsed : ¬ ∃ a b, scanf "x\n".toList = .both a b := by
    rintro ⟨a, b, hboth⟩
    cases hscan.symm.trans hboth
  have hsent := (hclaim Ui.initial 'w' .forward "x\n".toList rfl).silent rfl hunparsed
    (.bare .commandParam .forward)
  exact List.cons_ne_nil _ _ hsent

/-- Two numbers typed after W in params mode define both parameters and the robot's motions. -/
theorem forward_defined_params : ParamsLaw Ui.initial 'w' "50 75 ".toList ∧
    SameMotions Ui.initial 'w' "50 75 ".toList := by
  have hparses : Parses Ui.initial "50 75 ".toList := fun _ => ⟨50, 75, by decide⟩
  have hiff := defined_params Ui.initial 'w' .forward "50 75 ".toList rfl
  exact ⟨hiff.1.mpr hparses, hiff.2.mpr hparses⟩

end AlexRobot
