import AlexRobot.Arduino.Alex

/-!
# What an operation does to the motion

Of everything a packet can ask for, only five things concern the wheels. The effect of a
packet is a function of the packet alone, and every operation of the program changes the
driving globals through an interrupt, the checks of `loop()`, or the effect of the one packet
it handles.
-/

namespace AlexRobot

/-- What a packet asks of the wheels. A distance is a word from the packet or, without one, the `-1`
that the keyboard and time handlers pass. -/
inductive Effect
  | ignore
  | halt
  | clear
  | start (d : TDirection) (dist : Option UInt32) (speed : ℚ)
  | timed (d : TDirection) (ms : ℕ)

/-- The distance argument of a movement function, by where the handler takes it from. -/
def distArgument : Option UInt32 → ℚ
  | none => -1
  | some dist => dist.toNat

/-- Carry out an effect on the driving globals, as the handlers do. -/
def Effect.apply (m : Motion) : Effect → Motion
  | .ignore => m
  | .halt => m.stop
  | .clear => m.clearCounters
  | .start d dist speed => Alex.drive d (distArgument dist) speed m
  | .timed d ms => ((Alex.drive d (-1) 100 m).delay ms).stop

/-- The effect of a command byte, given that of the movement commands. -/
def commandEffect (go : TDirection → Effect) (command : UInt8) : Effect :=
  match TCommandType.ofCode? command with
  | some .forward => go .forward
  | some .reverse => go .backward
  | some .turnLeft => go .left
  | some .turnRight => go .right
  | some .stop => .halt
  | some .clearStats => .clear
  | some .getStats => .ignore
  | some .color => .ignore
  | some .dist => .ignore
  | none => .ignore

/-- The effect of a packet on the wheels, by its type, its command and its parameters. -/
def TPacket.effect (packet : TPacket) : Effect :=
  match TPacketType.ofCode? packet.packetType with
  | some .commandParam =>
    commandEffect (fun d => .start d (some (packet.param 0)) (packet.param 1).toNat) packet.command
  | some .commandKeyboard => commandEffect (fun d => .start d none (packet.param 0).toNat) packet.command
  | some .commandTime => commandEffect (fun d => .timed d (packet.param 0).toNat) packet.command
  | some .response => .ignore
  | some .error => .ignore
  | some .message => .ignore
  | some .hello => .ignore
  | none => .ignore

/-- The command that starts a movement in the given direction. -/
def TDirection.command : TDirection → TCommandType
  | .forward => .forward
  | .backward => .reverse
  | .left => .turnLeft
  | .right => .turnRight

/-- A packet of one of the three command types, which are the ones with handlers. -/
def TPacket.IsCommand (packet : TPacket) : Prop :=
  packet.packetType = TPacketType.commandParam.code ∨
    packet.packetType = TPacketType.commandKeyboard.code ∨
      packet.packetType = TPacketType.commandTime.code

instance (packet : TPacket) : Decidable packet.IsCommand := inferInstanceAs (Decidable (_ ∨ _ ∨ _))

/-- A movement command that is not timed, in the given direction. -/
def TPacket.Starts (packet : TPacket) (d : TDirection) : Prop :=
  (packet.packetType = TPacketType.commandParam.code ∨
    packet.packetType = TPacketType.commandKeyboard.code) ∧ packet.command = d.command.code

/-- The packets that clear the counters are the commands with the number of clearing. -/
theorem effect_eq_clear_iff (packet : TPacket) :
    packet.effect = .clear ↔ packet.IsCommand ∧ packet.command = TCommandType.clearStats.code := by
  unfold TPacket.effect TPacket.IsCommand commandEffect
  simp only [← TPacketType.ofCode?_eq_some_iff, ← TCommandType.ofCode?_eq_some_iff]
  cases TPacketType.ofCode? packet.packetType with
  | none => simp
  | some t =>
    cases TCommandType.ofCode? packet.command with
    | none => cases t <;> simp
    | some c => cases t <;> cases c <;> simp

/-- The packets that start a movement are the untimed movement commands. -/
theorem effect_eq_start_iff (packet : TPacket) (d : TDirection) :
    (∃ dist speed, packet.effect = .start d dist speed) ↔ packet.Starts d := by
  unfold TPacket.effect TPacket.Starts commandEffect
  simp only [← TPacketType.ofCode?_eq_some_iff, ← TCommandType.ofCode?_eq_some_iff]
  cases TPacketType.ofCode? packet.packetType with
  | none => simp
  | some t =>
    cases TCommandType.ofCode? packet.command with
    | none => cases t <;> simp
    | some c => cases t <;> cases c <;> cases d <;> simp [TDirection.command]

/-- The command of a movement has the effect of that movement. -/
theorem commandEffect_command (go : TDirection → Effect) (d : TDirection) :
    commandEffect go d.command.code = go d := by
  cases d <;> rfl

namespace Alex

/-- Extending the colour arm touches nothing but the arm. -/
theorem extendArm_eq (a : Alex) (sensors : Sensors) :
    ∃ dist servo, a.extendArm sensors = { a with linearactuatordist := dist, servo := servo } := by
  simp only [extendArm, distanceForward]
  split
  · split
    · exact ⟨_, _, rfl⟩
    · exact ⟨_, _, rfl⟩
  · exact ⟨a.linearactuatordist, a.servo, rfl⟩

/-- Reading the colour does not touch the driving globals. -/
@[simp] theorem sendColor_toMotion (a : Alex) (sensors : Sensors) :
    (a.sendColor sensors).toMotion = a.toMotion := by
  obtain ⟨dist, servo, harm⟩ := a.extendArm_eq sensors
  rw [sendColor, harm]
  rfl

/-- The shared body of the handlers has the effect of its command byte. -/
theorem handleCommand_toMotion {go : TDirection → Motion → Motion} {effects : TDirection → Effect}
    (hgo : ∀ d m, go d m = (effects d).apply m) (command : TPacket) (sensors : Sensors) (a : Alex) :
    (handleCommand go command sensors a).toMotion =
      (commandEffect effects command.command).apply a.toMotion := by
  unfold handleCommand commandEffect
  cases TCommandType.ofCode? command.command with
  | none => rfl
  | some c =>
    cases c with
    | forward => exact hgo _ _
    | reverse => exact hgo _ _
    | turnLeft => exact hgo _ _
    | turnRight => exact hgo _ _
    | color => exact sendColor_toMotion a sensors
    | stop => rfl
    | getStats => rfl
    | clearStats => rfl
    | dist => rfl

/-- Handling a packet changes the driving globals by its effect. -/
theorem handlePacket_toMotion (packet : TPacket) (sensors : Sensors) (a : Alex) :
    (handlePacket packet sensors a).toMotion = packet.effect.apply a.toMotion := by
  unfold handlePacket TPacket.effect
  cases TPacketType.ofCode? packet.packetType with
  | none => rfl
  | some t =>
    cases t with
    | commandParam =>
      change (handleCommandParam packet sensors a).toMotion = (commandEffect _ packet.command).apply a.toMotion
      apply handleCommand_toMotion
      intro d m
      rfl
    | commandKeyboard =>
      change (handleCommandKeyboard packet sensors a).toMotion =
        (commandEffect _ packet.command).apply a.toMotion
      apply handleCommand_toMotion
      intro d m
      rfl
    | commandTime =>
      change (handleCommandTime packet sensors a).toMotion = (commandEffect _ packet.command).apply a.toMotion
      apply handleCommand_toMotion
      intro d m
      rfl
    | response => rfl
    | error => rfl
    | message => rfl
    | hello => rfl

/-- The driving globals after the checks of `loop()`, by the echo of the collision check. -/
def checked (m : Motion) (guardEcho : UInt32) : Motion :=
  (if obstructed m guardEcho then m.stop else m).distanceRule.turnRule

/-- The checks of `loop()` do to the driving globals what `checked` says. -/
theorem checks_toMotion (a : Alex) (guardEcho : UInt32) :
    (a.checks guardEcho).toMotion = checked a.toMotion guardEcho := by
  have hcollision : (a.collisionCheck guardEcho).toMotion =
      if obstructed a.toMotion guardEcho then a.toMotion.stop else a.toMotion := by
    unfold collisionCheck
    split <;> rfl
  rw [checked, ← hcollision]
  rfl

/-- The checks of `loop()` leave the receiver alone. -/
@[simp] theorem checks_receiver (a : Alex) (guardEcho : UInt32) :
    (a.checks guardEcho).receiver = a.receiver := by
  unfold checks collisionCheck
  split <;> rfl

/-- The packet that an iteration of `loop()` accepts, if any. -/
def accepted (a : Alex) (s : Surroundings) : Option TPacket :=
  if (readPacket a.receiver s.recvPacket s.available).1 = .packetOk then
    some (TPacket.ofCells (readPacket a.receiver s.recvPacket s.available).2.output)
  else none

/-- Responding to a result changes the driving globals by the effect of the accepted packet. -/
theorem respond_toMotion (a : Alex) (result : TResult) (sensors : Sensors) :
    (a.respond result sensors).toMotion =
      if result = .packetOk then (TPacket.ofCells a.receiver.output).effect.apply a.toMotion
      else a.toMotion := by
  cases result with
  | packetOk => exact handlePacket_toMotion _ _ _
  | packetBad => rfl
  | packetChecksumBad => rfl
  | packetIncomplete => rfl
  | packetComplete => rfl

/-- An iteration reads a packet after the checks and responds to it. -/
theorem loop_eq (a : Alex) (s : Surroundings) :
    a.loop s = { a.checks s.guardEcho with
      receiver := (readPacket a.receiver s.recvPacket s.available).2 }.respond
        (readPacket a.receiver s.recvPacket s.available).1 s.sensors := by
  rw [loop, checks_receiver]

/-- An iteration of `loop()` changes the driving globals by its checks and then by the effect of
the packet it accepts. -/
theorem loop_toMotion (a : Alex) (s : Surroundings) :
    (a.loop s).toMotion = ((a.accepted s).elim Effect.ignore TPacket.effect).apply
      (checked a.toMotion s.guardEcho) := by
  rw [loop_eq, respond_toMotion, accepted, ← checks_toMotion]
  by_cases hok : (readPacket a.receiver s.recvPacket s.available).1 = .packetOk
  · rw [if_pos hok, if_pos hok]
    rfl
  · rw [if_neg hok, if_neg hok]
    rfl

/-- The packet that an operation passes to `handlePacket`, with the driving globals at that
moment: in an iteration of `loop()` those that the checks leave. -/
def handles (a : Alex) : Op → Option (TPacket × Motion)
  | .leftPulse => none
  | .rightPulse => none
  | .packet packet _ => some (packet, a.toMotion)
  | .loop s => (a.accepted s).map fun packet => (packet, checked a.toMotion s.guardEcho)

/-- An operation that handles a packet changes the driving globals by its effect. -/
theorem step_of_handles {a : Alex} {op : Op} {packet : TPacket} {m : Motion}
    (h : a.handles op = some (packet, m)) :
    (a.step op).toMotion = packet.effect.apply m ∧ (m = a.toMotion ∨ ∃ echo, m = checked a.toMotion echo) := by
  cases op with
  | leftPulse => cases h
  | rightPulse => cases h
  | packet _ sensors =>
    cases h
    exact ⟨handlePacket_toMotion packet sensors a, Or.inl rfl⟩
  | loop s =>
    obtain ⟨_, haccepted, hpair⟩ := Option.map_eq_some_iff.mp h
    cases hpair
    refine ⟨?_, Or.inr ⟨s.guardEcho, rfl⟩⟩
    rw [step, loop_toMotion, haccepted]
    rfl

/-- Any other operation is an interrupt or only the checks. -/
theorem step_of_handles_none {a : Alex} {op : Op} (h : a.handles op = none) :
    (a.step op).toMotion = a.toMotion.leftISR ∨ (a.step op).toMotion = a.toMotion.rightISR ∨
      ∃ echo, (a.step op).toMotion = checked a.toMotion echo := by
  cases op with
  | leftPulse => exact Or.inl rfl
  | rightPulse => exact Or.inr (Or.inl rfl)
  | packet _ _ => cases h
  | loop s =>
    refine Or.inr (Or.inr ⟨s.guardEcho, ?_⟩)
    rw [step, loop_toMotion, Option.map_eq_none_iff.mp h]
    rfl

end Alex

end AlexRobot
