import AlexRobot.Arduino.Commanded
import AlexRobot.Link.Payload

/-!
# What the operator asks for

A key asks the wheels for something or for nothing, and that depends on the mode and the speed of
the moment. Whatever the key leads to goes to the Arduino as at most one packet, of the type of the
mode, and the packet asks for the same.
-/

namespace AlexRobot

/-- The power of a movement of params mode: the second number that was typed. What the `scanf` does not
store is what the stack holds. -/
def Scan.power (residue : TPacket) (scan : Scan) : ℚ := ((Ui.scanParams residue scan).param 1).toNat

/-- What a command key asks of the wheels, by the mode and the speed. -/
def Ui.asked (u : Ui) (key : Char) (residue : TPacket) (scan : Scan) (drive : Drive) : Drive :=
  match movement? key with
  | some d =>
    match u.keyboardMode with
    | .params => .moving d (scan.power residue)
    | .keyHold | .keyPress => .moving d u.speed
    | .smallAdjustment => .resting
  | none => if key = 'o' ∨ key = 'O' then .resting else drive

/-- What a command key asks of the wheels depends on the mode and the speed alone. -/
theorem asked_congr {u v : Ui} (h : u.core = v.core) (key : Char) (residue : TPacket) (scan : Scan)
    (drive : Drive) : u.asked key residue scan drive = v.asked key residue scan drive := by
  obtain ⟨-, hspeed, -, hmode, -⟩ := (Ui.core_eq_iff u v).mp h
  rw [Ui.asked, Ui.asked, hspeed, hmode]

section SendCommand

variable (u : Ui) (residue : TPacket) (scan : Scan)

/-- A packet of the type of the mode has the effect of its command, whatever a movement means there. -/
theorem effect_of_commandType {packet : TPacket} (h : packet.packetType = u.commandType.code) :
    ∃ go, packet.effect = commandEffect go packet.command := by
  unfold Ui.commandType at h
  unfold TPacket.effect
  rw [h]
  cases u.keyboardMode with
  | params => exact ⟨_, rfl⟩
  | keyHold => exact ⟨_, rfl⟩
  | keyPress => exact ⟨_, rfl⟩
  | smallAdjustment => exact ⟨_, rfl⟩

/-- The packet of a movement asks for what its key asks for. -/
theorem obey_movementPacket (h : WithinLimits u.speed u.delayTime) {key : Char} {d : TDirection}
    (hmove : movement? key = some d) (drive : Drive) :
    drive.obey (movementPacket u d residue scan).effect = u.asked key residue scan drive := by
  have hlaw := movementPacket_payloadLaw u d residue scan h
  unfold PayloadLaw at hlaw
  rw [Ui.asked, hmove]
  cases hmode : u.keyboardMode with
  | params =>
    rw [hmode] at hlaw
    have hpower : ((movementPacket u d residue scan).param 1).toNat = scan.power residue := by
      rw [movementPacket, Ui.getParams, hmode]
      cases scan <;> rfl
    rw [hlaw.2, hpower]
    rfl
  | keyHold =>
    rw [hmode] at hlaw
    rw [hlaw.2.2]
    rfl
  | keyPress =>
    rw [hmode] at hlaw
    rw [hlaw.2.2]
    rfl
  | smallAdjustment =>
    rw [hmode] at hlaw
    rw [hlaw.2.2]
    rfl

/-- What a key sends, if anything, is one packet of the type of the mode that asks for what the key
asks for. -/
structure Sends (key : Char) (packets : List TPacket) : Prop where
  one : packets.length ≤ 1
  packetType : ∀ packet ∈ packets, packet.packetType = u.commandType.code
  asked : ∀ drive : Drive, drive.obeyAll packets = u.asked key residue scan drive

/-- What `sendCommand` sends comes after what was sent before. -/
theorem sendCommand_sent (key : Char) :
    (u.sendCommand key residue scan).sent = u.sent ++ newPackets u key residue scan := by
  have hsame : u.sent = u.sent ++ u.sent.drop u.sent.length := by rw [List.drop_length, List.append_nil]
  rw [newPackets]
  rcases u.sendCommand_cases key residue scan with
    ⟨mode, screen, -, h⟩ | ⟨packet, -, -, h⟩ | ⟨screen, -, h⟩ | ⟨screen, -, -, h⟩
  · rw [h]
    exact hsame
  · rw [h]
    change u.sent ++ [packet] = u.sent ++ (u.sent ++ [packet]).drop u.sent.length
    rw [List.drop_left]
  · rw [h]
    exact hsame
  · rw [h]
    exact hsame

/-- A key that is no movement sends at most one packet, which asks for what the key asks for. -/
theorem sends_of_no_movement {key : Char} (hmove : movement? key = none) :
    Sends u residue scan key (newPackets u key residue scan) := by
  obtain ⟨endwin, hendwin⟩ := u.endwin_eq
  obtain ⟨initscr, hinitscr⟩ := u.initscr_eq
  have hnothing (hkey : ¬ (key = 'o' ∨ key = 'O')) :
      Sends u residue scan key (u.sent.drop u.sent.length) := by
    rw [List.drop_length]
    refine ⟨Nat.zero_le 1, fun packet hpacket => absurd hpacket List.not_mem_nil, fun drive => ?_⟩
    rw [Ui.asked, hmove]
    exact (if_neg hkey).symm
  have hone (sent : TPacket) (htype : sent.packetType = u.commandType.code)
      (hasked : ∀ (go : TDirection → Effect) (drive : Drive),
        drive.obey (commandEffect go sent.command) = u.asked key residue scan drive) :
      Sends u residue scan key ((u.sent ++ [sent]).drop u.sent.length) := by
    obtain ⟨go, heffect⟩ := effect_of_commandType u htype
    rw [List.drop_left]
    refine ⟨le_rfl, fun packet hpacket => ?_, fun drive => ?_⟩
    · rw [List.mem_singleton.mp hpacket]
      exact htype
    · change drive.obey sent.effect = _
      rw [heffect, hasked go drive]
  unfold newPackets Ui.sendCommand
  dsimp only
  rw [hendwin, hinitscr]
  split
  -- The four digits; the eight movement keys; the keys of the six other commands.
  iterate 4 exact hnothing (by decide)
  iterate 8 cases hmove
  iterate 12 exact hone _ rfl fun go drive => rfl
  iterate 4 exact hnothing (by decide)
  · apply hnothing
    rintro (rfl | rfl)
    all_goals contradiction

/-- Every key sends at most one packet, which asks for what the key asks for. -/
theorem sends_newPackets (h : WithinLimits u.speed u.delayTime) (key : Char) :
    Sends u residue scan key (newPackets u key residue scan) := by
  cases hmove : movement? key with
  | none => exact sends_of_no_movement u residue scan hmove
  | some d =>
    rw [newPackets_eq hmove]
    refine ⟨le_rfl, fun packet hpacket => ?_, obey_movementPacket u residue scan h hmove⟩
    rw [List.mem_singleton.mp hpacket]
    exact movementPacket_packetType u d residue scan

end SendCommand

namespace Session

/-- What the stack holds for the packet of an input's command; a received packet leads to none. -/
def Input.residue : Input → TPacket
  | .typed _ residue _ => residue
  | .getch _ residue => residue
  | .poll call => call.residue
  | .received packet => packet

/-- What a `scanf` finds for an input's command; only a typed one is followed by anything. -/
def Input.scan : Input → Scan
  | .typed _ _ terminal => scanf terminal
  | .getch _ _ => .none
  | .poll call => call.scan
  | .received _ => .none

/-- What a step of the session asks of the wheels, by the command that it calls. -/
def asked (keyName : Int32 → Char) (s : Session) (input : Input) (drive : Drive) : Drive :=
  (s.command keyName input).elim drive fun key => s.ui.asked key input.residue input.scan drive

/-- A step with a command is that command, with what the input brings for its packet. -/
theorem step_core {keyName : Int32 → Char} {s : Session} {input : Input} {key : Char}
    (h : s.command keyName input = some key) : ∃ u : Ui, u.core = s.ui.core ∧
      (s.step keyName input).ui.core = (u.sendCommand key input.residue input.scan).core := by
  cases input with
  | typed ch residue terminal =>
    obtain ⟨hwaiting, hkey⟩ := Option.ite_none_right_eq_some.mp h
    cases hkey
    refine ⟨s.ui, rfl, ?_⟩
    rw [step, if_pos hwaiting, paramsControl, mainLoop_ui]
    rfl
  | getch c residue =>
    rw [command] at h
    rw [step]
    by_cases hpress : s.Waiting .keyPress
    · rw [if_pos hpress] at h ⊢
      obtain ⟨hnew, hkey⟩ := Option.ite_none_left_eq_some.mp h
      cases hkey
      let shown := (((s.ui.call .getch).refreshScreen s.commandsSent).call .printw).call .refresh
      have hshown : shown.core = s.ui.core := Ui.refreshScreen_core _ _
      exact ⟨shown, hshown, s.pressAndPress_of_command c residue (Bool.eq_false_iff.mpr hnew)⟩
    · rw [if_neg hpress] at h ⊢
      obtain ⟨hadjust, hgiven⟩ := Option.ite_none_right_eq_some.mp h
      obtain ⟨hnew, hkey⟩ := Option.ite_none_left_eq_some.mp hgiven
      cases hkey
      rw [if_pos hadjust, s.timedMovement_of_command c residue (Bool.eq_false_iff.mpr hnew)]
      let shown := ((s.ui.call .getch).refreshScreen s.commandsSent).call .printw
      have hshown : shown.core = s.ui.core := Ui.refreshScreen_core _ _
      exact ⟨shown, hshown, rfl⟩
  | poll poll =>
    exact ⟨{ s.ui with clearToSendCommand := true }, rfl, congrArg Ui.core (KeyHold.step_of_command h).1⟩
  | received packet => cases h

/-- A step within the limits sends at most one packet, of the type of the mode, that asks for what the step
asks for. -/
theorem step_sends {keyName : Int32 → Char} {s : Session} (h : WithinLimits s.ui.speed s.ui.delayTime)
    (input : Input) : ∃ packets, (s.step keyName input).ui.sent = s.ui.sent ++ packets ∧ packets.length ≤ 1 ∧
      (∀ packet ∈ packets, packet.packetType = s.ui.commandType.code) ∧
        ∀ drive : Drive, drive.obeyAll packets = s.asked keyName input drive := by
  unfold asked
  cases hcommand : s.command keyName input with
  | none =>
    obtain ⟨u, v, hcore, hadjusts, hstep⟩ := step_of_no_command hcommand
    obtain ⟨mode, speed, delayTime, screen, rfl⟩ := hadjusts.eq
    obtain ⟨-, -, -, -, hsent⟩ := (Ui.core_eq_iff _ _).mp hcore
    obtain ⟨-, -, -, -, hsent'⟩ := (Ui.core_eq_iff _ _).mp hstep
    refine ⟨[], ?_, Nat.zero_le 1, fun packet hpacket => absurd hpacket List.not_mem_nil, fun drive => rfl⟩
    rw [hsent', ← hsent, List.append_nil]
  | some key =>
    obtain ⟨u, hcore, hstep⟩ := step_core hcommand
    obtain ⟨-, hspeed, hdelay, hmode, hsent⟩ := (Ui.core_eq_iff _ _).mp hcore
    obtain ⟨-, -, -, -, hsent'⟩ := (Ui.core_eq_iff _ _).mp hstep
    have htype : u.commandType = s.ui.commandType := by rw [Ui.commandType, Ui.commandType, hmode]
    rw [← hspeed, ← hdelay] at h
    obtain ⟨hone, hpackets, hasked⟩ := sends_newPackets u input.residue input.scan h key
    refine ⟨newPackets u key input.residue input.scan, ?_, hone, ?_, ?_⟩
    · rw [hsent', sendCommand_sent, hsent]
    · rwa [htype] at hpackets
    · intro drive
      rw [hasked drive, asked_congr hcore]
      rfl

end Session

end AlexRobot
