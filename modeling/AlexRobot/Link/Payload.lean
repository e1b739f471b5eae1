import AlexRobot.Link.DefinedParams
import AlexRobot.Pi.StepCommand

/-!
# What the parameters of a movement mean

The first parameter of a movement is a distance, a speed or a duration, and only the packet type
tells the Arduino which. The type and the parameter are chosen by the same mode, in two places;
the speed stays between 0 and 100 because it is always a multiple of 5.
-/

namespace AlexRobot

/-- The speed is a multiple of 5 between 0 and 100, and the delay is not negative. -/
structure WithinLimits (speed delayTime : ℤ) : Prop where
  multiple : 5 ∣ speed
  speedMin : 0 ≤ speed
  speedMax : speed ≤ 100
  delayMin : 0 ≤ delayTime

/-- The type of a movement packet is that of the mode, its first parameter is what the mode stores there,
and the Arduino takes it for the same thing. -/
def PayloadLaw (u : Ui) (packet : TPacket) (d : TDirection) : Prop :=
  match u.keyboardMode with
  | .params => packet.packetType = TPacketType.commandParam.code ∧
      packet.effect = .start d (some (packet.param 0)) (packet.param 1).toNat
  | .keyHold | .keyPress => packet.packetType = TPacketType.commandKeyboard.code ∧
      ((packet.param 0).toNat : ℤ) = u.speed ∧ packet.effect = .start d none u.speed
  | .smallAdjustment => packet.packetType = TPacketType.commandTime.code ∧
      packet.param 0 = UInt32.ofInt u.delayTime ∧ packet.effect = .timed d (packet.param 0).toNat

/-- The law concerns the mode, the speed and the delay. -/
theorem payloadLaw_congr {u v : Ui} (h : u.core = v.core) (packet : TPacket) (d : TDirection) :
    PayloadLaw u packet d ↔ PayloadLaw v packet d := by
  obtain ⟨-, hspeed, hdelay, hmode, -⟩ := (Ui.core_eq_iff u v).mp h
  rw [PayloadLaw, PayloadLaw, hspeed, hdelay, hmode]

/-- Each adjustment of speed or delay stays within the limits. -/
theorem Ui.Adjusts.withinLimits {u v : Ui} (hadjusts : u.Adjusts v) (h : WithinLimits u.speed u.delayTime) :
    WithinLimits v.speed v.delayTime := by
  obtain ⟨hmultiple, hmin, hmax, hdelay⟩ := h
  cases hadjusts with
  | ignore => exact ⟨hmultiple, hmin, hmax, hdelay⟩
  | leave => exact ⟨hmultiple, hmin, hmax, hdelay⟩
  | increaseSpeed =>
    unfold Ui.increaseSpeed
    split
    · rename_i hroom
      exact ⟨Dvd.dvd.add hmultiple (dvd_refl 5), Int.add_nonneg hmin (by decide), hroom, hdelay⟩
    · exact ⟨Int.dvd_of_emod_eq_zero rfl, Int.le.intro 100 rfl, le_rfl, hdelay⟩
  | decreaseSpeed =>
    unfold Ui.decreaseSpeed
    split
    · exact ⟨hmultiple, hmin, hmax, hdelay⟩
    · rename_i hpositive
      -- A positive multiple of 5 is at least 5.
      exact ⟨by dsimp only; omega, by dsimp only; omega, by dsimp only; omega, hdelay⟩
  | increaseDelay => exact ⟨hmultiple, hmin, hmax, Int.add_nonneg hdelay (by decide)⟩
  | decreaseDelay =>
    unfold Ui.decreaseDelay
    dsimp only
    split
    · exact ⟨hmultiple, hmin, hmax, le_rfl⟩
    · rename_i hroom
      exact ⟨hmultiple, hmin, hmax, Int.not_lt.mp hroom⟩

/-- Every step of the session keeps its speed and its delay within the limits. -/
theorem step_withinLimits (keyName : Int32 → Char) (s : Session) (input : Session.Input)
    (h : WithinLimits s.ui.speed s.ui.delayTime) :
    WithinLimits (s.step keyName input).ui.speed (s.step keyName input).ui.delayTime := by
  cases hcommand : s.command keyName input with
  | some key =>
    obtain ⟨u, residue, scan, hcore, hstep⟩ := Session.step_of_command hcommand
    obtain ⟨-, hspeed, hdelay, -, -⟩ := (Ui.core_eq_iff _ _).mp hcore
    obtain ⟨-, hspeed', hdelay', -, -⟩ := (Ui.core_eq_iff _ _).mp hstep
    obtain ⟨hkept, hkept'⟩ := u.sendCommand_adjustments key residue scan
    rwa [hspeed', hdelay', hkept, hkept', hspeed, hdelay]
  | none =>
    obtain ⟨u, v, hcore, hadjusts, hstep⟩ := Session.step_of_no_command hcommand
    obtain ⟨-, hspeed, hdelay, -, -⟩ := (Ui.core_eq_iff _ _).mp hcore
    obtain ⟨-, hspeed', hdelay', -, -⟩ := (Ui.core_eq_iff _ _).mp hstep
    rw [← hspeed, ← hdelay] at h
    rw [hspeed', hdelay']
    exact hadjusts.withinLimits h

section Movement

variable (u : Ui) (d : TDirection) (residue : TPacket) (scan : Scan)

/-- Outside params mode the first parameter of a movement is the one of the mode. -/
theorem movementPacket_param (hmode : u.keyboardMode ≠ .params) : (movementPacket u d residue scan).param 0 =
    UInt32.ofInt (if u.keyboardMode = .smallAdjustment then u.delayTime else u.speed) := by
  have hset (packet : TPacket) (value : UInt32) : (packet.setParam 0 value).param 0 = value := by
    rw [packet.param_setParam (Nat.zero_lt_succ 15), if_pos rfl]
  change (u.getParams _ scan).param 0 = _
  unfold Ui.getParams
  cases hcase : u.keyboardMode with
  | params => exact absurd hcase hmode
  | keyHold => exact hset _ _
  | keyPress => exact hset _ _
  | smallAdjustment => exact hset _ _

/-- Movements in different directions have different commands. -/
theorem TDirection.command_code_injective {d d' : TDirection} (h : d.command.code = d'.command.code) :
    d = d' := by
  revert h
  cases d <;> cases d' <;> decide

/-- The movements have the first four of the commands. -/
theorem TDirection.command_code_lt (d : TDirection) : d.command.code < 4 := by
  cases d <;> decide

/-- The packet of a movement obeys the law of the mode's parameters. -/
theorem movementPacket_payloadLaw (h : WithinLimits u.speed u.delayTime) :
    PayloadLaw u (movementPacket u d residue scan) d := by
  have htype := movementPacket_packetType u d residue scan
  have hparam := movementPacket_param u d residue scan
  have hcommand : (movementPacket u d residue scan).command = d.command.code := rfl
  have hspeed : ((UInt32.ofInt u.speed).toNat : ℤ) = u.speed := by
    obtain ⟨-, hmin, hmax, -⟩ := h
    rw [UInt32.ofInt, UInt32.toNat_ofNat']
    omega
  generalize movementPacket u d residue scan = packet at htype hparam hcommand ⊢
  have hkeyboard (hvalue : packet.param 0 = UInt32.ofInt u.speed) :
      TPacketType.commandKeyboard.code = TPacketType.commandKeyboard.code ∧
        ((packet.param 0).toNat : ℤ) = u.speed ∧
          commandEffect (fun d => .start d none (packet.param 0).toNat) d.command.code =
            .start d none u.speed := by
    have hpower : ((packet.param 0).toNat : ℚ) = u.speed := by
      rw [hvalue]
      exact_mod_cast hspeed
    refine ⟨rfl, by rw [hvalue, hspeed], ?_⟩
    rw [commandEffect_command, hpower]
  unfold Ui.commandType at htype
  unfold PayloadLaw TPacket.effect
  rw [hcommand]
  cases hmode : u.keyboardMode with
  | params =>
    rw [hmode] at htype
    rw [htype]
    exact ⟨rfl, commandEffect_command _ d⟩
  | keyHold =>
    rw [hmode] at htype hparam
    rw [htype]
    exact hkeyboard (hparam (by decide))
  | keyPress =>
    rw [hmode] at htype hparam
    rw [htype]
    exact hkeyboard (hparam (by decide))
  | smallAdjustment =>
    rw [hmode] at htype hparam
    rw [htype]
    exact ⟨rfl, hparam (by decide), commandEffect_command _ d⟩

/-- A key that is no movement sends no packet with a movement's command. -/
theorem command_of_no_movement {c : Char} (hmove : movement? c = none) :
    ∀ packet ∈ newPackets u c residue scan, packet.command ≠ d.command.code := by
  obtain ⟨endwin, hendwin⟩ := u.endwin_eq
  obtain ⟨initscr, hinitscr⟩ := u.initscr_eq
  have hnothing : ∀ packet ∈ u.sent.drop u.sent.length, packet.command ≠ d.command.code := by
    rw [List.drop_length]
    exact fun packet hpacket => absurd hpacket List.not_mem_nil
  have hother (sent : TPacket) (hsent : 4 ≤ sent.command) :
      ∀ packet ∈ (u.sent ++ [sent]).drop u.sent.length, packet.command ≠ d.command.code := by
    intro packet hpacket hcommand
    rw [List.drop_left, List.mem_singleton] at hpacket
    rw [← hpacket, hcommand] at hsent
    exact UInt8.not_le.mpr d.command_code_lt hsent
  unfold newPackets Ui.sendCommand
  dsimp only
  rw [hendwin, hinitscr]
  split
  -- The four digits; the eight movement keys; the keys of the six other commands.
  iterate 4 exact hnothing
  iterate 8 cases hmove
  iterate 12 exact hother _ (by dsimp only; decide)
  all_goals exact hnothing

end Movement

/-- What a step of the session sends is what its command sends. -/
theorem sends_eq (keyName : Int32 → Char) (s : Session) (input : Session.Input) :
    Session.sends keyName s input = [] ∨ ∃ (u : Ui) (key : Char) (residue : TPacket) (scan : Scan),
      u.core = s.ui.core ∧ Session.sends keyName s input = newPackets u key residue scan := by
  unfold Session.sends newPackets
  cases hcommand : s.command keyName input with
  | some key =>
    obtain ⟨u, residue, scan, hcore, hstep⟩ := Session.step_of_command hcommand
    obtain ⟨-, -, -, -, hsent⟩ := (Ui.core_eq_iff _ _).mp hcore
    obtain ⟨-, -, -, -, hsent'⟩ := (Ui.core_eq_iff _ _).mp hstep
    exact Or.inr ⟨u, key, residue, scan, hcore, by rw [hsent, hsent']⟩
  | none =>
    obtain ⟨u, v, hcore, hadjusts, hstep⟩ := Session.step_of_no_command hcommand
    obtain ⟨mode, speed, delayTime, screen, rfl⟩ := hadjusts.eq
    obtain ⟨-, -, -, -, hsent⟩ := (Ui.core_eq_iff _ _).mp hcore
    obtain ⟨-, -, -, -, hsent'⟩ := (Ui.core_eq_iff _ _).mp hstep
    left
    rw [hsent', ← hsent]
    exact List.drop_length

/-- Every movement that a step sends within the limits obeys the law. -/
theorem sends_payloadLaw {keyName : Int32 → Char} {s : Session} (h : WithinLimits s.ui.speed s.ui.delayTime)
    {input : Session.Input} {packet : TPacket} (hpacket : packet ∈ Session.sends keyName s input)
    {d : TDirection} (hcommand : packet.command = d.command.code) : PayloadLaw s.ui packet d := by
  rcases sends_eq keyName s input with hnone | ⟨u, key, residue, scan, hcore, hsends⟩
  · rw [hnone] at hpacket
    exact absurd hpacket List.not_mem_nil
  · rw [hsends] at hpacket
    cases hmove : movement? key with
    | none => exact absurd hcommand (command_of_no_movement u d residue scan hmove packet hpacket)
    | some d' =>
      rw [newPackets_eq hmove, List.mem_singleton] at hpacket
      obtain ⟨-, hspeed, hdelay, -, -⟩ := (Ui.core_eq_iff _ _).mp hcore
      rw [← hspeed, ← hdelay] at h
      rw [hpacket] at hcommand ⊢
      have hd : d' = d := TDirection.command_code_injective hcommand
      rw [← payloadLaw_congr hcore, ← hd]
      exact movementPacket_payloadLaw u d' residue scan h

/-- After every history the speed is a multiple of 5 between 0 and 100, and every movement that a step
sends has the type of the mode, with the parameter that the mode stores and the Arduino reads. -/
theorem payload_agrees (keyName : Int32 → Char) (residue : TPacket) (history : List Session.Input) :
    let s := Run.after (Session.step keyName) (Session.initial residue) history
    WithinLimits s.ui.speed s.ui.delayTime ∧
      ∀ input, ∀ packet ∈ Session.sends keyName s input, ∀ d : TDirection,
        packet.command = d.command.code → PayloadLaw s.ui packet d := by
  intro s
  have hinitial : WithinLimits defaultSpeed defaultDelay := ⟨by decide, by decide, by decide, by decide⟩
  have hlimits : WithinLimits s.ui.speed s.ui.delayTime :=
    Run.after_invariant (step_withinLimits keyName) hinitial history
  exact ⟨hlimits, fun input packet hpacket d hcommand => sends_payloadLaw hlimits hpacket hcommand⟩

end AlexRobot
