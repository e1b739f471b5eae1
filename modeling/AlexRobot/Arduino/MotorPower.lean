import AlexRobot.Arduino.Effect

/-!
# The power of the motors

`move` scales a power in percent to 255 and hands the result to a parameter of one byte. No
handler bounds the power that its packet carries, so a value beyond the byte loses its upper
bits: 100 percent is full speed and 101 percent is almost none.
-/

namespace AlexRobot

open Conversion

/-- The speed parameter that the handler of an untimed movement reads. -/
def TPacket.power (packet : TPacket) : UInt32 :=
  if packet.packetType = TPacketType.commandParam.code then packet.param 1 else packet.param 0

/-- The PWM byte that a power in percent calls for, 255 at most. -/
def pwm (power : UInt32) : ℕ := min 255 (255 * power.toNat / 100)

/-- The speeds of the four motors, as the driver was given them. -/
def Motors.speeds (motors : Motors) : List UInt8 :=
  [motors.fl.speed, motors.fr.speed, motors.bl.speed, motors.br.speed]

/-- Every one of the four motors has the given PWM byte. -/
def Motors.RunAt (motors : Motors) (byte : ℕ) : Prop := ∀ speed ∈ motors.speeds, speed.toNat = byte

/-- A power of at most 100 percent, or one whose scaled value ends in a byte of 255. -/
def PowerFits (power : UInt32) : Prop := power.toNat ≤ 100 ∨ 255 * power.toNat / 100 % 256 = 255

instance (power : UInt32) : Decidable (PowerFits power) := inferInstanceAs (Decidable (_ ∨ _))

/-- A larger power calls for no lower PWM byte. -/
theorem pwm_mono {power power' : UInt32} (h : power ≤ power') : pwm power ≤ pwm power' := by
  have hle : power.toNat ≤ power'.toNat := h
  unfold pwm
  omega

/-- Losing the upper bits gives the PWM byte exactly of the powers that fit. -/
theorem low_byte_eq_pwm_iff (power : UInt32) :
    255 * power.toNat / 100 % 256 = pwm power ↔ PowerFits power := by
  unfold pwm PowerFits
  have hscaled : 255 * power.toNat / 100 < 256 ↔ power.toNat ≤ 100 := by omega
  rw [← hscaled]
  omega

/-- Scaling a whole percentage and dropping the fraction is a division of integers. -/
theorem floor_scaled (power : ℕ) : ⌊(power : ℚ) / 100 * 255⌋ = ((255 * power / 100 : ℕ) : ℤ) := by
  have hscaled : (power : ℚ) / 100 * 255 = ((255 * power : ℕ) : ℚ) / ((100 : ℕ) : ℚ) := by
    push_cast
    ring
  rw [hscaled, Rat.floor_natCast_div_natCast]
  rfl

/-- What `move` gives the four motors is the low byte of the scaled power. -/
theorem move_speeds (motors : Motors) (power : UInt32) (direction : Fin 5) :
    (motors.move power.toNat direction).RunAt (255 * power.toNat / 100 % 256) := by
  have hnonneg : (0 : ℚ) ≤ (power.toNat : ℚ) / 100 * 255 := by positivity
  have hbyte : (toInt16 ((power.toNat : ℚ) / 100 * 255)).toUInt16.toUInt8.toNat =
      255 * power.toNat / 100 % 256 := by
    rw [toNat_byte_toInt16 hnonneg, floor_scaled]
    rfl
  have hset : (motors.setSpeed (toInt16 ((power.toNat : ℚ) / 100 * 255))).RunAt
      (255 * power.toNat / 100 % 256) := by
    intro speed hspeed
    simp only [Motors.speeds, Motors.setSpeed, List.mem_cons, List.not_mem_nil, or_false, or_self] at hspeed
    rw [hspeed, hbyte]
  unfold Motors.move
  cases Tdir.ofCode direction <;> exact hset

/-- Every movement function gives the four motors the low byte of the scaled power. -/
theorem drive_speeds (d : TDirection) (dist : ℚ) (power : UInt32) (m : Motion) :
    (Alex.drive d dist power.toNat m).motors.RunAt (255 * power.toNat / 100 % 256) := by
  cases d with
  | forward => exact move_speeds m.motors power _
  | backward => exact move_speeds m.motors power _
  | left => exact move_speeds m.motors power _
  | right => exact move_speeds m.motors power _

/-- An untimed movement starts at the power of its packet. -/
theorem TPacket.Starts.effect {packet : TPacket} {d : TDirection} (h : packet.Starts d) :
    ∃ dist, packet.effect = .start d dist packet.power.toNat := by
  obtain ⟨htype, hcommand⟩ := h
  unfold TPacket.effect TPacket.power
  rw [hcommand]
  rcases htype with hparam | hkeyboard
  · rw [hparam, if_pos rfl]
    exact ⟨some (packet.param 0), commandEffect_command _ d⟩
  · rw [hkeyboard, if_neg (by decide)]
    exact ⟨none, commandEffect_command _ d⟩

/-- Whichever operation handles an untimed movement, all four motors get the low byte of the scaled
power. -/
theorem speeds_of_handles {a : Alex} {op : Alex.Op} {packet : TPacket} {m : Motion} {d : TDirection}
    (hhandles : a.handles op = some (packet, m)) (hstarts : packet.Starts d) :
    (a.step op).motors.RunAt (255 * packet.power.toNat / 100 % 256) := by
  obtain ⟨dist, heffect⟩ := hstarts.effect
  have hstep : (a.step op).toMotion = Alex.drive d (distArgument dist) packet.power.toNat m := by
    rw [(Alex.step_of_handles hhandles).1, heffect]
    rfl
  rw [hstep]
  exact drive_speeds d _ packet.power m

/-- Motors that run at one byte run at no other. -/
theorem Motors.RunAt.eq {motors : Motors} {byte byte' : ℕ} (h : motors.RunAt byte) :
    motors.RunAt byte' ↔ byte = byte' := by
  constructor
  · intro h'
    have hmem : motors.fl.speed ∈ motors.speeds := List.mem_cons_self
    exact (h _ hmem).symm.trans (h' _ hmem)
  · rintro rfl
    exact h

/-- The motors get the PWM byte of the power exactly if the power fits, and between powers that fit
a larger one gives no motor a lower speed. -/
theorem motor_power (a : Alex) (op : Alex.Op) (packet : TPacket) (m : Motion) (d : TDirection)
    (hhandles : a.handles op = some (packet, m)) (hstarts : packet.Starts d) :
    ((a.step op).motors.RunAt (pwm packet.power) ↔ PowerFits packet.power) ∧
      ∀ (a' : Alex) (op' : Alex.Op) (packet' : TPacket) (m' : Motion) (d' : TDirection),
        a'.handles op' = some (packet', m') → packet'.Starts d' →
          PowerFits packet.power → PowerFits packet'.power → packet.power ≤ packet'.power →
            ∀ speed ∈ (a.step op).motors.speeds, ∀ speed' ∈ (a'.step op').motors.speeds,
              speed ≤ speed' := by
  have hspeeds := speeds_of_handles hhandles hstarts
  refine ⟨hspeeds.eq.trans (low_byte_eq_pwm_iff packet.power), ?_⟩
  intro a' op' packet' m' d' hhandles' hstarts' hfits hfits' hle speed hspeed speed' hspeed'
  have hspeeds' := speeds_of_handles hhandles' hstarts'
  have hpwm : speed.toNat = pwm packet.power :=
    (hspeeds speed hspeed).trans ((low_byte_eq_pwm_iff _).mpr hfits)
  have hpwm' : speed'.toNat = pwm packet'.power :=
    (hspeeds' speed' hspeed').trans ((low_byte_eq_pwm_iff _).mpr hfits')
  rw [UInt8.le_iff_toNat_le, hpwm, hpwm']
  exact pwm_mono hle

/-- A forward movement at the given power, from the keyboard. -/
def forwardAt (power : UInt32) : TPacket := (TPacket.bare .commandKeyboard .forward).setParam 0 power

/-- At 101 percent the low byte of the scaled power is 1, and the motors almost stop. -/
theorem motor_power_refuted : ¬ ∀ (a : Alex) (op : Alex.Op) (packet : TPacket) (m : Motion)
    (d : TDirection), a.handles op = some (packet, m) → packet.Starts d →
      (a.step op).motors.RunAt (pwm packet.power) := by
  intro hclaim
  have hstarts : (forwardAt 101).Starts .forward := ⟨Or.inr rfl, rfl⟩
  have hhandles : Alex.fresh.handles (.packet (forwardAt 101) .silent) =
      some (forwardAt 101, Alex.fresh.toMotion) := rfl
  have hrun := hclaim _ _ _ _ _ hhandles hstarts
  have hspeeds := speeds_of_handles hhandles hstarts
  exact absurd (hspeeds.eq.mp hrun) (by decide)

/-- Full speed at 100 percent, and no more than that at 40. -/
theorem full_motor_power :
    (Alex.fresh.step (.packet (forwardAt 100) .silent)).motors.RunAt (pwm (forwardAt 100).power) ∧
      ∀ speed ∈ (Alex.fresh.step (.packet (forwardAt 40) .silent)).motors.speeds,
        ∀ speed' ∈ (Alex.fresh.step (.packet (forwardAt 100) .silent)).motors.speeds, speed ≤ speed' := by
  have hstarts (power : UInt32) : (forwardAt power).Starts .forward := ⟨Or.inr rfl, rfl⟩
  have hslow : PowerFits (forwardAt 40).power := by decide
  have hfull : PowerFits (forwardAt 100).power := by decide
  obtain ⟨hiff, -⟩ := motor_power .fresh (.packet (forwardAt 100) .silent) (forwardAt 100) _ .forward rfl
    (hstarts 100)
  obtain ⟨-, hmono⟩ := motor_power .fresh (.packet (forwardAt 40) .silent) (forwardAt 40) _ .forward rfl
    (hstarts 40)
  exact ⟨hiff.mpr hfull, hmono _ _ _ _ _ rfl (hstarts 100) hslow hfull (by decide)⟩

end AlexRobot
