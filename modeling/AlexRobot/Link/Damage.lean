import AlexRobot.Link.ListenerSystem
import AlexRobot.Link.PiSystem

/-!
# What damage on the lines costs

Neither program sends a frame again that the other has reported. So as long as the lines lose no
byte, a damaged frame costs its packet, and no more: the packets whose frames arrive unharmed are
handled as ever, each of the others is reported once, and the robot still does nothing that was
never asked for.
-/

namespace AlexRobot

namespace System.Asks

variable {σ ι ρ : Type*} {H : Host σ ι ρ} (A : Asks H) {wires : Wires} {s : System σ}

end System.Asks

namespace PiSetting

variable (e : PiSetting)

/-- A setting in which the second frame of the Pi arrives with another command number. -/
def oneDamaged : PiSetting :=
  { zero with
    wires :=
      { Wires.quiet fun _ => zeroComms with
        down := { Wire.quiet with
          noise := fun i => if i = 1 then .byte 9 1 (Or.inr (by decide)) else .silent } } }

/-- Over lossless wires, in every run whose reads fit a frame, the Arduino handles the packets that the
Pi has sent and whose frames arrived unharmed, in order; it answers each command of them, and reports
each of the other frames, once and in order. The Pi handles and logs what the Arduino has sent in the
same way. What is missing is on the lines. -/
theorem accounts_for_damage (hdown : e.wires.down.Lossless) (hup : e.wires.up.Lossless) (events : List Event)
    (hfits : ∀ event ∈ events, event.Fits) :
    let s := e.after events
    (∃ n, s.handled = outcomes e.wires.down.noise Noise.bring ((sent s).take n) ∧
        s.alex.acks = outcomes e.wires.down.noise Noise.answer ((sent s).take n) ∧
          (s.down.transit = [] → n = (sent s).length)) ∧
      ∃ n, s.host.thread.handled = outcomes e.wires.up.noise Noise.bring (s.alex.sent.take n) ∧
        s.host.thread.errors = outcomes e.wires.up.noise Noise.report (s.alex.sent.take n) ∧
          (s.up.transit = [] → n = s.alex.sent.length) := by
  intro s
  have hlinkedDown := e.linkedDown hdown hfits
  have hlinkedUp := e.linkedUp hup hfits
  have hlineDown := hlinkedDown.lossless hdown
  have hlineUp := hlinkedUp.lossless hup
  exact ⟨⟨s.down.delivered.length, hlinkedDown.handled_eq_outcomes hlineDown.faithful,
      hlinkedDown.acks_eq_outcomes hlineDown.faithful, hlinkedDown.delivered_sent hlineDown⟩,
    s.up.delivered.length, hlinkedUp.heard_eq_outcomes hlineUp.faithful,
    hlinkedUp.errors_eq_outcomes hlineUp.faithful, hlinkedUp.delivered_sent hlineUp⟩

/-- A stop whose frame is damaged on a lossless line is accounted for. -/
theorem oneDamaged_accounts_for_damage : ∃ n, (oneDamaged.after someEvents).alex.acks =
    outcomes oneDamaged.wires.down.noise Noise.answer ((sent (oneDamaged.after someEvents)).take n) := by
  obtain ⟨⟨n, -, hacks, -⟩, -⟩ :=
    oneDamaged.accounts_for_damage (fun _ => rfl) (fun _ => rfl) someEvents fits_someEvents
  exact ⟨n, hacks⟩

end PiSetting

namespace ListenerSetting

variable (e : ListenerSetting)

/-- A setting in which the second frame of the server arrives with another magic number. -/
def oneDamaged : ListenerSetting :=
  { verifying with
    wires :=
      { Wires.quiet fun _ => zeroComms with
        down := { Wire.quiet with
          noise := fun i => if i = 1 then .byte 0 1 (Or.inl (by decide)) else .silent } } }

end ListenerSetting

end AlexRobot
