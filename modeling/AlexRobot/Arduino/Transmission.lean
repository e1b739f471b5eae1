import AlexRobot.Arduino.Acknowledge
import AlexRobot.Wire.PacketFrames

/-!
# What goes out on the serial port

The sketch writes to the serial port in `sendResponse` alone. Whatever else an operation does, a
property that depends on the transmissions only, and that `sendResponse` keeps, survives it. So
the bytes written are at any time the frames of the packets sent, in order.
-/

namespace AlexRobot

open TracedMemory

namespace Alex

/-- A property of what was sent and written that every call of `sendResponse` keeps. -/
structure KeptBySending (Holds : Alex → Prop) : Prop where
  same : ∀ {a b : Alex}, Holds a → b.sent = a.sent → b.written = a.written → b.stack = a.stack → Holds b
  sendResponse : ∀ {a : Alex} (packet : TPacket), Holds a → Holds (a.sendResponse packet)

namespace KeptBySending

variable {Holds : Alex → Prop} (hkept : KeptBySending Holds)

include hkept

/-- Running a function of the driving code transmits nothing. -/
theorem onMotion {a : Alex} (h : Holds a) (f : Motion → Motion) : Holds (a.onMotion f) :=
  hkept.same h rfl rfl rfl

/-- Reading the colour transmits one packet, after moving the arm. -/
theorem sendColor {a : Alex} (h : Holds a) (sensors : Sensors) : Holds (a.sendColor sensors) := by
  obtain ⟨dist, servo, harm⟩ := a.extendArm_eq sensors
  have harmed : Holds ((a.extendArm sensors).findColor sensors) := by
    rw [harm]
    exact hkept.same h rfl rfl rfl
  exact hkept.same (hkept.sendResponse _ harmed) rfl rfl rfl

/-- A command handler transmits by `sendResponse` alone. -/
theorem handleCommand (go : TDirection → Motion → Motion) (command : TPacket) (sensors : Sensors)
    {a : Alex} (h : Holds a) : Holds (handleCommand go command sensors a) := by
  have hok : Holds a.sendOK := hkept.sendResponse _ h
  unfold Alex.handleCommand
  cases TCommandType.ofCode? command.command with
  | none => exact hkept.sendResponse _ h
  | some c =>
    cases c with
    | forward => exact hkept.onMotion hok _
    | reverse => exact hkept.onMotion hok _
    | turnLeft => exact hkept.onMotion hok _
    | turnRight => exact hkept.onMotion hok _
    | stop => exact hkept.onMotion hok _
    | getStats => exact hkept.sendResponse _ hok
    | clearStats => exact hkept.onMotion hok _
    | color => exact hkept.sendResponse _ (hkept.sendColor h sensors)
    | dist => exact hkept.sendResponse _ (hkept.sendResponse _ h)

/-- Handling a packet transmits by `sendResponse` alone. -/
theorem handlePacket (packet : TPacket) (sensors : Sensors) {a : Alex} (h : Holds a) :
    Holds (handlePacket packet sensors a) := by
  unfold Alex.handlePacket
  cases TPacketType.ofCode? packet.packetType with
  | none => exact h
  | some t =>
    cases t with
    | commandParam => exact hkept.handleCommand _ packet sensors h
    | commandKeyboard => exact hkept.handleCommand _ packet sensors h
    | commandTime => exact hkept.handleCommand _ packet sensors h
    | response => exact h
    | error => exact h
    | message => exact h
    | hello => exact h

/-- The checks of `loop()` send at most the message of the automatic stop. -/
theorem checks {a : Alex} (h : Holds a) (guardEcho : UInt32) : Holds (a.checks guardEcho) := by
  have hguard : Holds (a.collisionCheck guardEcho) := by
    unfold collisionCheck
    split
    · exact hkept.sendResponse _ (hkept.onMotion h _)
    · exact h
  exact hkept.onMotion (hkept.onMotion hguard _) _

/-- An iteration of `loop()` transmits by `sendResponse` alone. -/
theorem loop {a : Alex} (h : Holds a) (s : Surroundings) : Holds (a.loop s) := by
  rw [loop_eq]
  generalize readPacket a.receiver s.recvPacket s.available = outcome
  obtain ⟨result, receiver⟩ := outcome
  have hread : Holds { a.checks s.guardEcho with receiver := receiver } :=
    hkept.same (hkept.checks h s.guardEcho) rfl rfl rfl
  cases result with
  | packetOk => exact hkept.handlePacket _ _ hread
  | packetBad => exact hkept.sendResponse _ hread
  | packetChecksumBad => exact hkept.sendResponse _ hread
  | packetIncomplete => exact hread
  | packetComplete => exact hread

/-- Every operation transmits by `sendResponse` alone. -/
theorem step {a : Alex} (h : Holds a) (op : Op) : Holds (a.step op) := by
  cases op with
  | leftPulse => exact hkept.onMotion h _
  | rightPulse => exact hkept.onMotion h _
  | packet packet sensors => exact hkept.handlePacket packet sensors h
  | loop s => exact hkept.loop h s

end KeptBySending

/-- The bytes written are the frames of the packets sent. -/
def Framed (a : Alex) : Prop := a.written = (packetFrames a.stack.comms a.sent).flatten

/-- From one state to another the sketch sent some packets, each in a frame of its own, and the stack is
as it was. -/
structure Transmits (a b : Alex) : Prop where
  stack : b.stack = a.stack
  sent : a.sent <+: b.sent
  framed : a.Framed → b.Framed

/-- `sendResponse` transmits one packet in a frame of its own, and nothing else transmits anything. -/
theorem transmits_kept (a : Alex) : KeptBySending (Transmits a) where
  same h hsent hwritten hstack :=
    { stack := hstack.trans h.stack
      sent := hsent ▸ h.sent
      framed := fun hframed => by
        rw [Framed, hwritten, hsent, hstack]
        exact h.framed hframed }
  sendResponse packet h :=
    { stack := h.stack
      sent := h.sent.trans (List.prefix_append _ _)
      framed := fun hframed => by
        have hbefore := h.framed hframed
        rw [Framed] at hbefore ⊢
        simp only [Alex.sendResponse, packetFrames_concat, List.flatten_append, List.flatten_cons,
          List.flatten_nil, List.append_nil, hbefore] }

/-- What one operation of the sketch sends, it transmits in frames of their own. -/
theorem transmits_step (a : Alex) (op : Op) : Transmits a (a.step op) :=
  (transmits_kept a).step ⟨rfl, List.prefix_rfl, id⟩ op

end Alex

end AlexRobot
