import AlexRobot.Arduino.Effect
import AlexRobot.Common.Run

/-!
# What the Arduino sends

The sketch has nine senders, each of which builds its packets on the stack and gives them to
`sendResponse`. Nothing else is ever sent: whatever a run of the sketch sends was sent by one
of them, in some state, over some stack. All their packets are responses, errors or messages.
-/

namespace AlexRobot

namespace Alex

/-- `sendBadResponse`, which only `waitForHello` calls. -/
def sendBadResponse (a : Alex) : Alex := a.sendResponse (a.headed .error .badResponse)

/-- The functions that call `sendResponse`, with their arguments. -/
inductive Sender
  | ok
  | status
  | badPacket
  | badChecksum
  | badCommand
  | badResponse
  | message (text : List UInt8)
  | distance (sensors : Sensors)
  | color (sensors : Sensors)

/-- `send`: call a sender of the sketch with its arguments. -/
def send (a : Alex) : Sender → Alex
  | .ok => a.sendOK
  | .status => a.sendStatus
  | .badPacket => a.sendBadPacket
  | .badChecksum => a.sendBadChecksum
  | .badCommand => a.sendBadCommand
  | .badResponse => a.sendBadResponse
  | .message text => a.sendMessage text
  | .distance sensors => a.sendDistance sensors
  | .color sensors => a.sendColor sensors

/-- A packet that some sender sends: from any state, and so with any counters and over any stack. -/
def CanSend (packet : TPacket) : Prop :=
  ∃ (a : Alex) (sender : Sender), packet ∈ (a.send sender).sent.drop a.sent.length

/-- A packet that reports to the Pi: a response, an error or a message, by its type. -/
def IsReport (packet : TPacket) : Prop :=
  packet.packetType = TPacketType.response.code ∨ packet.packetType = TPacketType.error.code ∨
    packet.packetType = TPacketType.message.code

/-- From one state to another only packets of a kind were sent. -/
def Appends (Kind : TPacket → Prop) (a b : Alex) : Prop :=
  ∃ packets, b.sent = a.sent ++ packets ∧ ∀ packet ∈ packets, Kind packet

section Appends

variable {Kind : TPacket → Prop} {a b c : Alex}

/-- From one state to another that has sent the same, nothing was appended. -/
theorem Appends.of_same (h : b.sent = a.sent) : Appends Kind a b :=
  ⟨[], h.trans (List.append_nil _).symm, fun _ hpacket => absurd hpacket List.not_mem_nil⟩

/-- What is appended in two parts is of the kind that both parts are. -/
theorem Appends.trans (hab : Appends Kind a b) (hbc : Appends Kind b c) : Appends Kind a c := by
  obtain ⟨first, hfirst, hkind⟩ := hab
  obtain ⟨second, hsecond, hkind'⟩ := hbc
  refine ⟨first ++ second, by rw [hsecond, hfirst, List.append_assoc], ?_⟩
  intro packet hpacket
  exact (List.mem_append.mp hpacket).elim (hkind packet) (hkind' packet)

/-- `sendResponse` appends the one packet that it is given. -/
theorem appends_sendResponse {packet : TPacket} (h : Kind packet) : Appends Kind a (a.sendResponse packet) := by
  refine ⟨[packet], rfl, ?_⟩
  intro sent hsent
  rwa [List.mem_singleton.mp hsent]

/-- Running a function of the driving code appends nothing. -/
theorem Appends.onMotion (h : Appends Kind a b) (f : Motion → Motion) : Appends Kind a (b.onMotion f) :=
  h.trans (.of_same rfl)

end Appends

/-- Every sender of the sketch appends only reports. -/
theorem appends_send (a : Alex) (sender : Sender) : Appends IsReport a (a.send sender) := by
  cases sender with
  | ok => exact appends_sendResponse (Or.inl rfl)
  | status => exact appends_sendResponse (Or.inl rfl)
  | badPacket => exact appends_sendResponse (Or.inr (Or.inl rfl))
  | badChecksum => exact appends_sendResponse (Or.inr (Or.inl rfl))
  | badCommand => exact appends_sendResponse (Or.inr (Or.inl rfl))
  | badResponse => exact appends_sendResponse (Or.inr (Or.inl rfl))
  | message text => exact appends_sendResponse (Or.inr (Or.inr rfl))
  | distance sensors =>
    have hdist : Appends IsReport a (a.sendResponse ((a.headed .response .dist).setParam 0
        (getUltrasonicDistance sensors.echo).toInt32.toUInt32)) := appends_sendResponse (Or.inl rfl)
    exact hdist.trans (appends_sendResponse (Or.inl rfl))
  | color sensors =>
    obtain ⟨dist, servo, harm⟩ := a.extendArm_eq sensors
    rw [send, sendColor, harm]
    refine ⟨[_], rfl, ?_⟩
    intro packet hpacket
    rw [List.mem_singleton.mp hpacket]
    exact Or.inl rfl

/-- A packet that one of the senders can send is a report. -/
theorem CanSend.isReport {packet : TPacket} (h : CanSend packet) : IsReport packet := by
  obtain ⟨a, sender, hsent⟩ := h
  obtain ⟨packets, hpackets, hkind⟩ := a.appends_send sender
  rw [hpackets, List.drop_left] at hsent
  exact hkind packet hsent

/-- Every sender appends only packets that it can send. -/
theorem send_appends (a : Alex) (sender : Sender) : Appends CanSend a (a.send sender) := by
  obtain ⟨packets, hpackets, -⟩ := a.appends_send sender
  refine ⟨packets, hpackets, fun packet hpacket => ⟨a, sender, ?_⟩⟩
  rwa [hpackets, List.drop_left]

/-- A command handler appends packets by its senders alone. -/
theorem appends_handleCommand (go : TDirection → Motion → Motion) (command : TPacket) (sensors : Sensors)
    (a : Alex) : Appends CanSend a (handleCommand go command sensors a) := by
  have hok : Appends CanSend a a.sendOK := a.send_appends .ok
  unfold handleCommand
  cases TCommandType.ofCode? command.command with
  | none => exact a.send_appends .badCommand
  | some c =>
    cases c with
    | forward => exact hok.onMotion _
    | reverse => exact hok.onMotion _
    | turnLeft => exact hok.onMotion _
    | turnRight => exact hok.onMotion _
    | stop => exact hok.onMotion _
    | getStats => exact hok.trans (a.sendOK.send_appends .status)
    | clearStats => exact hok.onMotion _
    | color => exact (a.send_appends (.color sensors)).trans ((a.sendColor sensors).send_appends .ok)
    | dist => exact a.send_appends (.distance sensors)

/-- Handling a packet appends packets by the senders alone. -/
theorem appends_handlePacket (packet : TPacket) (sensors : Sensors) (a : Alex) :
    Appends CanSend a (handlePacket packet sensors a) := by
  unfold handlePacket
  cases TPacketType.ofCode? packet.packetType with
  | none => exact .of_same rfl
  | some t =>
    cases t with
    | commandParam => exact appends_handleCommand _ packet sensors a
    | commandKeyboard => exact appends_handleCommand _ packet sensors a
    | commandTime => exact appends_handleCommand _ packet sensors a
    | response => exact .of_same rfl
    | error => exact .of_same rfl
    | message => exact .of_same rfl
    | hello => exact .of_same rfl

/-- An iteration of `loop()` sends by the senders alone. -/
theorem appends_loop (a : Alex) (s : Surroundings) : Appends CanSend a (a.loop s) := by
  have hchecks : Appends CanSend a (a.checks s.guardEcho) := by
    have hguard : Appends CanSend a (a.collisionCheck s.guardEcho) := by
      unfold collisionCheck
      split
      · exact (Appends.of_same rfl).trans ((a.onMotion Motion.stop).send_appends (.message autoStopped))
      · exact .of_same rfl
    exact (hguard.onMotion _).onMotion _
  rw [loop_eq]
  generalize readPacket a.receiver s.recvPacket s.available = outcome
  obtain ⟨result, receiver⟩ := outcome
  have hreceiver : Appends CanSend (a.checks s.guardEcho) { a.checks s.guardEcho with receiver := receiver } :=
    .of_same rfl
  refine (hchecks.trans hreceiver).trans ?_
  cases result with
  | packetOk => exact appends_handlePacket _ _ _
  | packetBad => exact send_appends _ .badPacket
  | packetChecksumBad => exact send_appends _ .badChecksum
  | packetIncomplete => exact .of_same rfl
  | packetComplete => exact .of_same rfl

/-- One operation of the sketch appends packets by the senders alone. -/
theorem appends_step (a : Alex) (op : Op) : Appends CanSend a (a.step op) := by
  cases op with
  | leftPulse => exact .of_same rfl
  | rightPulse => exact .of_same rfl
  | packet packet sensors => exact appends_handlePacket packet sensors a
  | loop s => exact a.appends_loop s

/-- Whatever a run has sent, one of the senders can send. -/
theorem canSend_of_run (alexCirc : ℚ) (stack : Stack) (memory : TracedMemory.Memory Obj UInt8) (ops : List Op)
    {packet : TPacket} (h : packet ∈ (Run.after step (setup alexCirc stack memory) ops).sent) :
    CanSend packet := by
  have hrun :
      Appends CanSend (setup alexCirc stack memory) (Run.after step (setup alexCirc stack memory) ops) := by
    apply Run.after_invariant
    · intro a op ha
      exact ha.trans (a.appends_step op)
    · exact .of_same rfl
  obtain ⟨packets, hpackets, hkind⟩ := hrun
  rw [hpackets] at h
  exact hkind packet h

end Alex

end AlexRobot
