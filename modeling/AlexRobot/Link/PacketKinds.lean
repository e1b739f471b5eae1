import AlexRobot.Arduino.Senders
import AlexRobot.Link.OwnFrame
import AlexRobot.Server.UartReceiveThread

/-!
# Packet kinds on the Arduino and in the server

Both are compiled with a `constants.h` of their own, and the two number the packet types
differently: a response of the Arduino has the number of a message in the server, and its errors
and messages have the numbers of a hello and of nothing. No packet that the Arduino sends is
relayed to the network as what it is.
-/

namespace AlexRobot

open UartReceiveThread

/-- The network message that relays a packet of the Arduino as its own kind: an OK, a status, an error
or a text. There is none for its other responses. -/
def ownMessage? (packet : TPacket) : Option (List UInt8) :=
  if packet.packetType = TPacketType.response.code then
    if packet.command = TResponseType.ok.code then
      some [Server.TNetConstants.error.code, TResponseType.ok.code]
    else if packet.command = TResponseType.status.code then
      some (Server.TNetConstants.status.code :: packet.params.toList.flatMap Bytes.wordBytes)
    else none
  else if packet.packetType = TPacketType.error.code then
    some [Server.TNetConstants.error.code, packet.command]
  else if packet.packetType = TPacketType.message.code then
    some (Server.TNetConstants.message.code :: packet.data.toList)
  else none

/-- Between two states the server has written the message of the packet's own kind to a client, and
nothing else. -/
def RelaysOwnKind (packet : TPacket) (s t : Server) : Prop :=
  ∃ conn data, ownMessage? packet = some data ∧ t.written = s.written ++ [(conn, data)]

/-- The server makes a text message of every response and ignores errors and texts. -/
theorem reply?_of_isReport {packet : TPacket} (h : Alex.IsReport packet) : Server.reply? packet =
    if packet.packetType = TPacketType.response.code then
      some (Server.TNetConstants.message.code :: packet.data.toList)
    else none := by
  unfold Server.reply?
  rcases h with h | h | h
  · rw [h]
    rfl
  · rw [h]
    rfl
  · rw [h]
    rfl

/-- A packet of the Arduino is never handled as its own kind. -/
theorem not_relaysOwnKind {packet : TPacket} (h : Alex.IsReport packet) (s : Server) (c : Int32) :
    ¬ RelaysOwnKind packet s (s.handleUARTPacket packet c) := by
  rintro ⟨conn, data, hown, hwritten⟩
  rw [Server.handleUARTPacket_eq, reply?_of_isReport h] at hwritten
  by_cases hresponse : packet.packetType = TPacketType.response.code
  · rw [if_pos hresponse] at hwritten
    have hdata := Server.data_eq_of_written hwritten
    -- A response is relayed as a text: neither the OK nor the status starts with its kind.
    rw [ownMessage?, if_pos hresponse, hdata] at hown
    split at hown
    · cases hown
    · split at hown
      · cases hown
      · cases hown
  · rw [if_neg hresponse] at hwritten
    simp at hwritten

/-- Nothing that a run of the sketch has sent is handled as its own kind. -/
theorem not_relaysOwnKind_of_run (alexCirc : ℚ) (stack : Stack) (memory : TracedMemory.Memory Obj UInt8)
    (ops : List Alex.Op) {packet : TPacket}
    (h : packet ∈ (Run.after Alex.step (Alex.setup alexCirc stack memory) ops).sent) (s : Server) (c : Int32) :
    ¬ RelaysOwnKind packet s (s.handleUARTPacket packet c) :=
  not_relaysOwnKind (Alex.canSend_of_run alexCirc stack memory ops h).isReport s c

/-- A round of the thread that completes the frame of a packet handles that packet. -/
theorem iterate_packet {t : ReceiveThread} {reader : Blocks.Reader UInt8 packetSize}
    (h : t.receiver.Tracks reader) {input : Read} (hlen : input.received.length ≤ packetSize) {comms : TComms}
    {packet : TPacket} (hone : reader.completed input.received = [serialize comms packet.payload]) :
    (t.iterate input).handled = t.handled ++ [packet] := by
  have hwhole := iterate_whole h hlen hone (serialize_length _ _) (accepted_serialize _ _)
    (claimedSize_packet comms packet)
  rwa [framePacket_serialize] at hwhole

/-- After an intact transfer the server handles the packet that was sent. -/
theorem serial_server {t : UartReceiveThread} {reader : Blocks.Reader UInt8 packetSize}
    (h : t.receiver.Tracks reader) {input : Read} (hlen : input.received.length ≤ packetSize) {comms : TComms}
    {packet : TPacket} (hone : reader.completed input.received = [serialize comms packet.payload]) (c : Int32) :
    (t.step (.serial input c)).server = t.server.handleUARTPacket packet c := by
  have hthread : t.thread.receiver.Tracks reader := h
  rw [step_server, inputs, iterate_packet hthread hlen hone]
  rfl

/-- After any events, the frame of a packet that a round completes is handled as the packet. -/
theorem after_serial (cells : Obj → ℕ → UInt8) {events : List Event} {input : Read} (c : Int32) {comms : TComms}
    {packet : TPacket} (hevents : ∀ event ∈ events, event.received.length ≤ packetSize)
    (hinput : input.received.length ≤ packetSize)
    (hone : (emptyReader.feedAll (events.map Event.received)).completed input.received =
      [serialize comms packet.payload]) :
    (Run.after step (start cells) (events ++ [.serial input c])).server =
      (Run.after step (start cells) events).server.handleUARTPacket packet c := by
  have hstart : (start cells).receiver.Tracks emptyReader := initial_tracks _
  have htracks := after_step_tracks hstart hevents
  rw [Run.after_append]
  exact serial_server htracks hinput hone c

/-- The server and the Arduino agree on the kind of no packet that the Arduino can send. -/
theorem packet_kinds (cells : Obj → ℕ → UInt8) (events : List Event) (input : Read) (c : Int32)
    (comms : TComms) (packet : TPacket) (hsent : Alex.CanSend packet)
    (hevents : ∀ event ∈ events, event.received.length ≤ packetSize)
    (hinput : input.received.length ≤ packetSize)
    (hone : (emptyReader.feedAll (events.map Event.received)).completed input.received =
      [serialize comms packet.payload]) :
    ¬ RelaysOwnKind packet (Run.after step (start cells) events).server
      (Run.after step (start cells) (events ++ [.serial input c])).server := by
  rw [after_serial cells c hevents hinput hone]
  exact not_relaysOwnKind hsent.isReport _ c

/-- The packet that the first `sendOK` of the sketch sends. -/
def okPacket : TPacket := Alex.fresh.headed .response .ok

/-- The packet of the first `sendOK` is one that the Arduino can send. -/
theorem canSend_okPacket : Alex.CanSend okPacket := ⟨Alex.fresh, .ok, List.mem_singleton_self _⟩

/-- A read that brings the whole frame of the first `sendOK`. -/
def okRead : Read := .bytes ⟨serialize zeroComms okPacket.payload, (serialize_length _ _).trans_le (by decide)⟩

/-- The read of the first `sendOK` fills exactly one frame. -/
theorem okRead_length : okRead.received.length ≤ packetSize := (serialize_length _ _).le

/-- A receiver that holds nothing completes that frame. -/
theorem completed_okRead : emptyReader.completed okRead.received = [serialize zeroComms okPacket.payload] :=
  Blocks.blocks_of_length_eq packetSize_pos (serialize_length _ _)

/-- A client asks for the statistics and then waits for what the Arduino answers. -/
def getStats : List UInt8 := [Server.TNetConstants.command.code, 103, 0, 0, 0, 0, 0, 0, 0, 0]

/-- The client's message has its kind and fits the worker's buffer. -/
theorem getStats_length : 0 < getStats.length ∧ getStats.length ≤ Server.bufLen := by decide

/-- The client connects, and its worker reads the message. -/
def servedClient (buffer : Server.Buffer) : List Event :=
  [.accept buffer, .read 0 (.stored getStats getStats_length) okPacket]

/-- Neither event of the client brings bytes from the Arduino. -/
theorem servedClient_received (buffer : Server.Buffer) :
    ∀ event ∈ servedClient buffer, event.received.length ≤ packetSize := by
  intro event hevent
  simp only [servedClient, List.mem_cons, List.not_mem_nil, or_false] at hevent
  rcases hevent with rfl | rfl
  · exact Nat.zero_le _
  · exact Nat.zero_le _

/-- After the two events the client is the one that the Arduino's packets are answered to. -/
theorem servedClient_served (cells : Obj → ℕ → UInt8) (buffer : Server.Buffer) :
    (Run.after step (start cells) (servedClient buffer)).server.networkActive = true ∧
      (Run.after step (start cells) (servedClient buffer)).server.tlsConn = some 0 := by
  have hserved : ∃ w ∈ (Server.initial.step (.accept buffer)).serving, w.conn = 0 := by
    rw [Server.accept_active rfl]
    exact ⟨_, List.mem_singleton_self _, rfl⟩
  exact Server.read_served hserved getStats getStats_length okPacket

/-- After the two events of the client the read of the first OK completes its frame. -/
theorem completed_servedClient (buffer : Server.Buffer) :
    (emptyReader.feedAll ((servedClient buffer).map Event.received)).completed okRead.received =
      [serialize zeroComms okPacket.payload] := by
  change ((emptyReader.feed []).feed []).completed okRead.received = _
  rw [emptyReader.feed_nil, emptyReader.feed_nil]
  exact completed_okRead

/-- What the stack holds for the worker's buffer, here zeros. -/
def zeroBuffer : Server.Buffer := Vector.replicate Server.bufLen 0

/-- The client is served, and still the first OK is not relayed to it as one. -/
theorem okPacket_kind : let s := Run.after step (start fun _ _ => 0) (servedClient zeroBuffer)
    (s.server.networkActive = true ∧ s.server.tlsConn = some 0) ∧
      ¬ RelaysOwnKind okPacket s.server
        (Run.after step (start fun _ _ => 0) (servedClient zeroBuffer ++ [.serial okRead 1])).server :=
  ⟨servedClient_served _ zeroBuffer,
    packet_kinds (fun _ _ => 0) (servedClient zeroBuffer) okRead 1 zeroComms okPacket canSend_okPacket
      (servedClient_received zeroBuffer) okRead_length (completed_servedClient zeroBuffer)⟩

/-- A client that is served and has written is not told that its command was received. -/
theorem packet_kinds_refuted : ¬ ∀ (cells : Obj → ℕ → UInt8) (events : List Event) (input : Read) (c : Int32)
    (comms : TComms) (packet : TPacket) (conn : ℕ), Alex.CanSend packet →
    (∀ event ∈ events, event.received.length ≤ packetSize) → input.received.length ≤ packetSize →
    (emptyReader.feedAll (events.map Event.received)).completed input.received =
      [serialize comms packet.payload] →
    (Run.after step (start cells) events).server.networkActive = true →
    (Run.after step (start cells) events).server.tlsConn = some conn → 0 < c →
    RelaysOwnKind packet (Run.after step (start cells) events).server
      (Run.after step (start cells) (events ++ [.serial input c])).server := by
  intro hclaim
  have hevents := servedClient_received zeroBuffer
  have hcompleted := completed_servedClient zeroBuffer
  obtain ⟨hactive, htls⟩ := servedClient_served (fun _ _ => 0) zeroBuffer
  have hrelays := hclaim (fun _ _ => 0) (servedClient zeroBuffer) okRead 1 zeroComms okPacket 0 canSend_okPacket
    hevents okRead_length hcompleted hactive htls (by decide)
  rw [after_serial _ 1 hevents okRead_length hcompleted] at hrelays
  exact not_relaysOwnKind canSend_okPacket.isReport _ 1 hrelays

end AlexRobot
