import AlexRobot.Arduino.Control
import AlexRobot.Common.Run
import AlexRobot.Wire.FrameMemory

/-!
# One acknowledgement for each command frame

The handlers acknowledge a command before, after or inside its action, and other packets are
sent in between. Counting only acknowledgements, handling a packet adds what the packet calls
for, an iteration of `loop()` adds what the frame it completes calls for, and a run adds what
the frames of its byte stream call for, in order.
-/

namespace AlexRobot

open TracedMemory

/-- An acknowledgement: the OK response, or any error. -/
def TPacket.isAck (packet : TPacket) : Bool :=
  (packet.packetType == TPacketType.response.code && packet.command == TResponseType.ok.code) ||
    packet.packetType == TPacketType.error.code

/-- The acknowledgements sent so far, by type and command. -/
def Alex.acks (a : Alex) : List (UInt8 × UInt8) :=
  (a.sent.filter TPacket.isAck).map fun packet => (packet.packetType, packet.command)

/-- An acknowledgement with the given type and command. -/
def ack (t : TPacketType) (r : TResponseType) : UInt8 × UInt8 := (t.code, r.code)

/-- The acknowledgement that an accepted packet calls for. -/
def TPacket.ackFor (packet : TPacket) : Option (UInt8 × UInt8) :=
  match TPacketType.ofCode? packet.packetType with
  | some .commandParam | some .commandKeyboard | some .commandTime =>
    if (TCommandType.ofCode? packet.command).isSome then some (ack .response .ok)
    else some (ack .error .badCommand)
  | _ => none

/-- The acknowledgement that a complete frame calls for. -/
def frameAck (frame : List UInt8) : Option (UInt8 × UInt8) :=
  match verdict fun i => frame.getD i 0 with
  | .packetOk => (framePacket frame).ackFor
  | .packetBad => some (ack .error .badPacket)
  | .packetChecksumBad => some (ack .error .badChecksum)
  | _ => none

/-- A frame made from a packet calls for what the packet calls for. -/
theorem frameAck_serialize (comms : TComms) (packet : TPacket) :
    frameAck (serialize comms packet.payload) = packet.ackFor := by
  have hok : (verdict fun i => (serialize comms packet.payload).getD i 0) = .packetOk :=
    (serialize_accepted (fun _ => 0) (fun _ => 0) comms packet.payload).1
  simp only [frameAck, hok, framePacket_serialize]

namespace Alex

/-- Sending a packet adds it to the acknowledgements if it is one. -/
theorem acks_sendResponse (a : Alex) (packet : TPacket) :
    (a.sendResponse packet).acks =
      a.acks ++ if packet.isAck then [(packet.packetType, packet.command)] else [] := by
  rw [acks, sendResponse, List.filter_append, List.map_append]
  cases hack : packet.isAck <;> simp [hack, acks]

/-- `sendOK` acknowledges the packet as handled, with `RESP_OK`. -/
@[simp] theorem acks_sendOK (a : Alex) : a.sendOK.acks = a.acks ++ [ack .response .ok] :=
  acks_sendResponse ..

/-- `sendBadPacket` acknowledges a frame with a wrong magic number. -/
@[simp] theorem acks_sendBadPacket (a : Alex) : a.sendBadPacket.acks = a.acks ++ [ack .error .badPacket] :=
  acks_sendResponse ..

/-- `sendBadChecksum` acknowledges a frame whose checksum does not match. -/
@[simp] theorem acks_sendBadChecksum (a : Alex) :
    a.sendBadChecksum.acks = a.acks ++ [ack .error .badChecksum] := acks_sendResponse ..

/-- `sendBadCommand` acknowledges a packet whose command is unknown. -/
@[simp] theorem acks_sendBadCommand (a : Alex) :
    a.sendBadCommand.acks = a.acks ++ [ack .error .badCommand] := acks_sendResponse ..

/-- The packet of `sendStatus` is a response, but it acknowledges nothing. -/
@[simp] theorem acks_sendStatus (a : Alex) : a.sendStatus.acks = a.acks :=
  (acks_sendResponse ..).trans (List.append_nil _)

/-- A text message is no acknowledgement, whatever its command byte. -/
@[simp] theorem acks_sendMessage (a : Alex) (message : List UInt8) :
    (a.sendMessage message).acks = a.acks :=
  (acks_sendResponse ..).trans (List.append_nil _)

/-- Running a function of the driving code acknowledges nothing. -/
@[simp] theorem acks_onMotion (a : Alex) (f : Motion → Motion) : (a.onMotion f).acks = a.acks := rfl

/-- A distance packet is followed by its acknowledgement. -/
@[simp] theorem acks_sendDistance (a : Alex) (sensors : Sensors) :
    (a.sendDistance sensors).acks = a.acks ++ [ack .response .ok] := by
  have hdist := (acks_sendResponse a ((a.headed .response .dist).setParam 0
    (getUltrasonicDistance sensors.echo).toInt32.toUInt32)).trans (List.append_nil _)
  rw [sendDistance, acks_sendOK, hdist]

/-- The packet of `sendColor` is a response, but it acknowledges nothing. -/
@[simp] theorem acks_sendColor (a : Alex) (sensors : Sensors) : (a.sendColor sensors).acks = a.acks := by
  obtain ⟨dist, servo, harm⟩ := a.extendArm_eq sensors
  rw [sendColor, harm]
  exact (acks_sendResponse ..).trans (List.append_nil _)

/-- A handler acknowledges its command once, with OK if it knows the command. -/
theorem acks_handleCommand (go : TDirection → Motion → Motion) (command : TPacket) (sensors : Sensors)
    (a : Alex) :
    (handleCommand go command sensors a).acks = a.acks ++
      [if (TCommandType.ofCode? command.command).isSome then ack .response .ok
        else ack .error .badCommand] := by
  unfold handleCommand
  cases TCommandType.ofCode? command.command with
  | none => exact acks_sendBadCommand a
  | some c => cases c <;> simp

/-- Handling a packet adds the acknowledgement that it calls for. -/
theorem acks_handlePacket (packet : TPacket) (sensors : Sensors) (a : Alex) :
    (handlePacket packet sensors a).acks = a.acks ++ packet.ackFor.toList := by
  have hcommand (go : TDirection → Motion → Motion) :
      (handleCommand go packet sensors a).acks = a.acks ++
        (if (TCommandType.ofCode? packet.command).isSome then some (ack .response .ok)
          else some (ack .error .badCommand)).toList := by
    rw [acks_handleCommand]
    split <;> rfl
  unfold handlePacket TPacket.ackFor
  cases TPacketType.ofCode? packet.packetType with
  | none => exact (List.append_nil _).symm
  | some t =>
    cases t with
    | commandParam => exact hcommand _
    | commandKeyboard => exact hcommand _
    | commandTime => exact hcommand _
    | response => exact (List.append_nil _).symm
    | error => exact (List.append_nil _).symm
    | message => exact (List.append_nil _).symm
    | hello => exact (List.append_nil _).symm

/-- Handling a packet leaves the receiver as `readPacket` has left it. -/
theorem handlePacket_receiver (packet : TPacket) (sensors : Sensors) (a : Alex) :
    (handlePacket packet sensors a).receiver = a.receiver := by
  have hcolor : (a.sendColor sensors).receiver = a.receiver := by
    obtain ⟨dist, servo, harm⟩ := a.extendArm_eq sensors
    rw [sendColor, harm]
    rfl
  have hcommand (go : TDirection → Motion → Motion) :
      (handleCommand go packet sensors a).receiver = a.receiver := by
    unfold handleCommand
    cases TCommandType.ofCode? packet.command with
    | none => rfl
    | some c => cases c <;> first | exact hcolor | rfl
  unfold handlePacket
  cases TPacketType.ofCode? packet.packetType with
  | none => rfl
  | some t => cases t <;> first | exact hcommand _ | rfl

/-- The checks of `loop()` acknowledge nothing, not even when they stop the robot. -/
theorem acks_checks (a : Alex) (guardEcho : UInt32) : (a.checks guardEcho).acks = a.acks := by
  rw [checks, acks_onMotion, acks_onMotion, collisionCheck]
  split
  · rw [acks_sendMessage, acks_onMotion]
  · rfl

/-- Responding to the result of `readPacket` leaves the receiver as it is. -/
theorem respond_receiver (a : Alex) (result : TResult) (sensors : Sensors) :
    (a.respond result sensors).receiver = a.receiver := by
  cases result with
  | packetOk => exact handlePacket_receiver ..
  | packetBad => rfl
  | packetChecksumBad => rfl
  | packetIncomplete => rfl
  | packetComplete => rfl

/-- An iteration of `loop()` changes the receiver by its call of `readPacket` alone. -/
theorem loop_receiver (a : Alex) (s : Surroundings) :
    (a.loop s).receiver = (readPacket a.receiver s.recvPacket s.available).2 := by
  rw [loop_eq, respond_receiver]

/-- The acknowledgement that the result of `readPacket` calls for. -/
theorem acks_loop (a : Alex) (s : Surroundings) :
    (a.loop s).acks = a.acks ++
      (match (readPacket a.receiver s.recvPacket s.available).1 with
        | .packetOk =>
          (TPacket.ofCells (readPacket a.receiver s.recvPacket s.available).2.output).ackFor
        | .packetBad => some (ack .error .badPacket)
        | .packetChecksumBad => some (ack .error .badChecksum)
        | .packetIncomplete => none
        | .packetComplete => none).toList := by
  rw [loop_eq, ← acks_checks a s.guardEcho]
  generalize readPacket a.receiver s.recvPacket s.available = outcome
  obtain ⟨result, receiver⟩ := outcome
  cases result with
  | packetOk => exact acks_handlePacket ..
  | packetBad => exact acks_sendBadPacket _
  | packetChecksumBad => exact acks_sendBadChecksum _
  | packetIncomplete => exact (List.append_nil _).symm
  | packetComplete => exact (List.append_nil _).symm

/-- The bytes that an operation takes from the serial line: those of the iteration's read. -/
def Op.received : Op → List UInt8
  | .leftPulse => []
  | .rightPulse => []
  | .packet _ _ => []
  | .loop s => s.available

/-- One operation of the sketch feeds the bytes that it takes to the receiver, and no others. -/
theorem step_tracks {a : Alex} {reader : Blocks.Reader UInt8 packetSize} (h : a.receiver.Tracks reader)
    (op : Op) (hlen : op.received.length ≤ packetSize) :
    (a.step op).receiver.Tracks (reader.feed op.received) := by
  cases op with
  | leftPulse =>
    rw [Op.received, reader.feed_nil]
    exact h
  | rightPulse =>
    rw [Op.received, reader.feed_nil]
    exact h
  | packet packet sensors =>
    rw [Op.received, reader.feed_nil, step, handlePacket_receiver]
    exact h
  | loop s =>
    rw [step, loop_receiver]
    exact (readPacket_spec h s.recvPacket hlen).1

/-- The operations of a run feed their bytes to the receiver. -/
theorem after_step_tracks {a : Alex} {reader : Blocks.Reader UInt8 packetSize}
    (h : a.receiver.Tracks reader) {ops : List Op} (hlen : ∀ op ∈ ops, op.received.length ≤ packetSize) :
    (Run.after step a ops).receiver.Tracks (reader.feedAll (ops.map Op.received)) := by
  apply Run.after_simulates (fun (a : Alex) reader => a.receiver.Tracks reader) Op.received
  · intro a reader op htracks hop
    exact step_tracks htracks op hop
  · exact h
  · exact hlen

end Alex

/-- The frames of the acknowledgement law: a wrong magic number, or a whole packet. -/
def WholePacket (frame : List UInt8) : Prop :=
  (commsMagic fun i => frame.getD i 0) ≠ magicNumber ∨ claimedSize frame = sizeofTPacket

section Whole

variable {frame : List UInt8} (h : WholePacket frame) (hframe : frame.length = packetSize)
  (beyond : ℕ → UInt8)

include h hframe

/-- The verdict on the frame of a whole packet does not depend on the memory behind it. -/
theorem WholePacket.verdict_eq :
    verdict (frameCells beyond frame) = verdict fun i => frame.getD i 0 := by
  rcases h with hmagic | hsize
  · rw [verdict_of_magic_ne beyond hframe hmagic]
    exact (verdict_of_magic_ne (fun _ => 0) hframe hmagic).symm
  · exact verdict_frameCells beyond hframe (hsize.le.trans (by decide))

/-- The frame of a whole packet, when accepted, replaces the caller's packet by the one that it carries. -/
theorem WholePacket.packet_eq (hok : verdict (frameCells beyond frame) = .packetOk)
    (out : ℕ → UInt8) :
    TPacket.ofCells (delivered (frameCells beyond frame) out) = framePacket frame := by
  rcases h with hmagic | hsize
  · rw [verdict_of_magic_ne beyond hframe hmagic] at hok
    cases hok
  · exact ofCells_delivered hframe hok hsize out

end Whole

/-- An operation that takes its packets from the wire, at most a frame at a time. -/
def Alex.Op.FromWire : Alex.Op → Prop
  | .leftPulse => True
  | .rightPulse => True
  | .packet _ _ => False
  | .loop s => s.available.length ≤ packetSize

namespace Alex

/-- An iteration of `loop()` adds the acknowledgement of the frame that its bytes complete. -/
theorem acks_loop_completed {a : Alex} {reader : Blocks.Reader UInt8 packetSize}
    (h : a.receiver.Tracks reader) (s : Surroundings) (hlen : s.available.length ≤ packetSize)
    (hframes : ∀ frame ∈ reader.completed s.available, WholePacket frame) :
    (a.loop s).acks = a.acks ++ (reader.completed s.available).filterMap frameAck := by
  rw [acks_loop]
  congr 1
  rcases (readPacket_spec h s.recvPacket hlen).2.2 with ⟨hnone, hresult⟩ | ⟨frame, hone, hresult, hout⟩
  · rw [hnone, hresult]
    rfl
  · have hframe : frame.length = packetSize :=
      Blocks.length_of_mem_blocks (List.mem_of_mem_head? (congrArg List.head? hone))
    have hwhole := hframes frame (hone ▸ List.mem_singleton_self frame)
    have hverdict := hwhole.verdict_eq hframe a.receiver.beyond
    have hpacket := hwhole.packet_eq hframe a.receiver.beyond
    rw [hone, hresult, hout]
    simp only [List.filterMap_cons, List.filterMap_nil, frameAck, ← hverdict]
    cases hcase : verdict (frameCells a.receiver.beyond frame) with
    | packetOk =>
      simp only [hpacket hcase]
      cases (framePacket frame).ackFor <;> rfl
    | packetBad => rfl
    | packetChecksumBad => rfl
    | packetIncomplete => rfl
    | packetComplete => rfl

/-- One operation on the serial line adds the acknowledgement of the frame that its bytes complete. -/
theorem acks_step {a : Alex} {reader : Blocks.Reader UInt8 packetSize} (h : a.receiver.Tracks reader)
    {op : Op} (hop : op.FromWire)
    (hframes : ∀ frame ∈ reader.completed op.received, WholePacket frame) :
    (a.step op).acks = a.acks ++ (reader.completed op.received).filterMap frameAck := by
  cases op with
  | leftPulse =>
    rw [Op.received, reader.completed_nil]
    exact (List.append_nil _).symm
  | rightPulse =>
    rw [Op.received, reader.completed_nil]
    exact (List.append_nil _).symm
  | packet packet sensors => exact hop.elim
  | loop s => exact acks_loop_completed h s hop hframes

/-- A run on the wire adds the acknowledgements of the frames of its bytes, in order. -/
theorem acks_after {a : Alex} {reader : Blocks.Reader UInt8 packetSize} (h : a.receiver.Tracks reader)
    {ops : List Op} (hops : ∀ op ∈ ops, op.FromWire)
    (hframes : ∀ frame ∈ reader.completed (ops.map Op.received).flatten, WholePacket frame) :
    (Run.after step a ops).acks =
      a.acks ++ (reader.completed (ops.map Op.received).flatten).filterMap frameAck := by
  induction ops generalizing a reader with
  | nil =>
    rw [List.map_nil, List.flatten_nil, reader.completed_nil]
    exact (List.append_nil _).symm
  | cons op rest ih =>
    have hfirst := hops op List.mem_cons_self
    have hlen : op.received.length ≤ packetSize := by
      cases op with
      | leftPulse => exact Nat.zero_le _
      | rightPulse => exact Nat.zero_le _
      | packet _ _ => exact Nat.zero_le _
      | loop s => exact hfirst
    have hsplit : reader.completed ((op :: rest).map Op.received).flatten =
        reader.completed op.received ++
          (reader.feed op.received).completed (rest.map Op.received).flatten := by
      rw [List.map_cons, List.flatten_cons, reader.completed_append]
    rw [hsplit] at hframes ⊢
    have hnow := acks_step h hfirst fun frame hmem => hframes frame (List.mem_append_left _ hmem)
    have hlater := ih (step_tracks h op hlen) (fun later hl => hops later (List.mem_cons_of_mem _ hl))
      fun frame hmem => hframes frame (List.mem_append_right _ hmem)
    rw [List.filterMap_append, ← List.append_assoc, ← hnow]
    exact hlater

end Alex

/-- For every run on the wire whose frames have a wrong magic number or carry a whole packet, the
acknowledgements sent are those that the completed frames call for, one each and in order. -/
theorem one_ack_per_frame (alexCirc : ℚ) (stack : Stack) (memory : Memory Obj UInt8) (ops : List Alex.Op)
    (hops : ∀ op ∈ ops, op.FromWire)
    (hframes : ∀ frame ∈ Blocks.blocks packetSize (ops.map Alex.Op.received).flatten, WholePacket frame) :
    (Run.after Alex.step (Alex.setup alexCirc stack memory) ops).acks =
      (Blocks.blocks packetSize (ops.map Alex.Op.received).flatten).filterMap frameAck := by
  have htracks : (Alex.setup alexCirc stack memory).receiver.Tracks emptyReader := initial_tracks memory
  rw [← emptyReader_completed] at hframes ⊢
  exact (Alex.acks_after htracks hops hframes).trans (List.nil_append _)

/-- A stop frame that arrives in two parts is acknowledged once. -/
theorem stopFrame_one_ack :
    (Run.after Alex.step Alex.fresh [.loop ⟨0, .silent, fun _ => 0, stopFrame.take 100⟩, .leftPulse,
      .loop ⟨0, .silent, fun _ => 0, stopFrame.drop 100⟩]).acks = [ack .response .ok] := by
  let ops : List Alex.Op := [.loop ⟨0, .silent, fun _ => 0, stopFrame.take 100⟩, .leftPulse,
    .loop ⟨0, .silent, fun _ => 0, stopFrame.drop 100⟩]
  have hlength : stopFrame.length = 140 := serialize_length _ _
  have hstream : (ops.map Alex.Op.received).flatten = stopFrame := by
    simp [ops, Alex.Op.received]
  have hblocks := Blocks.blocks_of_length_eq packetSize_pos hlength
  have hsize : claimedSize stopFrame = sizeofTPacket := claimedSize_packet zeroComms stopPacket
  have hops : ∀ op ∈ ops, op.FromWire := by
    simp [ops, Alex.Op.FromWire, hlength, packetSize]
  have hack : frameAck stopFrame = some (ack .response .ok) := frameAck_serialize zeroComms stopPacket
  have hrun := one_ack_per_frame 0 ⟨fun _ => .bare .commandKeyboard .stop, fun _ => zeroComms⟩
    ⟨fun _ _ => 0, []⟩ ops hops (by
      rw [hstream, hblocks]
      intro frame hframe
      rw [List.mem_singleton.mp hframe]
      exact Or.inr hsize)
  rw [hstream, hblocks, List.filterMap_cons_some hack, List.filterMap_nil] at hrun
  exact hrun

end AlexRobot
