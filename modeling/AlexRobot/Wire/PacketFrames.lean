import AlexRobot.Wire.FrameMemory

/-!
# The frames of a sequence of packets

Both programs send packets of one size, each in a frame of its own that is built on the stack.
What the stack held shows in a frame, and the frames follow each other as the packets do.
-/

namespace AlexRobot

/-- The frames of the packets that a program has sent; `comms i` is what the stack holds where the frame
of packet `i` is built. -/
def packetFrames (comms : ℕ → TComms) (packets : List TPacket) : List (List UInt8) :=
  packets.mapIdx fun i packet => serialize (comms i) packet.payload

/-- Every frame of a list of packets is the frame of one of them. -/
theorem mem_packetFrames {comms : ℕ → TComms} {packets : List TPacket} {frame : List UInt8}
    (h : frame ∈ packetFrames comms packets) :
    ∃ i packet, packet ∈ packets ∧ frame = serialize (comms i) packet.payload := by
  obtain ⟨i, hi, hframe⟩ := List.mem_mapIdx.mp h
  exact ⟨i, packets[i], List.getElem_mem hi, hframe.symm⟩

/-- With one packet more there is one frame more, behind the others. -/
theorem packetFrames_concat (comms : ℕ → TComms) (packets : List TPacket) (packet : TPacket) :
    packetFrames comms (packets ++ [packet]) =
      packetFrames comms packets ++ [serialize (comms packets.length) packet.payload] := by
  rw [packetFrames, List.mapIdx_append]
  simp [packetFrames]

/-- The frames of the first packets are the first of the frames. -/
theorem packetFrames_isPrefix (comms : ℕ → TComms) {packets later : List TPacket} (h : packets <+: later) :
    packetFrames comms packets <+: packetFrames comms later := by
  obtain ⟨new, rfl⟩ := h
  rw [packetFrames, packetFrames, List.mapIdx_append]
  exact List.prefix_append _ _

end AlexRobot
