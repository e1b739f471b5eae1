import AlexRobot.Wire.Resync

/-!
# The memory that judging a frame touches

`deserialize` is called with a 100-byte `TPacket` as output. The magic number and the length
field alone decide how far the checksum loop reads `comms->buffer`, and the checksum decides
whether the copy to the packet runs. Both lengths are taken from the wire unchecked, so the
bounds hold for exactly the frames described here.
-/

namespace AlexRobot

open Bytes
open TracedMemory
open TracedMemory.Memory

/-- The bounds of one call: `comms->buffer` starts at the eighth byte of the private buffer and has
`MAX_DATA_SIZE` bytes, and the output is a `TPacket`. -/
def FrameAccess (access : Access Obj) : Prop :=
  (access.object = .privateBuffer → access.kind = .read → access.index < 8 + maxDataSize) ∧
    (access.object = .output → access.kind = .write → access.index < sizeofTPacket)

/-- The length that a frame claims for its data, from its length field. -/
def claimedSize (frame : List UInt8) : ℕ := (commsDataSize fun i => frame.getD i 0).toNat

/-- The frames that are judged inside the bounds. A wrong magic number ends the call at once; up to
100 bytes fit the packet; up to 128 fit the frame, but must not be copied. -/
def FrameFits (frame : List UInt8) : Prop :=
  (commsMagic fun i => frame.getD i 0) ≠ magicNumber ∨ claimedSize frame ≤ sizeofTPacket ∨
    (claimedSize frame ≤ maxDataSize ∧
      xorAll ((frame.drop 8).take (claimedSize frame)) ≠ commsChecksum fun i => frame.getD i 0)

/-- `assemble` copies into the private buffer and never touches the caller's packet. -/
theorem assemble_frameAccess {r : Receiver} (hr : r.memory.Within FrameAccess) (len : ℕ) :
    (assemble r len).2.memory.Within FrameAccess := by
  have hleftovers : (copyLeftovers r).memory.Within FrameAccess := by
    unfold copyLeftovers
    split
    · exact (within_copyLoop ..).mpr ⟨hr, fun k _ => by simp [FrameAccess]⟩
    · exact hr
  have hkept : (keepSurplus (copyLeftovers r) len).2.memory.Within FrameAccess := by
    unfold keepSurplus
    split
    · exact (within_copyLoop ..).mpr ⟨hleftovers, fun k _ => by simp [FrameAccess]⟩
    · exact hleftovers
  rw [assemble_memory]
  exact (within_copyLoop ..).mpr ⟨hkept, fun k _ => by simp [FrameAccess]⟩

/-- The sum over the claimed length, when it lies inside the frame. -/
theorem checksumLoop_frameCells {beyond : ℕ → UInt8} {frame : List UInt8}
    (hframe : frame.length = packetSize) {n : ℕ} (hn : n ≤ maxDataSize) :
    checksumLoop (commsBuffer (frameCells beyond frame)) n = xorAll ((frame.drop 8).take n) := by
  have h140 : frame.length = 140 := hframe
  have h128 : n ≤ 128 := hn
  rw [checksumLoop_eq_xorAll]
  refine congrArg xorAll (List.ext_getElem ?_ fun i hi hi' => ?_)
  · rw [List.length_map, List.length_range, List.length_take, List.length_drop]
    omega
  · rw [List.length_map, List.length_range] at hi
    rw [List.getElem_map, List.getElem_range, List.getElem_take, List.getElem_drop, commsBuffer, frameCells,
      List.getD_eq_getElem _ _ (by omega)]

/-- The fields of a full frame do not depend on the memory after it. -/
theorem frameCells_header (beyond : ℕ → UInt8) {frame : List UInt8}
    (hframe : frame.length = packetSize) :
    commsMagic (frameCells beyond frame) = (commsMagic fun i => frame.getD i 0) ∧
      (commsDataSize (frameCells beyond frame)).toNat = claimedSize frame ∧
      commsChecksum (frameCells beyond frame) = commsChecksum fun i => frame.getD i 0 := by
  have h140 : frame.length = 140 := hframe
  have hcell (i : ℕ) (hi : i < 140) : frameCells beyond frame i = frame.getD i 0 := by
    rw [frameCells, List.getD_eq_getElem _ _ (by omega), List.getD_eq_getElem _ _ (by omega)]
  simp only [commsMagic, claimedSize, commsDataSize, commsChecksum, hcell _ (by decide : 0 < 140),
    hcell _ (by decide : 1 < 140), hcell _ (by decide : 2 < 140), hcell _ (by decide : 3 < 140),
    hcell _ (by decide : 4 < 140), hcell _ (by decide : 5 < 140), hcell _ (by decide : 6 < 140),
    hcell _ (by decide : 7 < 140), hcell _ (by decide : 136 < 140), and_self]

/-- The verdict on a frame whose claimed data lies inside it does not depend on the memory after it. -/
theorem verdict_frameCells (beyond : ℕ → UInt8) {frame : List UInt8} (hframe : frame.length = packetSize)
    (hsize : claimedSize frame ≤ maxDataSize) :
    verdict (frameCells beyond frame) = verdict fun i => frame.getD i 0 := by
  have hzero : (fun i => frame.getD i 0) = frameCells (fun _ => 0) frame := rfl
  obtain ⟨hmagic, hclaimed, hchecksum⟩ := frameCells_header beyond hframe
  obtain ⟨-, hclaimed', -⟩ := frameCells_header (fun _ => 0) hframe
  rw [verdict, hmagic, hclaimed, hchecksum, checksumLoop_frameCells hframe hsize, verdict, hzero, hclaimed',
    checksumLoop_frameCells hframe hsize]

/-- A frame with a wrong magic number is bad whatever follows it. -/
theorem verdict_of_magic_ne (beyond : ℕ → UInt8) {frame : List UInt8} (hframe : frame.length = packetSize)
    (hmagic : (commsMagic fun i => frame.getD i 0) ≠ magicNumber) :
    verdict (frameCells beyond frame) = .packetBad := by
  rw [verdict, if_pos ((frameCells_header beyond hframe).1.trans_ne hmagic)]

/-- The packet that a frame carries when its data is a whole packet. -/
def framePacket (frame : List UInt8) : TPacket := TPacket.ofCells fun i => frame.getD (8 + i) 0

/-- An accepted frame that claims a whole packet replaces the caller's packet by its own. -/
theorem ofCells_delivered {beyond : ℕ → UInt8} {frame : List UInt8} (hframe : frame.length = packetSize)
    (hok : verdict (frameCells beyond frame) = .packetOk) (hsize : claimedSize frame = sizeofTPacket)
    (out : ℕ → UInt8) :
    TPacket.ofCells (delivered (frameCells beyond frame) out) = framePacket frame := by
  have h140 : frame.length = 140 := hframe
  apply TPacket.ofCells_congr
  intro i hi
  have h100 : i < 100 := hi
  have hclaimed := (frameCells_header beyond hframe).2.1
  rw [delivered, if_pos ⟨hok, by rw [hclaimed, hsize]; exact hi⟩, commsBuffer, frameCells,
    List.getD_eq_getElem _ _ (by omega), List.getD_eq_getElem _ _ (by omega)]

/-- A frame that was made from a packet carries the packet. -/
theorem framePacket_serialize (comms : TComms) (packet : TPacket) :
    framePacket (serialize comms packet.payload) = packet := by
  refine Eq.trans (TPacket.ofCells_congr fun i hi => ?_) packet.ofCells_bytes
  have hi' : i < packet.payload.val.length := by
    change i < packet.bytes.length
    rw [packet.bytes_length]
    exact hi
  have hcell := (serialize_body (fun _ => 0) comms packet.payload).1 i hi'
  exact hcell.trans (List.getD_eq_getElem _ _ hi').symm

/-- A serialized frame claims the length of its payload. -/
theorem claimedSize_serialize (comms : TComms) (data : Payload) :
    claimedSize (serialize comms data) = data.val.length :=
  (congrArg UInt32.toNat (serialize_header (fun _ => 0) comms data).2).trans (payload_size_toNat data)

/-- The frame of a packet claims the size of a whole packet. -/
theorem claimedSize_packet (comms : TComms) (packet : TPacket) :
    claimedSize (serialize comms packet.payload) = sizeofTPacket :=
  (claimedSize_serialize _ _).trans packet.bytes_length

/-- Judging a frame stays inside the bounds exactly when the frame fits. -/
theorem extractComms_frameAccess {r : Receiver} (hr : r.memory.Within FrameAccess) :
    (extractComms r).2.memory.Within FrameAccess ↔
      FrameFits (r.memory.window .privateBuffer 0 packetSize) := by
  have hframe : (r.memory.window .privateBuffer 0 packetSize).length = packetSize := window_length ..
  have hcells := frameCells_window r.memory
  generalize r.memory.window .privateBuffer 0 packetSize = frame at hframe hcells
  obtain ⟨hmagic, hsize, hchecksum⟩ :=
    frameCells_header (r.memory.cells .privateBuffer) hframe
  have hreads (n : ℕ) :
      (∀ k < n, FrameAccess ⟨.privateBuffer, .read, 8 + k⟩) ↔ n ≤ maxDataSize := by
    simp only [FrameAccess, reduceCtorEq, false_implies, and_true, forall_const,
      Nat.add_lt_add_iff_left]
    exact ⟨fun h => Nat.le_of_not_lt fun hlt => lt_irrefl _ (h _ hlt), fun h k hk => hk.trans_le h⟩
  have hwrites (n : ℕ) : (∀ k < n, FrameAccess ⟨.output, .write, k⟩) ↔ n ≤ sizeofTPacket := by
    simp only [FrameAccess, reduceCtorEq, false_implies, true_and, forall_const]
    exact ⟨fun h => Nat.le_of_not_lt fun hlt => lt_irrefl _ (h _ hlt), fun h k hk => hk.trans_le h⟩
  rw [extractComms_within, hreads, hwrites, verdict_eq_ok_iff, ← hcells, hmagic, hsize, hchecksum]
  by_cases hwrong : (commsMagic fun i => frame.getD i 0) = magicNumber
  · have hnotBad : verdict (frameCells (r.memory.cells .privateBuffer) frame) ≠ .packetBad := by
      rw [verdict, if_neg (not_not.mpr (hmagic.trans hwrong))]
      split <;> exact TResult.noConfusion
    by_cases hinside : claimedSize frame ≤ maxDataSize
    · rw [checksumLoop_frameCells hframe hinside, FrameFits]
      simp only [hr, hnotBad, hwrong, hinside, ne_eq, not_true_eq_false, not_false_eq_true, true_and,
        false_or, forall_const]
      exact ⟨fun h => or_iff_not_imp_right.mpr fun hsum => h (not_not.mp hsum),
        fun h hsum => h.resolve_right fun hne => hne hsum⟩
    · have hlarge : ¬ claimedSize frame ≤ sizeofTPacket :=
        fun h => hinside (h.trans (by decide))
      simp only [FrameFits, hnotBad, hwrong, hinside, hlarge, ne_eq, not_true_eq_false, not_false_eq_true,
        forall_const, false_and, and_false, or_self]
  · have hbad : verdict (frameCells (r.memory.cells .privateBuffer) frame) = .packetBad := by
      rw [verdict, if_pos (hmagic.trans_ne hwrong)]
    simp only [FrameFits, hr, hbad, hwrong, ne_eq, not_true_eq_false, not_false_eq_true, false_implies,
      false_and, true_and, true_or]

/-- A frame of 101 bytes of data, as `serialize` makes it. -/
def oversizedFrame : List UInt8 := serialize zeroComms ⟨List.replicate 101 0, by decide⟩

/-- The oversized frame is accepted, and does not fit the caller's packet. -/
theorem not_frameFits_oversizedFrame : ¬ FrameFits oversizedFrame := by
  let data : Payload := ⟨List.replicate 101 0, by decide⟩
  have hframe : oversizedFrame.length = packetSize := serialize_length _ _
  have hok := (serialize_accepted (fun _ => 0) (fun _ => 0) zeroComms data).1
  obtain ⟨hmagic, hword⟩ := serialize_header (fun _ => 0) zeroComms data
  have hsize : claimedSize oversizedFrame = 101 :=
    (claimedSize_serialize _ _).trans (List.length_replicate ..)
  have hsum := ((verdict_eq_ok_iff _).mp hok).2
  rw [hword, payload_size_toNat, checksumLoop_frameCells (serialize_length _ _) data.property] at hsum
  rintro (hwrong | hsmall | ⟨-, hne⟩)
  · exact hwrong hmagic
  · rw [hsize] at hsmall
    exact absurd hsmall (by decide)
  · rw [hsize] at hne
    exact hne hsum

/-- A receiver between frames, with a whole frame in the caller's buffer. -/
def loaded (frame : List UInt8) : Receiver :=
  Receiver.initial (store .buffer 0 frame ⟨fun _ _ => 0, []⟩)

/-- A whole frame that arrives in one chunk completes itself. -/
theorem loaded_complete {frame : List UInt8} (hframe : frame.length = packetSize) :
    (loaded frame).memory.Within FrameAccess ∧ (assemble (loaded frame) packetSize).1 = .packetComplete ∧
      (assemble (loaded frame) packetSize).2.memory.window .privateBuffer 0 packetSize = frame := by
  have hstart : (loaded frame).memory.Within FrameAccess :=
    (within_store ..).mpr ⟨fun _ h => absurd h List.not_mem_nil, fun _ _ => by simp [FrameAccess]⟩
  have hwell : (loaded frame).WellFormed := Receiver.initial_wellFormed _
  have hpending : (loaded frame).pending = [] := Receiver.initial_pending _
  have hchunk : (loaded frame).memory.window .buffer 0 packetSize = frame := by
    rw [← hframe]
    exact window_store ..
  obtain ⟨hcomplete, -, hwindow, -, -⟩ := assemble_complete hwell le_rfl (Nat.le_add_left packetSize _)
  rw [hchunk, hpending, List.nil_append, List.take_of_length_le hframe.le] at hwindow
  exact ⟨hstart, hcomplete, hwindow⟩

/-- One accepted frame makes `deserialize` write past the caller's packet. -/
theorem deserialize_frame_memory_refuted :
    ¬ ∀ (r : Receiver) (len : ℕ), r.memory.Within FrameAccess →
      (assemble r len).1 = .packetComplete → (deserialize r len).2.memory.Within FrameAccess := by
  intro hclaim
  have hlength : oversizedFrame.length = packetSize := serialize_length _ _
  obtain ⟨hstart, hcomplete, hframe⟩ := loaded_complete hlength
  have hafter := hclaim (loaded oversizedFrame) packetSize hstart hcomplete
  rw [deserialize_of_complete hcomplete, extractComms_frameAccess (assemble_frameAccess hstart _),
    hframe] at hafter
  exact not_frameFits_oversizedFrame hafter

/-- A call that completes a frame stays inside the bounds exactly when the frame fits. -/
theorem deserialize_frame_memory (r : Receiver) (len : ℕ) (frame : List UInt8)
    (hstart : r.memory.Within FrameAccess) (hcomplete : (assemble r len).1 = .packetComplete)
    (hframe : (assemble r len).2.memory.window .privateBuffer 0 packetSize = frame) :
    (deserialize r len).2.memory.Within FrameAccess ↔ FrameFits frame := by
  rw [deserialize_of_complete hcomplete, extractComms_frameAccess (assemble_frameAccess hstart len), hframe]

/-- A stop frame is judged inside the bounds, as it claims the size of a packet. -/
theorem stopFrame_frame_memory :
    FrameFits stopFrame ∧ (deserialize (loaded stopFrame) packetSize).2.memory.Within FrameAccess := by
  have hsize : claimedSize stopFrame = sizeofTPacket := by
    rw [stopFrame, claimedSize_serialize]
    exact stopPacket.bytes_length
  have hfits : FrameFits stopFrame := Or.inr (Or.inl hsize.le)
  have hlength : stopFrame.length = packetSize := serialize_length _ _
  obtain ⟨hstart, hcomplete, hframe⟩ := loaded_complete hlength
  exact ⟨hfits, (deserialize_frame_memory _ _ stopFrame hstart hcomplete hframe).mpr hfits⟩

end AlexRobot
