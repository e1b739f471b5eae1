import AlexRobot.Wire.FrameMemory

/-!
# The frames that are accepted

A full frame whose length field stays inside its buffer is judged by three of its parts: the
magic number, the bytes of data that it claims, and their sum. The accepted frames are
exactly those that `serialize` makes, and the payload can be read off the frame.
-/

namespace AlexRobot

open Bytes
open TracedMemory
open TracedMemory.Memory

/-- Consecutive entries of a byte string are a part of it. -/
theorem map_getD_range (frame : List UInt8) {first n : ℕ} (h : first + n ≤ frame.length) :
    (List.range n).map (fun i => frame.getD (first + i) 0) = (frame.drop first).take n := by
  refine List.ext_getElem ?_ fun i hi _ => ?_
  · rw [List.length_map, List.length_range, List.length_take, List.length_drop]
    omega
  · rw [List.length_map, List.length_range] at hi
    rw [List.getElem_map, List.getElem_range, List.getElem_take, List.getElem_drop,
      List.getD_eq_getElem _ _ (by omega)]

/-- `assemble` never touches the structure that the caller passes to `deserialize`. -/
theorem assemble_output (r : Receiver) (len : ℕ) : (assemble r len).2.output = r.output := by
  have hne (object : Obj) (h : object ≠ .output) : Obj.output ≠ object := h.symm
  have hleftovers : (copyLeftovers r).output = r.output := by
    unfold copyLeftovers
    split
    · exact cells_copyLoop_of_ne (hne _ (by decide)) ..
    · rfl
  have hkept : (keepSurplus (copyLeftovers r) len).2.output = (copyLeftovers r).output := by
    unfold keepSurplus
    split
    · exact cells_copyLoop_of_ne (hne _ (by decide)) ..
    · rfl
  rw [Receiver.output, assemble_memory, cells_copyLoop_of_ne (hne _ (by decide))]
  exact hkept.trans hleftovers

section Frame

variable {frame : List UInt8} (hframe : frame.length = packetSize)

include hframe

/-- The magic number of a full frame is that of its first four bytes. -/
theorem commsMagic_eq_iff : (commsMagic fun i => frame.getD i 0) = magicNumber ↔
    frame.take 4 = wordBytes magicNumber := by
  have h140 : frame.length = 140 := hframe
  have hbytes : frame.take 4 = [frame.getD 0 0, frame.getD 1 0, frame.getD 2 0, frame.getD 3 0] := by
    have hcells := map_getD_range frame (by omega : 0 + 4 ≤ frame.length)
    simp only [Nat.zero_add, List.drop_zero] at hcells
    exact hcells.symm
  rw [commsMagic, word_eq_iff, hbytes]

/-- The length field of a full frame holds the length that it claims. -/
theorem wordBytes_claimedSize : (frame.drop 4).take 4 = wordBytes (UInt32.ofNat (claimedSize frame)) := by
  have h140 : frame.length = 140 := hframe
  rw [claimedSize, UInt32.ofNat_toNat, commsDataSize, wordBytes_word,
    ← map_getD_range frame (by omega : 4 + 4 ≤ frame.length)]
  rfl

variable (beyond : ℕ → UInt8) (hsize : claimedSize frame ≤ maxDataSize)

/-- A full frame is bad exactly when it does not start with the magic number. -/
theorem verdict_eq_bad_iff :
    verdict (frameCells beyond frame) = .packetBad ↔ frame.take 4 ≠ wordBytes magicNumber := by
  rw [ne_eq, ← commsMagic_eq_iff hframe, ← (frameCells_header beyond hframe).1]
  unfold verdict
  split
  · rename_i hmagic
    exact iff_of_true rfl hmagic
  · rename_i hmagic
    refine iff_of_false ?_ hmagic
    split <;> decide

include hsize

/-- A full frame whose data lies inside it is accepted on its magic number and the sum of the data. -/
theorem verdict_frame_eq_ok_iff :
    verdict (frameCells beyond frame) = .packetOk ↔ frame.take 4 = wordBytes magicNumber ∧
      xorAll ((frame.drop 8).take (claimedSize frame)) = frame.getD 136 0 := by
  obtain ⟨hmagic, hclaimed, hchecksum⟩ := frameCells_header beyond hframe
  rw [verdict_eq_ok_iff, hmagic, commsMagic_eq_iff hframe, hclaimed, hchecksum,
    checksumLoop_frameCells hframe hsize, commsChecksum]

/-- The data that a full frame carries has the length that the frame claims. -/
theorem frameData_length : ((frame.drop 8).take (claimedSize frame)).length = claimedSize frame := by
  have h140 : frame.length = 140 := hframe
  have h128 : claimedSize frame ≤ 128 := hsize
  rw [List.length_take, List.length_drop]
  omega

end Frame

/-- The payload that a full frame carries, when the claimed data lies inside it. -/
def frameData (frame : List UInt8) (hframe : frame.length = packetSize)
    (hsize : claimedSize frame ≤ maxDataSize) : Payload :=
  ⟨(frame.drop 8).take (claimedSize frame), (frameData_length hframe hsize).trans_le hsize⟩

/-- A frame structure whose unset bytes are those of the given frame. -/
def unsetBytes (frame : List UInt8) : TComms where
  magic := 0
  dataSize := 0
  buffer := Vector.ofFn fun i => frame.getD (8 + i) 0
  checksum := 0
  dummy := Vector.ofFn fun i => frame.getD (137 + i) 0

/-- The unset bytes of that structure are where the frame has them. -/
theorem unsetBytes_toList {frame : List UInt8} (hframe : frame.length = packetSize) :
    (unsetBytes frame).buffer.toList = (frame.drop 8).take 128 ∧
      (unsetBytes frame).dummy.toList = frame.drop 137 := by
  have h140 : frame.length = 140 := hframe
  have hlist (first n : ℕ) (h : first + n ≤ frame.length) :
      (Vector.ofFn fun i : Fin n => frame.getD (first + i) 0).toList = (frame.drop first).take n := by
    rw [← map_getD_range frame h]
    refine List.ext_getElem (by simp) fun i hi hi' => ?_
    simp
  refine ⟨hlist 8 128 (by omega), (hlist 137 3 (by omega)).trans ?_⟩
  exact List.take_of_length_le (by rw [List.length_drop]; omega)

/-- A full frame with the magic number and the sum of its data is what `serialize` makes of them. -/
theorem serialize_frameData {frame : List UInt8} (hframe : frame.length = packetSize)
    (hsize : claimedSize frame ≤ maxDataSize) (hmagic : frame.take 4 = wordBytes magicNumber)
    (hsum : xorAll ((frame.drop 8).take (claimedSize frame)) = frame.getD 136 0) :
    serialize (unsetBytes frame) (frameData frame hframe hsize) = frame := by
  have h140 : frame.length = 140 := hframe
  have h128 : claimedSize frame ≤ 128 := hsize
  obtain ⟨hbuffer, hdummy⟩ := unsetBytes_toList hframe
  have hdata : (frame.drop 8).take (claimedSize frame) ++
      ((frame.drop 8).take 128).drop (claimedSize frame) = (frame.drop 8).take 128 := by
    conv_rhs => rw [← List.take_append_drop (claimedSize frame) ((frame.drop 8).take 128), List.take_take,
      min_eq_left h128]
  have hchecksum : [frame.getD 136 0] = (frame.drop 136).take 1 :=
    map_getD_range frame (by omega : 136 + 1 ≤ frame.length)
  rw [serialize_eq, hbuffer, hdummy]
  simp only [frameData]
  rw [frameData_length hframe hsize, hdata, hsum, hchecksum, ← hmagic, ← wordBytes_claimedSize hframe]
  have hjoin (first n : ℕ) : (frame.drop first).take n ++ frame.drop (first + n) = frame.drop first := by
    rw [← List.drop_drop, List.take_append_drop]
  rw [List.append_assoc, hjoin 136 1, List.append_assoc, hjoin 8 128, List.append_assoc, hjoin 4 4,
    List.take_append_drop]

/-- A full frame that is accepted replaces the front of the caller's structure by its data. -/
theorem delivered_frameData {frame : List UInt8} (hframe : frame.length = packetSize)
    (hsize : claimedSize frame ≤ maxDataSize) {beyond : ℕ → UInt8}
    (hok : verdict (frameCells beyond frame) = .packetOk) (out : ℕ → UInt8) :
    delivered (frameCells beyond frame) out = overwrite (frameData frame hframe hsize) out := by
  have h140 : frame.length = 140 := hframe
  have h128 : claimedSize frame ≤ 128 := hsize
  have hclaimed := (frameCells_header beyond hframe).2.1
  have hlength : (frameData frame hframe hsize).val.length = claimedSize frame :=
    frameData_length hframe hsize
  funext i
  rw [delivered, overwrite, hclaimed]
  by_cases hi : i < claimedSize frame
  · rw [if_pos ⟨hok, hi⟩, dif_pos (hi.trans_eq hlength.symm), commsBuffer, frameCells,
      List.getD_eq_getElem _ _ (by omega)]
    simp only [frameData, List.getElem_take, List.getElem_drop]
  · rw [if_neg fun h => hi h.2, dif_neg fun h => hi (h.trans_eq hlength)]

/-- The payload of a serialized frame can be read off it. -/
theorem serialize_data (comms : TComms) (data : Payload) :
    ((serialize comms data).drop 8).take (claimedSize (serialize comms data)) = data.val := by
  have hbody : (serialize comms data).drop 8 =
      data.val ++ (comms.buffer.toList.drop data.val.length ++ ([xorAll data.val] ++ comms.dummy.toList)) := by
    rw [serialize_eq]
    simp only [List.append_assoc]
    rfl
  rw [claimedSize_serialize, hbody, List.take_left]

/-- A frame that claims no more than its buffer is accepted exactly when `serialize` makes it. -/
theorem verdict_eq_ok_iff_serialize {frame : List UInt8} (hframe : frame.length = packetSize)
    (hsize : claimedSize frame ≤ maxDataSize) (beyond : ℕ → UInt8) :
    verdict (frameCells beyond frame) = .packetOk ↔ ∃ comms data, frame = serialize comms data := by
  constructor
  · intro hok
    obtain ⟨hmagic, hsum⟩ := (verdict_frame_eq_ok_iff hframe beyond hsize).mp hok
    exact ⟨unsetBytes frame, frameData frame hframe hsize,
      (serialize_frameData hframe hsize hmagic hsum).symm⟩
  · rintro ⟨comms, data, rfl⟩
    exact (serialize_accepted beyond (fun _ => 0) comms data).1

/-- Of the frames with the magic number, those that are not accepted have a wrong sum. -/
theorem verdict_eq_checksumBad_iff {comms : ℕ → UInt8} (hmagic : verdict comms ≠ .packetBad) :
    verdict comms = .packetChecksumBad ↔ verdict comms ≠ .packetOk := by
  revert hmagic
  unfold verdict
  split
  · exact fun hmagic => absurd rfl hmagic
  · split <;> simp

/-- A call that completes a frame judges that frame, and leaves what it delivers. -/
theorem deserialize_frame {r : Receiver} {len : ℕ} {frame : List UInt8}
    (hcomplete : (assemble r len).1 = .packetComplete)
    (hframe : (assemble r len).2.memory.window .privateBuffer 0 packetSize = frame) :
    (deserialize r len).1 = verdict (frameCells (assemble r len).2.beyond frame) ∧
      (deserialize r len).2.output = delivered (frameCells (assemble r len).2.beyond frame) r.output := by
  obtain ⟨hverdict, hout, -⟩ := extractComms_spec (assemble r len).2
  have hcells : frameCells (assemble r len).2.beyond frame =
      (assemble r len).2.memory.cells .privateBuffer := by
    rw [← hframe]
    exact frameCells_window _
  rw [deserialize_of_complete hcomplete, hcells, hverdict, hout, assemble_output]
  exact ⟨rfl, rfl⟩

/-- The verdict on a complete frame whose length field is at most `MAX_DATA_SIZE`: bad without the
magic number, accepted exactly when `serialize` makes it, of a payload that it determines and that
replaces the front of the caller's structure, and otherwise a wrong sum. Nothing is written unless the
frame is accepted. -/
theorem deserialize_verdict (r : Receiver) (len : ℕ) (frame : List UInt8)
    (hcomplete : (assemble r len).1 = .packetComplete)
    (hframe : (assemble r len).2.memory.window .privateBuffer 0 packetSize = frame)
    (hsize : claimedSize frame ≤ maxDataSize) :
    let result := (deserialize r len).1
    let output := (deserialize r len).2.output
    (result = .packetBad ↔ frame.take 4 ≠ wordBytes magicNumber) ∧
      (frame.take 4 = wordBytes magicNumber →
        (result = .packetOk ↔ ∃ comms data, frame = serialize comms data) ∧
          (result = .packetChecksumBad ↔ ¬ ∃ comms data, frame = serialize comms data)) ∧
      (∀ comms data, frame = serialize comms data →
        data.val.length = claimedSize frame ∧ output = overwrite data r.output ∧
          ∀ comms' data', frame = serialize comms' data' → data' = data) ∧
      (result = .packetBad ∨ result = .packetChecksumBad → output = r.output) := by
  intro result output
  obtain ⟨hresult, hout⟩ : result = _ ∧ output = _ := deserialize_frame hcomplete hframe
  have hlength : frame.length = packetSize := hframe ▸ window_length ..
  rw [hresult, hout]
  have hok := verdict_eq_ok_iff_serialize hlength hsize (assemble r len).2.beyond
  have hbad := verdict_eq_bad_iff hlength (assemble r len).2.beyond
  refine ⟨hbad, fun hmagic => ⟨hok, ?_⟩, ?_, ?_⟩
  · rw [verdict_eq_checksumBad_iff fun h => hbad.mp h hmagic, ne_eq, hok]
  · rintro comms data rfl
    refine ⟨(claimedSize_serialize comms data).symm, ?_, ?_⟩
    · exact (serialize_accepted _ r.output comms data).2
    · intro comms' data' hsame
      apply Subtype.ext
      rw [← serialize_data comms data, hsame, serialize_data]
  · intro hrejected
    refine delivered_of_ne (fun haccepted => ?_) r.output
    rw [haccepted] at hrejected
    rcases hrejected with h | h <;> cases h

/-- The frame of a stop command is accepted, and its payload is what the caller gets. -/
theorem stopFrame_verdict :
    (deserialize (loaded stopFrame) packetSize).1 = .packetOk ∧
      (deserialize (loaded stopFrame) packetSize).2.output =
        overwrite stopPacket.payload (loaded stopFrame).output := by
  have hlength : stopFrame.length = packetSize := serialize_length _ _
  have hsize : claimedSize stopFrame ≤ maxDataSize := by
    rw [stopFrame, claimedSize_serialize]
    exact stopPacket.payload.property
  obtain ⟨-, hcomplete, hframe⟩ := loaded_complete hlength
  obtain ⟨-, hjudged, hdelivered, -⟩ := deserialize_verdict _ _ stopFrame hcomplete hframe hsize
  have hmagic : stopFrame.take 4 = wordBytes magicNumber := by
    rw [stopFrame, serialize_eq]
    rfl
  exact ⟨(hjudged hmagic).1.mpr ⟨zeroComms, stopPacket.payload, rfl⟩,
    (hdelivered zeroComms stopPacket.payload rfl).2.1⟩

end AlexRobot
