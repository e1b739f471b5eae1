import AlexRobot.Wire.AcceptedFrames

/-!
# What the checksum detects

The sum covers the payload and nothing else. Of the errors that leave the length field alone
it detects exactly those whose patterns, over the payload and the checksum byte, do not
cancel. A changed length field moves the end of the summed range, and is detected exactly
when the bytes between the two ends do not cancel.
-/

namespace AlexRobot

open Bytes
open TracedMemory
open TracedMemory.Memory

/-- A byte string after a pattern was added to every byte of it. -/
def damage (e : ℕ → UInt8) (bytes : List UInt8) : List UInt8 := bytes.mapIdx fun i b => b ^^^ e i

/-- The positions that the sum covers in a frame with `n` bytes of data, and the checksum byte. -/
def summedBytes (n : ℕ) : List ℕ := (List.range n).map (8 + ·) ++ [136]

/-- The positions of a frame with `n` bytes of data that decide whether it is accepted, apart from
the length field: the magic number and the summed bytes. -/
def guardedBytes (n : ℕ) : List ℕ := List.range 4 ++ summedBytes n

/-- The guarded positions of a frame are all different. -/
theorem guardedBytes_nodup {n : ℕ} (hn : n ≤ maxDataSize) : (guardedBytes n).Nodup := by
  have h128 : n ≤ 128 := hn
  have hdata : ((List.range n).map (8 + ·)).Nodup :=
    List.nodup_range.map fun i j h => Nat.add_left_cancel h
  have hsummed : (summedBytes n).Nodup := by
    refine hdata.append (List.nodup_singleton _) fun i hi hi' => ?_
    obtain ⟨k, hk, rfl⟩ := List.mem_map.mp hi
    have hlt := List.mem_range.mp hk
    have heq := List.mem_singleton.mp hi'
    omega
  refine List.nodup_range.append hsummed fun i hi hi' => ?_
  have hlt := List.mem_range.mp hi
  rcases List.mem_append.mp hi' with h | h
  · obtain ⟨k, -, rfl⟩ := List.mem_map.mp h
    omega
  · have heq := List.mem_singleton.mp h
    omega

/-- A damaged byte string is as long as before. -/
@[simp] theorem damage_length (e : ℕ → UInt8) (bytes : List UInt8) :
    (damage e bytes).length = bytes.length := List.length_mapIdx

/-- Each byte of a damaged byte string is the byte before with its pattern added. -/
theorem damage_getD (e : ℕ → UInt8) {bytes : List UInt8} {i : ℕ} (hi : i < bytes.length) :
    (damage e bytes).getD i 0 = bytes.getD i 0 ^^^ e i := by
  rw [List.getD_eq_getElem _ _ (by rw [damage_length]; exact hi), List.getD_eq_getElem _ _ hi]
  exact List.getElem_mapIdx ..

/-- A window of a damaged byte string is the window before with its patterns added. -/
theorem damage_window (e : ℕ → UInt8) {bytes : List UInt8} {first n : ℕ} (h : first + n ≤ bytes.length) :
    ((damage e bytes).drop first).take n =
      (List.range n).map fun i => bytes.getD (first + i) 0 ^^^ e (first + i) := by
  rw [← map_getD_range _ (by rw [damage_length]; exact h)]
  refine List.map_congr_left fun i hi => ?_
  have hlt := List.mem_range.mp hi
  exact damage_getD e (by omega)

/-- The sum of a window of a damaged byte string is the sum before and that of its patterns. -/
theorem xorAll_damage_window (e : ℕ → UInt8) {bytes : List UInt8} {first n : ℕ}
    (h : first + n ≤ bytes.length) :
    xorAll (((damage e bytes).drop first).take n) =
      xorAll ((bytes.drop first).take n) ^^^ xorAll ((List.range n).map fun i => e (first + i)) := by
  rw [damage_window e h, xorAll_map_xor, map_getD_range _ h]

/-- A window stays as it is exactly when all its patterns are zero. -/
theorem damage_window_eq_iff (e : ℕ → UInt8) {bytes : List UInt8} {first n : ℕ}
    (h : first + n ≤ bytes.length) :
    ((damage e bytes).drop first).take n = (bytes.drop first).take n ↔ ∀ i < n, e (first + i) = 0 := by
  rw [damage_window e h, ← map_getD_range _ h, List.map_inj_left]
  simp only [List.mem_range, xor_eq_left_iff]

section Damaged

variable (comms : TComms) (data : Payload) {e : ℕ → UInt8} (hlength : ∀ i, 4 ≤ i → i < 8 → e i = 0)

/-- A window of positions in a frame is inside every serialized frame. -/
theorem serialize_window {first n : ℕ} (h : first + n ≤ packetSize) :
    first + n ≤ (serialize comms data).length := h.trans (serialize_length ..).ge

include hlength

/-- A frame with an undamaged length field claims the length of its payload. -/
theorem claimedSize_damage : claimedSize (damage e (serialize comms data)) = data.val.length := by
  have h140 : (serialize comms data).length = 140 := serialize_length _ _
  have hcell (i : ℕ) (hi : 4 ≤ i) (hi' : i < 8) :
      (damage e (serialize comms data)).getD i 0 = (serialize comms data).getD i 0 := by
    rw [damage_getD e (by omega), hlength i hi hi', UInt8.xor_zero]
  rw [← claimedSize_serialize comms data, claimedSize, claimedSize, commsDataSize, commsDataSize,
    hcell 4 (by decide) (by decide), hcell 5 (by decide) (by decide), hcell 6 (by decide) (by decide),
    hcell 7 (by decide) (by decide)]

/-- A damaged frame is accepted exactly when its magic number is intact and the patterns on the
summed bytes cancel. -/
theorem verdict_damage (beyond : ℕ → UInt8) :
    verdict (frameCells beyond (damage e (serialize comms data))) = .packetOk ↔
      (∀ i < 4, e i = 0) ∧ xorAll ((summedBytes data.val.length).map e) = 0 := by
  have hfit : data.val.length ≤ 128 := data.property
  have hclaimed := claimedSize_damage comms data hlength
  have hframe : (damage e (serialize comms data)).length = packetSize :=
    (damage_length ..).trans (serialize_length ..)
  have hsize : claimedSize (serialize comms data) ≤ maxDataSize := by
    rw [claimedSize_serialize]
    exact data.property
  obtain ⟨hmagic, hsum⟩ := (verdict_frame_eq_ok_iff (serialize_length comms data) beyond hsize).mp
    (serialize_accepted beyond (fun _ => 0) comms data).1
  have hmagic' : (damage e (serialize comms data)).take 4 = (serialize comms data).take 4 ↔
      ∀ i < 4, e i = 0 := by
    have hwindow := damage_window_eq_iff e (serialize_window comms data (by decide : 0 + 4 ≤ packetSize))
    simp only [List.drop_zero, Nat.zero_add] at hwindow
    exact hwindow
  have hpatterns : xorAll ((summedBytes data.val.length).map e) =
      xorAll ((List.range data.val.length).map fun i => e (8 + i)) ^^^ e 136 := by
    rw [summedBytes, List.map_append, List.map_map, List.map_singleton, xorAll_concat]
    rfl
  rw [verdict_frame_eq_ok_iff hframe beyond (hclaimed.trans_le data.property), hclaimed, ← hmagic, hmagic',
    hpatterns, UInt8.xor_eq_zero_iff, damage_getD e (by rw [serialize_length]; decide),
    xorAll_damage_window e (serialize_window comms data (by unfold packetSize; omega))]
  rw [claimedSize_serialize] at hsum
  rw [hsum, UInt8.xor_right_inj]

/-- The patterns on the guarded bytes of an accepted damaged frame cancel. -/
theorem xorAll_guardedBytes {beyond : ℕ → UInt8}
    (hok : verdict (frameCells beyond (damage e (serialize comms data))) = .packetOk) :
    xorAll ((guardedBytes data.val.length).map e) = 0 := by
  obtain ⟨hmagic, hsum⟩ := (verdict_damage comms data hlength beyond).mp hok
  rw [guardedBytes, List.map_append, xorAll_append, hsum, UInt8.xor_zero]
  exact xorAll_map_of_zero fun i hi => hmagic i (List.mem_range.mp hi)

/-- A frame that is damaged in no guarded byte is accepted and delivers its payload. -/
theorem delivered_damage {beyond : ℕ → UInt8} (hintact : ∀ i ∈ guardedBytes data.val.length, e i = 0)
    (out : ℕ → UInt8) :
    verdict (frameCells beyond (damage e (serialize comms data))) = .packetOk ∧
      delivered (frameCells beyond (damage e (serialize comms data))) out = overwrite data out := by
  have hfit : data.val.length ≤ 128 := data.property
  have hclaimed := claimedSize_damage comms data hlength
  have hframe : (damage e (serialize comms data)).length = packetSize :=
    (damage_length ..).trans (serialize_length ..)
  have hok : verdict (frameCells beyond (damage e (serialize comms data))) = .packetOk := by
    rw [verdict_damage comms data hlength]
    constructor
    · exact fun i hi => hintact i (List.mem_append_left _ (List.mem_range.mpr hi))
    · exact xorAll_map_of_zero fun i hi => hintact i (List.mem_append_right _ hi)
  have hsame : frameData _ hframe (hclaimed.trans_le data.property) = data := by
    have hread := serialize_data comms data
    rw [claimedSize_serialize] at hread
    refine Subtype.ext (Eq.trans ?_ hread)
    simp only [frameData]
    rw [hclaimed, damage_window_eq_iff e (serialize_window comms data (by unfold packetSize; omega))]
    intro i hi
    exact hintact _ (List.mem_append_right _ (List.mem_append_left _
      (List.mem_map_of_mem (List.mem_range.mpr hi))))
  rw [delivered_frameData hframe (hclaimed.trans_le data.property) hok, hsame]
  exact ⟨hok, rfl⟩

end Damaged

/-- The error law of the checksum, for every payload and every error pattern that leaves the length
field alone. A damaged frame is accepted exactly when its magic number is intact and the patterns on
the payload and the checksum byte cancel; so one damaged byte is detected, two different patterns are
detected, and damage to the padding does not reach the payload. -/
theorem deserialize_detects (r : Receiver) (len : ℕ) (comms : TComms) (data : Payload) (e : ℕ → UInt8)
    (hlength : ∀ i, 4 ≤ i → i < 8 → e i = 0) (hcomplete : (assemble r len).1 = .packetComplete)
    (hframe : (assemble r len).2.memory.window .privateBuffer 0 packetSize =
      damage e (serialize comms data)) :
    let result := (deserialize r len).1
    let output := (deserialize r len).2.output
    let guarded := guardedBytes data.val.length
    (result = .packetOk ↔
        (∀ i < 4, e i = 0) ∧ xorAll ((summedBytes data.val.length).map e) = 0) ∧
      (∀ i ∈ guarded, e i ≠ 0 → (∀ k ∈ guarded, k ≠ i → e k = 0) → result ≠ .packetOk) ∧
      (∀ i ∈ guarded, ∀ j ∈ guarded, i ≠ j → e i ≠ e j →
        (∀ k ∈ guarded, k ≠ i → k ≠ j → e k = 0) → result ≠ .packetOk) ∧
      ((∀ i ∈ guarded, e i = 0) → result = .packetOk ∧ output = overwrite data r.output) := by
  intro result output guarded
  obtain ⟨hresult, hout⟩ : result = _ ∧ output = _ := deserialize_frame hcomplete hframe
  have hnodup : guarded.Nodup := guardedBytes_nodup data.property
  rw [hresult, hout]
  refine ⟨verdict_damage comms data hlength _, ?_, ?_, ?_⟩
  · intro i hi hne hrest hok
    have hsum := xorAll_guardedBytes comms data hlength hok
    rw [xorAll_map_single hnodup hi hrest] at hsum
    exact hne hsum
  · intro i hi j hj hij hne hrest hok
    have hsum := xorAll_guardedBytes comms data hlength hok
    rw [xorAll_map_pair hnodup hi hj hij hrest, UInt8.xor_eq_zero_iff] at hsum
    exact hne hsum
  · intro hintact
    exact delivered_damage comms data hlength hintact r.output

/-- A stop frame is accepted as itself with a damaged byte of padding, and rejected with a damaged
command. -/
theorem stopFrame_detects :
    (deserialize (loaded (damage (fun i => if i = 139 then 1 else 0) stopFrame)) packetSize).1 =
        .packetOk ∧
      (deserialize (loaded (damage (fun i => if i = 9 then 1 else 0) stopFrame)) packetSize).1 ≠
        .packetOk := by
  have hdata : stopPacket.payload.val.length = 100 := stopPacket.bytes_length
  have hframe (e : ℕ → UInt8) : (damage e stopFrame).length = packetSize :=
    (damage_length ..).trans (serialize_length ..)
  obtain ⟨-, hcomplete, hwindow⟩ := loaded_complete (hframe fun i => if i = 139 then 1 else 0)
  obtain ⟨-, hcomplete', hwindow'⟩ := loaded_complete (hframe fun i => if i = 9 then 1 else 0)
  obtain ⟨-, -, -, hpadding⟩ := deserialize_detects _ _ zeroComms stopPacket.payload _
    (fun i _ hi => if_neg (by omega)) hcomplete hwindow
  obtain ⟨-, hsingle, -, -⟩ := deserialize_detects _ _ zeroComms stopPacket.payload _
    (fun i _ hi => if_neg (by omega)) hcomplete' hwindow'
  rw [hdata] at hpadding hsingle
  refine ⟨(hpadding (by decide)).1, hsingle 9 (by decide) (by decide) ?_⟩
  intro k _ hk
  exact if_neg hk

/-- A frame in whose length field another number was put. -/
def relabel (n : ℕ) (frame : List UInt8) : List UInt8 :=
  frame.take 4 ++ wordBytes (UInt32.ofNat n) ++ frame.drop 8

/-- The buffer of a serialized frame: the payload, and the bytes that were never set. -/
def frameBuffer (comms : TComms) (data : Payload) : List UInt8 :=
  data.val ++ comms.buffer.toList.drop data.val.length

/-- The bytes of a buffer between two lengths, the shorter one first. -/
def between (n m : ℕ) (buffer : List UInt8) : List UInt8 := (buffer.drop (min n m)).take (max n m - min n m)

section Relabelled

variable {frame : List UInt8} (hframe : frame.length = packetSize) (n : ℕ)

include hframe

/-- A relabelled frame has the parts of the frame, except for its length field. -/
theorem relabel_parts : (relabel n frame).length = packetSize ∧ (relabel n frame).take 4 = frame.take 4 ∧
    ((relabel n frame).drop 4).take 4 = wordBytes (UInt32.ofNat n) ∧
      (relabel n frame).drop 8 = frame.drop 8 := by
  have h140 : frame.length = 140 := hframe
  have htake : (frame.take 4).length = 4 := by
    rw [List.length_take]
    omega
  rw [relabel, List.append_assoc]
  refine ⟨?_, List.take_left' htake, ?_, ?_⟩
  · rw [List.length_append, List.length_append, htake, wordBytes_length, List.length_drop, h140]
    rfl
  · rw [List.drop_left' htake]
    exact List.take_left' (wordBytes_length _)
  · rw [← List.append_assoc]
    exact List.drop_left' (by rw [List.length_append, htake, wordBytes_length])

/-- A relabelled frame claims the number that was put in its length field. -/
theorem claimedSize_relabel (hn : n ≤ maxDataSize) : claimedSize (relabel n frame) = n := by
  have h128 : n ≤ 128 := hn
  obtain ⟨hlength, -, hfield, -⟩ := relabel_parts hframe n
  rw [wordBytes_claimedSize hlength] at hfield
  have hword := congrArg (fun bytes => word (bytes.getD 0 0) (bytes.getD 1 0) (bytes.getD 2 0)
    (bytes.getD 3 0)) hfield
  have hsame : UInt32.ofNat (claimedSize (relabel n frame)) = UInt32.ofNat n := by
    rwa [← word_wordBytes (UInt32.ofNat n), ← word_wordBytes (UInt32.ofNat (claimedSize _))]
  have hnat := congrArg UInt32.toNat hsame
  rw [claimedSize, UInt32.ofNat_toNat, UInt32.toNat_ofNat', Nat.mod_eq_of_lt (by omega)] at hnat
  exact hnat

end Relabelled

/-- A relabelled frame is accepted exactly when the bytes between the two lengths cancel. -/
theorem verdict_relabel (beyond : ℕ → UInt8) (comms : TComms) (data : Payload) {n : ℕ}
    (hn : n ≤ maxDataSize) :
    verdict (frameCells beyond (relabel n (serialize comms data))) =
      if xorAll (between n data.val.length (frameBuffer comms data)) = 0 then .packetOk
      else .packetChecksumBad := by
  have hfit : data.val.length ≤ 128 := data.property
  have h128 : n ≤ 128 := hn
  obtain ⟨hlength, hmagic, -, hrest⟩ := relabel_parts (serialize_length comms data) n
  have hclaimed := claimedSize_relabel (serialize_length comms data) n hn
  have hbuffer : (frameBuffer comms data).length = 128 := by
    rw [frameBuffer, List.length_append, List.length_drop, Vector.length_toList]
    exact Nat.add_sub_cancel' hfit
  have hbody : (serialize comms data).drop 8 =
      frameBuffer comms data ++ ([xorAll data.val] ++ comms.dummy.toList) := by
    rw [serialize_eq]
    simp only [frameBuffer, List.append_assoc]
    rfl
  have hprefix : xorAll data.val = xorAll ((frameBuffer comms data).take data.val.length) := by
    rw [frameBuffer, List.take_left]
  have hchecksum : (relabel n (serialize comms data)).getD 136 0 = xorAll data.val := by
    have hdrop : (relabel n (serialize comms data)).getD 136 0 =
        ((relabel n (serialize comms data)).drop 8).getD 128 0 := by
      rw [List.getD_eq_getElem?_getD, List.getD_eq_getElem?_getD, List.getElem?_drop]
    rw [hdrop, hrest, hbody, List.getD_append_right _ _ _ _ hbuffer.le, hbuffer]
    rfl
  have hstart : (serialize comms data).take 4 = wordBytes magicNumber := by
    rw [serialize_eq]
    rfl
  have hok : verdict (frameCells beyond (relabel n (serialize comms data))) = .packetOk ↔
      xorAll (between n data.val.length (frameBuffer comms data)) = 0 := by
    rw [verdict_frame_eq_ok_iff hlength beyond (hclaimed.trans_le hn), hmagic, hclaimed, hrest, hbody,
      List.take_append_of_le_length (h128.trans_eq hbuffer.symm), hchecksum, hprefix, between,
      ← xorAll_take_xor_take, UInt8.xor_eq_zero_iff]
    exact and_iff_right hstart
  have hnotBad : verdict (frameCells beyond (relabel n (serialize comms data))) ≠ .packetBad :=
    fun hbad => (verdict_eq_bad_iff hlength beyond).mp hbad (hmagic.trans hstart)
  split
  · rename_i hcancel
    exact hok.mpr hcancel
  · rename_i hdiffer
    exact (verdict_eq_checksumBad_iff hnotBad).mpr fun haccepted => hdiffer (hok.mp haccepted)

/-- A stop packet whose length was changed to leave out its last byte is accepted. -/
theorem length_corruption_refuted :
    ¬ ∀ (r : Receiver) (len : ℕ) (comms : TComms) (data : Payload) (n : ℕ),
      data.val.length = sizeofTPacket → n ≤ maxDataSize → n ≠ sizeofTPacket →
      (assemble r len).1 = .packetComplete →
      (assemble r len).2.memory.window .privateBuffer 0 packetSize = relabel n (serialize comms data) →
      (deserialize r len).1 ≠ .packetOk := by
  intro hclaim
  have hdata : stopPacket.payload.val.length = sizeofTPacket := stopPacket.bytes_length
  obtain ⟨hlength, -⟩ := relabel_parts (serialize_length zeroComms stopPacket.payload) 99
  obtain ⟨-, hcomplete, hwindow⟩ := loaded_complete hlength
  refine hclaim _ _ zeroComms stopPacket.payload 99 hdata (by decide) (by decide) hcomplete hwindow ?_
  rw [(deserialize_frame hcomplete hwindow).1, verdict_relabel _ _ _ (by decide), hdata]
  exact if_pos (by decide +kernel)

/-- What changing the length field of a serialized frame does: the frame is accepted exactly when the
bytes of the buffer between the two lengths cancel, and has a wrong sum otherwise. -/
theorem deserialize_relabelled (r : Receiver) (len : ℕ) (comms : TComms) (data : Payload) (n : ℕ)
    (hn : n ≤ maxDataSize) (hcomplete : (assemble r len).1 = .packetComplete)
    (hframe : (assemble r len).2.memory.window .privateBuffer 0 packetSize =
      relabel n (serialize comms data)) :
    (deserialize r len).1 =
      if xorAll (between n data.val.length (frameBuffer comms data)) = 0 then .packetOk
      else .packetChecksumBad := by
  rw [(deserialize_frame hcomplete hframe).1]
  exact verdict_relabel _ comms data hn

/-- A stop frame that claims a byte more is rejected when that byte of the stack is not zero. -/
theorem stopFrame_relabelled :
    (deserialize (loaded (relabel 101 (serialize { zeroComms with buffer := Vector.replicate maxDataSize 1 }
      stopPacket.payload))) packetSize).1 = .packetChecksumBad := by
  have hdata : stopPacket.payload.val.length = 100 := stopPacket.bytes_length
  obtain ⟨hlength, -⟩ := relabel_parts (serialize_length { zeroComms with
    buffer := Vector.replicate maxDataSize 1 } stopPacket.payload) 101
  obtain ⟨-, hcomplete, hwindow⟩ := loaded_complete hlength
  rw [deserialize_relabelled _ _ _ stopPacket.payload 101 (by decide) hcomplete hwindow, hdata]
  exact if_neg (by decide +kernel)

end AlexRobot
