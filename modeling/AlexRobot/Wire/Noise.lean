import AlexRobot.Wire.ErrorDetection
import AlexRobot.Wire.PacketFrames

/-!
# Damage on the way

A serial line may change bytes of a frame. Considered here is damage that leaves the length field
alone and that the checksum detects wherever it matters, such as one damaged byte. Then a frame
either brings its packet, or brings none and is reported: it never brings another packet.
-/

namespace AlexRobot

open Bytes
open TracedMemory

/-- The verdict that a pattern on the bytes of a packet's frame leads to. -/
def judged (pattern : ℕ → UInt8) : TResult :=
  if ∀ i ∈ List.range 4, pattern i = 0 then
    if xorAll ((summedBytes sizeofTPacket).map pattern) = 0 then .packetOk else .packetChecksumBad
  else .packetBad

/-- What happens to a frame on the way: a pattern on its bytes that leaves the length field alone, and is
detected if a guarded byte is changed. -/
structure Noise where
  pattern : ℕ → UInt8
  lengthField : ∀ i, 4 ≤ i → i < 8 → pattern i = 0
  detected : judged pattern = .packetOk → ∀ i ∈ guardedBytes sizeofTPacket, pattern i = 0

namespace Noise

/-- `silent`: the noise that changes no byte of a frame. -/
def silent : Noise where
  pattern _ := 0
  lengthField _ _ _ := rfl
  detected _ _ _ := rfl

/-- `result`: the verdict on a frame that the noise happens to. -/
def result (e : Noise) : TResult := judged e.pattern

/-- A pattern that is accepted cancels over the guarded bytes. -/
theorem xorAll_of_judged {pattern : ℕ → UInt8} (h : judged pattern = .packetOk) :
    xorAll ((guardedBytes sizeofTPacket).map pattern) = 0 := by
  unfold judged at h
  split at h
  · rename_i hmagic
    split at h
    · rename_i hsum
      rw [guardedBytes, List.map_append, xorAll_append, hsum, UInt8.xor_zero]
      exact xorAll_map_of_zero hmagic
    · cases h
  · cases h

/-- The noise that changes one byte outside the length field. -/
def byte (i : ℕ) (change : UInt8) (h : i < 4 ∨ 8 ≤ i) : Noise where
  pattern k := if k = i then change else 0
  lengthField k hk hk' := if_neg (by omega)
  detected hok k hk := by
    have hcancel := xorAll_of_judged hok
    by_cases hki : k = i
    · subst hki
      rw [xorAll_map_single (guardedBytes_nodup (by decide)) hk fun j _ hj => if_neg hj] at hcancel
      exact hcancel
    · exact if_neg hki

/-- A frame as it arrives after the noise has happened to it. -/
def arrive (e : Noise) (frame : List UInt8) : List UInt8 := damage e.pattern frame

/-- A frame arrives as long as it was sent. -/
theorem arrive_length (e : Noise) (frame : List UInt8) : (e.arrive frame).length = frame.length :=
  damage_length ..

section Arrives

variable (e : Noise) (comms : TComms) (packet : TPacket)

/-- The frame of a packet arrives as a frame of the full length. -/
theorem arrive_serialize_length : (e.arrive (serialize comms packet.payload)).length = packetSize :=
  (e.arrive_length _).trans (serialize_length ..)

/-- The frame of a packet still claims a whole packet as it arrives. -/
theorem claimedSize_arrive : claimedSize (e.arrive (serialize comms packet.payload)) = sizeofTPacket :=
  (claimedSize_damage comms packet.payload e.lengthField).trans packet.bytes_length

/-- A frame arrives with the magic number exactly when its first four bytes are unchanged. -/
theorem take_arrive : (e.arrive (serialize comms packet.payload)).take 4 = wordBytes magicNumber ↔
    ∀ i ∈ List.range 4, e.pattern i = 0 := by
  have hstart : (serialize comms packet.payload).take 4 = wordBytes magicNumber := by
    rw [serialize_eq]
    rfl
  have hwindow :=
    damage_window_eq_iff e.pattern (serialize_window comms packet.payload (by decide : 0 + 4 ≤ packetSize))
  simp only [List.drop_zero, Nat.zero_add] at hwindow
  rw [arrive, ← hstart, hwindow]
  exact forall_congr' fun i => imp_congr_left List.mem_range.symm

/-- A frame that arrives is judged by the noise alone, whatever memory holds behind it. -/
theorem verdict_arrive (beyond : ℕ → UInt8) :
    verdict (frameCells beyond (e.arrive (serialize comms packet.payload))) = e.result := by
  have hsize : packet.payload.val.length = sizeofTPacket := packet.bytes_length
  have hbad := verdict_eq_bad_iff (e.arrive_serialize_length comms packet) beyond
  have hok := verdict_damage comms packet.payload e.lengthField beyond
  rw [hsize] at hok
  unfold result judged
  split
  · rename_i hmagic
    have hnotBad :
        verdict (frameCells beyond (e.arrive (serialize comms packet.payload))) ≠ .packetBad := fun h =>
      hbad.mp h ((e.take_arrive comms packet).mpr hmagic)
    split
    · rename_i hsum
      exact hok.mpr ⟨fun i hi => hmagic i (List.mem_range.mpr hi), hsum⟩
    · rename_i hsum
      exact (verdict_eq_checksumBad_iff hnotBad).mpr fun haccepted => hsum (hok.mp haccepted).2
  · rename_i hmagic
    exact hbad.mpr fun hstart => hmagic ((e.take_arrive comms packet).mp hstart)

/-- If it is accepted, it carries the packet that was sent. -/
theorem framePacket_arrive (h : e.result = .packetOk) :
    framePacket (e.arrive (serialize comms packet.payload)) = packet := by
  refine Eq.trans (TPacket.ofCells_congr fun i hi => ?_) (framePacket_serialize comms packet)
  have h100 : i < 100 := hi
  have hlength : (serialize comms packet.payload).length = 140 := serialize_length _ _
  have hguarded : 8 + i ∈ guardedBytes sizeofTPacket :=
    List.mem_append_right _ (List.mem_append_left _ (List.mem_map_of_mem (List.mem_range.mpr hi)))
  rw [arrive, damage_getD e.pattern (by omega), e.detected h _ hguarded, UInt8.xor_zero]

end Arrives

/-- The packet that a frame brings after the noise has happened to it, if any. -/
def bring (e : Noise) (packet : TPacket) : Option TPacket := if e.result = .packetOk then some packet else none

/-- The error that the frame of a packet is reported as after the noise, if any. -/
def report (e : Noise) (_ : TPacket) : Option TResult := if e.result = .packetOk then none else some e.result

/-- If nothing happens to a frame, it arrives as it was. -/
theorem arrive_silent (frame : List UInt8) : Noise.silent.arrive frame = frame := by
  unfold arrive damage
  refine List.ext_getElem (List.length_mapIdx ..) fun i _ _ => ?_
  rw [List.getElem_mapIdx]
  exact UInt8.xor_zero

/-- A frame to which nothing happens is accepted. -/
theorem result_silent : Noise.silent.result = .packetOk := by
  have hmagic : ∀ i ∈ List.range 4, Noise.silent.pattern i = 0 := fun _ _ => rfl
  rw [result, judged, if_pos hmagic, if_pos]
  exact xorAll_map_of_zero fun _ _ => rfl

/-- A frame to which nothing happens brings its packet. -/
theorem bring_silent : Noise.silent.bring = some := by
  funext packet
  rw [bring, if_pos result_silent]

/-- A frame to which nothing happens is reported as no error. -/
theorem report_silent (packet : TPacket) : Noise.silent.report packet = none := by
  rw [report, if_pos result_silent]

end Noise

/-- The packet that a frame brings, if it is accepted. -/
def brought? (frame : List UInt8) : Option TPacket :=
  if (verdict fun i => frame.getD i 0) = .packetOk then some (framePacket frame) else none

/-- The error that a frame is reported as, if it is not accepted. -/
def frameError? (frame : List UInt8) : Option TResult :=
  if (verdict fun i => frame.getD i 0) = .packetOk then none else some (verdict fun i => frame.getD i 0)

/-- A frame that arrives brings its packet or none, by the noise alone. -/
theorem brought_arrive (e : Noise) (comms : TComms) (packet : TPacket) :
    brought? (e.arrive (serialize comms packet.payload)) = e.bring packet := by
  have hverdict := e.verdict_arrive comms packet fun _ => 0
  unfold frameCells at hverdict
  rw [brought?, hverdict, Noise.bring]
  split
  · rename_i hok
    rw [e.framePacket_arrive comms packet hok]
  · rfl

/-- A frame that arrives and brings no packet is reported, by the noise alone. -/
theorem frameError_arrive (e : Noise) (comms : TComms) (packet : TPacket) :
    frameError? (e.arrive (serialize comms packet.payload)) = e.report packet := by
  have hverdict := e.verdict_arrive comms packet fun _ => 0
  unfold frameCells at hverdict
  rw [frameError?, hverdict, Noise.report]

/-- Frames as they arrive; `noise i` is what happens to frame `i`. -/
def arrivals (noise : ℕ → Noise) (frames : List (List UInt8)) : List (List UInt8) :=
  frames.mapIdx fun i frame => (noise i).arrive frame

/-- The frames that arrive for the packets after the first ones. -/
def newArrivals (noise : ℕ → Noise) (comms : ℕ → TComms) (packets later : List TPacket) : List (List UInt8) :=
  (arrivals noise (packetFrames comms later)).drop packets.length

/-- What becomes of packets, by the noise that happens to the frame of each. -/
def outcomes {β : Type*} (noise : ℕ → Noise) (become : Noise → TPacket → Option β)
    (packets : List TPacket) : List β :=
  packets.zipIdx.filterMap fun x => become (noise x.2) x.1

section Arrivals

variable {noise : ℕ → Noise} {comms : ℕ → TComms}

/-- `arrivals` are as many frames as were sent, as no frame is lost or added. -/
theorem length_arrivals (frames : List (List UInt8)) : (arrivals noise frames).length = frames.length :=
  List.length_mapIdx

/-- A frame that arrives is that of a packet, and something happened to it. -/
theorem mem_arrivals {packets : List TPacket} {frame : List UInt8}
    (h : frame ∈ arrivals noise (packetFrames comms packets)) :
    ∃ (e : Noise) (comms : TComms) (packet : TPacket), frame = e.arrive (serialize comms packet.payload) := by
  obtain ⟨i, hi, hframe⟩ := List.mem_mapIdx.mp h
  obtain ⟨j, packet, -, hsent⟩ := mem_packetFrames (List.getElem_mem hi)
  exact ⟨noise i, comms j, packet, by rw [← hframe, hsent]⟩

/-- The first of the frames sent are the first that arrive. -/
theorem arrivals_isPrefix {frames later : List (List UInt8)} (h : frames <+: later) :
    arrivals noise frames <+: arrivals noise later := by
  obtain ⟨new, rfl⟩ := h
  rw [arrivals, arrivals, List.mapIdx_append]
  exact List.prefix_append _ _

/-- With one packet more, one frame more arrives, after the others. -/
theorem arrivals_concat (packets : List TPacket) (packet : TPacket) :
    arrivals noise (packetFrames comms (packets ++ [packet])) =
      arrivals noise (packetFrames comms packets) ++
        [(noise packets.length).arrive (serialize (comms packets.length) packet.payload)] := by
  rw [packetFrames_concat, arrivals, List.mapIdx_concat, packetFrames, List.length_mapIdx]
  rfl

/-- Every frame of a packet arrives with the full length. -/
theorem length_of_mem_arrivals {packets : List TPacket} {frame : List UInt8}
    (h : frame ∈ arrivals noise (packetFrames comms packets)) : frame.length = packetSize := by
  obtain ⟨e, comms, packet, hframe⟩ := mem_arrivals h
  rw [hframe, e.arrive_serialize_length comms packet]

/-- The frames that newly arrive have the full length, too. -/
theorem length_of_mem_newArrivals {packets later : List TPacket} {frame : List UInt8}
    (h : frame ∈ newArrivals noise comms packets later) : frame.length = packetSize :=
  length_of_mem_arrivals (List.mem_of_mem_drop h)

/-- `newArrivals` is empty where no new packets were sent. -/
theorem newArrivals_self (packets : List TPacket) : newArrivals noise comms packets packets = [] := by
  apply List.drop_eq_nil_of_le
  rw [length_arrivals, packetFrames, List.length_mapIdx]

/-- The frames of new packets arrive after those of the packets before. -/
theorem arrivals_append_newArrivals {packets later : List TPacket} (h : packets <+: later) :
    arrivals noise (packetFrames comms packets) ++ newArrivals noise comms packets later =
      arrivals noise (packetFrames comms later) := by
  obtain ⟨new, hnew⟩ := arrivals_isPrefix (packetFrames_isPrefix comms h)
  have hlength : (arrivals noise (packetFrames comms packets)).length = packets.length := by
    rw [length_arrivals, packetFrames, List.length_mapIdx]
  rw [newArrivals, ← hnew, ← hlength, List.drop_left]

variable {β : Type*} {become : Noise → TPacket → Option β}

/-- What becomes of one more packet is decided by the noise on its own frame. -/
theorem outcomes_concat (packets : List TPacket) (packet : TPacket) :
    outcomes noise become (packets ++ [packet]) =
      outcomes noise become packets ++ [packet].filterMap (become (noise packets.length)) := by
  rw [outcomes, List.zipIdx_append, List.filterMap_append, Nat.zero_add]
  rfl

/-- If nothing happens to any frame, all of them arrive as they were. -/
theorem arrivals_silent (frames : List (List UInt8)) : arrivals (fun _ => Noise.silent) frames = frames := by
  unfold arrivals
  refine List.ext_getElem (List.length_mapIdx ..) fun i _ _ => ?_
  rw [List.getElem_mapIdx]
  exact Noise.arrive_silent _

/-- If nothing happens, it depends on each packet alone. -/
theorem outcomes_silent (packets : List TPacket) :
    outcomes (fun _ => Noise.silent) become packets = packets.filterMap (become Noise.silent) := by
  induction packets using List.reverseRecOn with
  | nil => rfl
  | append_singleton packets packet ih => rw [outcomes_concat, ih, List.filterMap_append]

/-- Without noise every packet is brought, and nothing else is. -/
theorem outcomes_bring_silent (packets : List TPacket) :
    outcomes (fun _ => Noise.silent) Noise.bring packets = packets := by
  rw [outcomes_silent, Noise.bring_silent, List.filterMap_some]

/-- Without noise no frame is reported as an error. -/
theorem outcomes_report_silent (packets : List TPacket) :
    outcomes (fun _ => Noise.silent) Noise.report packets = [] := by
  rw [outcomes_silent, List.filterMap_eq_nil_iff]
  exact fun packet _ => Noise.report_silent packet

/-- Packets that are brought are packets that were sent, in their order. -/
theorem outcomes_bring_sublist (packets : List TPacket) :
    (outcomes noise Noise.bring packets).Sublist packets := by
  induction packets using List.reverseRecOn with
  | nil => exact List.Sublist.refl _
  | append_singleton packets packet ih =>
    rw [outcomes_concat]
    refine ih.append ?_
    rw [List.filterMap_cons, Noise.bring]
    split
    · exact List.nil_sublist _
    · rename_i brought hbring
      obtain ⟨-, hsame⟩ := Option.ite_none_right_eq_some.mp hbring
      rw [Option.some.inj hsame]
      exact List.Sublist.refl _

variable {told : List UInt8 → Option β}
  (htold : ∀ (e : Noise) (comms : TComms) (packet : TPacket),
    told (e.arrive (serialize comms packet.payload)) = become e packet)

include htold

/-- What a test that depends on the noise alone tells of the frames that arrive. -/
theorem filterMap_arrivals (packets : List TPacket) :
    (arrivals noise (packetFrames comms packets)).filterMap told = outcomes noise become packets := by
  induction packets using List.reverseRecOn with
  | nil => rfl
  | append_singleton packets packet ih =>
    rw [arrivals_concat, List.filterMap_append, ih, outcomes_concat]
    congr 1
    rw [List.filterMap_cons, List.filterMap_cons, htold]
    rfl

/-- What a test that depends on the noise alone tells of the first frames that arrive concerns the first
packets. -/
theorem filterMap_of_isPrefix {packets : List TPacket} {frames : List (List UInt8)}
    (h : frames <+: arrivals noise (packetFrames comms packets)) :
    frames.filterMap told = outcomes noise become (packets.take frames.length) := by
  have hfirst : arrivals noise (packetFrames comms (packets.take frames.length)) <+:
      arrivals noise (packetFrames comms packets) :=
    arrivals_isPrefix (packetFrames_isPrefix comms (List.take_prefix _ _))
  have hlength : frames.length = (arrivals noise (packetFrames comms (packets.take frames.length))).length := by
    have hle := h.length_le
    rw [length_arrivals, packetFrames, List.length_mapIdx] at hle ⊢
    exact (List.length_take_of_le hle).symm
  have hsame := (List.prefix_of_prefix_length_le h hfirst hlength.le).eq_of_length hlength
  rw [hsame, filterMap_arrivals htold, ← hsame]

end Arrivals

end AlexRobot
