import AlexRobot.Wire.Stream

/-!
# The streaming round trip

A serialized frame is accepted and delivers its own payload, whatever its unset bytes were.
Together with the block structure of a run this gives the round trip for every way of
cutting the stream: one acceptance for each payload, in order, made by the call that
supplies the last byte of the frame.
-/

namespace AlexRobot

open Bytes
open TracedMemory

/-- A structure whose first bytes are replaced by a payload. -/
def overwrite (data : Payload) (out : ℕ → UInt8) : ℕ → UInt8 := fun i =>
  if h : i < data.val.length then data.val[i] else out i

/-- The reports that a sequence of payloads calls for: each is accepted and written. -/
def acceptances (out : ℕ → UInt8) : List Payload → List (TResult × (ℕ → UInt8))
  | [] => []
  | data :: rest => (.packetOk, overwrite data out) :: acceptances (overwrite data out) rest

/-- The bytes on the wire for a sequence of sent payloads, each with the stack contents that its
frame was built on. -/
def framesOf (sent : List (TComms × Payload)) : List (List UInt8) :=
  sent.map fun entry => serialize entry.1 entry.2

/-- Every frame that is sent has the full length of a frame. -/
theorem length_of_mem_framesOf {sent : List (TComms × Payload)} {frame : List UInt8}
    (h : frame ∈ framesOf sent) : frame.length = packetSize := by
  obtain ⟨entry, -, rfl⟩ := List.mem_map.mp h
  exact serialize_length _ _

/-- The length of a payload fits the length field of a frame. -/
theorem payload_size_toNat (data : Payload) :
    (UInt32.ofNat data.val.length).toNat = data.val.length := by
  have hfit : data.val.length ≤ 128 := data.property
  rw [UInt32.toNat_ofNat', Nat.mod_eq_of_lt (by omega)]

/-- The header fields of a serialized frame, as the receiver reads them. -/
theorem serialize_header (beyond : ℕ → UInt8) (comms : TComms) (data : Payload) :
    commsMagic (frameCells beyond (serialize comms data)) = magicNumber ∧
      commsDataSize (frameCells beyond (serialize comms data)) = UInt32.ofNat data.val.length := by
  rw [serialize_eq]
  simp only [wordBytes, commsMagic, commsDataSize, frameCells, List.cons_append, List.nil_append,
    List.getD_cons_zero, List.getD_cons_succ]
  exact ⟨word_wordBytes _, word_wordBytes _⟩

/-- The payload and the checksum of a serialized frame. -/
theorem serialize_body (beyond : ℕ → UInt8) (comms : TComms) (data : Payload) :
    (∀ i, ∀ h : i < data.val.length,
        commsBuffer (frameCells beyond (serialize comms data)) i = data.val[i]) ∧
      commsChecksum (frameCells beyond (serialize comms data)) = xorAll data.val := by
  have hfit : data.val.length ≤ 128 := data.property
  let header := wordBytes magicNumber ++ wordBytes (UInt32.ofNat data.val.length)
  let body := data.val ++ comms.buffer.toList.drop data.val.length
  have hheader : header.length = 8 := rfl
  have hbody : body.length = 128 := by
    rw [List.length_append, List.length_drop, Vector.length_toList]
    exact Nat.add_sub_cancel' hfit
  have hframe : serialize comms data = header ++ (body ++ ([xorAll data.val] ++ comms.dummy.toList)) := by
    rw [serialize_eq]
    simp only [header, body, List.append_assoc]
  constructor
  · intro i hi
    rw [commsBuffer, frameCells, hframe, List.getD_append_right _ _ _ _ (by omega), hheader,
      Nat.add_sub_cancel_left, List.getD_append _ _ _ _ (by omega), List.getD_append _ _ _ _ hi,
      List.getD_eq_getElem _ _ hi]
  · rw [commsChecksum, frameCells, hframe, List.getD_append_right _ _ _ _ (by omega), hheader,
      List.getD_append_right _ _ _ _ (by omega), hbody]
    rfl

/-- A serialized frame is accepted, and writes exactly its payload. -/
theorem serialize_accepted (beyond out : ℕ → UInt8) (comms : TComms) (data : Payload) :
    verdict (frameCells beyond (serialize comms data)) = .packetOk ∧
      delivered (frameCells beyond (serialize comms data)) out = overwrite data out := by
  obtain ⟨hmagic, hsize⟩ := serialize_header beyond comms data
  obtain ⟨hbuffer, hchecksum⟩ := serialize_body beyond comms data
  have hok : verdict (frameCells beyond (serialize comms data)) = .packetOk := by
    rw [verdict_eq_ok_iff, hsize, payload_size_toNat, hchecksum, checksumLoop_eq_xorAll]
    refine ⟨hmagic, congrArg xorAll (List.ext_getElem (by simp) fun i hi hi' => ?_)⟩
    rw [List.getElem_map, List.getElem_range, hbuffer i hi']
  refine ⟨hok, ?_⟩
  funext i
  rw [delivered, overwrite, hsize, payload_size_toNat]
  by_cases hi : i < data.val.length
  · rw [if_pos ⟨hok, hi⟩, dif_pos hi, hbuffer i hi]
  · rw [if_neg fun h => hi h.2, dif_neg hi]

/-- The reports on serialized frames are the acceptances of their payloads. -/
theorem frameReports_framesOf (beyond out : ℕ → UInt8) (sent : List (TComms × Payload)) :
    frameReports beyond out (framesOf sent) = acceptances out (sent.map Prod.snd) := by
  induction sent generalizing out with
  | nil => rfl
  | cons entry rest ih =>
    obtain ⟨hverdict, hdelivered⟩ := serialize_accepted beyond out entry.1 entry.2
    change (verdict (frameCells beyond (serialize entry.1 entry.2)),
      delivered (frameCells beyond (serialize entry.1 entry.2)) out) ::
        frameReports beyond (delivered (frameCells beyond (serialize entry.1 entry.2)) out)
          (framesOf rest) = _
    rw [hverdict, hdelivered, ih]
    rfl

/-- A receiver between two frames, in which nothing is pending. -/
def emptyReader : Blocks.Reader UInt8 packetSize := ⟨[], packetSize_pos⟩

/-- The program starts between frames, whatever its memory holds. -/
theorem initial_tracks (memory : Memory Obj UInt8) : (Receiver.initial memory).Tracks emptyReader where
  wellFormed := Receiver.initial_wellFormed memory
  pending_eq := rfl

/-- A receiver between frames sees the blocks of what it is fed. -/
theorem emptyReader_completed (stream : List UInt8) :
    emptyReader.completed stream = Blocks.blocks packetSize stream := rfl

/-- Full frames are the blocks of their concatenation. -/
theorem completed_framesOf (sent : List (TComms × Payload)) :
    emptyReader.completed (framesOf sent).flatten = framesOf sent := by
  have hnil : Blocks.blocks packetSize ([] : List UInt8) = [] := Blocks.blocks_of_lt packetSize_pos
  have h := Blocks.blocks_flatten_append packetSize_pos (framesOf sent)
    (fun _ => length_of_mem_framesOf) []
  rw [hnil, List.append_nil, List.append_nil] at h
  exact h.1

/-- What one call does after `received` bytes of a stream of frames: it accepts and writes the
payload whose last byte its chunk supplies, and otherwise reports an incomplete packet. -/
def DeliversOnTime (payloads : List Payload) (received : ℕ) (chunk : List UInt8) (r : Receiver) : Prop :=
  if (received / packetSize + 1) * packetSize ≤ received + chunk.length then
    ∃ data, payloads[received / packetSize]? = some data ∧ (r.receive chunk).1 = .packetOk ∧
      (r.receive chunk).2.output = overwrite data r.output
  else (r.receive chunk).1 = .packetIncomplete ∧ (r.receive chunk).2.output = r.output

/-- The frames of a stream are those complete before a call, those it completes, and later ones. -/
theorem framesOf_split {sent : List (TComms × Payload)} {chunks before rest : List (List UInt8)}
    {chunk : List UInt8} (hcut : chunks.flatten = (framesOf sent).flatten)
    (hsplit : chunks = before ++ chunk :: rest) :
    ∃ later, framesOf sent = Blocks.blocks packetSize before.flatten ++
      ((emptyReader.feedAll before).completed chunk ++ later) := by
  have hstream : (framesOf sent).flatten = (before.flatten ++ chunk) ++ rest.flatten := by
    rw [← hcut, hsplit, List.flatten_append, List.flatten_cons, List.append_assoc]
  have hframes := completed_framesOf sent
  rw [hstream, emptyReader_completed, Blocks.blocks_append packetSize_pos, ← emptyReader_completed,
    (emptyReader.feedAll_completed before chunk).1, List.append_assoc] at hframes
  exact ⟨_, hframes.symm⟩

/-- The bytes received so far say whether a call completes a frame. -/
theorem completed_length (before : List (List UInt8)) (chunk : List UInt8) :
    (before.flatten.length + chunk.length) / packetSize =
      before.flatten.length / packetSize + ((emptyReader.feedAll before).completed chunk).length := by
  have hcount := congrArg List.length (emptyReader.feedAll_completed before chunk).1
  rwa [List.length_append, emptyReader_completed, emptyReader_completed, Blocks.blocks_length,
    Blocks.blocks_length, List.length_append] at hcount

section BetweenFrames

variable {r : Receiver} (h : r.Tracks emptyReader) {sent : List (TComms × Payload)}
  {chunks : List (List UInt8)} (hcut : chunks.flatten = (framesOf sent).flatten)
  (hlen : ∀ chunk ∈ chunks, chunk.length ≤ packetSize)

include h hcut hlen

/-- From a receiver between frames, the reports of a stream of frames are its acceptances. -/
theorem reports_framesOf : r.reports chunks = acceptances r.output (sent.map Prod.snd) := by
  rw [reports_eq h hlen, hcut, completed_framesOf, frameReports_framesOf]

/-- From a receiver between frames, every call delivers on time, and the leftover buffer never
retains a whole frame. -/
theorem deliversOnTime_framesOf {before rest : List (List UInt8)} {chunk : List UInt8}
    (hsplit : chunks = before ++ chunk :: rest) :
    DeliversOnTime (sent.map Prod.snd) before.flatten.length chunk (r.receiveChunks before) ∧
      ((r.receiveChunks before).receive chunk).2.leftoverCount < packetSize := by
  have hbefore : ∀ c ∈ before, c.length ≤ packetSize := fun c hc => hlen c (by simp [hsplit, hc])
  obtain ⟨htracks, -⟩ := receiveChunks_tracks h hbefore
  obtain ⟨hnext, -, hcases⟩ := receive_spec htracks (hlen chunk (by simp [hsplit]))
  have hcount := completed_length before chunk
  have hmul := Nat.div_add_mod (before.flatten.length + chunk.length) packetSize
  have hmod := Nat.mod_lt (before.flatten.length + chunk.length) packetSize_pos
  refine ⟨?_, hnext.wellFormed.leftoverCount_lt⟩
  rcases hcases with ⟨hnone, hresult, hout⟩ | ⟨frame, hone, hresult, hout⟩
  · rw [hnone, List.length_nil, Nat.add_zero] at hcount
    rw [DeliversOnTime, if_neg]
    · exact ⟨hresult, hout⟩
    · rw [← hcount, Nat.add_mul, Nat.mul_comm]
      omega
  · rw [hone, List.length_singleton] at hcount
    obtain ⟨later, hlater⟩ := framesOf_split hcut hsplit
    have hframe : (framesOf sent)[before.flatten.length / packetSize]? = some frame := by
      rw [hlater, hone, ← Blocks.blocks_length, List.getElem?_append_right le_rfl, Nat.sub_self]
      rfl
    obtain ⟨entry, hentry, rfl⟩ := by
      rw [framesOf, List.getElem?_map] at hframe
      exact Option.map_eq_some_iff.mp hframe
    obtain ⟨hverdict, hdelivered⟩ :=
      serialize_accepted (r.receiveChunks before).beyond (r.receiveChunks before).output entry.1 entry.2
    rw [DeliversOnTime, if_pos]
    · refine ⟨entry.2, ?_, hresult.trans hverdict, hout.trans hdelivered⟩
      rw [List.getElem?_map, hentry]
      rfl
    · rw [← hcount, Nat.mul_comm]
      exact Nat.mul_div_le _ _

end BetweenFrames

/-- The streaming round trip: for every list of payloads, every stack content of their frames and
every cut of the stream, the calls report exactly one acceptance for each payload, in order, each
made by the call that supplies the last byte of its frame. -/
theorem deserialize_round_trip (memory : Memory Obj UInt8) (sent : List (TComms × Payload))
    (chunks : List (List UInt8)) (hcut : chunks.flatten = (framesOf sent).flatten)
    (hlen : ∀ chunk ∈ chunks, 1 ≤ chunk.length ∧ chunk.length ≤ packetSize) :
    (Receiver.initial memory).reports chunks =
        acceptances (memory.cells .output) (sent.map Prod.snd) ∧
      ∀ before chunk rest, chunks = before ++ chunk :: rest →
        DeliversOnTime (sent.map Prod.snd) before.flatten.length chunk
            ((Receiver.initial memory).receiveChunks before) ∧
          (((Receiver.initial memory).receiveChunks before).receive chunk).2.leftoverCount <
            packetSize := by
  have hle : ∀ chunk ∈ chunks, chunk.length ≤ packetSize := fun chunk h => (hlen chunk h).2
  refine ⟨reports_framesOf (initial_tracks memory) hcut hle, ?_⟩
  intro before chunk rest hsplit
  exact deliversOnTime_framesOf (initial_tracks memory) hcut hle hsplit

/-- A stop command as the Pi builds it on a zeroed stack. -/
def stopPacket : TPacket := .bare .commandKeyboard .stop

/-- The frame that the Pi builds for a stop command, over zeroed memory. -/
def stopFrame : List UInt8 := serialize zeroComms stopPacket.payload

/-- A stop frame cut after its hundredth byte is reported once, as itself. -/
theorem stopFrame_round_trip :
    (Receiver.initial ⟨fun _ _ => 0, []⟩).reports [stopFrame.take 100, stopFrame.drop 100] =
      acceptances (fun _ => 0) [stopPacket.payload] := by
  refine (deserialize_round_trip ⟨fun _ _ => 0, []⟩ [(zeroComms, stopPacket.payload)]
    [stopFrame.take 100, stopFrame.drop 100] ?_ ?_).1
  · simp [framesOf, stopFrame]
  · have hframe : stopFrame.length = 140 := serialize_length _ _
    simp [hframe, packetSize]

end AlexRobot
