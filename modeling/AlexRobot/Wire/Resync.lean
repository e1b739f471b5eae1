import AlexRobot.Wire.RoundTrip

/-!
# The receiver keeps its alignment

The 140-byte window of `assemble` starts where the byte count says, and nothing in
`deserialize` moves it: a rejected frame is dropped whole. After any earlier stream the
receiver therefore judges windows at a fixed offset from the frame boundaries. When the
earlier bytes make whole frames the offset is zero and every later frame is delivered; when
they do not, no number of intact frames repairs it.
-/

namespace AlexRobot

open Bytes
open TracedMemory

/-- Some call of the run accepts a frame and leaves the payload in the caller's structure. -/
def Reported (r : Receiver) (chunks : List (List UInt8)) (data : Payload) : Prop :=
  ∃ out, (TResult.packetOk, overwrite data out) ∈ r.reports chunks

/-- Every payload of a list of acceptances is accepted. -/
theorem mem_acceptances {payloads : List Payload} {data : Payload} (h : data ∈ payloads)
    (out : ℕ → UInt8) : ∃ before, (TResult.packetOk, overwrite data before) ∈ acceptances out payloads := by
  induction payloads generalizing out with
  | nil => cases h
  | cons first rest ih =>
    rcases List.mem_cons.mp h with rfl | hrest
    · exact ⟨out, List.mem_cons_self⟩
    · obtain ⟨before, hbefore⟩ := ih hrest (overwrite first out)
      exact ⟨before, List.mem_cons_of_mem _ hbefore⟩

/-- After any stream the receiver holds the bytes past its last whole frame. -/
theorem receiveChunks_initial (memory : Memory Obj UInt8) {chunks : List (List UInt8)}
    (hlen : ∀ chunk ∈ chunks, chunk.length ≤ packetSize) :
    ∃ reader : Blocks.Reader UInt8 packetSize,
      ((Receiver.initial memory).receiveChunks chunks).Tracks reader ∧
        reader.pending = Blocks.remainder packetSize chunks.flatten :=
  ⟨emptyReader.feedAll chunks, (receiveChunks_tracks (initial_tracks memory) hlen).1,
    (emptyReader.feedAll_completed chunks []).2⟩

section Lost

/-- What the receiver holds after the first byte of a stop frame was lost. -/
def cutStopFrame : List UInt8 := stopFrame.drop 1

/-- The window that the receiver then judges: the rest of one frame and the first byte of the next. -/
def shiftedStopFrame : List UInt8 := stopFrame.drop 1 ++ stopFrame.take 1

/-- The shifted windows of a sequence of stop frames are all the same. -/
theorem blocks_cutStopFrame (count : ℕ) :
    Blocks.blocks packetSize (cutStopFrame ++ (List.replicate count stopFrame).flatten) =
      List.replicate count shiftedStopFrame := by
  have hlength : stopFrame.length = packetSize := serialize_length _ _
  induction count with
  | zero =>
    refine Blocks.blocks_of_lt ?_
    rw [List.replicate_zero, List.flatten_nil, List.append_nil, cutStopFrame, List.length_drop, hlength]
    decide
  | succ count ih =>
    have hwindow : shiftedStopFrame.length = packetSize := by
      rw [shiftedStopFrame, List.length_append, List.length_drop, List.length_take, hlength]
      decide
    have hshift : cutStopFrame ++ (List.replicate (count + 1) stopFrame).flatten =
        shiftedStopFrame ++ (cutStopFrame ++ (List.replicate count stopFrame).flatten) := by
      rw [List.replicate_succ, List.flatten_cons, shiftedStopFrame, cutStopFrame, List.append_assoc,
        ← List.append_assoc (stopFrame.take 1), List.take_append_drop]
    rw [hshift, Blocks.blocks_append_left packetSize_pos hwindow, ih, List.replicate_succ]

/-- Every frame starts with the magic number, low byte first. -/
theorem serialize_cons (comms : TComms) (data : Payload) :
    ∃ size rest, serialize comms data = 0xFF :: 0xFE :: 0xFD :: 0xFC :: size :: rest := by
  rw [serialize_eq]
  exact ⟨_, _, rfl⟩

/-- A shifted window of a stop frame has a bad magic number. -/
theorem verdict_shiftedStopFrame (beyond : ℕ → UInt8) :
    verdict (frameCells beyond shiftedStopFrame) = .packetBad := by
  obtain ⟨size, rest, hframe⟩ := serialize_cons zeroComms stopPacket.payload
  have hmagic : commsMagic (frameCells beyond shiftedStopFrame) ≠ magicNumber := by
    rw [shiftedStopFrame, stopFrame, hframe]
    intro hword
    have hbytes := congrArg wordBytes hword
    rw [commsMagic, wordBytes_word] at hbytes
    have hfirst : (0xFE : UInt8) = 0xFF := (List.cons.inj hbytes).1
    cases hfirst
  rw [verdict, if_pos hmagic]

/-- Every report on a stream is the verdict on one of its frames. -/
theorem mem_frameReports {beyond out : ℕ → UInt8} {frames : List (List UInt8)}
    {report : TResult × (ℕ → UInt8)} (h : report ∈ frameReports beyond out frames) :
    ∃ frame ∈ frames, report.1 = verdict (frameCells beyond frame) := by
  induction frames generalizing out with
  | nil => cases h
  | cons frame rest ih =>
    rcases List.mem_cons.mp h with hfirst | hrest
    · exact ⟨frame, List.mem_cons_self, congrArg Prod.fst hfirst⟩
    · obtain ⟨later, hlater, hresult⟩ := ih hrest
      exact ⟨later, List.mem_cons_of_mem _ hlater, hresult⟩

/-- After one lost byte, no number of intact stop frames is ever reported. -/
theorem stopFrame_undeliverable (memory : Memory Obj UInt8) (count : ℕ) :
    ¬ Reported ((Receiver.initial memory).receiveChunks [cutStopFrame])
      (List.replicate count stopFrame) stopPacket.payload := by
  rintro ⟨out, hout⟩
  have hlength : stopFrame.length = packetSize := serialize_length _ _
  have hcut : cutStopFrame.length < packetSize := by
    rw [cutStopFrame, List.length_drop, hlength]
    decide
  have hshort : ∀ chunk ∈ [cutStopFrame], chunk.length ≤ packetSize := by
    intro chunk hchunk
    rw [List.mem_singleton.mp hchunk]
    exact hcut.le
  obtain ⟨reader, htracks, hpending⟩ := receiveChunks_initial memory hshort
  rw [List.flatten_singleton, Blocks.remainder_of_lt hcut] at hpending
  rw [reports_eq htracks fun chunk hchunk => (List.eq_of_mem_replicate hchunk) ▸ hlength.le,
    Blocks.Reader.completed, hpending, blocks_cutStopFrame] at hout
  obtain ⟨frame, hframe, hresult⟩ := mem_frameReports hout
  rw [List.eq_of_mem_replicate hframe, verdict_shiftedStopFrame] at hresult
  cases hresult

end Lost

/-- Three intact frames after a lost byte need not bring a single acceptance. -/
theorem deserialize_resync_refuted :
    ¬ ∀ (memory : Memory Obj UInt8) (earlier chunks : List (List UInt8)) (sent : List (TComms × Payload)),
      (∀ chunk ∈ earlier, 1 ≤ chunk.length ∧ chunk.length ≤ packetSize) →
      (∀ chunk ∈ chunks, 1 ≤ chunk.length ∧ chunk.length ≤ packetSize) →
      chunks.flatten = (framesOf sent).flatten → 3 ≤ sent.length →
      ∃ entry ∈ sent, Reported ((Receiver.initial memory).receiveChunks earlier) chunks entry.2 := by
  intro hclaim
  have hlength : stopFrame.length = 140 := serialize_length _ _
  have hcut : cutStopFrame.length = 139 := by rw [cutStopFrame, List.length_drop, hlength]
  obtain ⟨entry, hentry, hreported⟩ := hclaim ⟨fun _ _ => 0, []⟩ [cutStopFrame]
    (List.replicate 3 stopFrame) (List.replicate 3 (zeroComms, stopPacket.payload))
    (by simp [hcut, packetSize]) (by simp [hlength, packetSize]) (by simp [framesOf, stopFrame]) (by simp)
  rw [List.eq_of_mem_replicate hentry] at hreported
  exact stopFrame_undeliverable _ _ hreported

/-- What the receiver does after any earlier stream. It judges the windows of the stream at the
offset that the earlier bytes leave, and frames do not change that offset; when the earlier bytes
make whole frames, every further frame is accepted as itself, in order. -/
theorem deserialize_resync (memory : Memory Obj UInt8) (earlier chunks : List (List UInt8))
    (sent : List (TComms × Payload))
    (hearlier : ∀ chunk ∈ earlier, 1 ≤ chunk.length ∧ chunk.length ≤ packetSize)
    (hlen : ∀ chunk ∈ chunks, 1 ≤ chunk.length ∧ chunk.length ≤ packetSize)
    (hcut : chunks.flatten = (framesOf sent).flatten) :
    let r := (Receiver.initial memory).receiveChunks earlier
    (packetSize ∣ earlier.flatten.length →
        r.reports chunks = acceptances r.output (sent.map Prod.snd) ∧
          ∀ entry ∈ sent, Reported r chunks entry.2) ∧
      r.reports chunks = frameReports r.beyond r.output (Blocks.blocks packetSize
        (Blocks.remainder packetSize earlier.flatten ++ (framesOf sent).flatten)) ∧
      r.pending.length = earlier.flatten.length % packetSize ∧
      (r.receiveChunks chunks).pending.length = r.pending.length := by
  intro r
  have hle : ∀ chunk ∈ chunks, chunk.length ≤ packetSize := fun chunk h => (hlen chunk h).2
  obtain ⟨reader, htracks, hpending⟩ :=
    receiveChunks_initial memory fun chunk h => (hearlier chunk h).2
  have hoffset : r.pending.length = earlier.flatten.length % packetSize := by
    rw [htracks.pending_eq, hpending, Blocks.remainder_length]
  refine ⟨?_, ?_, hoffset, ?_⟩
  · intro hwhole
    have hempty : r.Tracks emptyReader :=
      ⟨htracks.wellFormed, List.eq_nil_of_length_eq_zero (hoffset.trans (Nat.mod_eq_zero_of_dvd hwhole))⟩
    have hreports := reports_framesOf hempty hcut hle
    refine ⟨hreports, ?_⟩
    intro entry hentry
    rw [Reported, hreports]
    exact mem_acceptances (List.mem_map_of_mem hentry) r.output
  · rw [reports_eq htracks hle, Blocks.Reader.completed, hpending, hcut]
  · have hafter := (receiveChunks_tracks htracks hle).1.pending_eq
    have hframes : (framesOf sent).flatten.length % packetSize = 0 := by
      have hnil : Blocks.remainder packetSize ([] : List UInt8) = [] := Blocks.remainder_of_lt packetSize_pos
      have hnone := (Blocks.blocks_flatten_append packetSize_pos (framesOf sent)
        (fun _ => length_of_mem_framesOf) []).2
      rw [List.append_nil, hnil] at hnone
      rw [← Blocks.remainder_length, hnone, List.length_nil]
    rw [hafter, (reader.feedAll_completed chunks []).2, Blocks.remainder_length, List.length_append, hcut,
      Nat.add_mod, hframes, Nat.add_zero, Nat.mod_mod, ← htracks.pending_eq,
      Nat.mod_eq_of_lt htracks.wellFormed.pending_length_lt]

/-- After one whole stop frame, a second one cut after its first byte is reported. -/
theorem stopFrame_resync :
    (∀ chunk ∈ [stopFrame], 1 ≤ chunk.length ∧ chunk.length ≤ packetSize) ∧
      Reported ((Receiver.initial ⟨fun _ _ => 0, []⟩).receiveChunks [stopFrame])
        [stopFrame.take 1, stopFrame.drop 1] stopPacket.payload := by
  have hlength : stopFrame.length = 140 := serialize_length _ _
  have hearlier : ∀ chunk ∈ [stopFrame], 1 ≤ chunk.length ∧ chunk.length ≤ packetSize := by
    simp [hlength, packetSize]
  obtain ⟨hwhole, -⟩ := deserialize_resync ⟨fun _ _ => 0, []⟩ [stopFrame]
    [stopFrame.take 1, stopFrame.drop 1] [(zeroComms, stopPacket.payload)] hearlier
    (by simp [hlength, packetSize]) (by simp [framesOf, -List.drop_one, stopFrame])
  obtain ⟨-, hreported⟩ := hwhole (by simp [hlength, packetSize])
  exact ⟨hearlier, hreported _ List.mem_cons_self⟩

end AlexRobot
