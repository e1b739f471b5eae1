import AlexRobot.Arduino.Acknowledge
import AlexRobot.Pi.ReceiveThread

/-!
# Whose bytes a handled packet has

Both receivers pass their whole packet to `handlePacket` after an acceptance, however many
bytes the frame delivered. On the Pi the packet is the thread's, with the bytes of earlier
packets; on the Arduino it is a fresh local variable, with the bytes of the stack. The packet
handled is a function of its frame exactly when the frame delivers all of it.
-/

namespace AlexRobot

open Bytes
open TracedMemory

/-- Whenever the Pi's receive thread completes the frame, it passes the given packet to
`handlePacket`: after any reads, and over any initial memory. -/
def ThreadHandles (frame : List UInt8) (packet : TPacket) : Prop :=
  ∀ (cells : Obj → ℕ → UInt8) (inputs : List Read) (input : Read),
    (∀ earlier ∈ inputs, earlier.received.length ≤ packetSize) → input.received.length ≤ packetSize →
    (emptyReader.feedAll (inputs.map Read.received)).completed input.received = [frame] →
    ((Run.after ReceiveThread.iterate (.start cells) inputs).iterate input).handled =
      (Run.after ReceiveThread.iterate (.start cells) inputs).handled ++ [packet]

/-- Whenever an iteration of the Arduino's `loop()` completes the frame, it passes the given packet
to `handlePacket`: after any run, and with anything on the stack. -/
def LoopHandles (frame : List UInt8) (packet : TPacket) : Prop :=
  ∀ (alexCirc : ℚ) (stack : Stack) (memory : Memory Obj UInt8) (ops : List Alex.Op)
    (s : Alex.Surroundings),
    (∀ op ∈ ops, op.received.length ≤ packetSize) → s.available.length ≤ packetSize →
    (emptyReader.feedAll (ops.map Alex.Op.received)).completed s.available = [frame] →
    (Run.after Alex.step (Alex.setup alexCirc stack memory) ops).accepted s = some packet

/-- The frame is accepted: `deserialize` returns `PACKET_OK` for it. -/
def Accepted (frame : List UInt8) : Prop := (verdict fun i => frame.getD i 0) = .packetOk

/-- A round of the thread that completes an accepted frame delivers it and handles the packet it
leaves. -/
theorem iterate_handled {t : ReceiveThread} {reader : Blocks.Reader UInt8 packetSize}
    (h : t.receiver.Tracks reader) {input : Read} (hlen : input.received.length ≤ packetSize)
    {frame : List UInt8} (hone : reader.completed input.received = [frame])
    (hok : verdict (frameCells t.receiver.beyond frame) = .packetOk) :
    (t.iterate input).receiver.output = delivered (frameCells t.receiver.beyond frame) t.receiver.output ∧
      (t.iterate input).handled = t.handled ++
        [TPacket.ofCells (delivered (frameCells t.receiver.beyond frame) t.receiver.output)] := by
  have hne : input.received ≠ [] := by
    intro hempty
    rw [hempty, reader.completed_nil] at hone
    cases hone
  rw [iterate_received t hne]
  rcases (receive_spec h hlen).2.2 with ⟨hnone, -, -⟩ | ⟨frame', hone', hresult, hout⟩
  · rw [hnone] at hone
    cases hone
  · rw [hone'] at hone
    cases hone
    rw [dispatch_receiver, hresult, hok, ReceiveThread.dispatch, if_pos rfl, hout]
    exact ⟨rfl, rfl⟩

/-- An iteration of `loop()` that completes an accepted frame accepts the packet it leaves. -/
theorem accepted_eq {a : Alex} {reader : Blocks.Reader UInt8 packetSize} (h : a.receiver.Tracks reader)
    {s : Alex.Surroundings} (hlen : s.available.length ≤ packetSize) {frame : List UInt8}
    (hone : reader.completed s.available = [frame])
    (hok : verdict (frameCells a.receiver.beyond frame) = .packetOk) :
    a.accepted s =
      some (TPacket.ofCells (delivered (frameCells a.receiver.beyond frame) s.recvPacket)) := by
  rcases (readPacket_spec h s.recvPacket hlen).2.2 with ⟨hnone, -⟩ | ⟨frame', hone', hresult, hout⟩
  · rw [hnone] at hone
    cases hone
  · rw [hone'] at hone
    cases hone
    rw [Alex.accepted, hresult, if_pos hok, hout]

/-- What `serialize` makes of a payload is accepted. -/
theorem accepted_serialize (comms : TComms) (data : Payload) : Accepted (serialize comms data) :=
  (serialize_accepted (fun _ => 0) (fun _ => 0) comms data).1

/-- An accepted frame whose data fits it is accepted over any memory. -/
theorem Accepted.verdict_eq {frame : List UInt8} (hok : Accepted frame) (hframe : frame.length = packetSize)
    (hsize : claimedSize frame ≤ sizeofTPacket) (beyond : ℕ → UInt8) :
    verdict (frameCells beyond frame) = .packetOk :=
  (verdict_frameCells beyond hframe (hsize.trans (by decide))).trans hok

/-- A round of the thread that completes an accepted frame of a whole packet handles its packet. -/
theorem iterate_whole {t : ReceiveThread} {reader : Blocks.Reader UInt8 packetSize}
    (h : t.receiver.Tracks reader) {input : Read} (hlen : input.received.length ≤ packetSize)
    {frame : List UInt8} (hone : reader.completed input.received = [frame]) (hframe : frame.length = packetSize)
    (hok : Accepted frame) (hsize : claimedSize frame = sizeofTPacket) :
    (t.iterate input).handled = t.handled ++ [framePacket frame] := by
  have hverdict := hok.verdict_eq hframe hsize.le t.receiver.beyond
  rw [(iterate_handled h hlen hone hverdict).2, ofCells_delivered hframe hverdict hsize]

/-- An accepted frame of a whole packet is handled as its own packet by the thread. -/
theorem threadHandles_of_whole {frame : List UInt8} (hframe : frame.length = packetSize)
    (hok : Accepted frame) (hsize : claimedSize frame = sizeofTPacket) :
    ThreadHandles frame (framePacket frame) := by
  intro cells inputs input hinputs hinput hone
  have hstart : (ReceiveThread.start cells).receiver.Tracks emptyReader := initial_tracks _
  have htracks := after_iterate_tracks hstart hinputs
  exact iterate_whole htracks hinput hone hframe hok hsize

/-- An accepted frame of a whole packet is handled as its own packet by `loop()`. -/
theorem loopHandles_of_whole {frame : List UInt8} (hframe : frame.length = packetSize)
    (hok : Accepted frame) (hsize : claimedSize frame = sizeofTPacket) :
    LoopHandles frame (framePacket frame) := by
  intro alexCirc stack memory ops s hops hlen hone
  have hverdict := hok.verdict_eq hframe hsize.le
  have hstart : (Alex.setup alexCirc stack memory).receiver.Tracks emptyReader := initial_tracks memory
  have htracks := Alex.after_step_tracks hstart hops
  rw [accepted_eq htracks hlen hone (hverdict _), ofCells_delivered hframe (hverdict _) hsize]

/-- Two packets that differ in their last byte are different. -/
theorem ofCells_ne {cells cells' : ℕ → UInt8} (h : cells 99 ≠ cells' 99) :
    TPacket.ofCells cells ≠ TPacket.ofCells cells' := by
  intro heq
  have hlast := congrArg (fun p => wordBytes p.params[15]) heq
  simp only [TPacket.ofCells, Vector.getElem_ofFn, wordBytes_word, List.cons.injEq, and_true] at hlast
  exact h hlast.2.2.2

section Stale

variable {frame : List UInt8} (hframe : frame.length = packetSize) (hok : Accepted frame)
  (hsize : claimedSize frame < sizeofTPacket)

include hframe hsize

/-- A frame of less than a packet leaves the last byte of the packet as it was, so no one packet is
what it leaves over every memory. -/
theorem delivered_stale (packet : TPacket) :
    ¬ ∀ b : UInt8, TPacket.ofCells (delivered (frameCells (fun _ => b) frame) fun _ => b) = packet := by
  intro hall
  have hlast (b : UInt8) : delivered (frameCells (fun _ => b) frame) (fun _ => b) 99 = b := by
    have hclaimed := (frameCells_header (fun _ => b) hframe).2.1
    have h100 : claimedSize frame < 100 := hsize
    rw [delivered, if_neg (by rw [hclaimed]; omega)]
  exact ofCells_ne (by rw [hlast 0, hlast 1]; decide) ((hall 0).trans (hall 1).symm)

include hok

/-- An accepted frame of less than a packet is handled by the thread with bytes of earlier packets. -/
theorem not_threadHandles (packet : TPacket) : ¬ ThreadHandles frame packet := by
  intro hthread
  apply delivered_stale hframe hsize packet
  intro b
  have hread : frame.length ≤ maxBufferLen := hframe.le.trans (by decide)
  let input : Read := .bytes ⟨frame, hread⟩
  have hlen : input.received.length ≤ packetSize := hframe.le
  have hone : emptyReader.completed input.received = [frame] :=
    Blocks.blocks_of_length_eq packetSize_pos hframe
  have htracks : (ReceiveThread.start fun _ _ => b).receiver.Tracks emptyReader := initial_tracks _
  have hrun := hthread (fun _ _ => b) [] input (fun _ h => absurd h List.not_mem_nil) hlen hone
  rw [Run.after, List.foldl_nil,
    (iterate_handled htracks hlen hone (hok.verdict_eq hframe hsize.le _)).2] at hrun
  exact List.singleton_inj.mp (List.append_cancel_left hrun)

/-- An accepted frame of less than a packet is handled by `loop()` with bytes of the stack. -/
theorem not_loopHandles (packet : TPacket) : ¬ LoopHandles frame packet := by
  intro hloop
  apply delivered_stale hframe hsize packet
  intro b
  let a : Alex := Alex.setup 0 ⟨fun _ => stopPacket, fun _ => zeroComms⟩ ⟨fun _ _ => b, []⟩
  let s : Alex.Surroundings := ⟨0, .silent, fun _ => b, frame⟩
  have hone : emptyReader.completed s.available = [frame] :=
    Blocks.blocks_of_length_eq packetSize_pos hframe
  have htracks : a.receiver.Tracks emptyReader := initial_tracks _
  have hrun : a.accepted s = some packet :=
    hloop _ _ _ [] s (fun _ h => absurd h List.not_mem_nil) hframe.le hone
  rw [accepted_eq htracks hframe.le hone (hok.verdict_eq hframe hsize.le _)] at hrun
  exact Option.some.inj hrun

end Stale

/-- A frame that carries no data, as `serialize` makes it. -/
def emptyFrame : List UInt8 := serialize zeroComms ⟨[], Nat.zero_le _⟩

/-- A frame of no data is accepted and makes the receiver handle what it held before. -/
theorem handled_packet_refuted :
    ¬ ∀ frame : List UInt8, frame.length = packetSize → Accepted frame →
      claimedSize frame ≤ sizeofTPacket →
        (∃ packet, ThreadHandles frame packet) ∧ ∃ packet, LoopHandles frame packet := by
  intro hclaim
  have hlength : emptyFrame.length = packetSize := serialize_length _ _
  have hok : Accepted emptyFrame := accepted_serialize _ _
  have hsize : claimedSize emptyFrame < sizeofTPacket := by
    rw [emptyFrame, claimedSize_serialize]
    decide
  obtain ⟨⟨packet, hthread⟩, -⟩ := hclaim emptyFrame hlength hok hsize.le
  exact not_threadHandles hlength hok hsize packet hthread

/-- For an accepted frame of at most a packet, the packet handled is a function of the frame alone,
on the Pi and on the Arduino, exactly when the frame claims a whole packet. -/
theorem handled_packet_own_frame (frame : List UInt8) (hframe : frame.length = packetSize)
    (hok : Accepted frame) (hsize : claimedSize frame ≤ sizeofTPacket) :
    ((∃ packet, ThreadHandles frame packet) ↔ claimedSize frame = sizeofTPacket) ∧
      ((∃ packet, LoopHandles frame packet) ↔ claimedSize frame = sizeofTPacket) := by
  constructor
  · constructor
    · rintro ⟨packet, hthread⟩
      exact hsize.eq_of_not_lt fun hlt => not_threadHandles hframe hok hlt packet hthread
    · intro hwhole
      exact ⟨_, threadHandles_of_whole hframe hok hwhole⟩
  · constructor
    · rintro ⟨packet, hloop⟩
      exact hsize.eq_of_not_lt fun hlt => not_loopHandles hframe hok hlt packet hloop
    · intro hwhole
      exact ⟨_, loopHandles_of_whole hframe hok hwhole⟩

/-- A stop frame is handled as itself by both receivers. -/
theorem stopFrame_own_frame :
    (∃ packet, ThreadHandles stopFrame packet) ∧ ∃ packet, LoopHandles stopFrame packet := by
  have hlength : stopFrame.length = packetSize := serialize_length _ _
  have hok : Accepted stopFrame := accepted_serialize _ _
  have hsize : claimedSize stopFrame = sizeofTPacket := claimedSize_packet zeroComms stopPacket
  obtain ⟨hthread, hloop⟩ := handled_packet_own_frame stopFrame hlength hok hsize.le
  exact ⟨hthread.mpr hsize, hloop.mpr hsize⟩

end AlexRobot
