import AlexRobot.Link.Damage

/-!
# The memory that the receive paths touch

Two things take a receive path out of its memory: a read that brings more than a frame, and a frame
that claims more data than a packet has. Neither program sends the second, and damage that leaves
the length field alone does not make one. So on lines that lose no byte only the reads are left:
both receive paths stay inside their memory for as long as every read brings at most a frame, and
not longer.
-/

namespace AlexRobot

open TracedMemory
open TracedMemory.Memory

/-- The bounds of every access of a receive path: the index is inside a frame, and inside
`comms->buffer` or the caller's packet where those are meant. -/
def InBounds (access : Access Obj) : Prop := access.index < packetSize ∧ FrameAccess access

/-- The accesses are in bounds if they are inside a frame, and as judging a frame requires. -/
theorem within_inBounds {m : Memory Obj UInt8} :
    m.Within InBounds ↔ m.Within (fun access => access.index < packetSize) ∧ m.Within FrameAccess :=
  forall₂_and

/-- Assembling a frame from a chunk of at most a frame stays in bounds. -/
theorem assemble_inBounds {r : Receiver} (h : r.WellFormed) {len : ℕ} (hlen : len ≤ packetSize)
    (hr : r.memory.Within InBounds) : (assemble r len).2.memory.Within InBounds := by
  obtain ⟨hindex, hframe⟩ := within_inBounds.mp hr
  exact within_inBounds.mpr ⟨assemble_within (fun _ _ _ h => h) h hlen hindex, assemble_frameAccess hframe len⟩

/-- Judging the frame of a whole packet stays in bounds. -/
theorem extractComms_inBounds {r : Receiver}
    (hwhole : WholePacket (r.memory.window .privateBuffer 0 packetSize))
    (hr : r.memory.Within InBounds) : (extractComms r).2.memory.Within InBounds := by
  have hframe : (r.memory.window .privateBuffer 0 packetSize).length = packetSize := window_length ..
  have hcells := frameCells_window r.memory
  have hsize (hgood : verdict (r.memory.cells .privateBuffer) ≠ .packetBad) :
      (commsDataSize (r.memory.cells .privateBuffer)).toNat = sizeofTPacket := by
    rcases hwhole with hmagic | hclaimed
    · have hbad := verdict_of_magic_ne (r.memory.cells .privateBuffer) hframe hmagic
      rw [hcells] at hbad
      exact absurd hbad hgood
    · have hheader := (frameCells_header (r.memory.cells .privateBuffer) hframe).2.1
      rw [hcells] at hheader
      exact hheader.trans hclaimed
  rw [extractComms_within]
  refine ⟨hr, fun hgood k hk => ?_, fun hok k hk => ?_⟩
  · -- The checksum loop reads `comms->buffer`.
    rw [hsize hgood] at hk
    have h100 : k < 100 := hk
    refine ⟨?_, fun _ _ => ?_, fun hobject => nomatch hobject⟩
    · change 8 + k < 140
      omega
    · change 8 + k < 8 + 128
      omega
  · -- The copy writes the packet.
    rw [hsize (hok ▸ TResult.noConfusion)] at hk
    have h100 : k < 100 := hk
    exact ⟨h100.trans (by decide), fun hobject => (nomatch hobject), fun _ _ => hk⟩

/-- A call on a chunk of at most a frame stays in bounds if what it completes is the frame of a whole
packet. -/
theorem receive_inBounds {r : Receiver} {reader : Blocks.Reader UInt8 packetSize} (h : r.Tracks reader)
    {chunk : List UInt8} (hlen : chunk.length ≤ packetSize)
    (hframes : ∀ frame ∈ reader.completed chunk, WholePacket frame) (hr : r.memory.Within InBounds) :
    (r.receive chunk).2.memory.Within InBounds := by
  have hstore (object : Obj) (ho : object ≠ .buffer) :
      (store .buffer 0 chunk r.memory).cells object = r.memory.cells object := by
    funext i
    exact (cells_store ..).trans (dif_neg fun hi => ho hi.1)
  have htracks : Receiver.Tracks { r with memory := store .buffer 0 chunk r.memory } reader :=
    h.congr rfl rfl rfl (hstore _ (by decide)) (hstore _ (by decide))
  have hstored : (store .buffer 0 chunk r.memory).Within InBounds :=
    (within_store ..).mpr ⟨hr, fun k hk =>
      ⟨(Nat.zero_add k).trans_lt (hk.trans_le hlen), by simp [FrameAccess]⟩⟩
  have hassembled := assemble_inBounds htracks.wellFormed hlen hstored
  obtain ⟨-, -, ⟨-, hresult⟩ | ⟨hone, hresult⟩⟩ :=
    assemble_tracks htracks hlen (window_store .buffer chunk r.memory)
  · rw [Receiver.receive, deserialize_of_incomplete hresult]
    exact hassembled
  · rw [Receiver.receive, deserialize_of_complete hresult]
    exact extractComms_inBounds (hframes _ (hone ▸ List.mem_singleton_self _)) hassembled

/-- A call of `deserialize` only adds to the trace that assembling leaves. -/
theorem within_of_deserialize {P : Access Obj → Prop} {r : Receiver} {len : ℕ}
    (h : (deserialize r len).2.memory.Within P) : (assemble r len).2.memory.Within P := by
  by_cases hcomplete : (assemble r len).1 = .packetComplete
  · rw [deserialize_of_complete hcomplete, extractComms_within] at h
    exact h.1
  · simp only [deserialize, hcomplete, if_false] at h
    exact h

/-- A call stays in bounds exactly when it is on a chunk of at most a frame, if what it completes are
frames of whole packets. -/
theorem receive_inBounds_iff {r : Receiver} {reader : Blocks.Reader UInt8 packetSize} (h : r.Tracks reader)
    {chunk : List UInt8} (hframes : ∀ frame ∈ reader.completed chunk, WholePacket frame)
    (hr : r.memory.Within InBounds) :
    (r.receive chunk).2.memory.Within InBounds ↔ chunk.length ≤ packetSize := by
  refine ⟨fun hafter => Nat.le_of_not_lt fun hlong => ?_, fun hlen => receive_inBounds h hlen hframes hr⟩
  -- Storing a longer chunk writes past the caller's buffer.
  rw [Receiver.receive] at hafter
  have hstored : (store .buffer 0 chunk r.memory).Within InBounds :=
    within_of_assemble (within_of_deserialize hafter)
  have hlast := (((within_store ..).mp hstored).2 packetSize hlong).1
  rw [Nat.zero_add] at hlast
  exact lt_irrefl packetSize hlast

/-- A call of `readPacket` stays in bounds exactly when it reads at most a frame, if what it completes
are frames of whole packets. -/
theorem readPacket_inBounds_iff {r : Receiver} {reader : Blocks.Reader UInt8 packetSize} (h : r.Tracks reader)
    (packet : ℕ → UInt8) (available : List UInt8)
    (hframes : ∀ frame ∈ reader.completed available, WholePacket frame) (hr : r.memory.Within InBounds) :
    (readPacket r packet available).2.memory.Within InBounds ↔ available.length ≤ packetSize := by
  have hfresh : (r.withOutput packet).memory.Within InBounds := hr
  by_cases hempty : available = []
  · rw [hempty, readPacket_nil]
    exact iff_of_true hfresh (Nat.zero_le _)
  · rw [readPacket_of_ne_nil r packet hempty]
    exact receive_inBounds_iff (withOutput_tracks h packet) hframes hfresh

/-- A round of the thread stays in bounds exactly when it reads at most a frame, if what it completes
are frames of whole packets. -/
theorem iterate_inBounds_iff {t : ReceiveThread} {reader : Blocks.Reader UInt8 packetSize}
    (h : t.receiver.Tracks reader) (read : Read)
    (hframes : ∀ frame ∈ reader.completed read.received, WholePacket frame)
    (ht : t.receiver.memory.Within InBounds) :
    (t.iterate read).receiver.memory.Within InBounds ↔ read.received.length ≤ packetSize := by
  by_cases hempty : read.received = []
  · rw [iterate_empty t hempty, hempty]
    exact iff_of_true ht (Nat.zero_le _)
  · rw [iterate_received t hempty, dispatch_receiver]
    exact receive_inBounds_iff h hframes ht

namespace System

variable {σ ι ρ : Type*} {H : Host σ ι ρ} {wires : Wires} {s : System σ}

/-- The receive paths of both programs have stayed in bounds so far. -/
structure Bounded (H : Host σ ι ρ) (s : System σ) : Prop where
  alex : s.alex.receiver.memory.Within InBounds
  host : (H.thread s.host).receiver.memory.Within InBounds

/-- An event keeps the receive paths in bounds exactly when it brings at most a frame, if the lines are
faithful. -/
theorem Bounded.step_iff (h : s.Bounded H) (hlinkedDown : s.LinkedDown H wires) (hlinkedUp : s.LinkedUp H wires)
    (hfaithfulDown : s.down.Faithful) (hfaithfulUp : s.up.Faithful) (event : Event ι ρ) :
    (s.step H wires event).Bounded H ↔ (event.bytes s).length ≤ packetSize := by
  cases event with
  | host input =>
    have hthread : H.thread (H.step s.host input) = H.thread s.host := H.step_thread s.host input
    exact iff_of_true ⟨h.alex, hthread ▸ h.host⟩ (Nat.zero_le _)
  | leftPulse => exact iff_of_true ⟨h.alex, h.host⟩ (Nat.zero_le _)
  | rightPulse => exact iff_of_true ⟨h.alex, h.host⟩ (Nat.zero_le _)
  | loop guardEcho sensors recvPacket count =>
    have hread := readPacket_inBounds_iff hlinkedDown.tracks recvPacket (s.down.chunk count)
      (fun frame hframe => (hlinkedDown.isArrival hfaithfulDown hframe).wholePacket) h.alex
    have hreceiver : (s.step H wires (.loop guardEcho sensors recvPacket count)).alex.receiver =
        (readPacket s.alex.receiver recvPacket (s.down.chunk count)).2 :=
      s.alex.loop_receiver ⟨guardEcho, sensors, recvPacket, s.down.chunk count⟩
    refine Iff.trans ⟨fun hafter => ?_, fun hafter => ⟨?_, h.host⟩⟩ hread
    · exact hreceiver ▸ hafter.alex
    · exact hreceiver ▸ hafter
  | round count env =>
    have hread := iterate_inBounds_iff hlinkedUp.tracks (s.read count)
      (fun frame hframe => (hlinkedUp.isArrival hfaithfulUp hframe).wholePacket) h.host
    have hthread :
        H.thread (s.step H wires (.round count env)).host = (H.thread s.host).iterate (s.read count) :=
      H.round_thread ..
    refine Iff.trans ⟨fun hafter => ?_, fun hafter => ⟨h.alex, ?_⟩⟩ hread
    · exact hthread ▸ hafter.host
    · exact hthread ▸ hafter

/-- Over lossless wires the receive paths stay in bounds for exactly as long as every event brings at
most a frame. -/
theorem Bounded.throughout_iff (h : s.Bounded H) (hlinkedDown : s.LinkedDown H wires)
    (hlinkedUp : s.LinkedUp H wires) (hdown : wires.down.Lossless) (hup : wires.up.Lossless)
    (events : List (Event ι ρ)) :
    Run.Throughout (step H wires) (Bounded H) s events ↔
      Run.Along (step H wires) (fun s event => (event.bytes s).length ≤ packetSize) s events := by
  have hstep (s : System σ) (event : Event ι ρ)
      (hinv : s.LinkedDown H wires ∧ s.LinkedUp H wires ∧ s.Bounded H) :
      (s.step H wires event).Bounded H ↔ (event.bytes s).length ≤ packetSize :=
    hinv.2.2.step_iff hinv.1 hinv.2.1 (hinv.1.lossless hdown).faithful (hinv.2.1.lossless hup).faithful event
  apply Run.throughout_iff_along fun s => s.LinkedDown H wires ∧ s.LinkedUp H wires ∧ s.Bounded H
  · rintro s ⟨-, -, hbounded⟩
    exact hbounded
  · intro s event hinv hlen
    exact ⟨linkedDown_step hinv.1 (hinv.1.lossless hdown).faithful hlen,
      linkedUp_step hinv.2.1 (hinv.2.1.lossless hup).faithful hlen, (hstep s event hinv).mpr hlen⟩
  · intro s event hinv hafter
    exact (hstep s event hinv).mp hafter
  · exact ⟨hlinkedDown, hlinkedUp, h⟩

/-- The receive paths start in bounds when the Arduino's memory does and the host's thread starts afresh. -/
theorem bounded_start {host : σ} {cells : Obj → ℕ → UInt8} (hthread : H.thread host = ReceiveThread.start cells)
    (alexCirc : ℚ) (stack : Stack) {memory : Memory Obj UInt8} (hmemory : memory.Within InBounds) :
    (start H wires host alexCirc stack memory).Bounded H where
  alex := hmemory
  host := by
    change (H.thread host).receiver.memory.Within InBounds
    rw [hthread]
    exact fun _ h => absurd h List.not_mem_nil

end System

namespace PiSetting

variable (e : PiSetting)

/-- Over lossless wires, in every run of the Pi's program and the robot, whichever frames arrive
damaged, the receive paths of both stay inside their memory for exactly as long as every read brings at
most a frame. -/
theorem pi_in_bounds (hmemory : e.memory.Within InBounds) (hdown : e.wires.down.Lossless)
    (hup : e.wires.up.Lossless) (events : List Event) :
    Run.Throughout e.step (System.Bounded (PiProgram.host e.keyName)) e.start events ↔
      Run.Along e.step (fun s event => (event.bytes s).length ≤ packetSize) e.start events := by
  have hbounded : e.start.Bounded (PiProgram.host e.keyName) :=
    System.bounded_start rfl e.alexCirc e.stack hmemory
  exact hbounded.throughout_iff (System.linkedDown_start _ e.alexCirc e.stack e.memory)
    (System.linkedUp_start rfl e.alexCirc e.stack e.memory) hdown hup events

/-- A damaged command number takes neither program out of bounds. -/
theorem oneDamaged_pi_in_bounds :
    Run.Throughout oneDamaged.step (System.Bounded (PiProgram.host oneDamaged.keyName)) oneDamaged.start
      someEvents := by
  have hmemory : oneDamaged.memory.Within InBounds := fun _ h => absurd h List.not_mem_nil
  refine (oneDamaged.pi_in_bounds hmemory (fun _ => rfl) (fun _ => rfl) someEvents).mpr
    (Run.along_of_forall ?_ oneDamaged.start)
  intro event hevent s
  exact (fits_someEvents event hevent).bytes_length_le s

end PiSetting

namespace ListenerSetting

variable (e : ListenerSetting)

/-- Over lossless wires, in every run of the server and the robot, whatever connects and whichever
frames arrive damaged, the receive paths of both stay inside their memory for exactly as long as every
read brings at most a frame. -/
theorem server_in_bounds (hmemory : e.memory.Within InBounds) (hdown : e.wires.down.Lossless)
    (hup : e.wires.up.Lossless) (events : List Event) :
    Run.Throughout e.step (System.Bounded ListenerProgram.detailed.host) e.start events ↔
      Run.Along e.step (fun s event => (event.bytes s).length ≤ packetSize) e.start events := by
  have hbounded : e.start.Bounded ListenerProgram.detailed.host :=
    System.bounded_start rfl e.alexCirc e.stack hmemory
  exact hbounded.throughout_iff (System.linkedDown_start _ e.alexCirc e.stack e.memory)
    (System.linkedUp_start rfl e.alexCirc e.stack e.memory) hdown hup events

/-- A damaged magic number takes neither the server nor the robot out of bounds. -/
theorem oneDamaged_server_in_bounds :
    Run.Throughout oneDamaged.step (System.Bounded ListenerProgram.detailed.host) oneDamaged.start
      someEvents := by
  have hmemory : oneDamaged.memory.Within InBounds := fun _ h => absurd h List.not_mem_nil
  refine (oneDamaged.server_in_bounds hmemory (fun _ => rfl) (fun _ => rfl) someEvents).mpr
    (Run.along_of_forall ?_ oneDamaged.start)
  intro event hevent s
  exact (fits_someEvents event hevent).bytes_length_le s

end ListenerSetting

end AlexRobot
