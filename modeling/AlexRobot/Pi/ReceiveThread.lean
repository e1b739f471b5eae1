import AlexRobot.Common.Run
import AlexRobot.Wire.Resync

/-!
# The Pi's receive thread

`serialRead` may store up to `MAX_BUFFER_LEN` bytes in the thread's `buffer[PACKET_SIZE]`.
Reads of at most one frame keep every index of the receive path inside its array, and one
longer read already writes past the caller's buffer: the relation between the two constants
is exactly what the bounds need.
-/

namespace AlexRobot

open TracedMemory
open TracedMemory.Memory

/-- `MAX_BUFFER_LEN`: the size of the buffers of the serial port, in bytes. -/
def maxBufferLen : ℕ := 1024

/-- `Read`: what `read` on the serial port does, which is to fail or to store some bytes. A port that is
not open gives no bytes. -/
inductive Read
  | failed
  | bytes (chunk : { chunk : List UInt8 // chunk.length ≤ maxBufferLen })

/-- `Read.received`: the bytes that a read brings, none where it failed. -/
def Read.received : Read → List UInt8
  | .failed => []
  | .bytes chunk => chunk.val

/-- `serialRead`: the length it returns, and the memory with the bytes in the caller's buffer. -/
def serialRead (m : Memory Obj UInt8) : Read → ℤ × Memory Obj UInt8
  | .failed => (-1, m)
  | .bytes chunk => (chunk.val.length, store .buffer 0 chunk.val m)

/-- The thread: the receiver, whose output is the thread's own `packet`, the packets passed to
`handlePacket`, and the results passed to `handleError`. -/
structure ReceiveThread where
  receiver : Receiver
  handled : List TPacket
  errors : List TResult

/-- The thread as it starts, over any memory contents and with nothing accessed. -/
def ReceiveThread.start (cells : Obj → ℕ → UInt8) : ReceiveThread :=
  ⟨Receiver.initial ⟨cells, []⟩, [], []⟩

/-- `dispatch`: what the thread does with the result of `deserialize`. -/
def ReceiveThread.dispatch (t : ReceiveThread) (result : TResult) (receiver : Receiver) : ReceiveThread :=
  if result = .packetOk then
    { t with receiver := receiver, handled := t.handled ++ [TPacket.ofCells receiver.output] }
  else if result ≠ .packetIncomplete then
    { t with receiver := receiver, errors := t.errors ++ [result] }
  else { t with receiver := receiver }

/-- `iterate`: one round of the loop of `receiveThread`. -/
def ReceiveThread.iterate (t : ReceiveThread) (input : Read) : ReceiveThread :=
  let (len, memory) := serialRead t.receiver.memory input
  if 0 < len then
    let (result, receiver) := deserialize { t.receiver with memory := memory } len.toNat
    t.dispatch result receiver
  else { t with receiver := { t.receiver with memory := memory } }

/-- The accesses that the declared array sizes allow: writes to the three arrays and reads of the
leftovers. -/
def InArrays (access : Access Obj) : Prop :=
  match access.object, access.kind with
  | .buffer, .write | .leftoverBuffer, _ | .privateBuffer, .write => access.index < packetSize
  | _, _ => True

/-- An index inside a frame is within the bounds of every array of the program. -/
theorem inArrays_of_lt (object : Obj) (kind : Kind) (index : ℕ) (h : index < packetSize) :
    InArrays ⟨object, kind, index⟩ := by
  cases object <;> cases kind <;> first | exact h | exact trivial

/-- Extracting a packet from a frame accesses no array outside its bounds if nothing did before. -/
theorem extractComms_inArrays (r : Receiver) :
    (extractComms r).2.memory.Within InArrays ↔ r.memory.Within InArrays := by
  rw [extractComms_within]
  exact ⟨fun h => h.1, fun h => ⟨h, fun _ _ _ => trivial, fun _ _ _ => trivial⟩⟩

/-- A call of `deserialize` is judged by its call of `assemble`. -/
theorem deserialize_inArrays (r : Receiver) (len : ℕ) :
    (deserialize r len).2.memory.Within InArrays ↔ (assemble r len).2.memory.Within InArrays := by
  by_cases hcomplete : (assemble r len).1 = .packetComplete
  · rw [deserialize_of_complete hcomplete, extractComms_inArrays]
  · simp only [deserialize, hcomplete, if_false]

/-- A round of the thread whose read brings no bytes leaves the thread as it is. -/
theorem iterate_empty (t : ReceiveThread) {input : Read} (h : input.received = []) :
    t.iterate input = t := by
  cases input with
  | failed => rfl
  | bytes chunk =>
    obtain ⟨_, _⟩ := chunk
    cases h
    rfl

/-- A round with bytes is one call of `deserialize` on them. -/
theorem iterate_received (t : ReceiveThread) {input : Read} (h : input.received ≠ []) :
    t.iterate input =
      t.dispatch (t.receiver.receive input.received).1 (t.receiver.receive input.received).2 := by
  cases input with
  | failed => exact absurd rfl h
  | bytes chunk =>
    have hpos : (0 : ℤ) < chunk.val.length := Int.natCast_pos.mpr (List.length_pos_iff.mpr h)
    exact if_pos hpos

/-- `dispatch` leaves the receiver of the thread as it was given. -/
@[simp] theorem dispatch_receiver (t : ReceiveThread) (result : TResult) (receiver : Receiver) :
    (t.dispatch result receiver).receiver = receiver := by
  unfold ReceiveThread.dispatch
  split
  · rfl
  · split <;> rfl

/-- A round feeds the bytes of its read to the receiver. -/
theorem iterate_tracks {t : ReceiveThread} {reader : Blocks.Reader UInt8 packetSize}
    (h : t.receiver.Tracks reader) {input : Read} (hlen : input.received.length ≤ packetSize) :
    (t.iterate input).receiver.Tracks (reader.feed input.received) := by
  by_cases hempty : input.received = []
  · rw [iterate_empty t hempty, hempty, reader.feed_nil]
    exact h
  · rw [iterate_received t hempty, dispatch_receiver]
    exact (receive_spec h hlen).1

/-- The rounds of the thread simulate the abstract reader. -/
theorem after_iterate_tracks {t : ReceiveThread} {reader : Blocks.Reader UInt8 packetSize}
    (h : t.receiver.Tracks reader) {inputs : List Read}
    (hlen : ∀ input ∈ inputs, input.received.length ≤ packetSize) :
    (Run.after ReceiveThread.iterate t inputs).receiver.Tracks
      (reader.feedAll (inputs.map Read.received)) := by
  apply Run.after_simulates (fun (t : ReceiveThread) reader => t.receiver.Tracks reader) Read.received
  · intro t reader input htracks hinput
    exact iterate_tracks htracks hinput
  · exact h
  · exact hlen

/-- `Sound`: what holds of the thread after every round, if each read fitted a frame. -/
structure ReceiveThread.Sound (t : ReceiveThread) : Prop where
  within : t.receiver.memory.Within InArrays
  wellFormed : t.receiver.WellFormed

/-- `start` gives a thread that is sound, as no array was accessed. -/
theorem start_sound (cells : Obj → ℕ → UInt8) : (ReceiveThread.start cells).Sound where
  within _ h := absurd h List.not_mem_nil
  wellFormed := Receiver.initial_wellFormed _

/-- A read of at most one frame keeps the thread sound. -/
theorem iterate_sound {t : ReceiveThread} (h : t.Sound) {input : Read}
    (hlen : input.received.length ≤ packetSize) : (t.iterate input).Sound := by
  have htracks : t.receiver.Tracks ⟨t.receiver.pending, h.wellFormed.pending_length_lt⟩ :=
    ⟨h.wellFormed, rfl⟩
  refine ⟨?_, (iterate_tracks htracks hlen).wellFormed⟩
  by_cases hempty : input.received = []
  · rw [iterate_empty t hempty]
    exact h.within
  · rw [iterate_received t hempty, dispatch_receiver, Receiver.receive, deserialize_inArrays]
    have hstored : (store .buffer 0 input.received t.receiver.memory).Within InArrays :=
      (within_store ..).mpr ⟨h.within, fun k hk => inArrays_of_lt _ _ _ (by omega)⟩
    have hwell : Receiver.WellFormed
        { t.receiver with memory := store .buffer 0 input.received t.receiver.memory } :=
      ⟨h.wellFormed.flagged, h.wellFormed.unflagged⟩
    exact assemble_within inArrays_of_lt hwell hlen hstored

/-- A read of more than one frame writes past the caller's buffer. -/
theorem received_length_le {t : ReceiveThread} {input : Read}
    (h : (t.iterate input).receiver.memory.Within InArrays) :
    input.received.length ≤ packetSize := by
  apply Nat.le_of_not_lt
  intro hlong
  have hne : input.received ≠ [] := List.length_pos_iff.mp (Nat.zero_lt_of_lt hlong)
  rw [iterate_received t hne, dispatch_receiver, Receiver.receive, deserialize_inArrays] at h
  have hstored : (store .buffer 0 input.received t.receiver.memory).Within InArrays :=
    within_of_assemble h
  have hlast := ((within_store ..).mp hstored).2 packetSize hlong
  rw [Nat.zero_add] at hlast
  exact lt_irrefl packetSize hlast

/-- One read of 141 bytes makes the thread write behind the end of its buffer. -/
theorem receiveThread_bounds_refuted :
    ¬ ∀ (cells : Obj → ℕ → UInt8) (inputs : List Read), Run.Throughout ReceiveThread.iterate
      (fun t => t.receiver.memory.Within InArrays) (ReceiveThread.start cells) inputs := by
  intro hclaim
  have hlength : (List.replicate 141 (0 : UInt8)).length ≤ maxBufferLen := by
    rw [List.length_replicate]
    decide
  have hrun := hclaim (fun _ _ => 0) [.bytes ⟨List.replicate 141 0, hlength⟩]
  have hshort := received_length_le hrun.2
  rw [Read.received, List.length_replicate] at hshort
  exact absurd hshort (by decide)

/-- The receive path stays inside its arrays throughout a run exactly when no read returns more
bytes than a frame. -/
theorem receiveThread_bounds (cells : Obj → ℕ → UInt8) (inputs : List Read) :
    Run.Throughout ReceiveThread.iterate (fun t => t.receiver.memory.Within InArrays)
        (ReceiveThread.start cells) inputs ↔
      ∀ input ∈ inputs, (serialRead ⟨cells, []⟩ input).1 ≤ packetSize := by
  have hsize (input : Read) :
      (serialRead ⟨cells, []⟩ input).1 ≤ packetSize ↔ input.received.length ≤ packetSize := by
    cases input with
    | failed => exact iff_of_true (by change (-1 : ℤ) ≤ 140; decide) (Nat.zero_le _)
    | bytes chunk => exact Int.ofNat_le
  have hrun : Run.Throughout ReceiveThread.iterate (fun t => t.receiver.memory.Within InArrays)
      (ReceiveThread.start cells) inputs ↔ Run.Along ReceiveThread.iterate
        (fun _ input => input.received.length ≤ packetSize) (ReceiveThread.start cells) inputs := by
    apply Run.throughout_iff_along ReceiveThread.Sound
    · intro t h
      exact h.within
    · intro t input h hlen
      exact iterate_sound h hlen
    · intro t input _ h
      exact received_length_le h
    · exact start_sound cells
  rw [hrun, Run.along_iff_forall]
  simp only [hsize]

end AlexRobot
