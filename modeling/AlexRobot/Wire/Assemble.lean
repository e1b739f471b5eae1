import AlexRobot.Common.Blocks
import AlexRobot.Common.TracedMemory
import AlexRobot.Wire.Serialize

/-!
# Assembling frames from chunks

`assemble` keeps four static variables between calls and copies bytes between three
arrays. A chunk of at most one frame length leaves it remembering exactly the pending bytes
of an abstract block reader, in the private buffer or, after a completed frame, in the
leftover buffer; every index it touches is then inside the arrays.
-/

namespace AlexRobot

open TracedMemory
open TracedMemory.Memory

/-- `TResult`: what `assemble` and `deserialize` report. -/
inductive TResult
  | packetOk
  | packetBad
  | packetChecksumBad
  | packetIncomplete
  | packetComplete
  deriving DecidableEq, Repr

/-- The memory objects of the receive path: the caller's chunk, the two static arrays, and the
structure that the caller passes for the received packet. -/
inductive Obj
  | buffer
  | leftoverBuffer
  | privateBuffer
  | output
  deriving DecidableEq, Repr

/-- The static variables of `assemble` and the memory they work on.

`counter` never exceeds `PACKET_SIZE`, so natural numbers represent every difference that the
code forms. -/
structure Receiver where
  counter : ℕ
  leftoverFlag : Bool
  leftoverCount : ℕ
  memory : Memory Obj UInt8

/-- The static variables as the program starts, over any memory. -/
def Receiver.initial (memory : Memory Obj UInt8) : Receiver := ⟨0, false, 0, memory⟩

/-- `if (leftoverFlag) { ... }`: copy in the leftovers of the last transmission. -/
def copyLeftovers (r : Receiver) : Receiver :=
  if r.leftoverFlag then
    let (leftoverFlag, copyCount) :=
      if r.leftoverCount ≤ packetSize then (false, r.leftoverCount) else (true, packetSize)
    { counter := r.counter + copyCount
      leftoverFlag := leftoverFlag
      leftoverCount := r.leftoverCount - copyCount
      memory := copyLoop .privateBuffer r.counter .leftoverBuffer 0 copyCount r.memory }
  else r

/-- Set aside the bytes past the end of the frame; returns `bytesLeft`. -/
def keepSurplus (r : Receiver) (len : ℕ) : ℕ × Receiver :=
  if packetSize ≤ r.counter + len then
    let bytesLeft := packetSize - r.counter
    let bytesToCopy := len - bytesLeft
    (bytesLeft,
      { r with
        leftoverFlag := true
        leftoverCount := r.leftoverCount + bytesToCopy
        memory := copyLoop .leftoverBuffer r.leftoverCount .buffer bytesLeft bytesToCopy r.memory })
  else (len, r)

/-- `assemble`, with `_privateBuffer` as its output buffer. -/
def assemble (r : Receiver) (len : ℕ) : TResult × Receiver :=
  let r := copyLeftovers r
  let (bytesLeft, r) := keepSurplus r len
  let r := { r with
    counter := r.counter + bytesLeft
    memory := copyLoop .privateBuffer r.counter .buffer 0 bytesLeft r.memory }
  if r.counter = packetSize then (.packetComplete, { r with counter := 0 })
  else (.packetIncomplete, r)

/-- The bytes received since the last complete frame, wherever `assemble` keeps them. -/
def Receiver.pending (r : Receiver) : List UInt8 :=
  if r.leftoverFlag then r.memory.window .leftoverBuffer 0 r.leftoverCount
  else r.memory.window .privateBuffer 0 r.counter

/-- What holds between calls: leftovers follow a complete frame, otherwise the frame in progress
is in the private buffer; either way less than a frame is pending. -/
structure Receiver.WellFormed (r : Receiver) : Prop where
  flagged : r.leftoverFlag = true → r.counter = 0 ∧ r.leftoverCount < packetSize
  unflagged : r.leftoverFlag = false → r.counter < packetSize ∧ r.leftoverCount = 0

/-- The static variables of `assemble` start well formed. -/
theorem Receiver.initial_wellFormed (memory : Memory Obj UInt8) : (initial memory).WellFormed where
  flagged h := nomatch h
  unflagged _ := ⟨Nat.zero_lt_succ _, rfl⟩

/-- Nothing is pending in the static variables as they start. -/
theorem Receiver.initial_pending (memory : Memory Obj UInt8) : (initial memory).pending = [] := rfl

/-- Less than a frame is pending between two calls. -/
theorem Receiver.WellFormed.pending_length_lt {r : Receiver} (h : r.WellFormed) :
    r.pending.length < packetSize := by
  rw [Receiver.pending]
  split
  · rename_i hflag
    rw [window_length]
    exact (h.flagged hflag).2
  · rename_i hflag
    rw [window_length]
    exact (h.unflagged (Bool.eq_false_iff.mpr hflag)).1

/-- The leftover buffer never retains a whole frame between calls. -/
theorem Receiver.WellFormed.leftoverCount_lt {r : Receiver} (h : r.WellFormed) :
    r.leftoverCount < packetSize := by
  cases hflag : r.leftoverFlag with
  | true => exact (h.flagged hflag).2
  | false =>
    rw [(h.unflagged hflag).2]
    decide

/-- What `assemble` needs to take the leftovers in at once: at most a frame of them. -/
structure Receiver.Ready (r : Receiver) : Prop where
  flagged : r.leftoverFlag = true → r.counter = 0 ∧ r.leftoverCount ≤ packetSize
  unflagged : r.leftoverFlag = false → r.counter < packetSize ∧ r.leftoverCount = 0

/-- A well-formed receiver is ready to take its leftovers in at once. -/
theorem Receiver.WellFormed.ready {r : Receiver} (h : r.WellFormed) : r.Ready where
  flagged hflag := (h.flagged hflag).imp_right Nat.le_of_lt
  unflagged := h.unflagged

/-- At most a frame is pending when the receiver is ready. -/
theorem Receiver.Ready.pending_length_le {r : Receiver} (h : r.Ready) :
    r.pending.length ≤ packetSize := by
  rw [Receiver.pending]
  split
  · rename_i hflag
    rw [window_length]
    exact (h.flagged hflag).2
  · rename_i hflag
    rw [window_length]
    exact (h.unflagged (Bool.eq_false_iff.mpr hflag)).1.le

/-- The receiver remembers the same bytes as an abstract reader of frames. -/
structure Receiver.Tracks (r : Receiver) (reader : Blocks.Reader UInt8 packetSize) : Prop where
  wellFormed : r.WellFormed
  pending_eq : r.pending = reader.pending

/-- Memory outside the frame being assembled: the chunk, the output, and whatever follows the
private buffer. -/
structure SameOutside (m m' : Memory Obj UInt8) : Prop where
  buffer : m'.cells .buffer = m.cells .buffer
  output : m'.cells .output = m.cells .output
  beyond : ∀ i, packetSize ≤ i → m'.cells .privateBuffer i = m.cells .privateBuffer i

/-- Two steps in a row that change nothing outside the frame change nothing there together. -/
theorem SameOutside.trans {m₁ m₂ m₃ : Memory Obj UInt8} (h : SameOutside m₁ m₂)
    (h' : SameOutside m₂ m₃) : SameOutside m₁ m₃ where
  buffer := h'.buffer.trans h.buffer
  output := h'.output.trans h.output
  beyond i hi := (h'.beyond i hi).trans (h.beyond i hi)

/-- The chunk in the caller's buffer stays as it was. -/
theorem SameOutside.window_buffer {m m' : Memory Obj UInt8} (h : SameOutside m m') (first n : ℕ) :
    m'.window .buffer first n = m.window .buffer first n :=
  window_congr fun _ _ => congrFun h.buffer _

/-- Writing into the frame leaves the rest of memory alone. -/
theorem sameOutside_copy_private {src : Obj} (h : src ≠ .privateBuffer) {d s n : ℕ}
    (hd : d + n ≤ packetSize) (m : Memory Obj UInt8) :
    SameOutside m (copyLoop .privateBuffer d src s n m) where
  buffer := cells_copyLoop_of_ne (by decide) ..
  output := cells_copyLoop_of_ne (by decide) ..
  beyond i hi := by rw [cells_copyLoop h, if_neg (by omega)]

/-- Setting leftovers aside leaves the rest of memory alone. -/
theorem sameOutside_copy_leftover (d s n : ℕ) (m : Memory Obj UInt8) :
    SameOutside m (copyLoop .leftoverBuffer d .buffer s n m) where
  buffer := cells_copyLoop_of_ne (by decide) ..
  output := cells_copyLoop_of_ne (by decide) ..
  beyond i _ := congrFun (cells_copyLoop_of_ne (by decide) ..) i

/-- After copying in the leftovers the pending bytes are the front of the private buffer. -/
theorem copyLeftovers_spec {r : Receiver} (h : r.Ready) :
    (copyLeftovers r).leftoverFlag = false ∧ (copyLeftovers r).leftoverCount = 0 ∧
      (copyLeftovers r).counter = r.pending.length ∧
      (copyLeftovers r).memory.window .privateBuffer 0 r.pending.length = r.pending ∧
      SameOutside r.memory (copyLeftovers r).memory := by
  unfold copyLeftovers Receiver.pending
  cases hflag : r.leftoverFlag with
  | true =>
    obtain ⟨hcounter, hcount⟩ := h.flagged hflag
    simp only [if_true, if_pos hcount, window_length, hcounter, Nat.zero_add, Nat.sub_self, true_and]
    exact ⟨window_copyLoop (by decide) .., sameOutside_copy_private (by decide) (by omega) _⟩
  | false =>
    obtain ⟨hcounter, hcount⟩ := h.unflagged hflag
    simp only [Bool.false_eq_true, if_false, window_length, hflag, hcount, true_and]
    exact ⟨rfl, rfl, fun _ _ => rfl⟩

/-- What `assemble` computes when the chunk does not reach the end of the frame. -/
theorem assemble_of_short {r : Receiver} (h : r.Ready) {len : ℕ}
    (hshort : r.pending.length + len < packetSize) :
    assemble r len = (.packetIncomplete, {
      counter := r.pending.length + len
      leftoverFlag := false
      leftoverCount := 0
      memory := copyLoop .privateBuffer r.pending.length .buffer 0 len (copyLeftovers r).memory }) := by
  obtain ⟨hflag, hcount, hcounter, -, -⟩ := copyLeftovers_spec h
  have hkeep : keepSurplus (copyLeftovers r) len = (len, copyLeftovers r) := by
    rw [keepSurplus, if_neg (by omega)]
  have hne : r.pending.length + len ≠ packetSize := by omega
  simp only [assemble, hkeep, hcounter, hflag, hcount, if_neg hne]

/-- What `assemble` computes when `bytesLeft` bytes of the chunk reach the end of the frame. -/
theorem assemble_of_long {r : Receiver} (h : r.Ready) {len bytesLeft : ℕ}
    (hlong : packetSize ≤ r.pending.length + len) (hleft : r.pending.length + bytesLeft = packetSize) :
    assemble r len = (.packetComplete, {
      counter := 0
      leftoverFlag := true
      leftoverCount := len - bytesLeft
      memory := copyLoop .privateBuffer r.pending.length .buffer 0 bytesLeft
        (copyLoop .leftoverBuffer 0 .buffer bytesLeft (len - bytesLeft) (copyLeftovers r).memory) }) := by
  obtain ⟨-, hcount, hcounter, -, -⟩ := copyLeftovers_spec h
  have hrest : packetSize - r.pending.length = bytesLeft := by omega
  simp only [assemble, keepSurplus, hcounter, if_pos hlong, hrest, hleft, if_true, hcount, Nat.zero_add]

/-- A chunk that does not reach the end of the frame is appended to the pending bytes. -/
theorem assemble_incomplete {r : Receiver} (h : r.Ready) {len : ℕ}
    (hshort : r.pending.length + len < packetSize) :
    (assemble r len).1 = .packetIncomplete ∧ (assemble r len).2.WellFormed ∧
      (assemble r len).2.pending = r.pending ++ r.memory.window .buffer 0 len ∧
      SameOutside r.memory (assemble r len).2.memory := by
  obtain ⟨-, -, -, hwindow, hsame⟩ := copyLeftovers_spec h
  rw [assemble_of_short h hshort]
  refine ⟨rfl, ⟨nofun, fun _ => ⟨hshort, rfl⟩⟩, ?_, ?_⟩
  · simp only [Receiver.pending, Bool.false_eq_true, if_false]
    rw [← Receiver.pending, window_copyLoop_extend (by decide), hwindow, hsame.window_buffer]
  · exact hsame.trans (sameOutside_copy_private (by decide) hshort.le _)

/-- A chunk that reaches the end of the frame completes it and leaves the rest in the leftover
buffer. -/
theorem assemble_reaches {r : Receiver} (h : r.Ready) {len : ℕ}
    (hlong : packetSize ≤ r.pending.length + len) :
    (assemble r len).1 = .packetComplete ∧ (assemble r len).2.leftoverFlag = true ∧
      (assemble r len).2.counter = 0 ∧
      (assemble r len).2.leftoverCount = r.pending.length + len - packetSize ∧
      (assemble r len).2.memory.window .privateBuffer 0 packetSize =
        (r.pending ++ r.memory.window .buffer 0 len).take packetSize ∧
      (assemble r len).2.pending = (r.pending ++ r.memory.window .buffer 0 len).drop packetSize ∧
      SameOutside r.memory (assemble r len).2.memory := by
  have hpending := h.pending_length_le
  obtain ⟨-, -, -, hwindow, hsame⟩ := copyLeftovers_spec h
  obtain ⟨bytesLeft, hleft⟩ := Nat.exists_eq_add_of_le hpending
  have hchunk : bytesLeft ≤ len := by omega
  have hrest : packetSize - r.pending.length = bytesLeft := by omega
  rw [assemble_of_long h hlong hleft.symm]
  refine ⟨rfl, rfl, rfl, ?_, ?_, ?_, ?_⟩
  · change len - bytesLeft = _
    omega
  · -- The frame is the pending bytes followed by the first bytes of the chunk.
    rw [List.take_append, List.take_of_length_le hpending, hrest, take_window _ _ _ hchunk, hleft,
      window_copyLoop_extend (by decide), window_copyLoop_of_ne (by decide),
      window_copyLoop_of_ne (by decide), hwindow, hsame.window_buffer]
  · -- The rest of the chunk is in the leftover buffer.
    rw [List.drop_append, List.drop_of_length_le hpending, List.nil_append, hrest,
      drop_window _ _ _ hchunk, Nat.zero_add]
    simp only [Receiver.pending, if_true]
    rw [window_copyLoop_of_ne (by decide), window_copyLoop (by decide), hsame.window_buffer]
  · exact (hsame.trans (sameOutside_copy_leftover ..)).trans
      (sameOutside_copy_private (by decide) hleft.ge _)

/-- A chunk of at most a frame length that completes the frame leaves less than a frame pending. -/
theorem assemble_complete {r : Receiver} (h : r.WellFormed) {len : ℕ} (hlen : len ≤ packetSize)
    (hlong : packetSize ≤ r.pending.length + len) :
    (assemble r len).1 = .packetComplete ∧ (assemble r len).2.WellFormed ∧
      (assemble r len).2.memory.window .privateBuffer 0 packetSize =
        (r.pending ++ r.memory.window .buffer 0 len).take packetSize ∧
      (assemble r len).2.pending = (r.pending ++ r.memory.window .buffer 0 len).drop packetSize ∧
      SameOutside r.memory (assemble r len).2.memory := by
  have hpending := h.pending_length_lt
  obtain ⟨hresult, hflag, hcounter, hcount, hrest⟩ := assemble_reaches h.ready hlong
  refine ⟨hresult, ⟨fun _ => ⟨hcounter, ?_⟩, fun hclear => ?_⟩, hrest⟩
  · omega
  · exact absurd (hflag.symm.trans hclear) Bool.false_ne_true.symm

/-- `assemble` simulates the abstract reader: it reports a complete frame exactly when the chunk
completes one, and then that frame is in the private buffer. -/
theorem assemble_tracks {r : Receiver} {reader : Blocks.Reader UInt8 packetSize} (h : r.Tracks reader)
    {len : ℕ} (hlen : len ≤ packetSize) {chunk : List UInt8}
    (hchunk : r.memory.window .buffer 0 len = chunk) :
    (assemble r len).2.Tracks (reader.feed chunk) ∧ SameOutside r.memory (assemble r len).2.memory ∧
      ((reader.completed chunk = [] ∧ (assemble r len).1 = .packetIncomplete) ∨
        (reader.completed chunk = [(assemble r len).2.memory.window .privateBuffer 0 packetSize] ∧
          (assemble r len).1 = .packetComplete)) := by
  have hchunkLength : chunk.length = len := by rw [← hchunk, window_length]
  by_cases hshort : r.pending.length + len < packetSize
  · obtain ⟨hresult, hwf, hpending, hsame⟩ := assemble_incomplete h.wellFormed.ready hshort
    rw [hchunk, h.pending_eq] at hpending
    have hlt : (reader.pending ++ chunk).length < packetSize := by
      rw [List.length_append, hchunkLength, ← h.pending_eq]
      exact hshort
    exact ⟨⟨hwf, hpending.trans (Blocks.remainder_of_lt hlt).symm⟩, hsame,
      Or.inl ⟨Blocks.blocks_of_lt hlt, hresult⟩⟩
  · obtain ⟨hresult, hwf, hframe, hpending, hsame⟩ :=
      assemble_complete h.wellFormed hlen (Nat.le_of_not_lt hshort)
    rw [hchunk, h.pending_eq] at hpending hframe
    have hge : packetSize ≤ (reader.pending ++ chunk).length := by
      rw [List.length_append, hchunkLength, ← h.pending_eq]
      exact Nat.le_of_not_lt hshort
    obtain ⟨hblocks, hremainder⟩ :=
      Blocks.blocks_pending_append reader.short (hchunkLength.le.trans hlen) hge
    exact ⟨⟨hwf, hpending.trans hremainder.symm⟩, hsame,
      Or.inr ⟨hblocks.trans (congrArg (fun frame => [frame]) hframe.symm), hresult⟩⟩

/-- The memory after `assemble`: what its last loop makes of the memory it starts from. -/
theorem assemble_memory (r : Receiver) (len : ℕ) :
    (assemble r len).2.memory =
      copyLoop .privateBuffer (keepSurplus (copyLeftovers r) len).2.counter .buffer 0
        (keepSurplus (copyLeftovers r) len).1 (keepSurplus (copyLeftovers r) len).2.memory := by
  simp only [assemble]
  split <;> rfl

/-- `assemble` only adds accesses to the trace, so those before it stay within bounds. -/
theorem within_of_assemble {P : Access Obj → Prop} {r : Receiver} {len : ℕ}
    (h : (assemble r len).2.memory.Within P) : r.memory.Within P := by
  rw [assemble_memory] at h
  have hkept : (keepSurplus (copyLeftovers r) len).2.memory.Within P := ((within_copyLoop ..).mp h).1
  have hleftovers : (copyLeftovers r).memory.Within P := by
    unfold keepSurplus at hkept
    split at hkept
    · exact ((within_copyLoop ..).mp hkept).1
    · exact hkept
  unfold copyLeftovers at hleftovers
  split at hleftovers
  · exact ((within_copyLoop ..).mp hleftovers).1
  · exact hleftovers

/-- Copying the leftovers in stays inside the two static arrays. -/
theorem copyLeftovers_within {P : Access Obj → Prop}
    (hP : ∀ object kind index, index < packetSize → P ⟨object, kind, index⟩)
    {r : Receiver} (h : r.WellFormed) (hr : r.memory.Within P) : (copyLeftovers r).memory.Within P := by
  unfold copyLeftovers
  cases hflag : r.leftoverFlag with
  | true =>
    obtain ⟨hcounter, hcount⟩ := h.flagged hflag
    simp only [if_true, if_pos hcount.le]
    exact (within_copyLoop ..).mpr ⟨hr, fun k hk => ⟨hP _ _ _ (by omega), hP _ _ _ (by omega)⟩⟩
  | false => exact hr

/-- Setting the surplus aside stays inside the arrays, and leaves room for the bytes it returns. -/
theorem keepSurplus_within {P : Access Obj → Prop}
    (hP : ∀ object kind index, index < packetSize → P ⟨object, kind, index⟩)
    {r : Receiver} (hcount : r.leftoverCount = 0) {len : ℕ} (hlen : len ≤ packetSize)
    (hr : r.memory.Within P) :
    (keepSurplus r len).2.memory.Within P ∧ (keepSurplus r len).2.counter = r.counter ∧
      (keepSurplus r len).1 ≤ packetSize - r.counter := by
  unfold keepSurplus
  by_cases hreach : packetSize ≤ r.counter + len
  · simp only [if_pos hreach]
    exact ⟨(within_copyLoop ..).mpr ⟨hr, fun k hk => ⟨hP _ _ _ (by omega), hP _ _ _ (by omega)⟩⟩,
      trivial, le_rfl⟩
  · simp only [if_neg hreach]
    exact ⟨hr, trivial, by omega⟩

/-- With chunks of at most a frame, every access of `assemble` is inside the arrays. -/
theorem assemble_within {P : Access Obj → Prop}
    (hP : ∀ object kind index, index < packetSize → P ⟨object, kind, index⟩)
    {r : Receiver} (h : r.WellFormed) {len : ℕ} (hlen : len ≤ packetSize) (hr : r.memory.Within P) :
    (assemble r len).2.memory.Within P := by
  obtain ⟨-, hcount, -, -, -⟩ := copyLeftovers_spec h.ready
  obtain ⟨hkept, hcounter, hroom⟩ := keepSurplus_within hP hcount hlen (copyLeftovers_within hP h hr)
  rw [assemble_memory, hcounter]
  exact (within_copyLoop ..).mpr ⟨hkept, fun k hk => ⟨hP _ _ _ (by omega), hP _ _ _ (by omega)⟩⟩

end AlexRobot
