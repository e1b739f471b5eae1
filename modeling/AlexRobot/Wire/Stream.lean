import AlexRobot.Wire.Deserialize

/-!
# Deserializing a stream

The caller stores each chunk it receives in its own buffer and passes it to `deserialize`.
Over a whole run the calls that do not report an incomplete packet are exactly the verdicts
on the 140-byte blocks of the stream, in order, whatever the chunk boundaries: the static
variables and the arrays matter only through the bytes they hold back.
-/

namespace AlexRobot

open Bytes
open TracedMemory
open TracedMemory.Memory

/-- The cells from the private buffer on, when it holds the given frame. -/
def frameCells (beyond : ℕ → UInt8) (frame : List UInt8) : ℕ → UInt8 := fun i => frame.getD i (beyond i)

/-- The cells from the private buffer on; the receive path never writes those past its end. -/
def Receiver.beyond (r : Receiver) : ℕ → UInt8 := r.memory.cells .privateBuffer

/-- One call of `deserialize`: the caller's buffer holds the chunk. -/
def Receiver.receive (r : Receiver) (chunk : List UInt8) : TResult × Receiver :=
  deserialize { r with memory := store .buffer 0 chunk r.memory } chunk.length

/-- The receiver after several chunks, one after another. -/
def Receiver.receiveChunks (r : Receiver) (chunks : List (List UInt8)) : Receiver :=
  chunks.foldl (fun r chunk => (r.receive chunk).2) r

/-- The result of every call, with the receiver it leaves. -/
def Receiver.calls : Receiver → List (List UInt8) → List (TResult × Receiver)
  | _, [] => []
  | r, chunk :: rest => r.receive chunk :: Receiver.calls (r.receive chunk).2 rest

/-- The calls that report anything but an incomplete packet, with the caller's structure after
each. -/
def Receiver.reports (r : Receiver) (chunks : List (List UInt8)) : List (TResult × (ℕ → UInt8)) :=
  ((r.calls chunks).filter fun call => call.1 ≠ .packetIncomplete).map fun call => (call.1, call.2.output)

/-- The reports that a sequence of frames calls for, one for each frame. -/
def frameReports (beyond : ℕ → UInt8) (out : ℕ → UInt8) :
    List (List UInt8) → List (TResult × (ℕ → UInt8))
  | [] => []
  | frame :: rest =>
    (verdict (frameCells beyond frame), delivered (frameCells beyond frame) out) ::
      frameReports beyond (delivered (frameCells beyond frame) out) rest

/-- Of the cells beyond a full frame only those past the private buffer matter. -/
theorem frameCells_congr {beyond beyond' : ℕ → UInt8}
    (h : ∀ i, packetSize ≤ i → beyond i = beyond' i) {frame : List UInt8}
    (hframe : frame.length = packetSize) : frameCells beyond frame = frameCells beyond' frame := by
  funext i
  rcases Nat.lt_or_ge i frame.length with hi | hi
  · rw [frameCells, frameCells, List.getD_eq_getElem _ _ hi, List.getD_eq_getElem _ _ hi]
  · rw [frameCells, frameCells, List.getD_eq_default _ _ hi, List.getD_eq_default _ _ hi,
      h i (hframe.ge.trans hi)]

/-- A frame in the private buffer is what the cast sees. -/
theorem frameCells_window (m : Memory Obj UInt8) :
    frameCells (m.cells .privateBuffer) (m.window .privateBuffer 0 packetSize) =
      m.cells .privateBuffer := by
  funext i
  rcases Nat.lt_or_ge i (m.window .privateBuffer 0 packetSize).length with hi | hi
  · rw [frameCells, List.getD_eq_getElem _ _ hi, window_getElem, Nat.zero_add]
  · rw [frameCells, List.getD_eq_default _ _ hi]

/-- What a receiver tracks is decided by its static variables and its two arrays alone. -/
theorem Receiver.Tracks.congr {r r' : Receiver} {reader : Blocks.Reader UInt8 packetSize}
    (h : r.Tracks reader) (hcounter : r'.counter = r.counter)
    (hflag : r'.leftoverFlag = r.leftoverFlag) (hcount : r'.leftoverCount = r.leftoverCount)
    (hleftover : r'.memory.cells .leftoverBuffer = r.memory.cells .leftoverBuffer)
    (hprivate : r'.memory.cells .privateBuffer = r.memory.cells .privateBuffer) : r'.Tracks reader where
  wellFormed :=
    { flagged := fun hf => by
        rw [hcounter, hcount]
        exact h.wellFormed.flagged (hflag ▸ hf)
      unflagged := fun hf => by
        rw [hcounter, hcount]
        exact h.wellFormed.unflagged (hflag ▸ hf) }
  pending_eq := by
    rw [← h.pending_eq]
    simp only [Receiver.pending, window, hcounter, hflag, hcount, hleftover, hprivate]

/-- One call on a chunk of at most a frame: it simulates the abstract reader, reports the verdict
on the frame it completes, if any, and leaves the caller's structure alone otherwise. -/
theorem receive_spec {r : Receiver} {reader : Blocks.Reader UInt8 packetSize} (h : r.Tracks reader)
    {chunk : List UInt8} (hlen : chunk.length ≤ packetSize) :
    (r.receive chunk).2.Tracks (reader.feed chunk) ∧
      (∀ i, packetSize ≤ i → (r.receive chunk).2.beyond i = r.beyond i) ∧
      ((reader.completed chunk = [] ∧ (r.receive chunk).1 = .packetIncomplete ∧
          (r.receive chunk).2.output = r.output) ∨
        ∃ frame, reader.completed chunk = [frame] ∧
          (r.receive chunk).1 = verdict (frameCells r.beyond frame) ∧
          (r.receive chunk).2.output = delivered (frameCells r.beyond frame) r.output) := by
  let r₀ : Receiver := { r with memory := store .buffer 0 chunk r.memory }
  have hstore (object : Obj) (ho : object ≠ .buffer) : r₀.memory.cells object = r.memory.cells object := by
    funext i
    exact (cells_store ..).trans (dif_neg fun hi => ho hi.1)
  have htracks : r₀.Tracks reader :=
    h.congr rfl rfl rfl (hstore _ (by decide)) (hstore _ (by decide))
  obtain ⟨hnext, hsame, hcases⟩ := assemble_tracks htracks hlen (window_store .buffer chunk r.memory)
  have hoAssemble : (assemble r₀ chunk.length).2.output = r.output := hsame.output.trans (hstore _ (by decide))
  have hbeyond (i : ℕ) (hi : packetSize ≤ i) : (assemble r₀ chunk.length).2.beyond i = r.beyond i :=
    (hsame.beyond i hi).trans (congrFun (hstore _ (by decide)) i)
  rcases hcases with ⟨hnone, hresult⟩ | ⟨hone, hresult⟩
  · have hreceive : r.receive chunk = assemble r₀ chunk.length := deserialize_of_incomplete hresult
    rw [hreceive]
    exact ⟨hnext, hbeyond, Or.inl ⟨hnone, hresult, hoAssemble⟩⟩
  · have hreceive : r.receive chunk = extractComms (assemble r₀ chunk.length).2 :=
      deserialize_of_complete hresult
    obtain ⟨hverdict, hout, hrest⟩ := extractComms_spec (assemble r₀ chunk.length).2
    have hframe := Blocks.length_of_mem_blocks (List.mem_of_mem_head? (congrArg List.head? hone))
    have hcells : frameCells r.beyond ((assemble r₀ chunk.length).2.memory.window .privateBuffer 0
        packetSize) = (assemble r₀ chunk.length).2.memory.cells .privateBuffer := by
      rw [← frameCells_congr hbeyond hframe]
      exact frameCells_window _
    rw [hreceive]
    refine ⟨hnext.congr hrest.counter hrest.leftoverFlag hrest.leftoverCount
      (hrest.cells _ (by decide)) (hrest.cells _ (by decide)), fun i hi => ?_, Or.inr ⟨_, hone, ?_, ?_⟩⟩
    · exact (congrFun (hrest.cells _ (by decide)) i).trans (hbeyond i hi)
    · rw [hcells, hverdict]
    · rw [hcells, hout, hoAssemble]

/-- A run of calls simulates the abstract reader fed with the same chunks. -/
theorem receiveChunks_tracks {r : Receiver} {reader : Blocks.Reader UInt8 packetSize}
    (h : r.Tracks reader) {chunks : List (List UInt8)} (hlen : ∀ c ∈ chunks, c.length ≤ packetSize) :
    (r.receiveChunks chunks).Tracks (reader.feedAll chunks) ∧
      ∀ i, packetSize ≤ i → (r.receiveChunks chunks).beyond i = r.beyond i := by
  induction chunks generalizing r reader with
  | nil => exact ⟨h, fun _ _ => rfl⟩
  | cons chunk rest ih =>
    obtain ⟨hnext, hbeyond, -⟩ := receive_spec h (hlen chunk List.mem_cons_self)
    obtain ⟨hlast, hrest⟩ := ih hnext fun c hc => hlen c (List.mem_cons_of_mem _ hc)
    exact ⟨hlast, fun i hi => (hrest i hi).trans (hbeyond i hi)⟩

/-- Equal memory past the private buffer gives equal reports on full frames. -/
theorem frameReports_congr {beyond beyond' : ℕ → UInt8}
    (h : ∀ i, packetSize ≤ i → beyond i = beyond' i) (out : ℕ → UInt8) {frames : List (List UInt8)}
    (hframes : ∀ frame ∈ frames, frame.length = packetSize) :
    frameReports beyond out frames = frameReports beyond' out frames := by
  induction frames generalizing out with
  | nil => rfl
  | cons frame rest ih =>
    rw [frameReports, frameReports, frameCells_congr h (hframes frame List.mem_cons_self),
      ih _ fun f hf => hframes f (List.mem_cons_of_mem _ hf)]

/-- The reports of a run are the verdicts on the blocks of the stream, in order. -/
theorem reports_eq {r : Receiver} {reader : Blocks.Reader UInt8 packetSize} (h : r.Tracks reader)
    {chunks : List (List UInt8)} (hlen : ∀ c ∈ chunks, c.length ≤ packetSize) :
    r.reports chunks = frameReports r.beyond r.output (reader.completed chunks.flatten) := by
  induction chunks generalizing r reader with
  | nil =>
    rw [List.flatten_nil, reader.completed_nil]
    rfl
  | cons chunk rest ih =>
    have hrest : ∀ c ∈ rest, c.length ≤ packetSize := fun c hc => hlen c (List.mem_cons_of_mem _ hc)
    obtain ⟨hnext, hbeyond, hcases⟩ := receive_spec h (hlen chunk List.mem_cons_self)
    have hsplit : reader.completed (chunk :: rest).flatten =
        reader.completed chunk ++ (reader.feed chunk).completed rest.flatten := by
      rw [List.flatten_cons, reader.completed_append]
    have hsame : frameReports (r.receive chunk).2.beyond (r.receive chunk).2.output
        ((reader.feed chunk).completed rest.flatten) =
          frameReports r.beyond (r.receive chunk).2.output ((reader.feed chunk).completed rest.flatten) :=
      frameReports_congr hbeyond _ fun _ => Blocks.length_of_mem_blocks
    have hreports : (r.receive chunk).2.reports rest =
        frameReports r.beyond (r.receive chunk).2.output ((reader.feed chunk).completed rest.flatten) :=
      (ih hnext hrest).trans hsame
    rw [hsplit]
    rcases hcases with ⟨hnone, hresult, hout⟩ | ⟨frame, hone, hresult, hout⟩
    · rw [hnone, List.nil_append, ← hout, ← hreports]
      simp [Receiver.reports, Receiver.calls, hresult]
    · have hne : (r.receive chunk).1 ≠ .packetIncomplete := hresult ▸ verdict_ne_incomplete _
      rw [hone, List.singleton_append, frameReports, ← hresult, ← hout, ← hreports]
      simp [Receiver.reports, Receiver.calls, hne]

end AlexRobot
