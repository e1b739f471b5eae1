import AlexRobot.Common.Run
import AlexRobot.Wire.Assemble

/-!
# The backlog of `assemble`

A long chunk leaves more than a frame behind. The leftover buffer is read from its first
cell and appended to at its end, so it works as a queue only as long as each call takes all
of it. Taking a frame out of a longer backlog moves nothing: the next call finds the same
frame at the front.
-/

namespace AlexRobot

open TracedMemory
open TracedMemory.Memory

/-- One call of `assemble`: the caller's buffer holds the chunk. -/
def Receiver.assembleChunk (r : Receiver) (chunk : List UInt8) : TResult × Receiver :=
  assemble { r with memory := store .buffer 0 chunk r.memory } chunk.length

/-- The receiver after a call of `assemble` on a chunk. -/
def Receiver.assembled (r : Receiver) (chunk : List UInt8) : Receiver := (r.assembleChunk chunk).2

/-- What a call leaves in the output buffer, if it reports `PACKET_COMPLETE`. -/
def Receiver.blockLeft (r : Receiver) (chunk : List UInt8) : List (List UInt8) :=
  if (r.assembleChunk chunk).1 = .packetComplete then
    [(r.assembleChunk chunk).2.memory.window .privateBuffer 0 packetSize]
  else []

/-- What successive `PACKET_COMPLETE` results leave in the output buffer. -/
def Receiver.blocksLeft : Receiver → List (List UInt8) → List (List UInt8)
  | _, [] => []
  | r, chunk :: rest => r.blockLeft chunk ++ (r.assembled chunk).blocksLeft rest

/-- The call takes all that is left over: it finds no more than a frame of it. -/
def TakesBacklog (r : Receiver) (_chunk : List UInt8) : Prop :=
  r.leftoverFlag = true → r.leftoverCount ≤ packetSize

/-- What holds between calls as long as each takes the backlog. -/
structure Receiver.Queued (r : Receiver) : Prop where
  flagged : r.leftoverFlag = true → r.counter = 0
  unflagged : r.leftoverFlag = false → r.counter < packetSize ∧ r.leftoverCount = 0

/-- A receiver whose leftovers are at most a frame is ready for the call. -/
theorem Receiver.Queued.ready {r : Receiver} (h : r.Queued) {chunk : List UInt8}
    (htakes : TakesBacklog r chunk) : r.Ready where
  flagged hflag := ⟨h.flagged hflag, htakes hflag⟩
  unflagged := h.unflagged

/-- Storing the chunk concerns only the caller's buffer. -/
theorem ready_store {r : Receiver} (h : r.Ready) (chunk : List UInt8) :
    { r with memory := store .buffer 0 chunk r.memory }.Ready ∧
      { r with memory := store .buffer 0 chunk r.memory }.pending = r.pending := by
  have hstore (object : Obj) (ho : object ≠ .buffer) (n : ℕ) :
      (store .buffer 0 chunk r.memory).window object 0 n = r.memory.window object 0 n := by
    refine window_congr fun k _ => ?_
    exact (cells_store ..).trans (dif_neg fun hk => ho hk.1)
  refine ⟨⟨h.flagged, h.unflagged⟩, ?_⟩
  simp only [Receiver.pending, hstore .leftoverBuffer (by decide), hstore .privateBuffer (by decide)]

/-- A call that reaches a whole frame leaves the first frame of what was pending and the chunk, and sets
the rest of them aside. -/
theorem assembled_reaches {r : Receiver} (h : r.Ready) {chunk : List UInt8}
    (hlong : packetSize ≤ r.pending.length + chunk.length) :
    r.blockLeft chunk = [(r.pending ++ chunk).take packetSize] ∧
      (r.assembled chunk).leftoverFlag = true ∧ (r.assembled chunk).counter = 0 ∧
      (r.assembled chunk).leftoverCount = r.pending.length + chunk.length - packetSize ∧
      (r.assembled chunk).pending = (r.pending ++ chunk).drop packetSize := by
  obtain ⟨hready, hpending⟩ := ready_store h chunk
  have hchunk : (store .buffer 0 chunk r.memory).window .buffer 0 chunk.length = chunk :=
    window_store .buffer chunk r.memory
  obtain ⟨hresult, hflag, hcounter, hcount, hblock, hnext, -⟩ :=
    assemble_reaches hready (by rw [hpending]; exact hlong)
  rw [hpending, hchunk] at hblock hnext
  rw [hpending] at hcount
  refine ⟨?_, hflag, hcounter, hcount, hnext⟩
  rw [← hblock]
  exact if_pos hresult

/-- A call that takes the backlog neither loses nor repeats a byte. -/
theorem assembleChunk_keeps {r : Receiver} (h : r.Queued) {chunk : List UInt8}
    (htakes : TakesBacklog r chunk) :
    (r.assembled chunk).Queued ∧
      (r.blockLeft chunk).flatten ++ (r.assembled chunk).pending = r.pending ++ chunk ∧
      ∀ block ∈ r.blockLeft chunk, block.length = packetSize := by
  have hready := h.ready htakes
  by_cases hshort : r.pending.length + chunk.length < packetSize
  · obtain ⟨hstored, hpending⟩ := ready_store hready chunk
    have hchunk : (store .buffer 0 chunk r.memory).window .buffer 0 chunk.length = chunk :=
      window_store .buffer chunk r.memory
    unfold Receiver.assembled Receiver.blockLeft Receiver.assembleChunk
    obtain ⟨hresult, hwell, hnext, -⟩ := assemble_incomplete hstored (by rw [hpending]; exact hshort)
    rw [hresult, if_neg (by decide), hnext, hpending, hchunk]
    refine ⟨⟨fun hflag => (hwell.flagged hflag).1, hwell.unflagged⟩, rfl, ?_⟩
    exact fun block hblock => absurd hblock List.not_mem_nil
  · obtain ⟨hblock, hflag, hcounter, -, hnext⟩ := assembled_reaches hready (Nat.le_of_not_lt hshort)
    rw [hblock, hnext, List.flatten_singleton, List.take_append_drop]
    refine ⟨⟨fun _ => hcounter, fun hclear => ?_⟩, rfl, ?_⟩
    · exact absurd (hflag.symm.trans hclear) Bool.false_ne_true.symm
    · intro block hmem
      rw [List.mem_singleton.mp hmem, List.length_take, List.length_append]
      omega

/-- A run whose calls all take the backlog neither loses nor repeats a byte. -/
theorem blocksLeft_keeps {r : Receiver} (h : r.Queued) {chunks : List (List UInt8)}
    (htakes : Run.Along Receiver.assembled TakesBacklog r chunks) :
    (r.blocksLeft chunks).flatten ++ (Run.after Receiver.assembled r chunks).pending =
        r.pending ++ chunks.flatten ∧
      ∀ block ∈ r.blocksLeft chunks, block.length = packetSize := by
  induction chunks generalizing r with
  | nil =>
    refine ⟨?_, fun block hblock => absurd hblock List.not_mem_nil⟩
    rw [Receiver.blocksLeft, List.flatten_nil, List.nil_append, List.append_nil]
    rfl
  | cons chunk rest ih =>
    obtain ⟨hqueued, hkept, hfull⟩ := assembleChunk_keeps h htakes.1
    obtain ⟨hkeptRest, hfullRest⟩ := ih hqueued htakes.2
    constructor
    · rw [Receiver.blocksLeft, List.flatten_append, List.append_assoc, Run.after_cons, hkeptRest,
        ← List.append_assoc, hkept, List.flatten_cons, List.append_assoc]
    · intro block hblock
      rcases List.mem_append.mp hblock with hfirst | hlater
      · exact hfull block hfirst
      · exact hfullRest block hlater

/-- A call that leaves some of the backlog: it copies a frame from the front of the leftover buffer,
moves nothing there, and appends the chunk behind what it takes to be left. -/
theorem assemble_of_backlog {r : Receiver} (hflag : r.leftoverFlag = true) (hcounter : r.counter = 0)
    (hcount : packetSize < r.leftoverCount) (len : ℕ) :
    assemble r len = (.packetComplete, {
      counter := 0
      leftoverFlag := true
      leftoverCount := r.leftoverCount - packetSize + len
      memory := copyLoop .leftoverBuffer (r.leftoverCount - packetSize) .buffer 0 len
        (copyLoop .privateBuffer 0 .leftoverBuffer 0 packetSize r.memory) }) := by
  have hlong : ¬ r.leftoverCount ≤ packetSize := hcount.not_ge
  simp only [assemble, copyLeftovers, keepSurplus, hflag, if_true, if_neg hlong, hcounter, Nat.zero_add,
    Nat.le_add_right, Nat.sub_self, Nat.sub_zero, Nat.add_zero]
  rfl

/-- A call that takes one frame of a longer backlog leaves the rest of it where it was. -/
theorem backlog_spec {r : Receiver} (hflag : r.leftoverFlag = true) (hcounter : r.counter = 0)
    (hcount : packetSize < r.leftoverCount) (chunk : List UInt8) :
    r.blockLeft chunk = [r.memory.window .leftoverBuffer 0 packetSize] ∧
      (r.assembled chunk).leftoverFlag = true ∧ (r.assembled chunk).counter = 0 ∧
      (r.assembled chunk).leftoverCount = r.leftoverCount - packetSize + chunk.length ∧
      ∀ k ≤ r.leftoverCount - packetSize,
        (r.assembled chunk).memory.window .leftoverBuffer 0 k = r.memory.window .leftoverBuffer 0 k := by
  have hcells (i : ℕ) : (store .buffer 0 chunk r.memory).cells .leftoverBuffer i =
      r.memory.cells .leftoverBuffer i := (cells_store ..).trans (dif_neg fun hi => nomatch hi.1)
  let stored : Receiver := { r with memory := store .buffer 0 chunk r.memory }
  have hcall := assemble_of_backlog (r := stored) hflag hcounter hcount chunk.length
  unfold Receiver.blockLeft Receiver.assembled Receiver.assembleChunk
  rw [hcall]
  refine ⟨?_, rfl, rfl, rfl, fun k hk => window_congr fun i hi => ?_⟩
  · rw [if_pos rfl, window_copyLoop_of_ne (by decide), window_copyLoop (by decide)]
    exact congrArg (fun block => [block]) (window_congr fun i _ => hcells _)
  · have hi' : 0 + i < stored.leftoverCount - packetSize := by
      rw [Nat.zero_add]
      exact hi.trans_le hk
    rw [cells_copyLoop (by decide), if_neg (by omega), cells_copyLoop_of_ne (by decide)]
    exact hcells _

/-- From a backlog of two frames, two calls leave the same block. -/
theorem backlog_repeats {r : Receiver} (hflag : r.leftoverFlag = true) (hcounter : r.counter = 0)
    (hcount : 2 * packetSize ≤ r.leftoverCount) {chunk : List UInt8} (hchunk : 1 ≤ chunk.length)
    (chunk' : List UInt8) :
    ∃ block, r.blockLeft chunk = [block] ∧ (r.assembled chunk).blockLeft chunk' = [block] := by
  have hsize : packetSize = 140 := rfl
  obtain ⟨hblock, hflag', hcounter', hcount', hsame⟩ := backlog_spec hflag hcounter (by omega) chunk
  obtain ⟨hblock', -⟩ := backlog_spec hflag' hcounter' (by omega) chunk'
  exact ⟨_, hblock, hblock'.trans (congrArg (fun block => [block]) (hsame packetSize (by omega)))⟩

/-- After three frames in one chunk, two more bytes make the second frame appear twice. -/
theorem blocksLeft_three {r : Receiver} (h : r.Ready) (hpending : r.pending = []) {chunk : List UInt8}
    (hlength : chunk.length = 3 * packetSize) (b c : UInt8) :
    ∃ first second, r.blocksLeft [chunk, [b], [c]] = [first, second, second] := by
  have hsize : packetSize = 140 := rfl
  have hnone : r.pending.length = 0 := congrArg List.length hpending
  obtain ⟨hfirst, hflag, hcounter, hcount, -⟩ := assembled_reaches h (by omega : packetSize ≤ _ + chunk.length)
  have hbacklog : 2 * packetSize ≤ (r.assembled chunk).leftoverCount := by
    refine le_of_le_of_eq ?_ hcount.symm
    omega
  -- The first call sets two frames aside, so the next two leave the same block.
  obtain ⟨block, hsecond, hthird⟩ :=
    backlog_repeats (r := r.assembled chunk) hflag hcounter hbacklog (Nat.le_refl [b].length) [c]
  refine ⟨(r.pending ++ chunk).take packetSize, block, ?_⟩
  rw [Receiver.blocksLeft, Receiver.blocksLeft, Receiver.blocksLeft, Receiver.blocksLeft, hfirst, hsecond,
    hthird]
  rfl

/-- `level b`: as many copies of the byte `b` as a frame has bytes. -/
def level (b : UInt8) : List UInt8 := List.replicate packetSize b

/-- `level b` is as long as a frame, whatever the byte is. -/
theorem level_length (b : UInt8) : (level b).length = packetSize := List.length_replicate ..

/-- Three frames in one chunk, each of copies of one byte. -/
def threeLevels : List UInt8 := [level 0, level 1, level 2].flatten

/-- The chunk of three frames has the length of three frames. -/
theorem threeLevels_length : threeLevels.length = 3 * packetSize := by
  simp only [threeLevels, List.flatten_cons, List.flatten_nil, List.length_append, level_length]
  rfl

/-- The blocks of the three frames and two bytes behind them are the three frames. -/
theorem blocks_threeLevels :
    Blocks.blocks packetSize [threeLevels, [0], [0]].flatten = [level 0, level 1, level 2] := by
  have hlevels : ∀ block ∈ [level 0, level 1, level 2], block.length = packetSize := by
    intro block hblock
    simp only [List.mem_cons, List.not_mem_nil, or_false] at hblock
    rcases hblock with rfl | rfl | rfl <;> exact List.length_replicate ..
  have hrest : Blocks.blocks packetSize ([0, 0] : List UInt8) = [] := Blocks.blocks_of_lt (by decide)
  exact (Blocks.blocks_flatten_append packetSize_pos _ hlevels [0, 0]).1.trans (by rw [hrest]; rfl)

/-- After three different frames in one chunk the second one is left twice and the third is not. -/
theorem assemble_backlog_refuted :
    ¬ ∀ (memory : Memory Obj UInt8) (chunks : List (List UInt8)),
      (∀ chunk ∈ chunks, 1 ≤ chunk.length ∧ chunk.length ≤ 1024) →
      (Receiver.initial memory).blocksLeft chunks <+: Blocks.blocks packetSize chunks.flatten := by
  intro hclaim
  have hsize : packetSize = 140 := rfl
  obtain ⟨first, second, hblocks⟩ := blocksLeft_three
    (Receiver.initial_wellFormed ⟨fun _ _ => 0, []⟩).ready (Receiver.initial_pending _) threeLevels_length 0 0
  have hprefix := hclaim ⟨fun _ _ => 0, []⟩ [threeLevels, [0], [0]] (by
    simp [threeLevels_length, hsize])
  rw [blocks_threeLevels, hblocks] at hprefix
  simp only [List.cons_prefix_cons, List.nil_prefix, and_true] at hprefix
  have hlevels : level 1 = level 2 := hprefix.2.1.symm.trans hprefix.2.2
  rw [level, level, List.replicate_right_inj (by decide)] at hlevels
  cases hlevels

/-- In a run whose calls all take the backlog, the blocks left in the output buffer are the first
blocks of the stream, in order, and the rest of the stream is pending. -/
theorem assemble_backlog (memory : Memory Obj UInt8) (chunks : List (List UInt8))
    (htakes : Run.Along Receiver.assembled TakesBacklog (Receiver.initial memory) chunks) :
    (Receiver.initial memory).blocksLeft chunks <+: Blocks.blocks packetSize chunks.flatten ∧
      ((Receiver.initial memory).blocksLeft chunks).flatten ++
        (Run.after Receiver.assembled (Receiver.initial memory) chunks).pending = chunks.flatten := by
  have hqueued : (Receiver.initial memory).Queued := ⟨fun _ => rfl, fun _ => ⟨packetSize_pos, rfl⟩⟩
  obtain ⟨hkept, hfull⟩ := blocksLeft_keeps hqueued htakes
  exact ⟨Blocks.prefix_blocks packetSize_pos hkept hfull, hkept⟩

/-- Two frames in one chunk, each of copies of one byte. -/
def twoLevels : List UInt8 := level 0 ++ level 1

/-- From an empty receiver the call on two frames sets the second one aside, and the next call takes it. -/
theorem blocksLeft_twoLevels (memory : Memory Obj UInt8) :
    let r := Receiver.initial memory
    (r.assembled twoLevels).leftoverFlag = true ∧ (r.assembled twoLevels).leftoverCount = packetSize ∧
      r.blocksLeft [twoLevels, [0]] = [level 0, level 1] := by
  intro r
  have hlength : twoLevels.length = packetSize + packetSize := by
    rw [twoLevels, List.length_append, level_length, level_length]
  have hpending : r.pending = [] := Receiver.initial_pending memory
  have hreaches : packetSize ≤ r.pending.length + twoLevels.length := by
    rw [hpending, hlength]
    exact Nat.le_add_left ..
  obtain ⟨hfirst, hflag, hcounter, hcount, hnext⟩ :=
    assembled_reaches (Receiver.initial_wellFormed memory).ready hreaches
  rw [hpending, hlength] at hcount
  rw [hpending, List.nil_append, twoLevels, List.take_left' (level_length 0)] at hfirst
  rw [hpending, List.nil_append, twoLevels, List.drop_left' (level_length 0)] at hnext
  have hready : (r.assembled twoLevels).Ready :=
    ⟨fun _ => ⟨hcounter, hcount.le⟩, fun hclear => absurd (hflag.symm.trans hclear) Bool.false_ne_true.symm⟩
  have hfull : packetSize ≤ (r.assembled twoLevels).pending.length + [(0 : UInt8)].length := by
    rw [twoLevels, hnext, level_length]
    exact Nat.le_add_right ..
  obtain ⟨hsecond, -⟩ := assembled_reaches hready hfull
  rw [twoLevels, hnext, List.take_left' (level_length 1)] at hsecond
  refine ⟨hflag, hcount, ?_⟩
  rw [Receiver.blocksLeft, Receiver.blocksLeft, Receiver.blocksLeft, twoLevels, hfirst, hsecond]
  rfl

/-- The second call takes the frame that the first one has set aside, and both frames are left in order. -/
theorem twoLevels_backlog :
    let r := Receiver.initial ⟨fun _ _ => 0, []⟩
    ((r.assembled twoLevels).leftoverFlag = true ∧ (r.assembled twoLevels).leftoverCount = packetSize ∧
      r.blocksLeft [twoLevels, [0]] = [level 0, level 1]) ∧
        r.blocksLeft [twoLevels, [0]] <+: Blocks.blocks packetSize [twoLevels, [0]].flatten ∧
          (r.blocksLeft [twoLevels, [0]]).flatten ++ (Run.after Receiver.assembled r [twoLevels, [0]]).pending =
            [twoLevels, [0]].flatten := by
  intro r
  have hleft := blocksLeft_twoLevels ⟨fun _ _ => 0, []⟩
  exact ⟨hleft, assemble_backlog ⟨fun _ _ => 0, []⟩ [twoLevels, [0]] ⟨nofun, fun _ => hleft.2.1.le, trivial⟩⟩

end AlexRobot
