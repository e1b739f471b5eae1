import AlexRobot.Wire.Assemble

/-!
# Judging a complete frame

`deserialize` casts the private buffer to a `TComms` and trusts its length field: both the
checksum loop and the copy to the caller run to `dataSize`, past the frame if need be. The
verdict is a function of the cells from the private buffer on, and the caller's structure
changes only on acceptance.
-/

namespace AlexRobot

open Bytes
open TracedMemory
open TracedMemory.Memory

/-- `comms->magic`, for the structure at the given cells. -/
def commsMagic (comms : ℕ → UInt8) : UInt32 := word (comms 0) (comms 1) (comms 2) (comms 3)

/-- `comms->dataSize`, as `deserialize` reads it from the cells of the frame. -/
def commsDataSize (comms : ℕ → UInt8) : UInt32 := word (comms 4) (comms 5) (comms 6) (comms 7)

/-- `comms->buffer[i]`, at any index, also one past the end of the buffer. -/
def commsBuffer (comms : ℕ → UInt8) (i : ℕ) : UInt8 := comms (8 + i)

/-- `comms->checksum`, as `deserialize` reads it from the cells of the frame. -/
def commsChecksum (comms : ℕ → UInt8) : UInt8 := comms 136

/-- `for (i = 0; i < n; i++) checksum ^= comms->buffer[i];`, with its reads traced. -/
def checksumBuffer (m : Memory Obj UInt8) : ℕ → UInt8 × Memory Obj UInt8
  | 0 => (0, m)
  | n + 1 =>
    let (checksum, m) := checksumBuffer m n
    (checksum ^^^ commsBuffer (m.cells .privateBuffer) n, m.read .privateBuffer (8 + n))

/-- The part of `deserialize` that runs on a complete frame. -/
def extractComms (r : Receiver) : TResult × Receiver :=
  let comms := r.memory.cells .privateBuffer
  if commsMagic comms ≠ magicNumber then (.packetBad, r)
  else
    let (checksum, memory) := checksumBuffer r.memory (commsDataSize comms).toNat
    if checksum ≠ commsChecksum comms then (.packetChecksumBad, { r with memory := memory })
    else
      (.packetOk, { r with
        memory := copyLoop .output 0 .privateBuffer 8 (commsDataSize comms).toNat memory })

/-- `deserialize`, on the first `len` bytes of the caller's buffer. -/
def deserialize (r : Receiver) (len : ℕ) : TResult × Receiver :=
  let (result, r) := assemble r len
  if result = .packetComplete then extractComms r else (result, r)

/-- A call of `deserialize` that completes a frame judges the frame. -/
theorem deserialize_of_complete {r : Receiver} {len : ℕ} (h : (assemble r len).1 = .packetComplete) :
    deserialize r len = extractComms (assemble r len).2 := by
  simp only [deserialize, h, if_true]

/-- A call of `deserialize` that completes no frame only assembles. -/
theorem deserialize_of_incomplete {r : Receiver} {len : ℕ} (h : (assemble r len).1 = .packetIncomplete) :
    deserialize r len = assemble r len := by
  simp only [deserialize, h, reduceCtorEq, if_false]
  exact Prod.ext h.symm rfl

/-- The result for a complete frame, as a function of the cells it is cast from. -/
def verdict (comms : ℕ → UInt8) : TResult :=
  if commsMagic comms ≠ magicNumber then .packetBad
  else if checksumLoop (commsBuffer comms) (commsDataSize comms).toNat ≠ commsChecksum comms then
    .packetChecksumBad
  else .packetOk

/-- The caller's structure after a complete frame: overwritten on acceptance, to the length that
the frame claims. -/
def delivered (comms out : ℕ → UInt8) : ℕ → UInt8 := fun i =>
  if verdict comms = .packetOk ∧ i < (commsDataSize comms).toNat then commsBuffer comms i else out i

/-- The structure that the caller passes to `deserialize` for the payload. -/
def Receiver.output (r : Receiver) : ℕ → UInt8 := r.memory.cells .output

/-- A complete frame is never reported as an incomplete packet. -/
theorem verdict_ne_incomplete (comms : ℕ → UInt8) : verdict comms ≠ .packetIncomplete := by
  unfold verdict
  split
  · decide
  · split <;> decide

/-- A frame is accepted on its magic number and its checksum, and on nothing else. -/
theorem verdict_eq_ok_iff (comms : ℕ → UInt8) :
    verdict comms = .packetOk ↔ commsMagic comms = magicNumber ∧
      checksumLoop (commsBuffer comms) (commsDataSize comms).toNat = commsChecksum comms := by
  unfold verdict
  by_cases hmagic : commsMagic comms = magicNumber
  · by_cases hsum : checksumLoop (commsBuffer comms) (commsDataSize comms).toNat = commsChecksum comms
    · simp [hmagic, hsum]
    · simp [hmagic, hsum]
  · simp [hmagic]

/-- A frame that is not accepted delivers nothing to the caller's structure. -/
theorem delivered_of_ne {comms : ℕ → UInt8} (h : verdict comms ≠ .packetOk) (out : ℕ → UInt8) :
    delivered comms out = out := by
  funext i
  rw [delivered, if_neg fun hi => h hi.1]

/-- The traced loop computes the checksum and changes no cell. -/
theorem checksumBuffer_spec (m : Memory Obj UInt8) (n : ℕ) :
    (checksumBuffer m n).1 = checksumLoop (commsBuffer (m.cells .privateBuffer)) n ∧
      (checksumBuffer m n).2.cells = m.cells := by
  induction n with
  | zero => exact ⟨rfl, rfl⟩
  | succ n ih => simp only [checksumBuffer, checksumLoop, cells_read, ih, and_self]

/-- The checksum loop reads the buffer once per round. -/
theorem checksumBuffer_within (P : Access Obj → Prop) (m : Memory Obj UInt8) (n : ℕ) :
    (checksumBuffer m n).2.Within P ↔ m.Within P ∧ ∀ k < n, P ⟨.privateBuffer, .read, 8 + k⟩ := by
  induction n with
  | zero => simp [checksumBuffer]
  | succ n ih => simp only [checksumBuffer, within_read, ih, Nat.forall_lt_succ_right, and_assoc]

/-- Judging a frame touches nothing of the receiver but the caller's structure. -/
structure SameReceiver (r r' : Receiver) : Prop where
  counter : r'.counter = r.counter
  leftoverFlag : r'.leftoverFlag = r.leftoverFlag
  leftoverCount : r'.leftoverCount = r.leftoverCount
  cells : ∀ object, object ≠ .output → r'.memory.cells object = r.memory.cells object

/-- The result of judging a frame, and the memory it leaves. -/
theorem extractComms_spec (r : Receiver) :
    (extractComms r).1 = verdict (r.memory.cells .privateBuffer) ∧
      (extractComms r).2.output = delivered (r.memory.cells .privateBuffer) r.output ∧
      SameReceiver r (extractComms r).2 := by
  generalize hcomms : r.memory.cells .privateBuffer = comms
  obtain ⟨hsum, hcells⟩ := checksumBuffer_spec r.memory (commsDataSize comms).toNat
  rw [hcomms] at hsum
  by_cases hmagic : commsMagic comms = magicNumber
  · by_cases hok : checksumLoop (commsBuffer comms) (commsDataSize comms).toNat = commsChecksum comms
    · have hverdict : verdict comms = .packetOk := (verdict_eq_ok_iff comms).mpr ⟨hmagic, hok⟩
      have hextract : extractComms r = (.packetOk, { r with
          memory := copyLoop .output 0 .privateBuffer 8 (commsDataSize comms).toNat
            (checksumBuffer r.memory (commsDataSize comms).toNat).2 }) := by
        simp [extractComms, hcomms, hmagic, hsum, hok]
      rw [hextract]
      refine ⟨hverdict.symm, ?_, rfl, rfl, rfl, fun object ho => ?_⟩
      · funext i
        simp only [Receiver.output, delivered, hverdict,
          cells_copyLoop (by decide : Obj.privateBuffer ≠ .output),
          hcells, Nat.zero_le, true_and, Nat.zero_add, Nat.sub_zero, hcomms, commsBuffer]
      · exact (cells_copyLoop_of_ne ho ..).trans (congrFun hcells object)
    · have hverdict : verdict comms = .packetChecksumBad := by simp [verdict, hmagic, hok]
      have hextract : extractComms r = (.packetChecksumBad, { r with
          memory := (checksumBuffer r.memory (commsDataSize comms).toNat).2 }) := by
        simp [extractComms, hcomms, hmagic, hsum, hok]
      rw [hextract, hverdict, delivered_of_ne (by rw [hverdict]; decide)]
      exact ⟨rfl, congrFun hcells _, rfl, rfl, rfl, fun object _ => congrFun hcells object⟩
  · have hverdict : verdict comms = .packetBad := by simp [verdict, hmagic]
    have hextract : extractComms r = (.packetBad, r) := by simp [extractComms, hcomms, hmagic]
    rw [hextract, hverdict, delivered_of_ne (by rw [hverdict]; decide)]
    exact ⟨rfl, rfl, rfl, rfl, rfl, fun _ _ => rfl⟩

/-- The accesses of judging a frame: with the right magic number the checksum loop reads the
buffer, and on acceptance the copy reads it again and writes the caller's structure. -/
theorem extractComms_within (P : Access Obj → Prop) (r : Receiver) :
    (extractComms r).2.memory.Within P ↔ r.memory.Within P ∧
      (verdict (r.memory.cells .privateBuffer) ≠ .packetBad →
        ∀ k < (commsDataSize (r.memory.cells .privateBuffer)).toNat, P ⟨.privateBuffer, .read, 8 + k⟩) ∧
      (verdict (r.memory.cells .privateBuffer) = .packetOk →
        ∀ k < (commsDataSize (r.memory.cells .privateBuffer)).toNat, P ⟨.output, .write, k⟩) := by
  have hsum := (checksumBuffer_spec r.memory (commsDataSize (r.memory.cells .privateBuffer)).toNat).1
  simp only [extractComms, verdict]
  by_cases hmagic : commsMagic (r.memory.cells .privateBuffer) = magicNumber
  · by_cases hsumEq : checksumLoop (commsBuffer (r.memory.cells .privateBuffer))
        (commsDataSize (r.memory.cells .privateBuffer)).toNat =
          commsChecksum (r.memory.cells .privateBuffer)
    · simp only [hmagic, hsum, hsumEq, ne_eq, not_true_eq_false, if_false, within_copyLoop,
        checksumBuffer_within, Nat.zero_add, reduceCtorEq, not_false_eq_true, forall_const]
      exact ⟨fun ⟨⟨hm, hread⟩, hboth⟩ => ⟨hm, hread, fun k hk => (hboth k hk).2⟩,
        fun ⟨hm, hread, hwrite⟩ => ⟨⟨hm, hread⟩, fun k hk => ⟨hread k hk, hwrite k hk⟩⟩⟩
    · simp [hmagic, hsum, hsumEq, checksumBuffer_within]
  · simp [hmagic]

end AlexRobot
