import AlexRobot.Wire.Stream

/-!
# The Arduino's receiver

Each iteration of `loop()` declares a fresh `recvPacket`, so the output that `deserialize`
writes to starts with whatever is on the stack. Bytes are taken from the serial port as they
are available; without any, the receiver is not called.
-/

namespace AlexRobot

open TracedMemory
open TracedMemory.Memory

/-- The receiver with a fresh local variable as its output. -/
def Receiver.withOutput (r : Receiver) (packet : ℕ → UInt8) : Receiver :=
  { r with memory := { r.memory with cells := Function.update r.memory.cells .output packet } }

/-- `readSerial`: all bytes available go to the caller's buffer. -/
def readSerial (m : Memory Obj UInt8) (available : List UInt8) : ℕ × Memory Obj UInt8 :=
  (available.length, store .buffer 0 available m)

/-- `readPacket`, into a packet with the given contents. -/
def readPacket (r : Receiver) (packet : ℕ → UInt8) (available : List UInt8) : TResult × Receiver :=
  let r := r.withOutput packet
  let (len, memory) := readSerial r.memory available
  let r := { r with memory := memory }
  if len = 0 then (.packetIncomplete, r) else deserialize r len

/-- Giving the receiver a fresh output changes no other object of its memory. -/
theorem withOutput_cells (r : Receiver) (packet : ℕ → UInt8) {object : Obj} (h : object ≠ .output) :
    (r.withOutput packet).memory.cells object = r.memory.cells object := Function.update_of_ne h ..

/-- The output of a receiver that was given a fresh one is the fresh variable. -/
@[simp] theorem withOutput_output (r : Receiver) (packet : ℕ → UInt8) :
    (r.withOutput packet).output = packet := by
  simp only [Receiver.output, Receiver.withOutput, Function.update_self]

/-- A fresh output does not concern the bytes received. -/
theorem withOutput_tracks {r : Receiver} {reader : Blocks.Reader UInt8 packetSize} (h : r.Tracks reader)
    (packet : ℕ → UInt8) : (r.withOutput packet).Tracks reader :=
  h.congr rfl rfl rfl (withOutput_cells r packet (by decide)) (withOutput_cells r packet (by decide))

/-- Without bytes the receiver only gets the fresh output. -/
theorem readPacket_nil (r : Receiver) (packet : ℕ → UInt8) :
    readPacket r packet [] = (.packetIncomplete, r.withOutput packet) := rfl

/-- With bytes on the line, `readPacket` calls the receiver on them. -/
theorem readPacket_of_ne_nil (r : Receiver) (packet : ℕ → UInt8) {available : List UInt8}
    (h : available ≠ []) : readPacket r packet available = (r.withOutput packet).receive available :=
  if_neg fun hlen => h (List.eq_nil_of_length_eq_zero hlen)

/-- One call of `readPacket` on at most a frame of bytes: it simulates the abstract reader, and
judges the frame that the bytes complete, if any. -/
theorem readPacket_spec {r : Receiver} {reader : Blocks.Reader UInt8 packetSize} (h : r.Tracks reader)
    (packet : ℕ → UInt8) {available : List UInt8} (hlen : available.length ≤ packetSize) :
    (readPacket r packet available).2.Tracks (reader.feed available) ∧
      (∀ i, packetSize ≤ i → (readPacket r packet available).2.beyond i = r.beyond i) ∧
      ((reader.completed available = [] ∧ (readPacket r packet available).1 = .packetIncomplete) ∨
        ∃ frame, reader.completed available = [frame] ∧
          (readPacket r packet available).1 = verdict (frameCells r.beyond frame) ∧
          (readPacket r packet available).2.output = delivered (frameCells r.beyond frame) packet) := by
  have hfresh := withOutput_tracks h packet
  have hbeyond : (r.withOutput packet).beyond = r.beyond := withOutput_cells r packet (by decide)
  by_cases hempty : available = []
  · rw [hempty, readPacket_nil, reader.feed_nil]
    exact ⟨hfresh, fun i _ => congrFun hbeyond i, Or.inl ⟨reader.completed_nil, rfl⟩⟩
  · obtain ⟨htracks, hrest, hcases⟩ := receive_spec hfresh hlen
    rw [readPacket_of_ne_nil r packet hempty, ← hbeyond]
    refine ⟨htracks, hrest, ?_⟩
    rcases hcases with ⟨hnone, hresult, -⟩ | ⟨frame, hone, hresult, hout⟩
    · exact Or.inl ⟨hnone, hresult⟩
    · rw [withOutput_output] at hout
      exact Or.inr ⟨frame, hone, hresult, hout⟩

end AlexRobot
