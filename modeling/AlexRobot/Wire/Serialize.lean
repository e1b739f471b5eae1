import AlexRobot.Wire.Packet
import Mathlib.Data.List.GetD

/-!
# Building a frame

`serialize` fills a `TComms` on the stack and copies it out. The tail of its buffer and the
padding are never assigned, so the structure that the function starts from is an argument:
whatever the stack held. A payload carries the bound that keeps it inside the buffer.
-/

namespace AlexRobot

open Bytes

/-- `PACKET_SIZE`, the length of a frame: the size of a `TComms`. -/
def packetSize : ℕ := 140

/-- A frame is not empty, as its length is positive. -/
theorem packetSize_pos : 0 < packetSize := Nat.zero_lt_succ _

/-- `MAX_DATA_SIZE`, the length of the buffer inside a frame. -/
def maxDataSize : ℕ := 128

/-- `MAGIC_NUMBER`: the word that every frame starts with. -/
def magicNumber : UInt32 := 0xFCFDFEFF

/-- `TComms`: the fields of a frame, in the order of memory. -/
structure TComms where
  magic : UInt32
  dataSize : UInt32
  buffer : Vector UInt8 maxDataSize
  checksum : UInt8
  dummy : Vector UInt8 3
  deriving DecidableEq

/-- The bytes of a frame structure as it lies in memory. -/
def TComms.bytes (comms : TComms) : List UInt8 :=
  wordBytes comms.magic ++ wordBytes comms.dataSize ++ comms.buffer.toList ++ [comms.checksum] ++
    comms.dummy.toList

/-- A frame structure is exactly one frame long in memory. -/
@[simp] theorem TComms.bytes_length (comms : TComms) : comms.bytes.length = packetSize := by
  simp only [TComms.bytes, List.length_append, wordBytes_length, Vector.length_toList,
    List.length_cons, List.length_nil]
  rfl

/-- A byte string that fits the buffer of a frame, as `serialize` sends it. -/
abbrev Payload := { data : List UInt8 // data.length ≤ maxDataSize }

/-- A packet is sent as a payload of the size of a packet. -/
def TPacket.payload (p : TPacket) : Payload :=
  ⟨p.bytes, by rw [TPacket.bytes_length]; decide⟩

/-- `for (i = 0; i < size; i++) checksum ^= buffer[i];` from a zero checksum. -/
def checksumLoop (buffer : ℕ → UInt8) : ℕ → UInt8
  | 0 => 0
  | n + 1 => checksumLoop buffer n ^^^ buffer n

/-- The loop computes the exclusive or of the cells it visits. -/
theorem checksumLoop_eq_xorAll (buffer : ℕ → UInt8) (n : ℕ) :
    checksumLoop buffer n = xorAll ((List.range n).map buffer) := by
  induction n with
  | zero => rfl
  | succ n ih => rw [checksumLoop, ih, List.range_succ, List.map_append, List.map_singleton, xorAll_concat]

/-- `memcpy(comms.buffer, dataStructure, size)`, which leaves the rest of the buffer. -/
def TComms.copyData (comms : TComms) (data : Payload) : TComms :=
  { comms with buffer := Vector.ofFn fun i => data.val.getD i (comms.buffer.get i) }

/-- Copying the data into a frame leaves the magic number alone. -/
@[simp] theorem copyData_magic (comms : TComms) (data : Payload) :
    (comms.copyData data).magic = comms.magic := by
  rw [TComms.copyData]

/-- Copying the data into a frame leaves the padding alone. -/
@[simp] theorem copyData_dummy (comms : TComms) (data : Payload) :
    (comms.copyData data).dummy = comms.dummy := by
  rw [TComms.copyData]

/-- `zeroComms`: a frame structure in which every byte is zero. -/
def zeroComms : TComms := ⟨0, 0, Vector.replicate maxDataSize 0, 0, Vector.replicate 3 0⟩

/-- `serialize`: the frame for a payload, from a structure with arbitrary stack contents. -/
def serialize (comms : TComms) (data : Payload) : List UInt8 :=
  let comms := { comms with magic := magicNumber }
  let comms := comms.copyData data
  let checksum := checksumLoop (fun i => comms.buffer.toList.getD i 0) data.val.length
  let comms := { comms with checksum := checksum, dataSize := UInt32.ofNat data.val.length }
  comms.bytes

/-- A serialized frame has the length of a frame, whatever it carries. -/
@[simp] theorem serialize_length (comms : TComms) (data : Payload) :
    (serialize comms data).length = packetSize := TComms.bytes_length _

/-- Copying replaces a prefix of the buffer and keeps its tail. -/
theorem copyData_buffer (comms : TComms) (data : Payload) :
    (comms.copyData data).buffer.toList = data.val ++ comms.buffer.toList.drop data.val.length := by
  have hfit : data.val.length ≤ 128 := data.property
  refine List.ext_getElem ?_ fun i hi _ => ?_
  · rw [Vector.length_toList, List.length_append, List.length_drop, Vector.length_toList]
    exact (Nat.add_sub_cancel' hfit).symm
  · rw [Vector.length_toList] at hi
    simp only [TComms.copyData, Vector.getElem_toList, Vector.getElem_ofFn]
    by_cases hd : i < data.val.length
    · rw [List.getD_eq_getElem _ _ hd, List.getElem_append_left hd]
    · rw [List.getD_eq_default _ _ (by omega), List.getElem_append_right (by omega), List.getElem_drop]
      simp [Vector.get, Nat.add_sub_cancel' (by omega : data.val.length ≤ i)]

/-- The layout of a serialized frame: header, payload, tail of the buffer, checksum, padding. -/
theorem serialize_eq (comms : TComms) (data : Payload) :
    serialize comms data = wordBytes magicNumber ++ wordBytes (UInt32.ofNat data.val.length) ++
      (data.val ++ comms.buffer.toList.drop data.val.length) ++ [xorAll data.val] ++
        comms.dummy.toList := by
  have hchecksum : checksumLoop (fun i => (data.val ++
      comms.buffer.toList.drop data.val.length).getD i 0) data.val.length = xorAll data.val := by
    rw [checksumLoop_eq_xorAll]
    congr 1
    refine List.ext_getElem (by simp) fun i hi hi' => ?_
    rw [List.getElem_map, List.getElem_range, List.getD_append _ _ _ _ hi', List.getD_eq_getElem _ _ hi']
  simp only [serialize, TComms.bytes, copyData_buffer, copyData_magic, copyData_dummy, hchecksum]

end AlexRobot
