import AlexRobot.Common.Bytes
import Mathlib.Data.List.GetD

/-!
# The packets exchanged by the Pi and the Arduino

`RPi/packet.h` and `alex/packet.h` declare the same 100-byte structure, and the two copies
of `constants.h` agree on every value given here; only the Pi knows the LCD command. A
`switch` on a field compares its byte with these codes, so a byte outside the enumeration
selects the default case.
-/

namespace AlexRobot

open Bytes

/-- `TPacketType` of the Pi and the Arduino, the first byte of a packet. -/
inductive TPacketType
  | commandParam
  | commandKeyboard
  | commandTime
  | response
  | error
  | message
  | hello
  deriving DecidableEq, Repr

/-- The value of a packet type on the wire; the enumeration starts at 0. -/
def TPacketType.code : TPacketType → UInt8
  | .commandParam => 0
  | .commandKeyboard => 1
  | .commandTime => 2
  | .response => 3
  | .error => 4
  | .message => 5
  | .hello => 6

/-- The case that a `switch` on the packet type selects, if any. -/
def TPacketType.ofCode? : UInt8 → Option TPacketType
  | 0 => some .commandParam
  | 1 => some .commandKeyboard
  | 2 => some .commandTime
  | 3 => some .response
  | 4 => some .error
  | 5 => some .message
  | 6 => some .hello
  | _ => none

/-- `TResponseType`: the responses, which are carried in the command field. -/
inductive TResponseType
  | ok
  | status
  | badPacket
  | badChecksum
  | badCommand
  | badResponse
  | color
  | dist
  deriving DecidableEq, Repr

/-- The value of a response type on the wire; the enumeration starts at 0. -/
def TResponseType.code : TResponseType → UInt8
  | .ok => 0
  | .status => 1
  | .badPacket => 2
  | .badChecksum => 3
  | .badCommand => 4
  | .badResponse => 5
  | .color => 6
  | .dist => 7

/-- `TCommandType`: the commands that the Pi and the Arduino both know. -/
inductive TCommandType
  | forward
  | reverse
  | turnLeft
  | turnRight
  | stop
  | getStats
  | clearStats
  | color
  | dist
  deriving DecidableEq, Repr

/-- The value of a command on the wire; the enumeration starts at 0. -/
def TCommandType.code : TCommandType → UInt8
  | .forward => 0
  | .reverse => 1
  | .turnLeft => 2
  | .turnRight => 3
  | .stop => 4
  | .getStats => 5
  | .clearStats => 6
  | .color => 7
  | .dist => 8

/-- The case that a `switch` on the command selects, if any. -/
def TCommandType.ofCode? : UInt8 → Option TCommandType
  | 0 => some .forward
  | 1 => some .reverse
  | 2 => some .turnLeft
  | 3 => some .turnRight
  | 4 => some .stop
  | 5 => some .getStats
  | 6 => some .clearStats
  | 7 => some .color
  | 8 => some .dist
  | _ => none

/-- `COMMAND_LCD`, which only the Pi's `constants.h` declares. -/
def commandLcd : UInt8 := 13

/-- A `switch` on the packet type selects a case exactly when the byte is its code. -/
theorem TPacketType.ofCode?_eq_some_iff (b : UInt8) (t : TPacketType) :
    TPacketType.ofCode? b = some t ↔ b = t.code := by
  constructor
  · intro h
    unfold TPacketType.ofCode? at h
    split at h <;> cases h <;> rfl
  · rintro rfl
    cases t <;> rfl

/-- A `switch` on the command selects a case exactly when the byte is its code. -/
theorem TCommandType.ofCode?_eq_some_iff (b : UInt8) (c : TCommandType) :
    TCommandType.ofCode? b = some c ↔ b = c.code := by
  constructor
  · intro h
    unfold TCommandType.ofCode? at h
    split at h <;> cases h <;> rfl
  · rintro rfl
    cases c <;> rfl

/-- `MAX_STR_LEN`, the width of a packet's text field. -/
def maxStrLen : ℕ := 32

/-- `TPacket`: the fields of a packet, in the order of memory. -/
structure TPacket where
  packetType : UInt8
  command : UInt8
  dummy : Vector UInt8 2
  data : Vector UInt8 maxStrLen
  params : Vector UInt32 16
  deriving DecidableEq

/-- A command packet in which all other fields are zero. -/
def TPacket.bare (t : TPacketType) (c : TCommandType) : TPacket where
  packetType := t.code
  command := c.code
  dummy := Vector.replicate 2 0
  data := Vector.replicate maxStrLen 0
  params := Vector.replicate 16 0

/-- `params[i]`, for an index in range; outside the range it is 0. -/
def TPacket.param (p : TPacket) (i : ℕ) : UInt32 := p.params.getD i 0

/-- `params[i] = v`, for an index in range; outside the range nothing changes. -/
def TPacket.setParam (p : TPacket) (i : ℕ) (v : UInt32) : TPacket :=
  { p with params := p.params.setIfInBounds i v }

/-- A lookup with a default is an optional lookup with it. -/
theorem vector_getD {α : Type*} {n : ℕ} (v : Vector α n) (i : ℕ) (default : α) :
    v.getD i default = v[i]?.getD default := by
  rw [Vector.getD]
  simp only [Array.getD_eq_getD_getElem?, Vector.getElem?_toArray]

/-- A parameter of a packet is its optional lookup with zero as the default. -/
theorem TPacket.param_eq (p : TPacket) (i : ℕ) : p.param i = p.params[i]?.getD 0 := vector_getD p.params i 0

/-- Setting a parameter of a packet changes that one alone. -/
theorem TPacket.param_setParam (p : TPacket) {i : ℕ} (hi : i < 16) (j : ℕ) (v : UInt32) :
    (p.setParam i v).param j = if i = j then v else p.param j := by
  rw [param_eq, param_eq, TPacket.setParam, Vector.getElem?_setIfInBounds, if_pos hi]
  split <;> rfl

/-- `sizeof(TPacket)`: 1 + 1 + 2 + 32 + 16 * 4. -/
def sizeofTPacket : ℕ := 100

/-- `TPacket.bytes`: the bytes of a packet as it lies in memory. -/
def TPacket.bytes (p : TPacket) : List UInt8 :=
  [p.packetType, p.command] ++ p.dummy.toList ++ p.data.toList ++ p.params.toList.flatMap wordBytes

/-- A packet has as many bytes as its declaration says. -/
@[simp] theorem TPacket.bytes_length (p : TPacket) : p.bytes.length = sizeofTPacket := by
  have hparams : (p.params.toList.flatMap wordBytes).length = 64 := by
    simp [List.length_flatMap]
  simp only [TPacket.bytes, List.length_append, List.length_cons, List.length_nil, Vector.length_toList,
    hparams]
  rfl

/-- The packet that a program sees in memory starting at the given cells. -/
def TPacket.ofCells (cells : ℕ → UInt8) : TPacket where
  packetType := cells 0
  command := cells 1
  dummy := Vector.ofFn fun i => cells (2 + i)
  data := Vector.ofFn fun i => cells (4 + i)
  params := Vector.ofFn fun i =>
    word (cells (36 + 4 * i)) (cells (37 + 4 * i)) (cells (38 + 4 * i)) (cells (39 + 4 * i))

/-- Only the first 100 cells matter to a packet that is read from memory. -/
theorem TPacket.ofCells_congr {cells cells' : ℕ → UInt8}
    (h : ∀ i < sizeofTPacket, cells i = cells' i) : TPacket.ofCells cells = TPacket.ofCells cells' := by
  have h' : ∀ i < 100, cells i = cells' i := h
  have hdummy : (fun i : Fin 2 => cells (2 + i)) = fun i : Fin 2 => cells' (2 + i) := by
    funext i
    exact h' _ (by omega)
  have hdata : (fun i : Fin maxStrLen => cells (4 + i)) = fun i : Fin maxStrLen => cells' (4 + i) := by
    funext i
    exact h' _ (by have hi : i.val < 32 := i.isLt; omega)
  have hparams : (fun i : Fin 16 => word (cells (36 + 4 * i)) (cells (37 + 4 * i)) (cells (38 + 4 * i))
      (cells (39 + 4 * i))) = fun i : Fin 16 => word (cells' (36 + 4 * i)) (cells' (37 + 4 * i))
      (cells' (38 + 4 * i)) (cells' (39 + 4 * i)) := by
    funext i
    rw [h' (36 + 4 * i) (by omega), h' (37 + 4 * i) (by omega), h' (38 + 4 * i) (by omega),
      h' (39 + 4 * i) (by omega)]
  rw [TPacket.ofCells, TPacket.ofCells, hdummy, hdata, hparams, h' 0 (by decide), h' 1 (by decide)]

/-- Each word of a list has its four bytes at four times its index. -/
theorem getD_flatMap_wordBytes (words : List UInt32) {i k : ℕ} (hi : i < words.length) (hk : k < 4) :
    (words.flatMap wordBytes).getD (4 * i + k) 0 = (wordBytes words[i]).getD k 0 := by
  induction words generalizing i with
  | nil => exact absurd hi (Nat.not_lt_zero i)
  | cons first rest ih =>
    rw [List.flatMap_cons]
    cases i with
    | zero => rw [Nat.mul_zero, Nat.zero_add, List.getD_append _ _ _ _ hk, List.getElem_cons_zero]
    | succ i =>
      have hi' : i < rest.length := Nat.lt_of_succ_lt_succ hi
      have hindex : 4 * (i + 1) + k = 4 + (4 * i + k) := by omega
      rw [hindex, List.getD_append_right _ _ _ _ (Nat.le_add_right 4 _), wordBytes_length,
        Nat.add_sub_cancel_left, ih hi', List.getElem_cons_succ]

/-- The fields of a packet are at fixed places among its bytes. -/
theorem TPacket.bytes_fields (p : TPacket) :
    p.bytes.getD 0 0 = p.packetType ∧ p.bytes.getD 1 0 = p.command ∧
      (∀ i, ∀ h : i < 2, p.bytes.getD (2 + i) 0 = p.dummy[i]) ∧
      (∀ i, ∀ h : i < maxStrLen, p.bytes.getD (4 + i) 0 = p.data[i]) ∧
      ∀ i k, ∀ h : i < 16, k < 4 → p.bytes.getD (36 + 4 * i + k) 0 = (wordBytes p.params[i]).getD k 0 := by
  have hbytes : p.bytes = [p.packetType, p.command] ++ (p.dummy.toList ++ (p.data.toList ++
      p.params.toList.flatMap wordBytes)) := by
    rw [TPacket.bytes, List.append_assoc, List.append_assoc]
  have hdummy : p.dummy.toList.length = 2 := Vector.length_toList ..
  have hdata : p.data.toList.length = 32 := Vector.length_toList ..
  have hparams : p.params.toList.length = 16 := Vector.length_toList ..
  have htail (n : ℕ) : p.bytes.getD (2 + n) 0 =
      (p.dummy.toList ++ (p.data.toList ++ p.params.toList.flatMap wordBytes)).getD n 0 := by
    rw [hbytes, List.getD_append_right _ _ _ _ (Nat.le_add_right 2 n)]
    exact congrArg (fun index => List.getD _ index 0) (Nat.add_sub_cancel_left 2 n)
  refine ⟨?_, ?_, ?_, ?_, ?_⟩
  · rw [hbytes]
    rfl
  · rw [hbytes]
    rfl
  · intro i hi
    rw [htail, List.getD_append _ _ _ _ (by omega), List.getD_eq_getElem _ _ (by omega),
      Vector.getElem_toList]
  · intro i hi
    have hi' : i < 32 := hi
    have hindex : 4 + i = 2 + (2 + i) := by omega
    rw [hindex, htail, List.getD_append_right _ _ _ _ (by omega), hdummy, Nat.add_sub_cancel_left,
      List.getD_append _ _ _ _ (by omega), List.getD_eq_getElem _ _ (by omega), Vector.getElem_toList]
  · intro i k hi hk
    have hindex : 36 + 4 * i + k = 2 + (2 + (32 + (4 * i + k))) := by omega
    rw [hindex, htail, List.getD_append_right _ _ _ _ (by omega), hdummy, Nat.add_sub_cancel_left,
      List.getD_append_right _ _ _ _ (by omega), hdata, Nat.add_sub_cancel_left,
      getD_flatMap_wordBytes _ (by omega) hk, Vector.getElem_toList]

/-- A packet that is read from its own bytes is the packet. -/
theorem TPacket.ofCells_bytes (p : TPacket) : TPacket.ofCells (fun i => p.bytes.getD i 0) = p := by
  obtain ⟨htype, hcommand, hdummy, hdata, hparams⟩ := p.bytes_fields
  have hd : Vector.ofFn (fun i : Fin 2 => p.bytes.getD (2 + i) 0) = p.dummy :=
    Vector.ext fun i hi => (Vector.getElem_ofFn hi).trans (hdummy i hi)
  have ht : Vector.ofFn (fun i : Fin maxStrLen => p.bytes.getD (4 + i) 0) = p.data :=
    Vector.ext fun i hi => (Vector.getElem_ofFn hi).trans (hdata i hi)
  have hp : (Vector.ofFn fun i : Fin 16 => word (p.bytes.getD (36 + 4 * i) 0) (p.bytes.getD (37 + 4 * i) 0)
      (p.bytes.getD (38 + 4 * i) 0) (p.bytes.getD (39 + 4 * i) 0)) = p.params := by
    refine Vector.ext fun i hi => (Vector.getElem_ofFn hi).trans ?_
    have h0 := hparams i 0 hi (by decide)
    have h1 := hparams i 1 hi (by decide)
    have h2 := hparams i 2 hi (by decide)
    have h3 := hparams i 3 hi (by decide)
    rw [Nat.add_right_comm] at h1 h2 h3
    rw [Nat.add_zero] at h0
    rw [h0, h1, h2, h3]
    exact word_wordBytes p.params[i]
  rw [TPacket.ofCells, htype, hcommand, hd, ht, hp]

end AlexRobot
