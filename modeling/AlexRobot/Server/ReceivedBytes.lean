import AlexRobot.Server.Relay

/-!
# Commands from the bytes received

`handleCommand` reads ten bytes of the worker's buffer at fixed places, however many of them the
client sent. The rest is what earlier messages left there, or what the stack held before the
first. A message decides its own command exactly if it brings all ten bytes, or if the bytes
that it brings already show that there is nothing to send.
-/

namespace AlexRobot

open Bytes

namespace Server

/-- The packets that a call of `handleNetworkData` sends. -/
def sends (s : Server) (conn : ℕ) (buffer : Buffer) (len : ℕ) (residue : TPacket) : List TPacket :=
  (s.handleNetworkData conn buffer len residue).uart.drop s.uart.length

/-- `commandPart`: the fields of a packet that make up a command for the Arduino. -/
def commandPart (packet : TPacket) : UInt8 × UInt8 × UInt32 × UInt32 :=
  (packet.packetType, packet.command, packet.param 0, packet.param 1)

/-- `IsMovement`: the command of the packet makes the robot move. -/
def IsMovement (packet : TPacket) : Prop :=
  ∃ command ∈ [TCommandType.forward, .reverse, .turnLeft, .turnRight], packet.command = command.code

/-- `SameReceived`: two buffers hold the same bytes as far as these were received. -/
def SameReceived (len : ℕ) (buffer buffer' : Buffer) : Prop := ∀ i < len, buffer.cell i = buffer'.cell i

/-- The length of a message that carries a command: its kind, the letter and two parameters. -/
def commandLen : ℕ := 10

/-- The bytes received decide the command, and a message that is too short for one moves nothing. -/
structure ReceivedLaw (buffer : Buffer) (len : ℕ) : Prop where
  alike : ∀ buffer', SameReceived len buffer buffer' →
    ∀ (s s' : Server) (conn conn' : ℕ) (residue residue' : TPacket),
    (s.sends conn buffer len residue).map commandPart = (s'.sends conn' buffer' len residue').map commandPart
  short : len < commandLen → ∀ (s : Server) (conn : ℕ) (residue : TPacket),
    ∀ packet ∈ s.sends conn buffer len residue, ¬ IsMovement packet

/-- The message is no command, or it is long enough for one, or its letter stands for none. -/
def CarriesCommand (buffer : Buffer) (len : ℕ) : Prop :=
  buffer.cell 0 = TNetConstants.command.code →
    commandLen ≤ len ∨ (2 ≤ len ∧ commandOf? (Char.ofNat (buffer.cell 1).toNat) = none)

/-- `handleNetworkData` sends the packets that the buffer calls for, whatever the length. -/
theorem sends_eq (s : Server) (conn : ℕ) (buffer : Buffer) (len : ℕ) (residue : TPacket) :
    s.sends conn buffer len residue = relayed buffer residue := by
  rw [sends, handleNetworkData_eq]
  exact List.drop_left

/-- The command of a packet that is sent, in the bytes of the buffer. -/
theorem commandPart_commandPacket (buffer : Buffer) (residue : TPacket) (command : TCommandType) :
    commandPart (commandPacket buffer residue command) =
      (TPacketType.command.code, command.code,
        if command = .clearStats then 0 else buffer.cmdParam 0, buffer.cmdParam 1) := by
  have h0 : (commandPacket buffer residue command).param 0 =
      if command = .clearStats then 0 else buffer.cmdParam 0 := by
    rw [commandPacket, TPacket.param_setParam _ (by decide), if_neg Nat.one_ne_zero,
      TPacket.param_setParam _ (by decide), if_pos rfl]
  have h1 : (commandPacket buffer residue command).param 1 = buffer.cmdParam 1 := by
    rw [commandPacket, TPacket.param_setParam _ (by decide), if_pos rfl]
  rw [commandPart, h0, h1]
  rfl

/-- The commands that a buffer calls for do not depend on the residue of the packet. -/
theorem relayed_commandPart (buffer : Buffer) (residue : TPacket) :
    (relayed buffer residue).map commandPart =
      if buffer.cell 0 = TNetConstants.command.code then
        ((commandOf? (Char.ofNat (buffer.cell 1).toNat)).map fun command =>
          (TPacketType.command.code, command.code,
            if command = .clearStats then 0 else buffer.cmdParam 0, buffer.cmdParam 1)).toList
      else [] := by
  unfold relayed
  split
  · cases commandOf? (Char.ofNat (buffer.cell 1).toNat) with
    | none => rfl
    | some command => exact congrArg (fun part => [part]) (commandPart_commandPacket buffer residue command)
  · rfl

/-- Buffers with the same ten bytes call for the same commands. -/
theorem relayed_congr {len : ℕ} (hlen : commandLen ≤ len) {buffer buffer' : Buffer}
    (h : SameReceived len buffer buffer') (residue residue' : TPacket) :
    (relayed buffer residue).map commandPart = (relayed buffer' residue').map commandPart := by
  have hcell (i : ℕ) (hi : i < 10) : buffer.cell i = buffer'.cell i := h i (hi.trans_le hlen)
  have hparam (i : ℕ) (hi : i < 2) : buffer.cmdParam i = buffer'.cmdParam i := by
    rw [Buffer.cmdParam, Buffer.cmdParam, hcell _ (by omega), hcell _ (by omega), hcell _ (by omega),
      hcell _ (by omega)]
  rw [relayed_commandPart, relayed_commandPart, hcell 0 (by decide), hcell 1 (by decide), hparam 0 (by decide),
    hparam 1 (by decide)]

/-- A message that is no command, or whose letter stands for none, sends nothing. -/
theorem relayed_eq_nil {buffer : Buffer}
    (h : buffer.cell 0 = TNetConstants.command.code → commandOf? (Char.ofNat (buffer.cell 1).toNat) = none)
    (residue : TPacket) : relayed buffer residue = [] := by
  unfold relayed
  split
  · rename_i hcommand
    rw [h hcommand]
    rfl
  · rfl

/-- Without ten bytes, a message that carries its command sends nothing. -/
theorem relayed_of_short {buffer : Buffer} {len : ℕ} (h : CarriesCommand buffer len) (hlen : len < commandLen)
    (residue : TPacket) : relayed buffer residue = [] := by
  apply relayed_eq_nil
  intro hkind
  exact ((h hkind).resolve_left (Nat.not_le_of_lt hlen)).2

/-- The received bytes of a message that carries its command are enough to see that. -/
theorem CarriesCommand.congr {buffer buffer' : Buffer} {len : ℕ} (hpos : 1 ≤ len)
    (hsame : SameReceived len buffer buffer') (h : CarriesCommand buffer len) : CarriesCommand buffer' len := by
  intro hkind
  rcases h ((hsame 0 hpos).trans hkind) with hlen | ⟨hletter, hnone⟩
  · exact Or.inl hlen
  · rw [hsame 1 hletter] at hnone
    exact Or.inr ⟨hletter, hnone⟩

/-- A message that carries its command obeys the law, as the received bytes decide what it calls for. -/
theorem CarriesCommand.receivedLaw {buffer : Buffer} {len : ℕ} (hpos : 1 ≤ len)
    (h : CarriesCommand buffer len) : ReceivedLaw buffer len where
  alike buffer' hsame s s' conn conn' residue residue' := by
    rw [sends_eq, sends_eq]
    rcases Nat.lt_or_ge len commandLen with hshort | hlong
    · rw [relayed_of_short h hshort, relayed_of_short (h.congr hpos hsame) hshort, List.map_nil]
    · exact relayed_congr hlong hsame residue residue'
  short hshort s conn residue packet hpacket := by
    rw [sends_eq, relayed_of_short h hshort] at hpacket
    cases hpacket

/-- A buffer with one byte changed holds that byte there, and its old bytes elsewhere. -/
theorem cell_set (buffer : Buffer) {i : ℕ} (hi : i < bufLen) (b : UInt8) (j : ℕ) :
    Buffer.cell (buffer.setIfInBounds i b) j = if i = j then b else buffer.cell j := by
  rw [Buffer.cell_eq, Buffer.cell_eq, Vector.getElem?_setIfInBounds, if_pos hi]
  split <;> rfl

/-- A byte that is changed behind the received ones leaves those as they were. -/
theorem sameReceived_set (buffer : Buffer) {len i : ℕ} (hi : i < bufLen) (hlen : len ≤ i) (b : UInt8) :
    SameReceived len buffer (buffer.setIfInBounds i b) := by
  intro j hj
  rw [cell_set buffer hi, if_neg (hj.trans_le hlen).ne']

section Short

variable {buffer : Buffer} {len : ℕ} (h : ReceivedLaw buffer len)

include h

/-- Under the law the commands do not change with a byte that was not received. -/
theorem ReceivedLaw.relayed_set {i : ℕ} (hi : i < bufLen) (hlen : len ≤ i) (b : UInt8) (residue : TPacket) :
    (relayed (buffer.setIfInBounds i b) residue).map commandPart =
      (relayed buffer residue).map commandPart := by
  have halike := h.alike _ (sameReceived_set buffer hi hlen b) initial initial 0 0 residue residue
  rw [sends_eq, sends_eq] at halike
  exact halike.symm

/-- Under the law a command is followed by all its parameters. -/
theorem ReceivedLaw.commandLen_le {command : TCommandType} (hkind : buffer.cell 0 = TNetConstants.command.code)
    (hletter : commandOf? (Char.ofNat (buffer.cell 1).toNat) = some command) : commandLen ≤ len := by
  by_contra hshort
  have hlen : len ≤ 9 := Nat.le_of_lt_succ (Nat.lt_of_not_le hshort)
  -- The last byte of the second parameter was not received.
  let b := buffer.cell 9 ^^^ 1
  have hcell (j : ℕ) (hj : j < 9) : Buffer.cell (buffer.setIfInBounds 9 b) j = buffer.cell j := by
    rw [cell_set buffer (by decide), if_neg hj.ne']
  have hlast : Buffer.cell (buffer.setIfInBounds 9 b) 9 = b := by
    rw [cell_set buffer (by decide), if_pos rfl]
  have hsame := h.relayed_set (by decide) hlen b (.bare .hello .forward)
  rw [relayed_commandPart, relayed_commandPart, hcell 0 (by decide), hcell 1 (by decide), if_pos hkind,
    if_pos hkind, hletter] at hsame
  have hparam : Buffer.cmdParam (buffer.setIfInBounds 9 b) 1 = buffer.cmdParam 1 := by
    simp only [Option.map_some, Option.toList_some, List.cons.injEq, Prod.mk.injEq] at hsame
    exact hsame.1.2.2.2
  rw [Buffer.cmdParam, Buffer.cmdParam, word_eq_iff, wordBytes_word] at hparam
  simp only [List.cons.injEq, and_true] at hparam
  have hbyte : b = buffer.cell 9 := hlast.symm.trans hparam.2.2.2
  exact absurd ((xor_eq_left_iff _ 1).mp hbyte) (by decide)

/-- A message that obeys the law and is a command has received its letter too. -/
theorem ReceivedLaw.two_le (hkind : buffer.cell 0 = TNetConstants.command.code) : 2 ≤ len := by
  by_contra hshort
  have hlen : len ≤ 1 := Nat.le_of_lt_succ (Nat.lt_of_not_le hshort)
  -- The letter was not received: it may be one that stands for a command, or not.
  have hlength (b : UInt8) : (commandOf? (Char.ofNat b.toNat)).toList.length =
      (relayed buffer (.bare .hello .forward)).length := by
    have hkept : Buffer.cell (buffer.setIfInBounds 1 b) 0 = TNetConstants.command.code := by
      rw [cell_set buffer (by decide), if_neg Nat.one_ne_zero, hkind]
    have hletter : Buffer.cell (buffer.setIfInBounds 1 b) 1 = b := by
      rw [cell_set buffer (by decide), if_pos rfl]
    have hsame := congrArg List.length (h.relayed_set (by decide) hlen b (.bare .hello .forward))
    rw [relayed_commandPart, if_pos hkept, hletter, List.length_map] at hsame
    rw [← hsame]
    cases commandOf? (Char.ofNat b.toNat) with
    | none => rfl
    | some command => rfl
  have hequal := (hlength 102).trans (hlength 0).symm
  exact absurd hequal (by decide)

end Short

/-- The bytes received decide the command of a message exactly if it carries it. -/
theorem received_bytes (buffer : Buffer) (len : ℕ) (hpos : 1 ≤ len) :
    ReceivedLaw buffer len ↔ CarriesCommand buffer len := by
  constructor
  · intro h hkind
    have hletter := h.two_le hkind
    cases hcommand : commandOf? (Char.ofNat (buffer.cell 1).toNat) with
    | none => exact Or.inr ⟨hletter, rfl⟩
    | some command => exact Or.inl (h.commandLen_le hkind hcommand)
  · intro h
    exact h.receivedLaw hpos

/-- A client that asks to go forward by 50 at a power of 75. -/
def forwardMessage : List UInt8 := [TNetConstants.command.code, 102, 50, 0, 0, 0, 75, 0, 0, 0]

/-- `forwardWorker`: a worker whose zeroed buffer has received `forwardMessage`. -/
def forwardWorker : Worker := Worker.store ⟨0, Vector.replicate bufLen 0⟩ forwardMessage

/-- `forwardMessage`, whose ten bytes carry its command, obeys the law. -/
theorem forward_received_bytes : ReceivedLaw forwardWorker.buffer forwardMessage.length :=
  (received_bytes forwardWorker.buffer forwardMessage.length (by decide)).mpr fun _ => Or.inl (by decide)

/-- Two more bytes, that ask to go back, make the robot move with the parameters of that message. -/
theorem received_bytes_refuted : ¬ ∀ (buffer : Buffer) (len : ℕ), 1 ≤ len → ReceivedLaw buffer len := by
  intro hclaim
  let buffer := (forwardWorker.store [TNetConstants.command.code, 98]).buffer
  have hkind : buffer.cell 0 = TNetConstants.command.code := cell_store forwardWorker _ (by decide)
  have hletter : buffer.cell 1 = 98 := cell_store forwardWorker _ (by decide)
  have hcommand : commandOf? (Char.ofNat (buffer.cell 1).toNat) = some .reverse := by
    rw [hletter]
    rfl
  have hlong := (hclaim buffer 2 (by decide)).commandLen_le hkind hcommand
  exact absurd hlong (by decide)

end Server

end AlexRobot
