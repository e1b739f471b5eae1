import AlexRobot.Link.OwnFrame

/-!
# The text of a message

`sendMessage` copies a string into the text field with `strncpy` and the full width of the
field, which writes a terminator only if there is room for one; the Pi prints the field with
`%s`, which reads on until it finds one. The text stays inside its field exactly for messages
that are shorter than the field.
-/

namespace AlexRobot

open TracedMemory

/-- What `vsprintf` may leave in the `char buffer[128]` of `dbprintf`, before the terminator. -/
abbrev Formatted := { text : List UInt8 // text.length ≤ 127 }

/-- `dbprintf` sends the text that it formats as a message. -/
def Alex.dbprintf (a : Alex) (buffer : Formatted) : Alex := a.sendMessage buffer.val

/-- The Arduino sends a text, directly or through `dbprintf`. -/
def SendsText (a : Alex) (message : List UInt8) (sent : Alex) : Prop :=
  sent = a.sendMessage message ∨ ∃ buffer : Formatted, buffer.val = message ∧ sent = a.dbprintf buffer

/-- The string that starts at a cell: everything up to the first terminator, wherever that is. -/
structure StringAt (cells : ℕ → UInt8) (first : ℕ) (text : List UInt8) : Prop where
  chars : ∀ i, ∀ h : i < text.length, cells (first + i) = text[i]
  noNul : 0 ∉ text
  terminated : cells (first + text.length) = 0

/-- `handleMessage` prints `packet->data` as a string, for the packet in the given cells. -/
def HandleMessage (packet : ℕ → UInt8) (text : List UInt8) : Prop := StringAt packet 4 text

/-- The thread handles one message packet in this round, prints the message cut to the field, and
finds the terminator inside the field. -/
structure MessageLaw (t : ReceiveThread) (input : Read) (message : List UInt8) : Prop where
  handled : ∃ packet, (t.iterate input).handled = t.handled ++ [packet] ∧
    packet.packetType = TPacketType.message.code
  printed : HandleMessage (t.iterate input).receiver.output (message.take (maxStrLen - 1))
  inside : ∃ i < maxStrLen, (t.iterate input).receiver.output (4 + i) = 0

/-- Where `strncpy` left a string shorter than the field, memory holds that string. -/
theorem stringAt_of_short {cells : ℕ → UInt8} {first : ℕ} {message : List UInt8} (hmessage : 0 ∉ message)
    (hcells : ∀ i < maxStrLen, cells (first + i) = message.getD i 0) (h : message.length < maxStrLen) :
    StringAt cells first message where
  chars i hi := by rw [hcells i (hi.trans h), List.getD_eq_getElem _ _ hi]
  noNul := hmessage
  terminated := by rw [hcells _ h, List.getD_eq_default _ _ le_rfl]

/-- Where it left one that fills the field, no terminator is in the field. -/
theorem ne_nul_of_long {cells : ℕ → UInt8} {first : ℕ} {message : List UInt8} (hmessage : 0 ∉ message)
    (hcells : ∀ i < maxStrLen, cells (first + i) = message.getD i 0) (h : maxStrLen ≤ message.length)
    {i : ℕ} (hi : i < maxStrLen) : cells (first + i) ≠ 0 := by
  rw [hcells i hi, List.getD_eq_getElem _ _ (hi.trans_le h)]
  intro hnul
  exact hmessage (hnul ▸ List.getElem_mem _)

/-- The packet of a message, whatever was on the stack. -/
def messagePacket (a : Alex) (message : List UInt8) : TPacket :=
  { a.localPacket with packetType := TPacketType.message.code, data := Alex.strncpy message }

/-- The bytes that a text is sent as: the frame of its message packet. -/
def messageFrame (a : Alex) (message : List UInt8) : List UInt8 :=
  serialize (a.stack.comms a.sent.length) (messagePacket a message).payload

/-- A text is sent as one frame, however long it is. -/
theorem messageFrame_length (a : Alex) (message : List UInt8) :
    (messageFrame a message).length = packetSize := serialize_length _ _

/-- Both ways of sending a text write the frame of its message packet. -/
theorem SendsText.written {a sent : Alex} {message : List UInt8} (h : SendsText a message sent) :
    sent.written.drop a.written.length = messageFrame a message := by
  have hsent : (a.sendMessage message).written = a.written ++ messageFrame a message := rfl
  rcases h with rfl | ⟨buffer, rfl, rfl⟩
  · rw [hsent, List.drop_left]
  · rw [Alex.dbprintf, hsent, List.drop_left]

/-- The text field of a message packet that was delivered holds the text, cut to the field. -/
theorem overwrite_message (a : Alex) (message : List UInt8) (out : ℕ → UInt8) {i : ℕ} (hi : i < maxStrLen) :
    overwrite (messagePacket a message).payload out (4 + i) = message.getD i 0 := by
  have hi' : i < 32 := hi
  have hlength : (messagePacket a message).payload.val.length = 100 := TPacket.bytes_length _
  have hdata := (messagePacket a message).bytes_fields.2.2.2.1 i hi
  rw [List.getD_eq_getElem _ _ (by rw [TPacket.bytes_length, sizeofTPacket]; omega)] at hdata
  rw [overwrite, dif_pos (by omega)]
  refine hdata.trans ?_
  simp only [messagePacket, Alex.strncpy, Vector.getElem_ofFn]

/-- The type of a message packet that was delivered is that of messages. -/
theorem overwrite_message_type (a : Alex) (message : List UInt8) (out : ℕ → UInt8) :
    overwrite (messagePacket a message).payload out 0 = TPacketType.message.code := by
  have hlength : (messagePacket a message).payload.val.length = 100 := TPacket.bytes_length _
  have htype := (messagePacket a message).bytes_fields.1
  rw [List.getD_eq_getElem _ _ (by rw [TPacket.bytes_length]; decide)] at htype
  rw [overwrite, dif_pos (by omega)]
  exact htype

/-- A round of the thread that completes a serialized frame overwrites its packet with the payload
and handles it. -/
theorem iterate_serialized {t : ReceiveThread} {reader : Blocks.Reader UInt8 packetSize}
    (htracks : t.receiver.Tracks reader) {input : Read} (hinput : input.received.length ≤ packetSize)
    {comms : TComms} {data : Payload} (hone : reader.completed input.received = [serialize comms data]) :
    (t.iterate input).receiver.output = overwrite data t.receiver.output ∧
      (t.iterate input).handled = t.handled ++ [TPacket.ofCells (overwrite data t.receiver.output)] := by
  obtain ⟨hok, hdelivered⟩ := serialize_accepted t.receiver.beyond t.receiver.output comms data
  have hhandled := iterate_handled htracks hinput hone hok
  rwa [hdelivered] at hhandled

/-- A round that completes the frame of a message prints it cut to the field, with a terminator inside
the field, exactly if the message is shorter than the field. -/
theorem messageLaw_iff {t : ReceiveThread} {reader : Blocks.Reader UInt8 packetSize}
    (htracks : t.receiver.Tracks reader) {input : Read} (hinput : input.received.length ≤ packetSize)
    {a : Alex} {message : List UInt8} (hmessage : 0 ∉ message)
    (hone : reader.completed input.received = [messageFrame a message]) :
    MessageLaw t input message ↔ message.length < maxStrLen := by
  obtain ⟨hout, hhandled⟩ := iterate_serialized htracks hinput hone
  have hcells : ∀ i < maxStrLen, (t.iterate input).receiver.output (4 + i) = message.getD i 0 := by
    intro i hi
    rw [hout, overwrite_message a message _ hi]
  constructor
  · intro hlaw
    by_contra hlong
    obtain ⟨i, hi, hnul⟩ := hlaw.inside
    exact ne_nul_of_long hmessage hcells (Nat.le_of_not_lt hlong) hi hnul
  · intro hshort
    have hstring := stringAt_of_short hmessage hcells hshort
    refine ⟨⟨_, hhandled, overwrite_message_type a message t.receiver.output⟩, ?_,
      ⟨_, hshort, hstring.terminated⟩⟩
    rw [List.take_of_length_le (Nat.le_sub_one_of_lt hshort)]
    exact hstring

/-- However a text is sent, and after any earlier reads, an intact transfer prints the text cut to
the field, with a terminator inside the field, exactly if the text is shorter than the field. -/
theorem message_text (a sent : Alex) (message : List UInt8) (cells : Obj → ℕ → UInt8) (inputs : List Read)
    (input : Read) (hmessage : 0 ∉ message) (hsent : SendsText a message sent)
    (hinputs : ∀ earlier ∈ inputs, earlier.received.length ≤ packetSize)
    (hinput : input.received.length ≤ packetSize)
    (hone : (emptyReader.feedAll (inputs.map Read.received)).completed input.received =
      [sent.written.drop a.written.length]) :
    MessageLaw (Run.after ReceiveThread.iterate (.start cells) inputs) input message ↔
      message.length < maxStrLen := by
  have hstart : (ReceiveThread.start cells).receiver.Tracks emptyReader := initial_tracks _
  have htracks := after_iterate_tracks hstart hinputs
  rw [hsent.written] at hone
  exact messageLaw_iff htracks hinput hmessage hone

/-- A read that brings the bytes of a text's message packet. -/
def messageRead (a : Alex) (message : List UInt8) : Read :=
  .bytes ⟨messageFrame a message, (messageFrame_length a message).le.trans (by decide)⟩

/-- A read of a text's message packet brings at most one frame. -/
theorem messageRead_length (a : Alex) (message : List UInt8) :
    (messageRead a message).received.length ≤ packetSize := (messageFrame_length a message).le

/-- A thread between frames takes the read as one frame. -/
theorem completed_messageRead (a : Alex) (message : List UInt8) :
    emptyReader.completed (messageRead a message).received = [messageFrame a message] :=
  Blocks.blocks_of_length_eq packetSize_pos (messageFrame_length a message)

/-- Whatever sent the message, the read brings its bytes. -/
theorem completed_sent {a sent : Alex} {message : List UInt8} (h : SendsText a message sent) :
    emptyReader.completed (messageRead a message).received = [sent.written.drop a.written.length] := by
  rw [h.written]
  exact completed_messageRead a message

/-- Thirty-two letters leave no room for the terminator. -/
theorem message_text_refuted : ¬ ∀ (a sent : Alex) (message : List UInt8) (cells : Obj → ℕ → UInt8)
    (inputs : List Read) (input : Read), 0 ∉ message → SendsText a message sent →
      (∀ earlier ∈ inputs, earlier.received.length ≤ packetSize) → input.received.length ≤ packetSize →
        (emptyReader.feedAll (inputs.map Read.received)).completed input.received =
            [sent.written.drop a.written.length] →
          MessageLaw (Run.after ReceiveThread.iterate (.start cells) inputs) input message := by
  intro hclaim
  let letters : List UInt8 := List.replicate 32 65
  have hletters : 0 ∉ letters := by decide
  have hsent : SendsText .fresh letters (Alex.fresh.sendMessage letters) := Or.inl rfl
  have hlaw := hclaim .fresh (Alex.fresh.sendMessage letters) letters (fun _ _ => 1) []
    (messageRead .fresh letters) hletters hsent (fun _ h => absurd h List.not_mem_nil)
    (messageRead_length .fresh letters) (completed_sent hsent)
  have htracks : (ReceiveThread.start fun _ _ => 1).receiver.Tracks emptyReader := initial_tracks _
  have hshort := (messageLaw_iff htracks (messageRead_length .fresh letters) hletters
    (completed_messageRead .fresh letters)).mp hlaw
  exact absurd hshort (by decide)

/-- The text of the automatic stop arrives whole, as it is short. -/
theorem autoStopped_text :
    MessageLaw (.start fun _ _ => 1) (messageRead .fresh Alex.autoStopped) Alex.autoStopped := by
  have hsent : SendsText .fresh Alex.autoStopped (Alex.fresh.sendMessage Alex.autoStopped) := Or.inl rfl
  have hiff := message_text .fresh (Alex.fresh.sendMessage Alex.autoStopped) Alex.autoStopped (fun _ _ => 1)
    [] (messageRead .fresh Alex.autoStopped) (by decide) hsent (fun _ h => absurd h List.not_mem_nil)
    (messageRead_length .fresh Alex.autoStopped) (completed_sent hsent)
  exact hiff.mpr (by decide)

end AlexRobot
