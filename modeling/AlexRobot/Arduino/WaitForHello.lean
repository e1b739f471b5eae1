import AlexRobot.Arduino.Acknowledge
import AlexRobot.Arduino.Senders

/-!
# Waiting for the hello packet

The sketch can wait for the Pi before it takes commands, although nothing calls the function yet.
It reads until a frame is complete, answers every frame, and goes on until one of them is a hello
packet. The bytes may come in reads of any length up to a frame; what was received behind the hello
packet stays in the receiver.
-/

namespace AlexRobot

open TracedMemory

/-- A frame that is accepted and carries a hello packet. -/
def isHello (frame : List UInt8) : Bool :=
  decide ((verdict fun i => frame.getD i 0) = .packetOk ∧
    (framePacket frame).packetType = TPacketType.hello.code)

/-- A whole frame is accepted, or bad in one of two ways. -/
theorem verdict_cases (comms : ℕ → UInt8) :
    verdict comms = .packetOk ∨ verdict comms = .packetBad ∨ verdict comms = .packetChecksumBad := by
  unfold verdict
  split
  · exact Or.inr (Or.inl rfl)
  · split
    · exact Or.inr (Or.inr rfl)
    · exact Or.inl rfl

/-- The answer to a frame while the sketch waits: OK to a hello packet, an error to anything else. -/
def helloAck (frame : List UInt8) : UInt8 × UInt8 :=
  if isHello frame then ack .response .ok
  else if (verdict fun i => frame.getD i 0) = .packetOk then ack .error .badResponse
  else if (verdict fun i => frame.getD i 0) = .packetBad then ack .error .badPacket
  else ack .error .badChecksum

/-- The frames up to the first hello packet, which is the last of them. -/
def untilHello (frames : List (List UInt8)) : List (List UInt8) :=
  frames.takeWhile (fun frame => !isHello frame) ++ (frames.find? isHello).toList

/-- A hello packet ends the frames that are waited for, whatever follows it. -/
theorem untilHello_cons_of_isHello {frame : List UInt8} (h : isHello frame = true) (rest : List (List UInt8)) :
    untilHello (frame :: rest) = [frame] := by
  rw [untilHello, List.takeWhile_cons_of_neg, List.find?_cons_of_pos h]
  · rfl
  · rw [h]
    exact Bool.false_ne_true

/-- A frame that is no hello packet is followed by the others that are waited for. -/
theorem untilHello_cons_of_not {frame : List UInt8} (h : isHello frame = false) (rest : List (List UInt8)) :
    untilHello (frame :: rest) = frame :: untilHello rest := by
  rw [untilHello, List.takeWhile_cons_of_pos, List.find?_cons_of_neg]
  · rfl
  · rw [h]
    exact Bool.false_ne_true
  · rw [h]
    rfl

namespace Alex

/-- `sendBadResponse` acknowledges a packet that is no hello packet. -/
theorem acks_sendBadResponse (a : Alex) : a.sendBadResponse.acks = a.acks ++ [ack .error .badResponse] :=
  acks_sendResponse ..

/-- The body of the loop behind `readPacket`, and whether it sets `exit`. -/
def greet (a : Alex) (result : TResult) : Alex × Bool :=
  match result with
  | .packetOk =>
    if (TPacket.ofCells a.receiver.output).packetType = TPacketType.hello.code then (a.sendOK, true)
    else (a.sendBadResponse, false)
  | .packetBad => (a.sendBadPacket, false)
  | .packetChecksumBad => (a.sendBadChecksum, false)
  | .packetIncomplete => (a, false)
  | .packetComplete => (a, false)

/-- A read: what the local variable `hello` holds before it, and the bytes that are available. -/
structure HelloRead where
  hello : ℕ → UInt8
  available : List UInt8

/-- What the loop of `waitForHello` does with the bytes of a read. -/
def heed (a : Alex) (read : HelloRead) : Alex × Bool :=
  let (result, receiver) := readPacket a.receiver read.hello read.available
  { a with receiver := receiver }.greet result

/-- `waitForHello`, with the reads that are left when it returns. -/
def waitForHello (a : Alex) : List HelloRead → Alex × Option (List HelloRead)
  | [] => (a, none)
  | read :: rest =>
    let (a, exit) := a.heed read
    if exit then (a, some rest) else a.waitForHello rest

/-- The body leaves the receiver and the wheels alone. -/
theorem greet_eq (a : Alex) (result : TResult) :
    (a.greet result).1.receiver = a.receiver ∧ (a.greet result).1.toMotion = a.toMotion := by
  cases result with
  | packetOk =>
    rw [greet]
    split <;> exact ⟨rfl, rfl⟩
  | packetBad => exact ⟨rfl, rfl⟩
  | packetChecksumBad => exact ⟨rfl, rfl⟩
  | packetIncomplete => exact ⟨rfl, rfl⟩
  | packetComplete => exact ⟨rfl, rfl⟩

/-- The loop of `waitForHello` answers the frame that was judged, and sets `exit` for a hello packet. -/
theorem greet_frame {a : Alex} {frame : List UInt8} (hwhole : WholePacket frame)
    (hframe : frame.length = packetSize)
    (beyond out : ℕ → UInt8) (hout : a.receiver.output = delivered (frameCells beyond frame) out) :
    (a.greet (verdict (frameCells beyond frame))).1.acks = a.acks ++ [helloAck frame] ∧
      (a.greet (verdict (frameCells beyond frame))).2 = isHello frame := by
  have hverdict := hwhole.verdict_eq hframe beyond
  have hpacket := hwhole.packet_eq hframe beyond
  have hbad (hne : verdict (frameCells beyond frame) ≠ .packetOk) : isHello frame = false := by
    rw [isHello, ← hverdict, decide_eq_false fun h => hne h.1]
  rw [helloAck, ← hverdict]
  rcases verdict_cases (frameCells beyond frame) with hcase | hcase | hcase
  · by_cases hhello : (framePacket frame).packetType = TPacketType.hello.code
    · have his : isHello frame = true := by
        rw [isHello, ← hverdict, decide_eq_true ⟨hcase, hhello⟩]
      rw [his, if_pos rfl, hcase, greet, hout, hpacket hcase]
      rw [if_pos hhello]
      exact ⟨acks_sendOK a, rfl⟩
    · have his : isHello frame = false := by
        rw [isHello, ← hverdict, decide_eq_false fun h => hhello h.2]
      rw [his, if_neg Bool.false_ne_true, if_pos hcase, hcase, greet, hout, hpacket hcase]
      rw [if_neg hhello]
      exact ⟨acks_sendBadResponse a, rfl⟩
  · rw [hbad (hcase ▸ nofun), if_neg Bool.false_ne_true, hcase]
    exact ⟨acks_sendBadPacket a, rfl⟩
  · rw [hbad (hcase ▸ nofun), if_neg Bool.false_ne_true, hcase]
    exact ⟨acks_sendBadChecksum a, rfl⟩

/-- A read feeds its bytes to the receiver, and the frame that they complete is answered, if there is
one. -/
theorem heed_spec {a : Alex} {reader : Blocks.Reader UInt8 packetSize} (h : a.receiver.Tracks reader)
    {read : HelloRead} (hlen : read.available.length ≤ packetSize)
    (hframes : ∀ frame ∈ reader.completed read.available, WholePacket frame) :
    (a.heed read).1.receiver.Tracks (reader.feed read.available) ∧ (a.heed read).1.toMotion = a.toMotion ∧
      ((reader.completed read.available = [] ∧ (a.heed read).1.acks = a.acks ∧ (a.heed read).2 = false) ∨
        ∃ frame, reader.completed read.available = [frame] ∧
          (a.heed read).1.acks = a.acks ++ [helloAck frame] ∧ (a.heed read).2 = isHello frame) := by
  have hspec := readPacket_spec h read.hello hlen
  rw [heed]
  generalize readPacket a.receiver read.hello read.available = outcome at hspec ⊢
  obtain ⟨result, receiver⟩ := outcome
  obtain ⟨htracks, -, hcases⟩ := hspec
  obtain ⟨hreceiver, hmotion⟩ := { a with receiver := receiver }.greet_eq result
  dsimp only at htracks hcases hreceiver hmotion ⊢
  refine ⟨?_, hmotion, ?_⟩
  · rw [hreceiver]
    exact htracks
  rcases hcases with ⟨hnone, rfl⟩ | ⟨frame, hone, rfl, hout⟩
  · exact Or.inl ⟨hnone, rfl, rfl⟩
  · have hframe : frame.length = packetSize :=
      Blocks.length_of_mem_blocks (List.mem_of_mem_head? (congrArg List.head? hone))
    have hwhole := hframes frame (hone ▸ List.mem_singleton_self frame)
    exact Or.inr ⟨frame, hone, greet_frame hwhole hframe a.receiver.beyond read.hello hout⟩

/-- What a call has done that has read some of the reads, and its outcome. -/
structure Greeted (a : Alex) (reader : Blocks.Reader UInt8 packetSize) (reads : List HelloRead)
    (outcome : Alex × Option (List HelloRead)) : Prop where
  acks : outcome.1.acks = a.acks ++
    (untilHello (reader.completed (reads.map HelloRead.available).flatten)).map helloAck
  returns : outcome.2.isSome = (reader.completed (reads.map HelloRead.available).flatten).any isHello
  motion : outcome.1.toMotion = a.toMotion
  receiver : ∃ read, read ++ outcome.2.getD [] = reads ∧
    outcome.1.receiver.Tracks (reader.feedAll (read.map HelloRead.available))

/-- The frames of the first read, and those of the others. -/
theorem completed_reads (reader : Blocks.Reader UInt8 packetSize) (read : HelloRead) (rest : List HelloRead) :
    reader.completed ((read :: rest).map HelloRead.available).flatten = reader.completed read.available ++
      (reader.feed read.available).completed (rest.map HelloRead.available).flatten := by
  rw [List.map_cons, List.flatten_cons, reader.completed_append]

/-- `waitForHello` on reads of at most a frame each, from any state of the receiver. -/
theorem waitForHello_spec {a : Alex} {reader : Blocks.Reader UInt8 packetSize} (h : a.receiver.Tracks reader)
    {reads : List HelloRead} (hlen : ∀ read ∈ reads, read.available.length ≤ packetSize)
    (hframes : ∀ frame ∈ reader.completed (reads.map HelloRead.available).flatten, WholePacket frame) :
    Greeted a reader reads (a.waitForHello reads) := by
  induction reads generalizing a reader with
  | nil =>
    have hnone : reader.completed (([] : List HelloRead).map HelloRead.available).flatten = [] :=
      reader.completed_nil
    refine ⟨?_, ?_, rfl, [], rfl, h⟩
    · rw [hnone]
      exact (List.append_nil _).symm
    · rw [hnone]
      rfl
  | cons read rest ih =>
    rw [completed_reads] at hframes
    obtain ⟨htracks, hmotion, hcases⟩ := heed_spec h (hlen read List.mem_cons_self)
      fun frame hframe => hframes frame (List.mem_append_left _ hframe)
    have hrest : ∀ read ∈ rest, read.available.length ≤ packetSize := fun later hlater =>
      hlen later (List.mem_cons_of_mem _ hlater)
    have hlater := ih htracks hrest fun frame hframe => hframes frame (List.mem_append_right _ hframe)
    rw [waitForHello]
    generalize a.heed read = heeded at htracks hmotion hcases hlater ⊢
    obtain ⟨a', exit⟩ := heeded
    dsimp only at htracks hmotion hcases hlater ⊢
    cases exit with
    | true =>
      rw [if_pos rfl]
      -- The call returns, and `rest` is left.
      obtain ⟨-, -, hfalse⟩ | ⟨frame, hone, hacks, hhello⟩ := hcases
      · cases hfalse
      · refine ⟨?_, ?_, hmotion, [read], rfl, htracks⟩
        · rw [completed_reads, hone, List.singleton_append, untilHello_cons_of_isHello hhello.symm]
          exact hacks
        · rw [completed_reads, hone, List.singleton_append, List.any_cons, ← hhello]
          rfl
    | false =>
      rw [if_neg Bool.false_ne_true]
      obtain ⟨consumed, hconsumed, hreceiver⟩ := hlater.receiver
      have hfed : ∃ consumed, consumed ++ (a'.waitForHello rest).2.getD [] = read :: rest ∧
          (a'.waitForHello rest).1.receiver.Tracks (reader.feedAll (consumed.map HelloRead.available)) :=
        ⟨read :: consumed, congrArg (read :: ·) hconsumed, hreceiver⟩
      obtain ⟨hnone, hacks, -⟩ | ⟨frame, hone, hacks, hhello⟩ := hcases
      · refine ⟨?_, ?_, hlater.motion.trans hmotion, hfed⟩
        · rw [completed_reads, hnone, List.nil_append]
          exact hacks ▸ hlater.acks
        · rw [completed_reads, hnone, List.nil_append]
          exact hlater.returns
      · refine ⟨?_, ?_, hlater.motion.trans hmotion, hfed⟩
        · rw [completed_reads, hone, List.singleton_append, untilHello_cons_of_not hhello.symm,
            hlater.acks, hacks, List.append_assoc]
          rfl
        · rw [completed_reads, hone, List.singleton_append, List.any_cons, ← hhello, Bool.false_or]
          exact hlater.returns

end Alex

/-- However the bytes come in, `waitForHello` returns if and only if a hello packet is among their
frames. It answers every frame up to that, each once and in order, and drives nothing; the bytes that it
has taken behind the hello packet are held back for the next call of `readPacket`. -/
theorem waits_for_hello (alexCirc : ℚ) (stack : Stack) (memory : Memory Obj UInt8) (reads : List Alex.HelloRead)
    (hlen : ∀ read ∈ reads, read.available.length ≤ packetSize)
    (hframes : ∀ frame ∈ Blocks.blocks packetSize (reads.map Alex.HelloRead.available).flatten,
      WholePacket frame) :
    let a := Alex.setup alexCirc stack memory
    let frames := Blocks.blocks packetSize (reads.map Alex.HelloRead.available).flatten
    let outcome := a.waitForHello reads
    (outcome.2.isSome ↔ ∃ frame ∈ frames, isHello frame = true) ∧
      outcome.1.acks = (untilHello frames).map helloAck ∧ outcome.1.toMotion = a.toMotion ∧
        ∃ read, read ++ outcome.2.getD [] = reads ∧
          outcome.1.receiver.Tracks (emptyReader.feedAll (read.map Alex.HelloRead.available)) := by
  intro a frames outcome
  have htracks : a.receiver.Tracks emptyReader := initial_tracks memory
  rw [← emptyReader_completed] at hframes
  have hgreeted := Alex.waitForHello_spec htracks hlen hframes
  refine ⟨?_, hgreeted.acks, hgreeted.motion, hgreeted.receiver⟩
  rw [hgreeted.returns, List.any_eq_true]
  rfl

/-- The frame that the Pi builds for its hello packet. -/
def helloFrame : List UInt8 := serialize zeroComms (TPacket.bare .hello .stop).payload

/-- The Pi's hello packet in two parts ends the waiting. -/
theorem helloFrame_waits_for_hello :
    (Alex.fresh.waitForHello [⟨fun _ => 0, helloFrame.take 100⟩, ⟨fun _ => 0, helloFrame.drop 100⟩]).1.acks =
      [ack .response .ok] := by
  let reads : List Alex.HelloRead := [⟨fun _ => 0, helloFrame.take 100⟩, ⟨fun _ => 0, helloFrame.drop 100⟩]
  have hlength : helloFrame.length = 140 := serialize_length _ _
  have hstream : (reads.map Alex.HelloRead.available).flatten = helloFrame := by
    simp [reads]
  have hblocks := Blocks.blocks_of_length_eq packetSize_pos hlength
  have hhello : isHello helloFrame = true := by
    have hok : (verdict fun i => helloFrame.getD i 0) = .packetOk :=
      (serialize_accepted (fun _ => 0) (fun _ => 0) zeroComms (TPacket.bare .hello .stop).payload).1
    have htype : (framePacket helloFrame).packetType = TPacketType.hello.code := by
      rw [helloFrame, framePacket_serialize]
      rfl
    exact decide_eq_true ⟨hok, htype⟩
  have hlen : ∀ read ∈ reads, read.available.length ≤ packetSize := by
    simp [reads, hlength, packetSize]
  have hrun :=
    waits_for_hello 0 ⟨fun _ => .bare .commandKeyboard .stop, fun _ => zeroComms⟩ ⟨fun _ _ => 0, []⟩ reads
    hlen (by
      rw [hstream, hblocks]
      intro frame hframe
      rw [List.mem_singleton.mp hframe]
      exact Or.inr (claimedSize_packet zeroComms (TPacket.bare .hello .stop)))
  obtain ⟨-, hacks, -⟩ := hrun
  rw [hstream, hblocks, untilHello_cons_of_isHello hhello] at hacks
  refine hacks.trans ?_
  rw [List.map_singleton, helloAck, if_pos hhello]

end AlexRobot
