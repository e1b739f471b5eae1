import AlexRobot.Arduino.Commanded
import AlexRobot.Arduino.Senders
import AlexRobot.Arduino.Transmission
import AlexRobot.Common.Line
import AlexRobot.Pi.ReceiveThread
import AlexRobot.Wire.Noise

/-!
# The robot and the program that controls it

The Pi's program and the server meet the Arduino in the same way: they write frames to one line,
and a thread reads the other in chunks of its own. Here the two programs and the two lines make one
machine whose steps interleave in any order. A line may damage frames and lose bytes, by a pattern
that the machine is given; what a step brings is whatever the other program has sent and the line
still holds. What the results need of the lines, they say: that a line is lossless, or that it is
clean.
-/

namespace AlexRobot

open TracedMemory

/-- The acknowledgement of a packet after the noise has happened to its frame, if any. -/
def Noise.answer (e : Noise) (packet : TPacket) : Option (UInt8 × UInt8) :=
  match e.result with
  | .packetOk => packet.ackFor
  | .packetBad => some (ack .error .badPacket)
  | .packetChecksumBad => some (ack .error .badChecksum)
  | .packetIncomplete => none
  | .packetComplete => none

/-- A packet to whose frame nothing happens is acknowledged as it calls for. -/
theorem Noise.answer_silent : Noise.silent.answer = TPacket.ackFor := by
  funext packet
  rw [answer, result_silent]

/-- What arrives of a frame that one of the programs builds for a packet. -/
def IsArrival (frame : List UInt8) : Prop :=
  ∃ (e : Noise) (comms : TComms) (packet : TPacket), frame = e.arrive (serialize comms packet.payload)

/-- A frame that arrives calls for an acknowledgement by the noise alone. -/
theorem frameAck_arrive (e : Noise) (comms : TComms) (packet : TPacket) :
    frameAck (e.arrive (serialize comms packet.payload)) = e.answer packet := by
  have hverdict := e.verdict_arrive comms packet fun _ => 0
  unfold frameCells at hverdict
  rw [frameAck, hverdict, Noise.answer]
  cases hresult : e.result with
  | packetOk => exact congrArg TPacket.ackFor (e.framePacket_arrive comms packet hresult)
  | packetBad => rfl
  | packetChecksumBad => rfl
  | packetIncomplete => rfl
  | packetComplete => rfl

namespace IsArrival

variable {frame : List UInt8} (h : IsArrival frame)

include h

/-- A frame that arrives claims the size of a whole packet. -/
theorem wholePacket : WholePacket frame := by
  obtain ⟨e, comms, packet, hframe⟩ := h
  rw [hframe]
  exact Or.inr (e.claimedSize_arrive comms packet)

/-- A frame that arrives is accepted or reported, whatever memory holds behind it. -/
theorem cases (beyond out : ℕ → UInt8) :
    (verdict (frameCells beyond frame) = .packetOk ∧ frameError? frame = none ∧
        brought? frame = some (TPacket.ofCells (delivered (frameCells beyond frame) out))) ∨
      (verdict (frameCells beyond frame) ≠ .packetOk ∧ verdict (frameCells beyond frame) ≠ .packetIncomplete ∧
        frameError? frame = some (verdict (frameCells beyond frame)) ∧ brought? frame = none) := by
  have hlength : frame.length = packetSize := by
    obtain ⟨e, comms, packet, hframe⟩ := h
    rw [hframe, e.arrive_serialize_length comms packet]
  have hsame := h.wholePacket.verdict_eq hlength beyond
  have hincomplete : verdict (frameCells beyond frame) ≠ .packetIncomplete := by
    unfold verdict
    split
    · exact nofun
    · split <;> exact nofun
  rw [frameError?, brought?, ← hsame]
  by_cases hok : verdict (frameCells beyond frame) = .packetOk
  · rw [if_pos hok, if_pos hok, h.wholePacket.packet_eq hlength beyond hok out]
    exact Or.inl ⟨hok, rfl, rfl⟩
  · rw [if_neg hok, if_neg hok]
    exact Or.inr ⟨hok, hincomplete, rfl, rfl⟩

end IsArrival

/-- A round of the thread handles the packet that the frame that its bytes complete brings, or logs the
error. -/
theorem iterate_frames {t : ReceiveThread} {reader : Blocks.Reader UInt8 packetSize}
    (h : t.receiver.Tracks reader) {read : Read} (hlen : read.received.length ≤ packetSize)
    (hframes : ∀ frame ∈ reader.completed read.received, IsArrival frame) :
    (t.iterate read).handled = t.handled ++ (reader.completed read.received).filterMap brought? ∧
      (t.iterate read).errors = t.errors ++ (reader.completed read.received).filterMap frameError? := by
  by_cases hempty : read.received = []
  · rw [iterate_empty t hempty, hempty, reader.completed_nil]
    exact ⟨(List.append_nil _).symm, (List.append_nil _).symm⟩
  · rw [iterate_received t hempty]
    obtain ⟨-, -, ⟨hnone, hresult, -⟩ | ⟨frame, hone, hresult, hout⟩⟩ := receive_spec h hlen
    · rw [hnone, hresult]
      exact ⟨(List.append_nil _).symm, (List.append_nil _).symm⟩
    · have harrival := hframes frame (hone ▸ List.mem_singleton_self frame)
      rw [hone, hresult, ReceiveThread.dispatch, List.filterMap_cons, List.filterMap_cons, hout]
      obtain ⟨hok, herror, hbrought⟩ | ⟨hbad, hincomplete, herror, hbrought⟩ :=
        harrival.cases t.receiver.beyond t.receiver.output
      · rw [if_pos hok, herror, hbrought]
        exact ⟨rfl, (List.append_nil _).symm⟩
      · rw [if_neg hbad, if_pos hincomplete, herror, hbrought]
        exact ⟨(List.append_nil _).symm, rfl⟩

namespace Alex

/-- An iteration of `loop()` handles the packet that the frame that its bytes complete brings. -/
theorem handled_frames {a : Alex} {reader : Blocks.Reader UInt8 packetSize} (h : a.receiver.Tracks reader)
    (s : Surroundings) (hlen : s.available.length ≤ packetSize)
    (hframes : ∀ frame ∈ reader.completed s.available, IsArrival frame) :
    a.handled (.loop s) = (reader.completed s.available).filterMap brought? := by
  rw [handled, handles, accepted]
  obtain ⟨-, -, ⟨hnone, hresult⟩ | ⟨frame, hone, hresult, hout⟩⟩ := readPacket_spec h s.recvPacket hlen
  · rw [hnone, hresult]
    rfl
  · have harrival := hframes frame (hone ▸ List.mem_singleton_self frame)
    rw [hone, hresult, List.filterMap_cons, hout]
    obtain ⟨hok, -, hbrought⟩ | ⟨hbad, -, -, hbrought⟩ := harrival.cases a.receiver.beyond s.recvPacket
    · rw [if_pos hok, hbrought]
      rfl
    · rw [if_neg hbad, hbrought]
      rfl

end Alex

/-- A program that controls the robot: its state, its own inputs, and what else a round of its receive
thread meets. The thread sends nothing, and the rest of the program leaves the thread alone. -/
structure Host (σ ι ρ : Type*) where
  step : σ → ι → σ
  round : σ → Read → ρ → σ
  thread : σ → ReceiveThread
  sent : σ → List TPacket
  step_thread : ∀ s input, thread (step s input) = thread s
  step_sent : ∀ s input, sent s <+: sent (step s input)
  round_thread : ∀ s read env, thread (round s read env) = (thread s).iterate read
  round_sent : ∀ s read env, sent (round s read env) = sent s

/-- What happens on one line: to each frame that is put on it, and to each byte, which is lost or not,
by its position among all the bytes put on the line. -/
structure Wire where
  noise : ℕ → Noise
  lost : ℕ → Bool

namespace Wire

/-- No byte is lost on the line, neither where `write` takes only a part of a frame nor in a buffer that
is full. -/
def Lossless (wire : Wire) : Prop := ∀ i, wire.lost i = false

/-- No byte is lost and no frame is damaged on the line. -/
structure Clean (wire : Wire) : Prop where
  lossless : wire.Lossless
  undamaged : ∀ i, wire.noise i = .silent

/-- The wire on which nothing happens to any frame or byte. -/
def quiet : Wire := ⟨fun _ => .silent, fun _ => false⟩

/-- The quiet wire is clean: it loses no byte and damages no frame. -/
theorem quiet_clean : quiet.Clean := ⟨fun _ => rfl, fun _ => rfl⟩

/-- The noise of a clean wire is the silent one for every frame. -/
theorem Clean.noise_eq {wire : Wire} (h : wire.Clean) : wire.noise = fun _ => .silent := funext h.undamaged

end Wire

/-- What the frames meet: what the host's stack holds where each of its frames is built, and what
happens on the line to the Arduino and on the line from it. -/
structure Wires where
  comms : ℕ → TComms
  down : Wire
  up : Wire

/-- Two quiet wires, with what the host's stack holds for its frames. -/
def Wires.quiet (comms : ℕ → TComms) : Wires := ⟨comms, .quiet, .quiet⟩

/-- The two programs, the line to the Arduino and the line from it, with the packets that the Arduino has
handled. -/
structure System (σ : Type*) where
  host : σ
  alex : Alex
  down : Blocks.Line UInt8 packetSize
  up : Blocks.Line UInt8 packetSize
  handled : List TPacket

namespace System

variable {σ ι ρ : Type*} (H : Host σ ι ρ) (wires : Wires)

/-- What happens: the host gets an input, a wheel encoder gives a pulse, the Arduino goes through `loop()`,
or the host's thread through a round. The last two take bytes off their line, as many as are there up to
`count`; a round that takes none is one in which `read` fails. -/
inductive Event (ι ρ : Type*)
  | host (input : ι)
  | leftPulse
  | rightPulse
  | loop (guardEcho : UInt32) (sensors : Sensors) (recvPacket : ℕ → UInt8) (count : ℕ)
  | round (count : ℕ) (env : ρ)

/-- The reads of an event bring at most one frame of bytes. -/
def Event.Fits : Event ι ρ → Prop
  | .host _ => True
  | .leftPulse => True
  | .rightPulse => True
  | .loop _ _ _ count => count ≤ packetSize
  | .round count _ => count ≤ packetSize

/-- The host puts the frames of what it has just sent on its line. -/
def hostTo (s : System σ) (host : σ) : System σ :=
  { s with
    host := host
    down := s.down.put (newArrivals wires.down.noise wires.comms (H.sent s.host) (H.sent host)) fun _ =>
      length_of_mem_newArrivals }

/-- The Arduino does an operation, and puts the frames of what it has sent in it on its line. -/
def alexStep (s : System σ) (op : Alex.Op) : System σ :=
  { s with
    alex := s.alex.step op
    up := s.up.put (newArrivals wires.up.noise s.alex.stack.comms s.alex.sent (s.alex.step op).sent) fun _ =>
      length_of_mem_newArrivals
    handled := s.handled ++ s.alex.handled op }

/-- What `read` gives the host's thread: the bytes that are there, `MAX_BUFFER_LEN` at most. -/
def read (s : System σ) (count : ℕ) : Read :=
  .bytes ⟨s.up.chunk (min count maxBufferLen), (s.up.chunk_length_le _).trans (min_le_right _ _)⟩

/-- One event of the two programs and the two lines between them. -/
def step (s : System σ) : Event ι ρ → System σ
  | .host input => s.hostTo H wires (H.step s.host input)
  | .leftPulse => s.alexStep wires .leftPulse
  | .rightPulse => s.alexStep wires .rightPulse
  | .loop guardEcho sensors recvPacket count =>
    { s.alexStep wires (.loop ⟨guardEcho, sensors, recvPacket, s.down.chunk count⟩) with
      down := s.down.take count }
  | .round count env =>
    { s with host := H.round s.host (s.read count) env, up := s.up.take (min count maxBufferLen) }

/-- The host as it starts, with what it has sent until then on its line, and the Arduino after
`setup()`. -/
def start (host : σ) (alexCirc : ℚ) (stack : Stack) (memory : Memory Obj UInt8) : System σ where
  host := host
  alex := Alex.setup alexCirc stack memory
  down := (Blocks.Line.empty packetSize_pos wires.down.lost).put
    (arrivals wires.down.noise (packetFrames wires.comms (H.sent host))) fun _ => length_of_mem_arrivals
  up := Blocks.Line.empty packetSize_pos wires.up.lost
  handled := []

/-- The line to the Arduino carries what arrives of the frames that the host has sent, the Arduino's
receiver holds back what that line says, and what was delivered was handled or reported, and is obeyed. -/
structure LinkedDown (s : System σ) : Prop where
  lost : s.down.lost = wires.down.lost
  sent : s.down.sent = arrivals wires.down.noise (packetFrames wires.comms (H.sent s.host))
  tracks : s.alex.receiver.Tracks s.down.reader
  handled : s.handled = s.down.delivered.filterMap brought?
  acks : s.alex.acks = s.down.delivered.filterMap frameAck
  obeys : (Drive.resting.obeyAll s.handled).Obeys s.alex.control

/-- The line from the Arduino carries what arrives of the frames that the Arduino has written, the
host's receiver holds back what that line says, and what was delivered was handled or logged. -/
structure LinkedUp (s : System σ) : Prop where
  lost : s.up.lost = wires.up.lost
  sent : s.up.sent = arrivals wires.up.noise (packetFrames s.alex.stack.comms s.alex.sent)
  written : s.alex.Framed
  reports : ∀ packet ∈ s.alex.sent, Alex.IsReport packet
  tracks : (H.thread s.host).receiver.Tracks s.up.reader
  heard : (H.thread s.host).handled = s.up.delivered.filterMap brought?
  errors : (H.thread s.host).errors = s.up.delivered.filterMap frameError?

variable {H wires} {s : System σ}

/-- A host that stays as it is puts nothing on its line. -/
theorem hostTo_self (s : System σ) : s.hostTo H wires s.host = s := by
  rw [System.hostTo]
  simp only [newArrivals_self, Blocks.Line.put_nil]

/-- A lossless wire makes the line to the Arduino lossless. -/
theorem LinkedDown.lossless (h : s.LinkedDown H wires) (hlossless : wires.down.Lossless) : s.down.Lossless :=
  fun i => (congrFun h.lost i).trans (hlossless i)

/-- A lossless wire makes the line from the Arduino lossless. -/
theorem LinkedUp.lossless (h : s.LinkedUp H wires) (hlossless : wires.up.Lossless) : s.up.Lossless :=
  fun i => (congrFun h.lost i).trans (hlossless i)

/-- The frames that the Arduino completes from a faithful line have arrived. -/
theorem LinkedDown.isArrival (h : s.LinkedDown H wires) (hfaithful : s.down.Faithful) {count : ℕ}
    {frame : List UInt8}
    (hframe : frame ∈ s.down.reader.completed (s.down.chunk count)) : IsArrival frame := by
  have hmem := hfaithful.mem_sent hframe
  rw [h.sent] at hmem
  exact mem_arrivals hmem

/-- The frames that the host completes from a faithful line have arrived. -/
theorem LinkedUp.isArrival (h : s.LinkedUp H wires) (hfaithful : s.up.Faithful) {count : ℕ} {frame : List UInt8}
    (hframe : frame ∈ s.up.reader.completed (s.up.chunk count)) : IsArrival frame := by
  have hmem := hfaithful.mem_sent hframe
  rw [h.sent] at hmem
  exact mem_arrivals hmem

/-- The frames of what the host sends go on the line to the Arduino. -/
theorem LinkedDown.hostTo (h : s.LinkedDown H wires) {host : σ} (hsent : H.sent s.host <+: H.sent host) :
    (s.hostTo H wires host).LinkedDown H wires where
  lost := h.lost
  sent := by
    change s.down.sent ++ newArrivals wires.down.noise wires.comms (H.sent s.host) (H.sent host) = _
    rw [h.sent, arrivals_append_newArrivals hsent]
    rfl
  tracks := h.tracks
  handled := h.handled
  acks := h.acks
  obeys := h.obeys

/-- A host that leaves its thread alone stays linked to the line from the Arduino. -/
theorem LinkedUp.hostTo (h : s.LinkedUp H wires) {host : σ} (hthread : H.thread host = H.thread s.host) :
    (s.hostTo H wires host).LinkedUp H wires where
  lost := h.lost
  sent := h.sent
  written := h.written
  reports := h.reports
  tracks := hthread ▸ h.tracks
  heard := hthread ▸ h.heard
  errors := hthread ▸ h.errors

/-- What the line to the Arduino delivers in an operation is handled and acknowledged in it. -/
theorem LinkedDown.alexStep (h : s.LinkedDown H wires) {op : Alex.Op} {frames : List (List UInt8)}
    (down : Blocks.Line UInt8 packetSize) (hlost : down.lost = s.down.lost) (hsent : down.sent = s.down.sent)
    (hdelivered : down.delivered = s.down.delivered ++ frames)
    (hhandled : s.alex.handled op = frames.filterMap brought?)
    (htracks : (s.alex.step op).receiver.Tracks down.reader)
    (hacks : (s.alex.step op).acks = s.alex.acks ++ frames.filterMap frameAck) :
    { s.alexStep wires op with down := down }.LinkedDown H wires where
  lost := hlost.trans h.lost
  sent := hsent.trans h.sent
  tracks := htracks
  handled := by
    change s.handled ++ s.alex.handled op = down.delivered.filterMap brought?
    rw [hdelivered, h.handled, hhandled, List.filterMap_append]
  acks := by
    change (s.alex.step op).acks = down.delivered.filterMap frameAck
    rw [hacks, h.acks, hdelivered, List.filterMap_append]
  obeys := by
    change (Drive.resting.obeyAll (s.handled ++ s.alex.handled op)).Obeys (s.alex.step op).control
    rw [Drive.obeyAll_append]
    exact Alex.obeys_step h.obeys op

/-- The frames of what the Arduino sends in an operation go on the line from it. -/
theorem LinkedUp.alexStep (h : s.LinkedUp H wires) (op : Alex.Op) (down : Blocks.Line UInt8 packetSize) :
    { s.alexStep wires op with down := down }.LinkedUp H wires := by
  obtain ⟨hstack, hprefix, hframed⟩ := s.alex.transmits_step op
  exact
    { lost := h.lost
      sent := by
        change s.up.sent ++ newArrivals wires.up.noise s.alex.stack.comms s.alex.sent (s.alex.step op).sent =
          arrivals wires.up.noise (packetFrames (s.alex.step op).stack.comms (s.alex.step op).sent)
        rw [h.sent, arrivals_append_newArrivals hprefix, hstack]
      written := hframed h.written
      reports := by
        obtain ⟨packets, hpackets, hkind⟩ := s.alex.appends_step op
        change ∀ packet ∈ (s.alex.step op).sent, Alex.IsReport packet
        rw [hpackets]
        exact List.forall_mem_append.mpr ⟨h.reports, fun packet hpacket => (hkind packet hpacket).isReport⟩
      tracks := h.tracks
      heard := h.heard
      errors := h.errors }

/-- An iteration of `loop()` handles what a faithful line to the Arduino delivers. -/
theorem LinkedDown.loop (h : s.LinkedDown H wires) (hfaithful : s.down.Faithful) (guardEcho : UInt32)
    (sensors : Sensors) (recvPacket : ℕ → UInt8) {count : ℕ} (hlen : (s.down.chunk count).length ≤ packetSize) :
    { s.alexStep wires (.loop ⟨guardEcho, sensors, recvPacket, s.down.chunk count⟩) with
      down := s.down.take count }.LinkedDown H wires := by
  let around : Alex.Surroundings := ⟨guardEcho, sensors, recvPacket, s.down.chunk count⟩
  have hframes : ∀ frame ∈ s.down.reader.completed around.available, IsArrival frame := fun _ =>
    h.isArrival hfaithful
  have hhandled := Alex.handled_frames h.tracks around hlen hframes
  have hacks := Alex.acks_loop_completed h.tracks around hlen fun frame hframe =>
    (hframes frame hframe).wholePacket
  have htracks := Alex.step_tracks h.tracks (.loop around) hlen
  exact h.alexStep (s.down.take count) rfl rfl rfl hhandled htracks hacks

/-- A pulse of an encoder leaves the line to the Arduino alone. -/
theorem LinkedDown.pulse (h : s.LinkedDown H wires) {op : Alex.Op} (hop : op = .leftPulse ∨ op = .rightPulse) :
    (s.alexStep wires op).LinkedDown H wires := by
  have hnone : s.alex.handled op = [] := by
    rcases hop with rfl | rfl <;> rfl
  have hreceiver : (s.alex.step op).receiver = s.alex.receiver := by
    rcases hop with rfl | rfl <;> rfl
  have hacks : (s.alex.step op).acks = s.alex.acks := by
    rcases hop with rfl | rfl <;> rfl
  refine h.alexStep s.down rfl rfl (List.append_nil _).symm hnone ?_ ?_
  · rw [hreceiver]
    exact h.tracks
  · rw [hacks]
    exact (List.append_nil _).symm

/-- A round of the host's thread puts nothing on the line to the Arduino. -/
theorem LinkedDown.round (h : s.LinkedDown H wires) (count : ℕ) (env : ρ) :
    (s.step H wires (.round count env)).LinkedDown H wires where
  lost := h.lost
  sent := (H.round_sent s.host (s.read count) env).symm ▸ h.sent
  tracks := h.tracks
  handled := h.handled
  acks := h.acks
  obeys := h.obeys

/-- A round of the host's thread hears what a faithful line from the Arduino delivers. -/
theorem LinkedUp.round (h : s.LinkedUp H wires) (hfaithful : s.up.Faithful) {count : ℕ}
    (hlen : (s.read count).received.length ≤ packetSize) (env : ρ) :
    (s.step H wires (.round count env)).LinkedUp H wires := by
  have hframes : ∀ frame ∈ s.up.reader.completed (s.read count).received, IsArrival frame :=
    fun _ => h.isArrival hfaithful
  obtain ⟨hheard, herrors⟩ := iterate_frames h.tracks hlen hframes
  have htracks := iterate_tracks h.tracks hlen
  have hthread : H.thread (H.round s.host (s.read count) env) = (H.thread s.host).iterate (s.read count) :=
    H.round_thread ..
  exact
    { lost := h.lost
      sent := h.sent
      written := h.written
      reports := h.reports
      tracks := hthread ▸ htracks
      heard := by
        change (H.thread (H.round s.host (s.read count) env)).handled =
          (s.up.delivered ++ s.up.reader.completed (s.read count).received).filterMap brought?
        rw [hthread, hheard, h.heard, List.filterMap_append]
      errors := by
        change (H.thread (H.round s.host (s.read count) env)).errors =
          (s.up.delivered ++ s.up.reader.completed (s.read count).received).filterMap frameError?
        rw [hthread, herrors, h.errors, List.filterMap_append] }

/-- The bytes that an event takes off one of the lines. -/
def Event.bytes (s : System σ) : Event ι ρ → List UInt8
  | .host _ => []
  | .leftPulse => []
  | .rightPulse => []
  | .loop _ _ _ count => s.down.chunk count
  | .round count _ => (s.read count).received

/-- An event whose reads fit takes at most a frame of bytes. -/
theorem Event.Fits.bytes_length_le {event : Event ι ρ} (h : event.Fits) (s : System σ) :
    (event.bytes s).length ≤ packetSize := by
  cases event with
  | host input => exact Nat.zero_le _
  | leftPulse => exact Nat.zero_le _
  | rightPulse => exact Nat.zero_le _
  | loop guardEcho sensors recvPacket count => exact (s.down.chunk_length_le count).trans h
  | round count env => exact (s.up.chunk_length_le _).trans ((min_le_left _ _).trans h)

/-- Every event that takes at most a frame of bytes keeps the Arduino linked to a faithful line to it. -/
theorem linkedDown_step (h : s.LinkedDown H wires) (hfaithful : s.down.Faithful) {event : Event ι ρ}
    (hlen : (event.bytes s).length ≤ packetSize) : (s.step H wires event).LinkedDown H wires := by
  cases event with
  | host input => exact h.hostTo (H.step_sent s.host input)
  | leftPulse => exact h.pulse (Or.inl rfl)
  | rightPulse => exact h.pulse (Or.inr rfl)
  | loop guardEcho sensors recvPacket count => exact h.loop hfaithful guardEcho sensors recvPacket hlen
  | round count env => exact h.round count env

/-- Every event that takes at most a frame of bytes keeps the host linked to a faithful line from the
Arduino. -/
theorem linkedUp_step (h : s.LinkedUp H wires) (hfaithful : s.up.Faithful) {event : Event ι ρ}
    (hlen : (event.bytes s).length ≤ packetSize) : (s.step H wires event).LinkedUp H wires := by
  cases event with
  | host input => exact h.hostTo (H.step_thread s.host input)
  | leftPulse => exact h.alexStep .leftPulse s.down
  | rightPulse => exact h.alexStep .rightPulse s.down
  | loop guardEcho sensors recvPacket count =>
    exact h.alexStep (.loop ⟨guardEcho, sensors, recvPacket, s.down.chunk count⟩) (s.down.take count)
  | round count env => exact h.round hfaithful hlen env

/-- The programs start with the Arduino linked to the line to it. -/
theorem linkedDown_start (host : σ) (alexCirc : ℚ) (stack : Stack) (memory : Memory Obj UInt8) :
    (start H wires host alexCirc stack memory).LinkedDown H wires where
  lost := rfl
  sent := rfl
  tracks := initial_tracks memory
  handled := rfl
  acks := rfl
  obeys := Or.inl ⟨rfl, rfl⟩

/-- The programs start with the host linked to the line from the Arduino, if the host's thread starts
afresh. -/
theorem linkedUp_start {host : σ} {cells : Obj → ℕ → UInt8}
    (hthread : H.thread host = ReceiveThread.start cells)
    (alexCirc : ℚ) (stack : Stack) (memory : Memory Obj UInt8) :
    (start H wires host alexCirc stack memory).LinkedUp H wires where
  lost := rfl
  sent := rfl
  written := rfl
  reports packet hpacket := absurd hpacket List.not_mem_nil
  tracks := by
    change (H.thread host).receiver.Tracks emptyReader
    rw [hthread]
    exact initial_tracks _
  heard := by
    change (H.thread host).handled = []
    rw [hthread]
    rfl
  errors := by
    change (H.thread host).errors = []
    rw [hthread]
    rfl

/-- Over a lossless wire the Arduino stays linked to the line to it in every run whose reads fit. -/
theorem linkedDown_run (h : s.LinkedDown H wires) (hlossless : wires.down.Lossless) {events : List (Event ι ρ)}
    (hfits : ∀ event ∈ events, event.Fits) : (Run.after (step H wires) s events).LinkedDown H wires := by
  refine Run.after_of_along (fun s => s.LinkedDown H wires) ?_ h ((Run.along_iff_forall s events).mpr hfits)
  intro s event hlinked hevent
  exact linkedDown_step hlinked (hlinked.lossless hlossless).faithful (hevent.bytes_length_le s)

/-- Over a lossless wire the host stays linked to the line from the Arduino in every run whose reads fit. -/
theorem linkedUp_run (h : s.LinkedUp H wires) (hlossless : wires.up.Lossless) {events : List (Event ι ρ)}
    (hfits : ∀ event ∈ events, event.Fits) : (Run.after (step H wires) s events).LinkedUp H wires := by
  refine Run.after_of_along (fun s => s.LinkedUp H wires) ?_ h ((Run.along_iff_forall s events).mpr hfits)
  intro s event hlinked hevent
  exact linkedUp_step hlinked (hlinked.lossless hlossless).faithful (hevent.bytes_length_le s)

section Outcomes

/-- The Arduino handles the packets that the frames delivered to it bring. -/
theorem LinkedDown.handled_eq_outcomes (h : s.LinkedDown H wires) (hfaithful : s.down.Faithful) :
    s.handled = outcomes wires.down.noise Noise.bring ((H.sent s.host).take s.down.delivered.length) :=
  h.handled.trans (filterMap_of_isPrefix brought_arrive (h.sent ▸ hfaithful.delivered_isPrefix))

/-- The Arduino acknowledges the packets that are brought to it, and reports the other frames. -/
theorem LinkedDown.acks_eq_outcomes (h : s.LinkedDown H wires) (hfaithful : s.down.Faithful) :
    s.alex.acks = outcomes wires.down.noise Noise.answer ((H.sent s.host).take s.down.delivered.length) :=
  h.acks.trans (filterMap_of_isPrefix frameAck_arrive (h.sent ▸ hfaithful.delivered_isPrefix))

/-- The host handles the packets that the frames delivered to it bring. -/
theorem LinkedUp.heard_eq_outcomes (h : s.LinkedUp H wires) (hfaithful : s.up.Faithful) :
    (H.thread s.host).handled = outcomes wires.up.noise Noise.bring (s.alex.sent.take s.up.delivered.length) :=
  h.heard.trans (filterMap_of_isPrefix brought_arrive (h.sent ▸ hfaithful.delivered_isPrefix))

/-- The host logs an error for each frame delivered to it that brings no packet. -/
theorem LinkedUp.errors_eq_outcomes (h : s.LinkedUp H wires) (hfaithful : s.up.Faithful) :
    (H.thread s.host).errors = outcomes wires.up.noise Noise.report (s.alex.sent.take s.up.delivered.length) :=
  h.errors.trans (filterMap_of_isPrefix frameError_arrive (h.sent ▸ hfaithful.delivered_isPrefix))

/-- Once the line to the Arduino is empty, and if it is lossless, all frames of the host were delivered. -/
theorem LinkedDown.delivered_sent (h : s.LinkedDown H wires) (hlossless : s.down.Lossless)
    (hempty : s.down.transit = []) : s.down.delivered.length = (H.sent s.host).length := by
  rw [hlossless.delivered_eq hempty, h.sent, length_arrivals, packetFrames, List.length_mapIdx]

/-- Once the line from the Arduino is empty, and if it is lossless, all frames of the Arduino were
delivered. -/
theorem LinkedUp.delivered_sent (h : s.LinkedUp H wires) (hlossless : s.up.Lossless)
    (hempty : s.up.transit = []) : s.up.delivered.length = s.alex.sent.length := by
  rw [hlossless.delivered_eq hempty, h.sent, length_arrivals, packetFrames, List.length_mapIdx]

end Outcomes

section Clean

/-- Over a clean wire the Arduino handles the packets whose frames were delivered. -/
theorem LinkedDown.handled_eq_take (h : s.LinkedDown H wires) (hclean : wires.down.Clean) :
    s.handled = (H.sent s.host).take s.down.delivered.length := by
  rw [h.handled_eq_outcomes (h.lossless hclean.lossless).faithful, hclean.noise_eq, outcomes_bring_silent]

/-- Over a clean wire the host handles the packets whose frames were delivered. -/
theorem LinkedUp.heard_eq_take (h : s.LinkedUp H wires) (hclean : wires.up.Clean) :
    (H.thread s.host).handled = s.alex.sent.take s.up.delivered.length := by
  rw [h.heard_eq_outcomes (h.lossless hclean.lossless).faithful, hclean.noise_eq, outcomes_bring_silent]

/-- Over a clean wire the Arduino handles what the host sends, in order, none of it twice and none left
out. -/
theorem LinkedDown.handled_isPrefix (h : s.LinkedDown H wires) (hclean : wires.down.Clean) :
    s.handled <+: H.sent s.host := by
  rw [h.handled_eq_take hclean]
  exact List.take_prefix _ _

/-- Over a clean wire the host handles what the Arduino sends, in order, none of it twice and none left
out. -/
theorem LinkedUp.heard_isPrefix (h : s.LinkedUp H wires) (hclean : wires.up.Clean) :
    (H.thread s.host).handled <+: s.alex.sent := by
  rw [h.heard_eq_take hclean]
  exact List.take_prefix _ _

/-- Once a clean line to the Arduino is empty, the Arduino has handled everything that was sent to it. -/
theorem LinkedDown.handled_eq (h : s.LinkedDown H wires) (hclean : wires.down.Clean)
    (hempty : s.down.transit = []) : s.handled = H.sent s.host := by
  rw [h.handled_eq_take hclean, h.delivered_sent (h.lossless hclean.lossless) hempty, List.take_length]

/-- Once a clean line from the Arduino is empty, the host has heard everything that the Arduino has sent. -/
theorem LinkedUp.heard_eq (h : s.LinkedUp H wires) (hclean : wires.up.Clean) (hempty : s.up.transit = []) :
    (H.thread s.host).handled = s.alex.sent := by
  rw [h.heard_eq_take hclean, h.delivered_sent (h.lossless hclean.lossless) hempty, List.take_length]

/-- Over a clean wire the host logs no error for any frame of the Arduino. -/
theorem LinkedUp.no_errors (h : s.LinkedUp H wires) (hclean : wires.up.Clean) :
    (H.thread s.host).errors = [] := by
  rw [h.errors_eq_outcomes (h.lossless hclean.lossless).faithful, hclean.noise_eq, outcomes_report_silent]

/-- What was put on a clean line from the Arduino are the bytes that the Arduino has written. -/
theorem LinkedUp.flatten_sent (h : s.LinkedUp H wires) (hclean : wires.up.Clean) :
    s.up.sent.flatten = s.alex.written := by
  rw [h.sent, hclean.noise_eq, arrivals_silent, h.written]

/-- Over a clean wire the Arduino acknowledges exactly the packets that it handles. -/
theorem LinkedDown.acks_eq (h : s.LinkedDown H wires) (hclean : wires.down.Clean) :
    s.alex.acks = s.handled.filterMap TPacket.ackFor := by
  rw [h.acks_eq_outcomes (h.lossless hclean.lossless).faithful, h.handled_eq_take hclean, hclean.noise_eq,
    outcomes_silent, Noise.answer_silent]

end Clean

/-- The acknowledgements among the packets that the host has heard, by type and command. -/
def answers (H : Host σ ι ρ) (s : System σ) : List (UInt8 × UInt8) :=
  ((H.thread s.host).handled.filter TPacket.isAck).map fun packet => (packet.packetType, packet.command)

/-- Over clean wires the answers that the host has heard are to the packets sent, in order. -/
theorem answers_isPrefix (hdown : s.LinkedDown H wires) (hup : s.LinkedUp H wires)
    (hcleanDown : wires.down.Clean) (hcleanUp : wires.up.Clean) :
    s.answers H <+: (H.sent s.host).filterMap TPacket.ackFor := by
  have hheard : s.answers H <+: s.alex.acks := ((hup.heard_isPrefix hcleanUp).filter _).map _
  have hhandled := (hdown.handled_isPrefix hcleanDown).filterMap TPacket.ackFor
  rw [← hdown.acks_eq hcleanDown] at hhandled
  exact hheard.trans hhandled

/-- Once both clean lines are empty, all packets sent were answered. -/
theorem answers_eq (hdown : s.LinkedDown H wires) (hup : s.LinkedUp H wires) (hcleanDown : wires.down.Clean)
    (hcleanUp : wires.up.Clean) (hemptyDown : s.down.transit = []) (hemptyUp : s.up.transit = []) :
    s.answers H = (H.sent s.host).filterMap TPacket.ackFor := by
  rw [answers, hup.heard_eq hcleanUp hemptyUp, ← hdown.handled_eq hcleanDown hemptyDown,
    ← hdown.acks_eq hcleanDown]
  rfl

/-- The operation that an event has the Arduino do, if any. -/
def Event.op? (s : System σ) : Event ι ρ → Option Alex.Op
  | .host _ => none
  | .leftPulse => some .leftPulse
  | .rightPulse => some .rightPulse
  | .loop guardEcho sensors recvPacket count =>
    some (.loop ⟨guardEcho, sensors, recvPacket, s.down.chunk count⟩)
  | .round _ _ => none

/-- The Arduino's part of a history: its states, and the operations taken in them. -/
def alexPast (past : List (System σ × Event ι ρ)) : List (Alex × Alex.Op) :=
  Run.projectTrace alex (fun s event => event.op? s) past

/-- In every event the Arduino does the operation of that event, or nothing. -/
theorem step_alex (H : Host σ ι ρ) (wires : Wires) (s : System σ) (event : Event ι ρ) :
    (s.step H wires event).alex = (event.op? s).elim s.alex s.alex.step := by
  cases event with
  | host input => rfl
  | leftPulse => rfl
  | rightPulse => rfl
  | loop guardEcho sensors recvPacket count => rfl
  | round count env => rfl

/-- In a run of the two programs the Arduino makes a run of its own. -/
theorem alex_after (H : Host σ ι ρ) (wires : Wires) (s : System σ) (events : List (Event ι ρ)) :
    ∃ ops, (Run.after (step H wires) s events).alex = Run.after Alex.step s.alex ops ∧
      alexPast (Run.trace (step H wires) s events) = Run.trace Alex.step s.alex ops := by
  obtain ⟨ops, hafter, htrace, -⟩ :=
    Run.after_projects alex (fun s event => event.op? s) (step_alex H wires) s events
  exact ⟨ops, hafter, htrace⟩

/-- How many bytes an event takes off the line to the Arduino, if they are there. -/
def Event.taken : Event ι ρ → ℕ
  | .host _ => 0
  | .leftPulse => 0
  | .rightPulse => 0
  | .loop _ _ _ count => count
  | .round _ _ => 0

/-- How many bytes an event takes off the line from the Arduino, if they are there. -/
def Event.received : Event ι ρ → ℕ
  | .host _ => 0
  | .leftPulse => 0
  | .rightPulse => 0
  | .loop _ _ _ _ => 0
  | .round count _ => min count maxBufferLen

/-- An event advances both lines by the bytes that it takes off them. -/
theorem step_advances (H : Host σ ι ρ) (wires : Wires) (s : System σ) (event : Event ι ρ) :
    s.down.Advances event.taken (s.step H wires event).down ∧
      s.up.Advances event.received (s.step H wires event).up := by
  cases event with
  | host input => exact ⟨.put _ _ fun _ => length_of_mem_newArrivals, .refl _⟩
  | leftPulse => exact ⟨.refl _, .put _ _ fun _ => length_of_mem_newArrivals⟩
  | rightPulse => exact ⟨.refl _, .put _ _ fun _ => length_of_mem_newArrivals⟩
  | loop guardEcho sensors recvPacket count => exact ⟨.take _ _, .put _ _ fun _ => length_of_mem_newArrivals⟩
  | round count env => exact ⟨.refl _, .take _ _⟩

/-- A run advances both lines by what its events take. -/
theorem after_advances (H : Host σ ι ρ) (wires : Wires) (s : System σ) (events : List (Event ι ρ)) :
    s.down.Advances (events.map Event.taken).sum (Run.after (step H wires) s events).down ∧
      s.up.Advances (events.map Event.received).sum (Run.after (step H wires) s events).up := by
  induction events generalizing s with
  | nil => exact ⟨.refl _, .refl _⟩
  | cons event rest ih =>
    obtain ⟨hdown, hup⟩ := step_advances H wires s event
    obtain ⟨hdown', hup'⟩ := ih (s.step H wires event)
    rw [List.map_cons, List.sum_cons, List.map_cons, List.sum_cons]
    exact ⟨hdown.trans hdown', hup.trans hup'⟩

section Progress

variable {events : List (Event ι ρ)} (hfits : ∀ event ∈ events, event.Fits)

include hfits

/-- Once the Arduino has taken as many bytes as were before it on a lossless line, it has handled what
arrived of all that had been sent. -/
theorem LinkedDown.handled_later (h : s.LinkedDown H wires) (hlossless : wires.down.Lossless)
    (hdown : s.down.transit.length ≤ (events.map Event.taken).sum) :
    outcomes wires.down.noise Noise.bring (H.sent s.host) <+: (Run.after (step H wires) s events).handled := by
  have hlater := linkedDown_run h hlossless hfits
  have hdelivered := (after_advances H wires s events).1.delivered (h.lossless hlossless) hdown
  rw [h.sent] at hdelivered
  have harrived : (arrivals wires.down.noise (packetFrames wires.comms (H.sent s.host))).filterMap brought? =
      outcomes wires.down.noise Noise.bring (H.sent s.host) := filterMap_arrivals brought_arrive _
  rw [hlater.handled, ← harrived]
  exact hdelivered.filterMap brought?

/-- Once the host has taken as many bytes as were before it on a lossless line, it has heard what
arrived of all that had been sent. -/
theorem LinkedUp.heard_later (h : s.LinkedUp H wires) (hlossless : wires.up.Lossless)
    (hup : s.up.transit.length ≤ (events.map Event.received).sum) :
    outcomes wires.up.noise Noise.bring s.alex.sent <+:
      (H.thread (Run.after (step H wires) s events).host).handled := by
  have hlater := linkedUp_run h hlossless hfits
  have hdelivered := (after_advances H wires s events).2.delivered (h.lossless hlossless) hup
  rw [h.sent] at hdelivered
  have harrived : (arrivals wires.up.noise (packetFrames s.alex.stack.comms s.alex.sent)).filterMap brought? =
      outcomes wires.up.noise Noise.bring s.alex.sent := filterMap_arrivals brought_arrive _
  rw [hlater.heard, ← harrived]
  exact hdelivered.filterMap brought?

/-- Once the Arduino has taken as many bytes as were before it on a clean line, it has handled all that
had been sent. -/
theorem LinkedDown.sent_handled_later (h : s.LinkedDown H wires) (hclean : wires.down.Clean)
    (hdown : s.down.transit.length ≤ (events.map Event.taken).sum) :
    H.sent s.host <+: (Run.after (step H wires) s events).handled := by
  have hlater := h.handled_later hfits hclean.lossless hdown
  rwa [hclean.noise_eq, outcomes_bring_silent] at hlater

/-- Once the host has taken as many bytes as were before it on a clean line, it has heard all that had
been sent. -/
theorem LinkedUp.sent_heard_later (h : s.LinkedUp H wires) (hclean : wires.up.Clean)
    (hup : s.up.transit.length ≤ (events.map Event.received).sum) :
    s.alex.sent <+: (H.thread (Run.after (step H wires) s events).host).handled := by
  have hlater := h.heard_later hfits hclean.lossless hup
  rwa [hclean.noise_eq, outcomes_bring_silent] at hlater

end Progress

/-- What the inputs of a host ask of the wheels: each sends at most one packet, and the packet asks for the
same. -/
structure Asks (H : Host σ ι ρ) where
  asked : σ → ι → Drive → Drive
  step_asked : ∀ host input, ∃ packets, H.sent (H.step host input) = H.sent host ++ packets ∧
    packets.length ≤ 1 ∧ ∀ drive : Drive, drive.obeyAll packets = asked host input drive

namespace Asks

variable (A : Asks H) (wires)

/-- What an event asks of the wheels; only the inputs of the host ask for anything. -/
def asks (s : System σ) : Event ι ρ → Drive → Drive
  | .host input, drive => A.asked s.host input drive
  | _, drive => drive

/-- What the inputs of a run have last asked of the wheels. -/
def askedIn (past : List (System σ × Event ι ρ)) : Drive :=
  past.foldl (fun drive (s, event) => A.asks s event drive) .resting

/-- Whatever the host had sent at some time asks for what its inputs had last asked for by some time. -/
structure Recalls (s : System σ) (past : List (System σ × Event ι ρ)) : Prop where
  now : Drive.resting.obeyAll (H.sent s.host) = A.askedIn past
  earlier : ∀ packets, packets <+: H.sent s.host →
    ∃ earlier, earlier <+: past ∧ Drive.resting.obeyAll packets = A.askedIn earlier

variable {wires}

/-- Over a clean wire to it the robot does what the inputs had last asked for by some time, or has
stopped; with nothing on that line, the time is now. -/
theorem Recalls.obeys {past : List (System σ × Event ι ρ)} (h : A.Recalls s past)
    (hlinked : s.LinkedDown H wires) (hclean : wires.down.Clean) :
    (∃ earlier, earlier <+: past ∧ (A.askedIn earlier).Obeys s.alex.control) ∧
      (s.down.transit = [] → (A.askedIn past).Obeys s.alex.control) := by
  obtain ⟨earlier, hprefix, hasked⟩ := h.earlier s.handled (hlinked.handled_isPrefix hclean)
  refine ⟨⟨earlier, hprefix, ?_⟩, fun hdown => ?_⟩
  · rw [← hasked]
    exact hlinked.obeys
  · rw [← h.now, ← hlinked.handled_eq hclean hdown]
    exact hlinked.obeys

end Asks

end System

end AlexRobot
