import AlexRobot.Link.PacketKinds
import AlexRobot.Link.System
import AlexRobot.Server.Outputs

/-!
# The server and the robot

The server joins the Arduino through the same two lines, with its clients in the place of the
operator. It numbers the packets in its own way, and yet every command of a client is the command
that the Arduino takes it for; on the way back nothing is. So the clients drive the robot as they
mean to, and learn of it nothing but the texts of the Arduino's responses.
-/

namespace AlexRobot

open TracedMemory

namespace Server

/-- The movement that a command starts, if it starts one. -/
def TCommandType.movement? : TCommandType → Option TDirection
  | .forward => some .forward
  | .reverse => some .backward
  | .turnLeft => some .left
  | .turnRight => some .right
  | .stop => none
  | .getStats => none
  | .clearStats => none

/-- What a network message asks of the wheels; the power is its second parameter. -/
def messageAsked (buffer : Buffer) (drive : Drive) : Drive :=
  if buffer.cell 0 = TNetConstants.command.code then
    match commandOf? (Char.ofNat (buffer.cell 1).toNat) with
    | none => drive
    | some command =>
      match command.movement? with
      | some d => .moving d (buffer.cmdParam 1).toNat
      | none => if command = .stop then .resting else drive
  else drive

/-- The packet that the server sends for a message asks for what the message asks for. -/
theorem obeyAll_relayed (buffer : Buffer) (residue : TPacket) (drive : Drive) :
    drive.obeyAll (relayed buffer residue) = messageAsked buffer drive := by
  unfold relayed messageAsked
  split
  · cases commandOf? (Char.ofNat (buffer.cell 1).toNat) with
    | none => rfl
    | some command =>
      have hpower : (commandPacket buffer residue command).param 1 = buffer.cmdParam 1 := by
        rw [commandPacket, TPacket.param_setParam _ (Nat.one_lt_succ_succ 14), if_pos rfl]
      have heffect : (commandPacket buffer residue command).effect = commandEffect
          (fun d => .start d (some ((commandPacket buffer residue command).param 0)) (buffer.cmdParam 1).toNat)
          command.code := by
        rw [← hpower]
        rfl
      change drive.obey (commandPacket buffer residue command).effect = _
      rw [heffect]
      cases command <;> rfl
  · rfl

/-- The Arduino knows every command that the server sends. -/
theorem ackFor_of_mem_relayed {buffer : Buffer} {residue packet : TPacket}
    (h : packet ∈ relayed buffer residue) : packet.ackFor = some (ack .response .ok) := by
  unfold relayed at h
  split at h
  · rw [Option.mem_toList, Option.map_eq_some_iff] at h
    obtain ⟨command, -, rfl⟩ := h
    cases command <;> rfl
  · exact absurd h List.not_mem_nil

/-- What an input of the server asks of the wheels: what the message that it brings asks for. -/
def asked (s : Server) (input : Input) (drive : Drive) : Drive :=
  (s.message? input).elim drive fun buffer => messageAsked buffer drive

/-- What an input sends to the Arduino: at most one packet, that asks for what the input asks for, and that
the Arduino answers with OK. -/
theorem step_asked (s : Server) (input : Input) :
    ∃ packets, (s.step input).uart = s.uart ++ packets ∧ packets.length ≤ 1 ∧
      (∀ packet ∈ packets, packet.ackFor = some (ack .response .ok)) ∧
        ∀ drive : Drive, drive.obeyAll packets = s.asked input drive := by
  obtain ⟨residue, huart⟩ := s.step_uart input
  refine ⟨_, huart, ?_⟩
  unfold asked
  cases s.message? input with
  | none => exact ⟨Nat.zero_le 1, fun _ hpacket => absurd hpacket List.not_mem_nil, fun drive => rfl⟩
  | some buffer =>
    exact ⟨relayed_length buffer residue, fun packet => ackFor_of_mem_relayed, obeyAll_relayed buffer residue⟩

end Server

/-- A round does not depend on what was handled before. -/
theorem iterate_with_handled (t : ReceiveThread) (earlier : List TPacket) (read : Read) :
    { t with handled := earlier ++ t.handled }.iterate read =
      { t.iterate read with handled := earlier ++ (t.iterate read).handled } := by
  have hdispatch (result : TResult) (receiver : Receiver) :
      { t with handled := earlier ++ t.handled }.dispatch result receiver =
        { t.dispatch result receiver with handled := earlier ++ (t.dispatch result receiver).handled } := by
    unfold ReceiveThread.dispatch
    split
    · rw [List.append_assoc]
    · split <;> rfl
  unfold ReceiveThread.iterate
  dsimp only
  split
  · exact hdispatch _ _
  · rfl

/-- The server with its receive thread, and with what `main()` and the workers have sent and the thread has
handled so far. -/
structure ServerProgram where
  core : UartReceiveThread
  /-- `main()` has come to its `sendHello`, and has sent its hello packet. -/
  greeted : Bool
  sent : List TPacket
  handled : List TPacket

namespace ServerProgram

/-- What the server meets, except for the packets that its own thread gives it: a client is accepted, a
worker reads, or `main()` comes to its `sendHello`. -/
inductive Input
  | accept (buffer : Server.Buffer)
  | read (conn : ℕ) (read : Server.SslRead) (residue : TPacket)
  | hello (residue : TPacket)

/-- A step of the server, with the packets that it sends to the Arduino. -/
def serverStep (p : ServerProgram) (input : Server.Input) : ServerProgram :=
  { p with
    core := { p.core with server := p.core.server.step input }
    sent := p.sent ++ (p.core.server.step input).uart.drop p.core.server.uart.length }

/-- `sendHello` sends a packet with the server's number for hello packets. -/
def sendHello (p : ServerProgram) (residue : TPacket) : ServerProgram :=
  { p with
    greeted := true
    sent := p.sent ++ [{ residue with packetType := Server.TPacketType.hello.code }] }

/-- One input of the server; `main()` comes to its `sendHello` once. -/
def step (p : ServerProgram) : Input → ServerProgram
  | .accept buffer => p.serverStep (.accept buffer)
  | .read conn read residue => p.serverStep (.read conn read residue)
  | .hello residue => if p.greeted then p else p.sendHello residue

/-- One round of `uartReceiveThread`, with the packets that it has the server handle. -/
def round (p : ServerProgram) (read : Read) (c : Int32) : ServerProgram :=
  { p with
    core := p.core.iterate read c
    handled := p.handled ++ (p.core.thread.iterate read).handled }

/-- The receive thread of the server, with the packets that it has handled. -/
def thread (p : ServerProgram) : ReceiveThread := ⟨p.core.receiver, p.handled, p.core.errors⟩

/-- The server as the workers' flag is set and nothing was sent. -/
def initial (cells : Obj → ℕ → UInt8) : ServerProgram := ⟨.start cells, false, [], []⟩

/-- A round of the server is one of its receive thread. -/
theorem round_thread (p : ServerProgram) (read : Read) (c : Int32) :
    (p.round read c).thread = p.thread.iterate read := by
  have hthread : p.thread = { p.core.thread with handled := p.handled ++ p.core.thread.handled } := by
    rw [thread, UartReceiveThread.thread, List.append_nil]
  rw [hthread, iterate_with_handled, thread, round, UartReceiveThread.iterate_eq]

/-- What a step of the server sends to the Arduino comes after what was sent before. -/
theorem serverStep_sent (p : ServerProgram) (input : Server.Input) :
    ∃ packets, (p.serverStep input).sent = p.sent ++ packets ∧ packets.length ≤ 1 ∧
      (∀ packet ∈ packets, packet.ackFor = some (ack .response .ok)) ∧
        ∀ drive : Drive, drive.obeyAll packets = p.core.server.asked input drive := by
  obtain ⟨packets, huart, hone, hack, hasked⟩ := p.core.server.step_asked input
  refine ⟨packets, ?_, hone, hack, hasked⟩
  rw [serverStep, huart, List.drop_left]

/-- What an input of the server asks of the wheels; the hello packet asks for nothing. -/
def asked (p : ServerProgram) : Input → Drive → Drive
  | .accept _, drive => drive
  | .read conn read residue, drive => p.core.server.asked (.read conn read residue) drive
  | .hello _, drive => drive

/-- The Arduino answers a packet with OK, or not at all. -/
def AnsweredOk (packet : TPacket) : Prop :=
  packet.ackFor = none ∨ packet.ackFor = some (ack .response .ok)

/-- An input sends at most one packet, that asks for what the input asks for, and no packet that the Arduino
rejects. -/
theorem step_asked (p : ServerProgram) (input : Input) :
    ∃ packets, (p.step input).sent = p.sent ++ packets ∧ packets.length ≤ 1 ∧
      (∀ packet ∈ packets, AnsweredOk packet) ∧
      ∀ drive : Drive, drive.obeyAll packets = p.asked input drive := by
  cases input with
  | accept buffer =>
    obtain ⟨packets, hsent, hone, hack, hasked⟩ := p.serverStep_sent (.accept buffer)
    exact ⟨packets, hsent, hone, fun packet hpacket => Or.inr (hack packet hpacket), hasked⟩
  | read conn read residue =>
    obtain ⟨packets, hsent, hone, hack, hasked⟩ := p.serverStep_sent (.read conn read residue)
    exact ⟨packets, hsent, hone, fun packet hpacket => Or.inr (hack packet hpacket), hasked⟩
  | hello residue =>
    rw [step]
    split
    · exact ⟨[], (List.append_nil _).symm, Nat.zero_le 1, fun _ hpacket => absurd hpacket List.not_mem_nil,
        fun drive => rfl⟩
    · refine ⟨_, rfl, le_rfl, fun packet hpacket => ?_, fun drive => rfl⟩
      rw [List.mem_singleton.mp hpacket]
      exact Or.inl rfl

/-- The server as the controller of the robot. -/
def host : Host ServerProgram Input Int32 where
  step := step
  round := round
  thread := thread
  sent := sent
  step_thread p input := by
    cases input with
    | accept buffer => rfl
    | read conn read residue => rfl
    | hello residue =>
      rw [step]
      split <;> rfl
  step_sent p input := by
    obtain ⟨packets, hsent, -⟩ := p.step_asked input
    exact ⟨packets, hsent.symm⟩
  round_thread := round_thread
  round_sent _ _ _ := rfl

/-- What the clients' messages ask of the wheels. -/
def asks : System.Asks host where
  asked := asked
  step_asked p input := by
    obtain ⟨packets, hsent, hone, -, hasked⟩ := p.step_asked input
    exact ⟨packets, hsent, hone, hasked⟩

/-- What was written to the network answers the packets that were handled, in their order. -/
def Answers (p : ServerProgram) : Prop :=
  (p.core.server.written.map Prod.snd).Sublist (p.handled.filterMap Server.reply?)

/-- No input of the clients or of `main()` writes to the network. -/
theorem step_answers {p : ServerProgram} (h : p.Answers) (input : Input) : (p.step input).Answers := by
  have hclient (input : Server.Input) (hinput : ∀ packet c, input ≠ .uart packet c) :
      (p.serverStep input).Answers := by
    rw [Answers, serverStep, p.core.server.written_of_client hinput]
    exact h
  cases input with
  | accept buffer => exact hclient (.accept buffer) nofun
  | read conn read residue => exact hclient (.read conn read residue) nofun
  | hello residue =>
    rw [step]
    split
    · exact h
    · exact h

/-- A round of the thread answers the packets that it handles, in their order. -/
theorem round_answers {p : ServerProgram} (h : p.Answers) (read : Read) (c : Int32) :
    (p.round read c).Answers := by
  obtain ⟨replies, hwritten, hreplies⟩ :=
    p.core.server.written_of_packets (p.core.thread.iterate read).handled c
  rw [Answers, round, UartReceiveThread.iterate_eq]
  dsimp only
  rw [hwritten, List.map_append, List.filterMap_append]
  exact h.append hreplies

end ServerProgram

/-- What the two programs find as they start: what the frames meet on the wires, the memory of the
server's thread, and what the Arduino finds. -/
structure ServerSetting where
  wires : Wires
  cells : Obj → ℕ → UInt8
  alexCirc : ℚ
  stack : Stack
  memory : Memory Obj UInt8

namespace ServerSetting

/-- What happens to the server and the robot, in any order. -/
abbrev Event : Type := System.Event ServerProgram.Input Int32

variable (e : ServerSetting)

/-- One event of the server and the robot. -/
def step : System ServerProgram → Event → System ServerProgram := System.step ServerProgram.host e.wires

/-- The server and the robot as they start. -/
def start : System ServerProgram :=
  System.start ServerProgram.host e.wires (.initial e.cells) e.alexCirc e.stack e.memory

/-- The server and the robot after some events. -/
def after (events : List Event) : System ServerProgram := Run.after e.step e.start events

/-- Over a lossless wire the Arduino is linked to the line to it after every run whose reads fit. -/
theorem linkedDown (hlossless : e.wires.down.Lossless) {events : List Event}
    (hfits : ∀ event ∈ events, event.Fits) : (e.after events).LinkedDown ServerProgram.host e.wires :=
  System.linkedDown_run (System.linkedDown_start _ e.alexCirc e.stack e.memory) hlossless hfits

/-- Over a lossless wire the server is linked to the line from the Arduino after every run whose reads
fit. -/
theorem linkedUp (hlossless : e.wires.up.Lossless) {events : List Event}
    (hfits : ∀ event ∈ events, event.Fits) : (e.after events).LinkedUp ServerProgram.host e.wires :=
  System.linkedUp_run (System.linkedUp_start rfl e.alexCirc e.stack e.memory) hlossless hfits

/-- A property of the server that its inputs and its rounds keep holds after every run. -/
theorem after_host (Holds : ServerProgram → Prop) (hstep : ∀ p input, Holds p → Holds (p.step input))
    (hround : ∀ p read c, Holds p → Holds (p.round read c)) (hstart : Holds (.initial e.cells))
    (events : List Event) : Holds (e.after events).host := by
  have hevent (s : System ServerProgram) (event : Event) (h : Holds s.host) : Holds (e.step s event).host := by
    cases event with
    | host input => exact hstep s.host input h
    | leftPulse => exact h
    | rightPulse => exact h
    | loop guardEcho sensors recvPacket count => exact h
    | round count c => exact hround s.host (s.read count) c h
  have hrun : (fun s : System ServerProgram => Holds s.host) (e.after events) :=
    Run.after_invariant hevent hstart events
  exact hrun

/-- A setting with quiet wires in which all memory is zero. -/
def zero : ServerSetting where
  wires := .quiet fun _ => zeroComms
  cells _ _ := 0
  alexCirc := 0
  stack := ⟨fun _ => .bare .commandKeyboard .stop, fun _ => zeroComms⟩
  memory := ⟨fun _ _ => 0, []⟩

/-- Some events whose reads fit: a client is accepted and sends a stop, and both programs read. -/
def someEvents : List Event :=
  [.host (.hello (.bare .commandKeyboard .stop)), .host (.accept (Vector.replicate Server.bufLen 0)),
    .host (.read 0 (.stored [Server.TNetConstants.command.code, 115] ⟨by decide, by decide⟩)
      (.bare .commandKeyboard .stop)),
    .loop 0 .silent (fun _ => 0) 140, .round 140 1]

/-- `someEvents` has reads of the thread that fit a frame. -/
theorem fits_someEvents : ∀ event ∈ someEvents, event.Fits := by
  intro event hevent
  simp only [someEvents, List.mem_cons, List.not_mem_nil, or_false] at hevent
  obtain rfl | rfl | rfl | rfl | rfl := hevent
  · trivial
  · trivial
  · trivial
  · exact Nat.le_refl 140
  · exact Nat.le_refl 140

/-- Over clean wires, in every run whose reads fit a frame, the Arduino handles the packets that the
server has sent, in order, none twice and none left out; it acknowledges none but with OK, and no frame
is reported damaged. -/
theorem relays_in_order (hdown : e.wires.down.Clean) (hup : e.wires.up.Clean) (events : List Event)
    (hfits : ∀ event ∈ events, event.Fits) :
    let s := e.after events
    s.handled <+: s.host.sent ∧ (s.down.transit = [] → s.handled = s.host.sent) ∧
      (∀ report ∈ s.alex.acks, report = ack .response .ok) ∧ s.host.core.errors = [] := by
  intro s
  have hlinked := e.linkedDown hdown.lossless hfits
  have hknown : ∀ packet ∈ s.host.sent, ServerProgram.AnsweredOk packet := by
    apply e.after_host fun p => ∀ packet ∈ p.sent, ServerProgram.AnsweredOk packet
    · intro p input h
      obtain ⟨packets, hsent, -, hack, -⟩ := p.step_asked input
      rw [hsent]
      exact List.forall_mem_append.mpr ⟨h, hack⟩
    · intro p read c h
      exact h
    · exact fun packet hpacket => absurd hpacket List.not_mem_nil
  refine ⟨hlinked.handled_isPrefix hdown, hlinked.handled_eq hdown, fun report hreport => ?_,
    (e.linkedUp hup.lossless hfits).no_errors hup⟩
  rw [hlinked.acks_eq hdown] at hreport
  obtain ⟨packet, hpacket, hack⟩ := List.mem_filterMap.mp hreport
  rcases hknown packet ((hlinked.handled_isPrefix hdown).subset hpacket) with hnone | hok
  · cases hnone.symm.trans hack
  · exact (Option.some.inj (hok.symm.trans hack)).symm

/-- The stop of a client is handled after the hello packet. -/
theorem someEvents_relays_in_order :
    (zero.after someEvents).handled <+: (zero.after someEvents).host.sent :=
  (zero.relays_in_order Wire.quiet_clean Wire.quiet_clean someEvents fits_someEvents).1

/-- The text message that the server makes of a response. -/
def textMessage (packet : TPacket) : List UInt8 := Server.TNetConstants.message.code :: packet.data.toList

/-- Over a lossless wire from the Arduino, in every run whose reads fit a frame, all that was written to
the clients are the texts of responses of the Arduino, in the order of the responses and none twice,
whatever their kind; no status, error or text of the Arduino ever reaches a client. -/
theorem clients_get_texts (hlossless : e.wires.up.Lossless) (events : List Event)
    (hfits : ∀ event ∈ events, event.Fits) :
    let s := e.after events
    (s.host.core.server.written.map Prod.snd).Sublist
      ((s.alex.sent.filter fun packet => packet.packetType = TPacketType.response.code).map textMessage) := by
  intro s
  have hlinked := e.linkedUp hlossless hfits
  have hanswers : s.host.Answers := by
    apply e.after_host ServerProgram.Answers
    · intro p input h
      exact ServerProgram.step_answers h input
    · intro p read c h
      exact ServerProgram.round_answers h read c
    · exact List.Sublist.refl _
  have hbrought : s.host.handled.Sublist s.alex.sent := by
    have hhandled : s.host.handled = _ := hlinked.heard_eq_outcomes (hlinked.lossless hlossless).faithful
    rw [hhandled]
    exact (outcomes_bring_sublist _).trans (List.take_sublist _ _)
  have hheard := hbrought.filterMap Server.reply?
  have hreports : s.alex.sent.filterMap Server.reply? =
      (s.alex.sent.filter fun packet => packet.packetType = TPacketType.response.code).map textMessage := by
    rw [← List.filterMap_eq_map, List.filterMap_filter]
    apply List.filterMap_congr
    intro packet hpacket
    rw [reply?_of_isReport (hlinked.reports packet hpacket)]
    simp only [decide_eq_true_eq, Function.comp_apply]
    rfl
  rw [← hreports]
  exact hanswers.trans hheard

/-- What the client that told the robot to stop gets is a text. -/
theorem someEvents_clients_get_texts :
    ((zero.after someEvents).host.core.server.written.map Prod.snd).Sublist
      (((zero.after someEvents).alex.sent.filter fun packet =>
        packet.packetType = TPacketType.response.code).map textMessage) :=
  zero.clients_get_texts Wire.quiet_clean.lossless someEvents fits_someEvents

end ServerSetting

end AlexRobot
