import AlexRobot.Link.Refinement
import AlexRobot.Link.ServerSystem
import AlexRobot.Server.Listener

/-!
# The robot behind the listener

The whole server has a listener in front of its workers, and the robot at the far end of its serial
line. The listener is the only way in: with it, the two programs make runs of the machine in which
clients are simply accepted, and whatever moves the robot was received in a session that the
listener admitted.
-/

namespace AlexRobot

open TracedMemory

/-- The whole server: the listener with its sessions and workers, the receive thread, and what was sent and
handled so far. It keeps what the listener keeps. -/
structure ListenerProgram where
  listener : Listener
  receiver : Receiver
  errors : List TResult
  greeted : Bool
  sent : List TPacket
  handled : List TPacket
  kept : listener.Kept

namespace ListenerProgram

/-- The whole server without its sessions, as the machine without a listener has it. -/
def program (p : ListenerProgram) : ServerProgram :=
  ⟨⟨p.receiver, p.errors, p.listener.server⟩, p.greeted, p.sent, p.handled⟩

/-- What the server meets, except for the packets that its own thread gives it: a connection, a signal, a
worker reads, or `main()` comes to its `sendHello`. -/
inductive Input
  | connect (handshake : Handshake) (buffer : Server.Buffer)
  | signal
  | read (conn : ℕ) (read : Server.SslRead) (residue : TPacket)
  | hello (residue : TPacket)

/-- An event of the listener and its workers, with the packets that the workers send in it. -/
def listenerStep (p : ListenerProgram) (event : Listener.Event) : ListenerProgram :=
  { p with
    listener := p.listener.step event
    sent := p.sent ++ (p.listener.step event).server.uart.drop p.listener.server.uart.length
    kept := p.listener.step_kept event p.kept }

/-- One input of the whole server; `main()` comes to its `sendHello` once. -/
def step (p : ListenerProgram) : Input → ListenerProgram
  | .connect handshake buffer => p.listenerStep (.connect handshake buffer)
  | .signal => p.listenerStep .signal
  | .read conn read residue => p.listenerStep (.read conn read residue)
  | .hello residue =>
    if p.greeted then p else { p with greeted := true, sent := (p.program.sendHello residue).sent }

/-- The packets that a round of the thread gives the server to handle, as its events. -/
def uartEvents (packets : List TPacket) (c : Int32) : List Listener.Event :=
  packets.map fun packet => .uart packet c

/-- One round of `uartReceiveThread`: the server handles what the thread has accepted. -/
def round (p : ListenerProgram) (read : Read) (c : Int32) : ListenerProgram :=
  let thread := p.program.core.thread.iterate read
  { p with
    listener := Run.after Listener.step p.listener (uartEvents thread.handled c)
    receiver := thread.receiver
    errors := thread.errors
    handled := p.handled ++ thread.handled
    kept := Run.after_invariant Listener.step_kept p.kept (uartEvents thread.handled c) }

/-- The whole server as `createServer` and `main()` have started it. -/
def initial (verifyPeer : Bool) (clientName : List UInt8) (cells : Obj → ℕ → UInt8) : ListenerProgram where
  listener := .start verifyPeer clientName
  receiver := Receiver.initial ⟨cells, []⟩
  errors := []
  greeted := false
  sent := []
  handled := []
  kept := Listener.start_kept verifyPeer clientName

/-- What an input is to the server without its sessions, if that sees it at all. -/
def seen? (p : ListenerProgram) : Input → Option ServerProgram.Input
  | .connect handshake buffer => if p.listener.admits handshake then some (.accept buffer) else none
  | .signal => none
  | .read conn read residue => some (.read conn read residue)
  | .hello residue => some (.hello residue)

/-- An input that the rest of the server does not see changes nothing there. -/
theorem listenerStep_program {p : ListenerProgram} {event : Listener.Event}
    (h : (p.listener.step event).server = p.listener.server) : (p.listenerStep event).program = p.program := by
  have hsent : (p.listenerStep event).sent = p.sent := by
    rw [listenerStep, h, List.drop_length, List.append_nil]
  rw [program, program, hsent]
  exact congrArg (fun server =>
    (⟨⟨p.receiver, p.errors, server⟩, p.greeted, p.sent, p.handled⟩ : ServerProgram)) h

/-- An input of the whole server is one of the server without its sessions, or none. -/
theorem step_program (p : ListenerProgram) (input : Input) :
    (p.step input).program = (p.seen? input).elim p.program p.program.step := by
  cases input with
  | connect handshake buffer =>
    have hserver := p.listener.connect_server handshake buffer
    rw [step, seen?]
    cases hadmits : p.listener.admits handshake with
    | false =>
      rw [hadmits] at hserver
      exact listenerStep_program hserver
    | true =>
      rw [hadmits] at hserver
      rw [program, listenerStep]
      dsimp only
      rw [hserver]
      rfl
  | signal => exact listenerStep_program rfl
  | read conn read residue => rfl
  | hello residue =>
    rw [step, seen?]
    change _ = if p.greeted then p.program else p.program.sendHello residue
    split <;> rfl

/-- The packets of the thread change the server as its handler for them does. -/
theorem server_uartEvents (l : Listener) (packets : List TPacket) (c : Int32) :
    (Run.after Listener.step l (uartEvents packets c)).server =
      packets.foldl (fun s packet => s.handleUARTPacket packet c) l.server := by
  induction packets generalizing l with
  | nil => rfl
  | cons packet rest ih => exact ih (l.step (.uart packet c))

/-- A round of the whole server is one of the server without its sessions. -/
theorem round_program (p : ListenerProgram) (read : Read) (c : Int32) :
    (p.round read c).program = p.program.round read c := by
  rw [program, round, ServerProgram.round, UartReceiveThread.iterate_eq]
  dsimp only
  rw [server_uartEvents]
  rfl

/-- What an input asks of the wheels: a message does when its session was admitted and not freed. -/
def asked (p : ListenerProgram) : Input → Drive → Drive
  | .connect _ _, drive => drive
  | .signal, drive => drive
  | .read conn read residue, drive =>
    if p.listener.Entitled conn then p.program.asked (.read conn read residue) drive else drive
  | .hello _, drive => drive

/-- The rest of the server asks for the same, since other sessions have no worker. -/
theorem asked_eq (p : ListenerProgram) (input : Input) (drive : Drive) :
    (p.seen? input).elim drive (fun seen => p.program.asked seen drive) = p.asked input drive := by
  cases input with
  | connect handshake buffer =>
    rw [seen?]
    split <;> rfl
  | signal => rfl
  | read conn read residue =>
    rw [seen?, asked, Option.elim_some]
    by_cases hentitled : p.listener.Entitled conn
    · rw [if_pos hentitled]
    · have hunserved : ∀ w ∈ p.listener.server.serving, w.conn ≠ conn := by
        rintro w hw rfl
        exact hentitled (p.kept.entitled hw)
      rw [if_neg hentitled, ServerProgram.asked, Server.asked]
      change (p.listener.server.message? _).elim _ _ = _
      rw [Server.message?_unserved hunserved]
      rfl
  | hello residue => rfl

/-- An input sends at most one packet, that asks for what the input asks for. -/
theorem step_asked (p : ListenerProgram) (input : Input) :
    ∃ packets, (p.step input).sent = p.sent ++ packets ∧ packets.length ≤ 1 ∧
      ∀ drive : Drive, drive.obeyAll packets = p.asked input drive := by
  have hprogram := congrArg ServerProgram.sent (p.step_program input)
  have hasked := p.asked_eq input
  cases hseen : p.seen? input with
  | none =>
    rw [hseen] at hprogram hasked
    exact ⟨[], hprogram.trans (List.append_nil _).symm, Nat.zero_le 1, hasked⟩
  | some seen =>
    rw [hseen] at hprogram hasked
    obtain ⟨packets, hsent, hone, -, hpackets⟩ := p.program.step_asked seen
    exact ⟨packets, hprogram.trans hsent, hone, fun drive => (hpackets drive).trans (hasked drive)⟩

/-- The whole server is the server without its sessions in more detail. -/
def detailed : Detailed ServerProgram.host ListenerProgram Input where
  step := step
  round := round
  abstract := program
  seen? := seen?
  step_abstract := step_program
  round_abstract := round_program

/-- What the messages in admitted sessions ask of the wheels. -/
def asks : System.Asks detailed.host where
  asked := asked
  step_asked := step_asked

/-- A connection that OpenSSL reports as it does for a server that does not ask for certificates. -/
def Input.ShowsNone : Input → Prop
  | .connect handshake _ => handshake.certificate = false
  | .signal => True
  | .read _ _ _ => True
  | .hello _ => True

/-- Nobody is served, and at most the hello packet was sent. -/
structure Unattended (p : ListenerProgram) : Prop where
  deserted : p.listener.Deserted
  once : p.sent.length ≤ p.greeted.toNat
  hello : ∀ packet ∈ p.sent, packet.packetType = Server.TPacketType.hello.code

/-- An event of a listener that nobody gets past sends nothing. -/
theorem Unattended.listenerStep {p : ListenerProgram} (h : p.Unattended) {event : Listener.Event}
    (hnone : event.ShowsNone) : (p.listenerStep event).Unattended := by
  have hdeserted : (p.listener.step event).Deserted := Listener.step_deserted h.deserted hnone
  have hsent : (p.listenerStep event).sent = p.sent := by
    rw [ListenerProgram.listenerStep, hdeserted.uart, List.drop_nil, List.append_nil]
  refine ⟨hdeserted, ?_, ?_⟩
  · rw [hsent]
    exact h.once
  · rw [hsent]
    exact h.hello

end ListenerProgram

/-- What the programs find as they start, with what `createServer` was called with. -/
structure ListenerSetting extends ServerSetting where
  verifyPeer : Bool
  clientName : List UInt8

namespace ListenerSetting

/-- What happens to the whole server and the robot, in any order. -/
abbrev Event : Type := System.Event ListenerProgram.Input Int32

variable (e : ListenerSetting)

/-- One event of the whole server and the robot. -/
def step : System ListenerProgram → Event → System ListenerProgram :=
  System.step ListenerProgram.detailed.host e.wires

/-- The whole server and the robot as they start. -/
def start : System ListenerProgram :=
  System.start ListenerProgram.detailed.host e.wires (.initial e.verifyPeer e.clientName e.cells)
    e.alexCirc e.stack e.memory

/-- The whole server and the robot after some events. -/
def after (events : List Event) : System ListenerProgram := Run.after e.step e.start events

/-- Over a lossless wire the Arduino is linked to the line to it after every run whose reads fit. -/
theorem linkedDown (hlossless : e.wires.down.Lossless) {events : List Event}
    (hfits : ∀ event ∈ events, event.Fits) :
    (e.after events).LinkedDown ListenerProgram.detailed.host e.wires :=
  System.linkedDown_run (System.linkedDown_start _ e.alexCirc e.stack e.memory) hlossless hfits

/-- A setting in which all memory is zero, and the clients are verified. -/
def verifying : ListenerSetting := { ServerSetting.zero with verifyPeer := true, clientName := [108] }

/-- Some events whose reads fit: a client whose certificate does not verify, then one whose certificate does
and who drives forward, and both programs read. -/
def someEvents : List Event :=
  [.host (.hello (.bare .commandKeyboard .stop)),
    .host (.connect ⟨1, true, 10⟩ (Vector.replicate Server.bufLen 0)),
    .host (.connect ⟨1, true, x509VOk⟩ (Vector.replicate Server.bufLen 0)),
    .host (.read 0 (.stored [Server.TNetConstants.command.code, 102] ⟨by decide, by decide⟩)
      (.bare .commandKeyboard .stop)),
    .loop 0 .silent (fun _ => 0) 140, .round 140 1]

/-- `someEvents` has reads of the thread that fit a frame. -/
theorem fits_someEvents : ∀ event ∈ someEvents, event.Fits := by
  intro event hevent
  simp only [someEvents, List.mem_cons, List.not_mem_nil, or_false] at hevent
  obtain rfl | rfl | rfl | rfl | rfl | rfl := hevent
  · trivial
  · trivial
  · trivial
  · trivial
  · exact Nat.le_refl 140
  · exact Nat.le_refl 140

/-- An event in which no connection shows a certificate. -/
def ShowsNone : Event → Prop
  | .host input => input.ShowsNone
  | .leftPulse => True
  | .rightPulse => True
  | .loop _ _ _ _ => True
  | .round _ _ => True

end ListenerSetting

end AlexRobot
