import AlexRobot.Pi.ReceiveThread
import AlexRobot.Server.Relay

/-!
# The server's receive thread

One thread of the server reads the serial port and gives what it accepts to `handleUARTPacket`.
Its body, `serial.cpp` and `serialize.cpp` are those of the Pi, so a round of it is a round of
the Pi's thread followed by the server's handling of the packets. Together the thread and the
workers make runs of the server alone, in which every packet from the Arduino was accepted.
-/

namespace AlexRobot

/-- The server with the thread: the receiver, whose output is the thread's own `packet`, the results
passed to `handleError`, and the globals that the workers share. -/
structure UartReceiveThread where
  receiver : Receiver
  errors : List TResult
  server : Server

namespace UartReceiveThread

/-- The server as it starts, over any memory contents of the thread. -/
def start (cells : Obj → ℕ → UInt8) : UartReceiveThread := ⟨Receiver.initial ⟨cells, []⟩, [], Server.initial⟩

/-- `dispatch`: what the thread does with the result of `deserialize`; `c` is what `sendNetworkData`
tests. -/
def dispatch (t : UartReceiveThread) (result : TResult) (receiver : Receiver) (c : Int32) :
    UartReceiveThread :=
  if result = .packetOk then
    { t with
      receiver := receiver
      server := t.server.handleUARTPacket (TPacket.ofCells receiver.output) c }
  else if result ≠ .packetIncomplete then
    { t with receiver := receiver, errors := t.errors ++ [result] }
  else { t with receiver := receiver }

/-- `iterate`: one round of the loop of `uartReceiveThread`. -/
def iterate (t : UartReceiveThread) (input : Read) (c : Int32) : UartReceiveThread :=
  let (len, memory) := serialRead t.receiver.memory input
  if 0 < len then
    let (result, receiver) := deserialize { t.receiver with memory := memory } len.toNat
    t.dispatch result receiver c
  else { t with receiver := { t.receiver with memory := memory } }

/-- `Event`: what happens in the server, which is that a client is accepted, a worker reads, or the
thread takes a round. -/
inductive Event
  | accept (buffer : Server.Buffer)
  | read (conn : ℕ) (read : Server.SslRead) (residue : TPacket)
  | serial (input : Read) (c : Int32)

/-- `Event.received`: the bytes that an event brings to the receiver of the thread. -/
def Event.received : Event → List UInt8
  | .accept _ => []
  | .read _ _ _ => []
  | .serial input _ => input.received

/-- `UartReceiveThread.step`: what one event makes of the server and of the thread's receiver. -/
def step (t : UartReceiveThread) : Event → UartReceiveThread
  | .accept buffer => { t with server := t.server.step (.accept buffer) }
  | .read conn read residue => { t with server := t.server.step (.read conn read residue) }
  | .serial input c => t.iterate input c

/-- The thread as the Pi's, which has handled nothing yet. -/
def thread (t : UartReceiveThread) : ReceiveThread := ⟨t.receiver, [], t.errors⟩

/-- A round is one of the Pi's thread, and then the server handles what that accepted. -/
theorem iterate_eq (t : UartReceiveThread) (input : Read) (c : Int32) : t.iterate input c =
    { receiver := (t.thread.iterate input).receiver
      errors := (t.thread.iterate input).errors
      server :=
        (t.thread.iterate input).handled.foldl (fun s packet => s.handleUARTPacket packet c) t.server } := by
  have hdispatch (result : TResult) (receiver : Receiver) : t.dispatch result receiver c =
      { receiver := (t.thread.dispatch result receiver).receiver
        errors := (t.thread.dispatch result receiver).errors
        server := (t.thread.dispatch result receiver).handled.foldl
          (fun s packet => s.handleUARTPacket packet c) t.server } := by
    unfold dispatch ReceiveThread.dispatch
    split
    · rfl
    · split <;> rfl
  unfold iterate ReceiveThread.iterate
  dsimp only [thread]
  split
  · exact hdispatch _ _
  · rfl

/-- An event feeds the bytes it brings to the receiver. -/
theorem step_tracks {t : UartReceiveThread} {reader : Blocks.Reader UInt8 packetSize}
    (h : t.receiver.Tracks reader) {event : Event} (hlen : event.received.length ≤ packetSize) :
    (t.step event).receiver.Tracks (reader.feed event.received) := by
  cases event with
  | accept buffer =>
    rw [Event.received, reader.feed_nil]
    exact h
  | read conn read residue =>
    rw [Event.received, reader.feed_nil]
    exact h
  | serial input c =>
    have hthread : t.thread.receiver.Tracks reader := h
    rw [step, iterate_eq]
    exact iterate_tracks hthread hlen

/-- The receiver of the thread simulates the abstract reader over any events. -/
theorem after_step_tracks {t : UartReceiveThread} {reader : Blocks.Reader UInt8 packetSize}
    (h : t.receiver.Tracks reader) {events : List Event}
    (hlen : ∀ event ∈ events, event.received.length ≤ packetSize) :
    (Run.after step t events).receiver.Tracks (reader.feedAll (events.map Event.received)) := by
  apply Run.after_simulates (fun (t : UartReceiveThread) reader => t.receiver.Tracks reader) Event.received
  · intro t reader event htracks hevent
    exact step_tracks htracks hevent
  · exact h
  · exact hlen

/-- `inputs`: the steps that the server alone takes in an event. -/
def inputs (t : UartReceiveThread) : Event → List Server.Input
  | .accept buffer => [.accept buffer]
  | .read conn read residue => [.read conn read residue]
  | .serial input c => (t.thread.iterate input).handled.map fun packet => .uart packet c

/-- Every event is to the server some steps of its own, which `inputs` lists. -/
theorem step_server (t : UartReceiveThread) (event : Event) :
    (t.step event).server = Run.after Server.step t.server (t.inputs event) := by
  cases event with
  | accept buffer => rfl
  | read conn read residue => rfl
  | serial input c =>
    rw [step, iterate_eq, inputs, Run.after, List.foldl_map]
    rfl

/-- A run of the thread and the workers is a run of the server. -/
theorem after_server (t : UartReceiveThread) (events : List Event) :
    ∃ inputs, (Run.after step t events).server = Run.after Server.step t.server inputs := by
  induction events generalizing t with
  | nil => exact ⟨[], rfl⟩
  | cons event rest ih =>
    obtain ⟨later, hlater⟩ := ih (t.step event)
    refine ⟨t.inputs event ++ later, ?_⟩
    rw [Run.after_cons, hlater, step_server, Run.after_append]

end UartReceiveThread

end AlexRobot
