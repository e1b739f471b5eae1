import AlexRobot.Common.Run
import AlexRobot.Wire.Packet

/-!
# The TLS server

The server relays the commands of its network clients to the Arduino, and what the Arduino
answers to the client that wrote last. Every accepted client gets a worker thread; the workers and
the thread that reads the serial port share two globals. A step is one accepted client, one
iteration of a worker's loop or one packet from the Arduino. A worker tests the loop condition
at the end of an iteration and then waits in `sslRead`. The server has its own copy of
`constants.h`, with other values than the Pi's and the Arduino's; `packet.h` is the same.
-/

namespace AlexRobot

open Bytes

namespace Server

/-- `TPacketType`: the packet types, in the server's `constants.h`. -/
inductive TPacketType
  | command
  | response
  | error
  | message
  | hello
  deriving DecidableEq, Repr

/-- `TPacketType.code`: the value of a packet type on the wire, as the server has it. -/
def TPacketType.code : TPacketType → UInt8
  | .command => 0
  | .response => 1
  | .error => 2
  | .message => 3
  | .hello => 4

/-- `TResponseType`: the response types, in the server's `constants.h`. -/
inductive TResponseType
  | ok
  | status
  | badPacket
  | badChecksum
  | badCommand
  | badResponse
  deriving DecidableEq, Repr

/-- `TResponseType.code`: the value of a response type on the wire, as the server has it. -/
def TResponseType.code : TResponseType → UInt8
  | .ok => 0
  | .status => 1
  | .badPacket => 2
  | .badChecksum => 3
  | .badCommand => 4
  | .badResponse => 5

/-- `TCommandType`: the commands, in the server's `constants.h`. -/
inductive TCommandType
  | forward
  | reverse
  | turnLeft
  | turnRight
  | stop
  | getStats
  | clearStats
  deriving DecidableEq, Repr

/-- `TCommandType.code`: the value of a command on the wire, as the server has it. -/
def TCommandType.code : TCommandType → UInt8
  | .forward => 0
  | .reverse => 1
  | .turnLeft => 2
  | .turnRight => 3
  | .stop => 4
  | .getStats => 5
  | .clearStats => 6

/-- `TNetConstants`: the kinds of messages between the server and its clients. -/
inductive TNetConstants
  | error
  | status
  | message
  | command
  deriving DecidableEq, Repr

/-- `TNetConstants.code`: the first byte of a message between the server and its clients. -/
def TNetConstants.code : TNetConstants → UInt8
  | .error => 0
  | .status => 1
  | .message => 2
  | .command => 3

/-- `BUF_LEN`: one byte of packet type and 128 bytes of data. -/
def bufLen : ℕ := 129

/-- `Buffer`: the local buffer of a worker, which `sslRead` stores messages in. -/
abbrev Buffer := Vector UInt8 bufLen

/-- `buffer[i]`: the byte at an index that is in range. -/
def Buffer.cell (buffer : Buffer) (i : ℕ) : UInt8 := buffer.getD i 0

/-- The two words from `&buffer[2]`, that `handleCommand` copies into `cmdParam`. -/
def Buffer.cmdParam (buffer : Buffer) (i : ℕ) : UInt32 :=
  word (buffer.cell (2 + 4 * i)) (buffer.cell (3 + 4 * i)) (buffer.cell (4 + 4 * i)) (buffer.cell (5 + 4 * i))

/-- `SslRead`: what a call of `sslRead` does, which is to store what it received, to find the connection
closed or to fail. -/
inductive SslRead
  | stored (data : List UInt8) (h : 0 < data.length ∧ data.length ≤ bufLen)
  | closed
  | failed

/-- `SslRead.len`: what the call of `sslRead` returns, the number of bytes where it stored some. -/
def SslRead.len : SslRead → ℤ
  | .stored data _ => data.length
  | .closed => 0
  | .failed => -1

/-- A worker thread in its loop: the connection it serves and its local buffer. -/
structure Worker where
  conn : ℕ
  buffer : Buffer

/-- The buffer after a read; the bytes beyond those received stay. -/
def Worker.store (w : Worker) (data : List UInt8) : Worker :=
  { w with buffer := Vector.ofFn fun i => data.getD i (w.buffer.get i) }

/-- A read leaves a worker with the connection that it serves. -/
@[simp] theorem Worker.store_conn (w : Worker) (data : List UInt8) : (w.store data).conn = w.conn := by
  rw [Worker.store]

end Server

/-- The server. Connections are numbered in the order in which their clients were accepted. -/
structure Server where
  networkActive : Bool
  /-- `tls_conn`: the connection that replies are written to, `none` for `NULL`. -/
  tlsConn : Option ℕ
  /-- `serving`: the workers that are in their loops, in the order in which they came to them. -/
  serving : List Server.Worker
  /-- `accepted`: the number of clients that were accepted so far. -/
  accepted : ℕ
  /-- The packets that were given to `uartSendPacket` for the clients. -/
  uart : List TPacket
  /-- `written`: what was written to the network, in order, and to which connection. -/
  written : List (ℕ × List UInt8)

namespace Server

/-- `Server.initial`: the server when `main()` has set `networkActive`. -/
def initial : Server where
  networkActive := true
  tlsConn := none
  serving := []
  accepted := 0
  uart := []
  written := []

/-- `uartSendPacket`; the packet is serialized and written to the serial port. -/
def uartSendPacket (s : Server) (packet : TPacket) : Server := { s with uart := s.uart ++ [packet] }

/-- `sendNetworkData`. `c` is what `sslWrite` returns; without a connection it is what the stack holds for
the variable. -/
def sendNetworkData (s : Server) (data : List UInt8) (c : Int32) : Server :=
  if s.networkActive then
    let written :=
      match s.tlsConn with
      | some conn => s.written ++ [(conn, data)]
      | none => s.written
    { s with written := written, networkActive := decide (0 < c) }
  else s

/-- `handleErrorResponse`: a network error with the command of the packet. -/
def handleErrorResponse (s : Server) (packet : TPacket) (c : Int32) : Server :=
  s.sendNetworkData [TNetConstants.error.code, packet.command] c

/-- `handleMessage`: a network message with the text of the packet. -/
def handleMessage (s : Server) (packet : TPacket) (c : Int32) : Server :=
  s.sendNetworkData (TNetConstants.message.code :: packet.data.toList) c

/-- `handleStatus`: a network status with the parameters of the packet. -/
def handleStatus (s : Server) (packet : TPacket) (c : Int32) : Server :=
  s.sendNetworkData (TNetConstants.status.code :: packet.params.toList.flatMap wordBytes) c

/-- `handleResponse`: an OK or a status for the network; other responses are ignored. -/
def handleResponse (s : Server) (packet : TPacket) (c : Int32) : Server :=
  if packet.command = TResponseType.ok.code then
    s.sendNetworkData [TNetConstants.error.code, TResponseType.ok.code] c
  else if packet.command = TResponseType.status.code then s.handleStatus packet c
  else s

/-- `handleUARTPacket`; the server ignores commands and hellos. -/
def handleUARTPacket (s : Server) (packet : TPacket) (c : Int32) : Server :=
  if packet.packetType = TPacketType.response.code then s.handleResponse packet c
  else if packet.packetType = TPacketType.error.code then s.handleErrorResponse packet c
  else if packet.packetType = TPacketType.message.code then s.handleMessage packet c
  else s

/-- `handleCommand`; `residue` is what the stack holds for `commandPacket`. -/
def handleCommand (s : Server) (buffer : Buffer) (residue : TPacket) : Server :=
  let cmd := Char.ofNat (buffer.cell 1).toNat
  let commandPacket :=
    ({ residue with packetType := TPacketType.command.code }.setParam 0 (buffer.cmdParam 0)).setParam 1
      (buffer.cmdParam 1)
  match cmd with
  | 'f' | 'F' => s.uartSendPacket { commandPacket with command := TCommandType.forward.code }
  | 'b' | 'B' => s.uartSendPacket { commandPacket with command := TCommandType.reverse.code }
  | 'l' | 'L' => s.uartSendPacket { commandPacket with command := TCommandType.turnLeft.code }
  | 'r' | 'R' => s.uartSendPacket { commandPacket with command := TCommandType.turnRight.code }
  | 's' | 'S' => s.uartSendPacket { commandPacket with command := TCommandType.stop.code }
  | 'c' | 'C' =>
    s.uartSendPacket ({ commandPacket with command := TCommandType.clearStats.code }.setParam 0 0)
  | 'g' | 'G' => s.uartSendPacket { commandPacket with command := TCommandType.getStats.code }
  | _ => s

/-- `handleNetworkData`; it is given the number of bytes received and does not use it. -/
def handleNetworkData (s : Server) (conn : ℕ) (buffer : Buffer) (_len : ℕ) (residue : TPacket) :
    Server :=
  let s := { s with tlsConn := some conn }
  if buffer.cell 0 = TNetConstants.command.code then s.handleCommand buffer residue else s

/-- `EXIT_THREAD`: the worker of a connection leaves its loop and sets `tls_conn` to `NULL`. -/
def exitThread (s : Server) (conn : ℕ) : Server :=
  { s with serving := s.serving.filter fun w => w.conn ≠ conn, tlsConn := none }

/-- `iteration`: one iteration of the loop in `worker`, and the test of its condition. -/
def iteration (s : Server) (w : Worker) (read : SslRead) (residue : TPacket) : Server :=
  let s := { s with networkActive := decide (0 < read.len) }
  let s :=
    match read with
    | .stored data _ =>
      let stored := w.store data
      let serving := s.serving.map fun v => if v.conn = w.conn then stored else v
      { s with serving := serving }.handleNetworkData w.conn stored.buffer data.length residue
    | .closed | .failed => s
  if s.networkActive then s else s.exitThread w.conn

/-- `Input`: what the server meets, which is a client that the listener accepts and spawns a worker for,
with what the stack holds for the worker's buffer; what a worker's `sslRead` does; or a packet from the
Arduino. -/
inductive Input
  | accept (buffer : Buffer)
  | read (conn : ℕ) (read : SslRead) (residue : TPacket)
  | uart (packet : TPacket) (c : Int32)

/-- The listener spawns a worker, which tests its loop condition. -/
def accept (s : Server) (buffer : Buffer) : Server :=
  let conn := s.accepted
  let s := { s with accepted := conn + 1 }
  if s.networkActive then { s with serving := s.serving ++ [⟨conn, buffer⟩] } else s.exitThread conn

/-- `Server.step`: what one input makes of the server; a read on a connection that no worker serves is
none. -/
def step (s : Server) : Input → Server
  | .accept buffer => s.accept buffer
  | .read conn read residue =>
    match s.serving.find? fun w => w.conn = conn with
    | some w => s.iteration w read residue
    | none => s
  | .uart packet c => s.handleUARTPacket packet c

/-- `reply?`: what the server writes to the network for a packet, if anything. -/
def reply? (packet : TPacket) : Option (List UInt8) :=
  if packet.packetType = TPacketType.response.code then
    if packet.command = TResponseType.ok.code then some [TNetConstants.error.code, TResponseType.ok.code]
    else if packet.command = TResponseType.status.code then
      some (TNetConstants.status.code :: packet.params.toList.flatMap wordBytes)
    else none
  else if packet.packetType = TPacketType.error.code then some [TNetConstants.error.code, packet.command]
  else if packet.packetType = TPacketType.message.code then
    some (TNetConstants.message.code :: packet.data.toList)
  else none

/-- A packet from the Arduino is answered to the network or ignored. -/
theorem handleUARTPacket_eq (s : Server) (packet : TPacket) (c : Int32) : s.handleUARTPacket packet c =
    match reply? packet with
    | some data => s.sendNetworkData data c
    | none => s := by
  unfold handleUARTPacket handleResponse reply?
  split_ifs <;> rfl

/-- Writing to the network concerns `networkActive` and what was written. -/
theorem sendNetworkData_eq (s : Server) (data : List UInt8) (c : Int32) : ∃ written,
    s.sendNetworkData data c =
      { s with networkActive := s.networkActive && decide (0 < c), written := written } := by
  unfold sendNetworkData
  split
  · rename_i hactive
    rw [hactive, Bool.true_and]
    exact ⟨_, rfl⟩
  · rename_i hinactive
    rw [Bool.not_eq_true] at hinactive
    refine ⟨s.written, ?_⟩
    rw [hinactive, Bool.false_and, ← hinactive]

/-- Writing to the network writes the given data or nothing. -/
theorem data_eq_of_written {s : Server} {data data' : List UInt8} {c : Int32} {conn : ℕ}
    (h : (s.sendNetworkData data c).written = s.written ++ [(conn, data')]) : data' = data := by
  unfold sendNetworkData at h
  split at h
  · cases htls : s.tlsConn with
    | none => simp [htls] at h
    | some client =>
      simp only [htls] at h
      cases List.append_cancel_left h
      rfl
  · simp at h

/-- `commandOf?`: the command that the letter of a message stands for, if any. -/
def commandOf? : Char → Option TCommandType
  | 'f' | 'F' => some .forward
  | 'b' | 'B' => some .reverse
  | 'l' | 'L' => some .turnLeft
  | 'r' | 'R' => some .turnRight
  | 's' | 'S' => some .stop
  | 'c' | 'C' => some .clearStats
  | 'g' | 'G' => some .getStats
  | _ => none

/-- The packet that `handleCommand` sends for a command. -/
def commandPacket (buffer : Buffer) (residue : TPacket) (command : TCommandType) : TPacket :=
  let param₀ := if command = .clearStats then 0 else buffer.cmdParam 0
  ({ residue with
    packetType := TPacketType.command.code
    command := command.code }.setParam 0 param₀).setParam 1 (buffer.cmdParam 1)

/-- `relayed`: the packets that a worker's buffer leads to, at most one. -/
def relayed (buffer : Buffer) (residue : TPacket) : List TPacket :=
  if buffer.cell 0 = TNetConstants.command.code then
    ((commandOf? (Char.ofNat (buffer.cell 1).toNat)).map (commandPacket buffer residue)).toList
  else []

/-- Clearing the statistics sets `params[0]` again, after `params[1]`. -/
theorem setIfInBounds_again (params : Vector UInt32 16) (a b : UInt32) :
    ((params.setIfInBounds 0 a).setIfInBounds 1 b).setIfInBounds 0 0 =
      (params.setIfInBounds 0 0).setIfInBounds 1 b := by
  rw [Vector.setIfInBound_comm b 0 Nat.one_ne_zero, Vector.setIfInBounds_setIfInBounds]

/-- `handleCommand` sends a packet if the letter of the message is that of a command, and else nothing. -/
theorem handleCommand_eq (s : Server) (buffer : Buffer) (residue : TPacket) : s.handleCommand buffer residue =
    { s with uart := s.uart ++
        ((commandOf? (Char.ofNat (buffer.cell 1).toNat)).map (commandPacket buffer residue)).toList } := by
  unfold handleCommand
  dsimp only
  generalize Char.ofNat (buffer.cell 1).toNat = cmd
  split
  iterate 10 rfl
  iterate 2
    exact congrArg (fun params => s.uartSendPacket { residue with
      packetType := TPacketType.command.code
      command := TCommandType.clearStats.code
      params := params }) (setIfInBounds_again residue.params (buffer.cmdParam 0) (buffer.cmdParam 1))
  iterate 2 rfl
  · have hunknown : commandOf? cmd = none := by
      unfold commandOf?
      split
      all_goals first
        | rfl
        | contradiction
    rw [hunknown]
    exact congrArg (fun uart => { s with uart := uart }) (List.append_nil s.uart).symm

/-- A network message makes its client the one that is answered. -/
theorem handleNetworkData_eq (s : Server) (conn : ℕ) (buffer : Buffer) (len : ℕ) (residue : TPacket) :
    s.handleNetworkData conn buffer len residue =
      { s with tlsConn := some conn, uart := s.uart ++ relayed buffer residue } := by
  unfold handleNetworkData relayed
  dsimp only
  split
  · rw [handleCommand_eq]
  · rw [List.append_nil]

/-- A read with a positive result has stored what it received. -/
theorem SslRead.stored_of_len_pos {read : SslRead} (h : 0 < read.len) :
    ∃ data hdata, read = .stored data hdata := by
  cases read with
  | stored data hdata => exact ⟨data, hdata, rfl⟩
  | closed => exact absurd h (lt_irrefl 0)
  | failed =>
    have hneg : (0 : ℤ) < -1 := h
    exact absurd hneg (by decide)

/-- A cell of a buffer is what its optional lookup finds there, or 0. -/
theorem Buffer.cell_eq (buffer : Buffer) (i : ℕ) : buffer.cell i = buffer[i]?.getD 0 := vector_getD buffer i 0

/-- A cell of the buffer after a read is the byte received for it, or the old one. -/
theorem cell_store (w : Worker) (data : List UInt8) {i : ℕ} (hi : i < bufLen) :
    (w.store data).buffer.cell i = data.getD i (w.buffer.cell i) := by
  have hcell (buffer : Buffer) : buffer.cell i = buffer[i] := by
    rw [Buffer.cell_eq, Vector.getElem?_eq_getElem hi, Option.getD_some]
  rw [hcell, hcell]
  exact Vector.getElem_ofFn hi

/-- An iteration that receives data sets the flag, `tls_conn` and the buffer, and relays the message. -/
theorem iteration_stored (s : Server) (w : Worker) (data : List UInt8)
    (h : 0 < data.length ∧ data.length ≤ bufLen) (residue : TPacket) :
    s.iteration w (.stored data h) residue = { s with
      networkActive := true
      serving := s.serving.map fun v => if v.conn = w.conn then w.store data else v
      tlsConn := some w.conn
      uart := s.uart ++ relayed (w.store data).buffer residue } := by
  have hlen : decide (0 < (SslRead.stored data h).len) = true := decide_eq_true (Int.natCast_pos.mpr h.1)
  unfold iteration
  dsimp only
  rw [hlen, handleNetworkData_eq, if_pos rfl]

/-- An iteration that receives no data clears the flag, and its worker leaves the loop. -/
theorem iteration_ended (s : Server) (w : Worker) {read : SslRead} (h : read.len ≤ 0) (residue : TPacket) :
    s.iteration w read residue = { s with
      networkActive := false
      serving := s.serving.filter fun v => v.conn ≠ w.conn
      tlsConn := none } := by
  cases read with
  | stored data hdata => exact absurd (Int.natCast_pos.mpr hdata.1) (not_lt.mpr h)
  | closed => rfl
  | failed => rfl

/-- A client that is accepted while the flag is set is served. -/
theorem accept_active {s : Server} (h : s.networkActive = true) (buffer : Buffer) :
    s.step (.accept buffer) = { s with
      accepted := s.accepted + 1
      serving := s.serving ++ [⟨s.accepted, buffer⟩] } := by
  rw [step, accept]
  dsimp only
  rw [if_pos h]

/-- A client that is accepted while the flag is clear is not served, as its worker leaves at once. -/
theorem accept_inactive {s : Server} (h : s.networkActive = false) (buffer : Buffer) :
    s.step (.accept buffer) = { s with accepted := s.accepted + 1 }.exitThread s.accepted := by
  rw [step, accept]
  dsimp only
  rw [if_neg (Bool.eq_false_iff.mp h)]

/-- The server after the worker of a connection has lost its client. -/
def Ends (s t : Server) (conn : ℕ) : Prop :=
  t = { s with
    networkActive := false
    serving := s.serving.filter fun w => w.conn ≠ conn
    tlsConn := none }

/-- The server after the worker of a connection has handled a message: it is in its loop, and answered. -/
def Continues (s t : Server) (conn : ℕ) : Prop :=
  ∃ (w : Worker) (uart : List TPacket), w.conn = conn ∧ t = { s with
    networkActive := true
    serving := s.serving.map fun v => if v.conn = conn then w else v
    tlsConn := some conn
    uart := uart }

/-- A read does nothing if no worker serves the connection, and else it ends the worker or continues. -/
theorem read_cases (s : Server) (conn : ℕ) (read : SslRead) (residue : TPacket) :
    ((∀ w ∈ s.serving, w.conn ≠ conn) ∧ s.step (.read conn read residue) = s) ∨
      ((∃ w ∈ s.serving, w.conn = conn) ∧
        ((read.len ≤ 0 ∧ s.Ends (s.step (.read conn read residue)) conn) ∨
          (0 < read.len ∧ s.Continues (s.step (.read conn read residue)) conn))) := by
  rw [step]
  cases hfind : s.serving.find? fun w => w.conn = conn with
  | none =>
    exact Or.inl ⟨fun w hw hconn => List.find?_eq_none.mp hfind w hw (decide_eq_true hconn), rfl⟩
  | some w =>
    have hconn : w.conn = conn := by simpa using List.find?_some hfind
    subst hconn
    refine Or.inr ⟨⟨w, List.mem_of_find?_eq_some hfind, rfl⟩, ?_⟩
    rcases le_or_gt read.len 0 with hlen | hlen
    · exact Or.inl ⟨hlen, iteration_ended s w hlen residue⟩
    · obtain ⟨data, hdata, rfl⟩ := SslRead.stored_of_len_pos hlen
      exact Or.inr ⟨hlen, w.store data, _, w.store_conn data, iteration_stored s w data hdata residue⟩

/-- A worker that has received a message answers its client. -/
theorem read_served {s : Server} {conn : ℕ} (h : ∃ w ∈ s.serving, w.conn = conn) (data : List UInt8)
    (hdata : 0 < data.length ∧ data.length ≤ bufLen) (residue : TPacket) :
    (s.step (.read conn (.stored data hdata) residue)).networkActive = true ∧
      (s.step (.read conn (.stored data hdata) residue)).tlsConn = some conn := by
  have hlen : 0 < (SslRead.stored data hdata).len := Int.natCast_pos.mpr hdata.1
  rcases s.read_cases conn (.stored data hdata) residue with
    ⟨hnone, -⟩ | ⟨-, ⟨hended, -⟩ | ⟨-, w, uart, -, hstep⟩⟩
  · obtain ⟨w, hw, hconn⟩ := h
    exact absurd hconn (hnone w hw)
  · exact absurd hlen (not_lt.mpr hended)
  · rw [hstep]
    exact ⟨rfl, rfl⟩

/-- A packet from the Arduino can only clear the flag. -/
theorem uart_eq (s : Server) (packet : TPacket) (c : Int32) : ∃ written, s.step (.uart packet c) =
    { s with
      networkActive := s.networkActive && (reply? packet).all fun _ => decide (0 < c)
      written := written } := by
  rw [step, handleUARTPacket_eq]
  cases reply? packet with
  | none =>
    refine ⟨s.written, ?_⟩
    rw [Option.all_none, Bool.and_true]
  | some data => exact s.sendNetworkData_eq data c

/-- `Numbered`: every worker in its loop serves a connection that was accepted. -/
def Numbered (s : Server) : Prop := ∀ w ∈ s.serving, w.conn < s.accepted

/-- Every step of the server keeps the connections of its workers numbered. -/
theorem step_numbered {s : Server} (h : s.Numbered) (input : Input) : (s.step input).Numbered := by
  cases input with
  | accept buffer =>
    cases hactive : s.networkActive with
    | true =>
      rw [accept_active hactive]
      intro w hw
      rcases List.mem_append.mp hw with hw | hw
      · exact Nat.lt_succ_of_lt (h w hw)
      · rw [List.mem_singleton.mp hw]
        exact Nat.lt_succ_self s.accepted
    | false =>
      rw [accept_inactive hactive]
      intro w hw
      exact Nat.lt_succ_of_lt (h w (List.mem_of_mem_filter hw))
  | read conn read residue =>
    rcases s.read_cases conn read residue with ⟨-, hstep⟩ | ⟨hserved, ⟨-, hends⟩ | ⟨-, w, uart, hw, hcontinues⟩⟩
    · rwa [hstep]
    · rw [hends]
      intro v hv
      exact h v (List.mem_of_mem_filter hv)
    · rw [hcontinues]
      intro v hv
      obtain ⟨u, hu, rfl⟩ := List.mem_map.mp hv
      split
      · obtain ⟨old, hold, hsame⟩ := hserved
        rw [hw, ← hsame]
        exact h old hold
      · exact h u hu
  | uart packet c =>
    obtain ⟨written, hstep⟩ := s.uart_eq packet c
    rw [hstep]
    exact h

end Server

end AlexRobot
