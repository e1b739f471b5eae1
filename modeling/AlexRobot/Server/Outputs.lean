import AlexRobot.Server.Relay

/-!
# What the server sends

The server has two outputs: the serial line, and the network. Only a message that a worker
handles sends something to the Arduino, and at most one packet; only a packet from the Arduino
writes to the network, and only to the connection that wrote last.
-/

namespace AlexRobot

namespace Server

/-- The message that an input makes a worker handle, with the bytes that its buffer held. -/
def message? (s : Server) : Input → Option Buffer
  | .accept _ => none
  | .read conn (.stored data _) _ =>
    (s.serving.find? fun w => w.conn = conn).map fun w => (w.store data).buffer
  | .read _ .closed _ => none
  | .read _ .failed _ => none
  | .uart _ _ => none

/-- A connection that no worker serves brings no message. -/
theorem message?_unserved {s : Server} {conn : ℕ} (h : ∀ w ∈ s.serving, w.conn ≠ conn) (read : SslRead)
    (residue : TPacket) : s.message? (.read conn read residue) = none := by
  have hfind : (s.serving.find? fun w => w.conn = conn) = none :=
    List.find?_eq_none.mpr fun w hw hconn => h w hw (of_decide_eq_true hconn)
  cases read with
  | stored data hdata =>
    rw [message?, hfind]
    rfl
  | closed => rfl
  | failed => rfl

/-- A read that receives nothing sends nothing to the Arduino. -/
theorem read_uart (s : Server) (conn : ℕ) {read : SslRead} (h : read.len ≤ 0) (residue : TPacket) :
    (s.step (.read conn read residue)).uart = s.uart := by
  rcases s.read_cases conn read residue with ⟨-, hstep⟩ | ⟨-, ⟨-, hends⟩ | ⟨hpos, -⟩⟩
  · rw [hstep]
  · rw [hends]
  · exact absurd hpos (not_lt.mpr h)

/-- A step of the server sends the Arduino what its message leads to, and without a message nothing. -/
theorem step_uart (s : Server) (input : Input) : ∃ residue, (s.step input).uart =
    s.uart ++ (s.message? input).elim [] fun buffer => relayed buffer residue := by
  have hnothing (h : (s.step input).uart = s.uart) (hmessage : s.message? input = none) :
      ∃ residue, (s.step input).uart =
        s.uart ++ (s.message? input).elim [] fun buffer => relayed buffer residue := by
    refine ⟨AlexRobot.TPacket.bare .hello .stop, ?_⟩
    rw [hmessage, h]
    exact (List.append_nil _).symm
  cases input with
  | accept buffer =>
    refine hnothing ?_ rfl
    cases hactive : s.networkActive with
    | true => rw [accept_active hactive]
    | false =>
      rw [accept_inactive hactive]
      rfl
  | read conn read residue =>
    cases read with
    | stored data hdata =>
      cases hfind : s.serving.find? fun w => w.conn = conn with
      | none =>
        refine hnothing ?_ ?_
        · rw [step, hfind]
        · rw [message?, hfind]
          rfl
      | some w =>
        refine ⟨residue, ?_⟩
        rw [step, message?, hfind, Option.map_some, Option.elim_some]
        dsimp only
        rw [iteration_stored]
    | closed => exact hnothing (s.read_uart conn le_rfl residue) rfl
    | failed =>
      have hfailed : SslRead.failed.len ≤ 0 := by decide
      exact hnothing (s.read_uart conn hfailed residue) rfl
  | uart packet c =>
    obtain ⟨written, hstep⟩ := s.uart_eq packet c
    exact hnothing (by rw [hstep]) rfl

/-- A message that a worker handles sends at most one packet to the Arduino. -/
theorem relayed_length (buffer : Buffer) (residue : TPacket) : (relayed buffer residue).length ≤ 1 := by
  unfold relayed
  split
  · exact Option.length_toList_le
  · exact Nat.zero_le 1

/-- Writing to the network writes nothing, or the data to `tls_conn`. -/
theorem sendNetworkData_written (s : Server) (data : List UInt8) (c : Int32) :
    (s.sendNetworkData data c).written = s.written ∨
      ∃ conn, s.tlsConn = some conn ∧ (s.sendNetworkData data c).written = s.written ++ [(conn, data)] := by
  unfold sendNetworkData
  split
  · cases htls : s.tlsConn with
    | none => exact Or.inl rfl
    | some conn => exact Or.inr ⟨conn, rfl, rfl⟩
  · exact Or.inl rfl

/-- A packet writes to the network at most its own reply, and that to the connection that `tls_conn`
names. -/
theorem written_of_packet (s : Server) (packet : TPacket) (c : Int32) :
    ∃ replies, (s.handleUARTPacket packet c).written = s.written ++ replies ∧
      (replies.map Prod.snd).Sublist (reply? packet).toList ∧ ∀ reply ∈ replies, s.tlsConn = some reply.1 := by
  rw [handleUARTPacket_eq]
  cases reply? packet with
  | none =>
    exact ⟨[], (List.append_nil _).symm, List.Sublist.refl _, fun _ hreply => absurd hreply List.not_mem_nil⟩
  | some data =>
    rcases s.sendNetworkData_written data c with hnothing | ⟨conn, htls, hwritten⟩
    · exact ⟨[], hnothing.trans (List.append_nil _).symm, List.nil_sublist _,
        fun _ hreply => absurd hreply List.not_mem_nil⟩
    · refine ⟨[(conn, data)], hwritten, List.Sublist.refl _, fun reply hreply => ?_⟩
      rw [List.mem_singleton.mp hreply]
      exact htls

/-- Several packets write to the network at most their own replies, in the order of the packets. -/
theorem written_of_packets (s : Server) (packets : List TPacket) (c : Int32) :
    ∃ replies, (packets.foldl (fun s packet => s.handleUARTPacket packet c) s).written = s.written ++ replies ∧
      (replies.map Prod.snd).Sublist (packets.filterMap reply?) := by
  induction packets generalizing s with
  | nil => exact ⟨[], (List.append_nil _).symm, List.Sublist.refl _⟩
  | cons packet rest ih =>
    obtain ⟨first, hfirst, hreply, -⟩ := s.written_of_packet packet c
    obtain ⟨later, hlater, hreplies⟩ := ih (s.handleUARTPacket packet c)
    refine ⟨first ++ later, ?_, ?_⟩
    · rw [List.foldl_cons, hlater, hfirst, List.append_assoc]
    · have hcons : (packet :: rest).filterMap reply? = (reply? packet).toList ++ rest.filterMap reply? := by
        rw [List.filterMap_cons]
        cases reply? packet <;> rfl
      rw [List.map_append, hcons]
      exact hreply.append hreplies

/-- A client that connects or sends a message writes nothing to the network. -/
theorem written_of_client (s : Server) {input : Input} (h : ∀ packet c, input ≠ .uart packet c) :
    (s.step input).written = s.written := by
  cases input with
  | accept buffer =>
    cases hactive : s.networkActive with
    | true => rw [accept_active hactive]
    | false =>
      rw [accept_inactive hactive]
      rfl
  | read conn read residue =>
    rcases s.read_cases conn read residue with ⟨-, hstep⟩ | ⟨-, ⟨-, hends⟩ | ⟨-, w, uart, -, hcontinues⟩⟩
    · rw [hstep]
    · rw [hends]
    · rw [hcontinues]
  | uart packet c => exact absurd rfl (h packet c)

end Server

end AlexRobot
