import AlexRobot.Common.Ledger
import AlexRobot.Server.Exclusive
import AlexRobot.Server.Outputs

/-!
# The listener and its sessions

The listener opens a TLS session for every connection that it accepts, and hands the session to a
worker, which frees it as it leaves. A session whose handshake fails, or whose peer shows no
certificate, is freed at once; one whose certificate does not verify is not, and nobody
knows it any more. What OpenSSL reports of a connection is an input of the model.
-/

namespace AlexRobot

/-- `Handshake`: what OpenSSL reports of the client that connects. -/
structure Handshake where
  /-- `accepted`: what `SSL_accept` returns for the connection. -/
  accepted : Int32
  /-- `certificate`: `SSL_get_peer_certificate` returns a certificate. -/
  certificate : Bool
  /-- `verifyResult`: what `SSL_get_verify_result` returns for the session. -/
  verifyResult : Int64

/-- `X509_V_OK`: the result of a verification that found no fault. -/
def x509VOk : Int64 := 0

/-- A session: the name that `setHostVerification` was called with, if it was, and the handshake. -/
structure Ssl where
  hostname : Option (List UInt8)
  handshake : Handshake

/-- `verifyCertificate`: the client's certificate was verified and no fault was found. -/
def verifyCertificate (ssl : Ssl) : Bool := decide (ssl.handshake.verifyResult = x509VOk)

/-- `connected`: the handshake succeeded, and the client has shown a certificate. -/
def Ssl.connected (ssl : Ssl) : Bool := decide (0 < ssl.handshake.accepted) && ssl.handshake.certificate

/-- The connections whose workers come to `EXIT_THREAD` in a step. -/
def Server.exits (s : Server) : Server.Input → List ℕ
  | .accept _ => if s.networkActive then [] else [s.accepted]
  | .read conn read _ => if (∃ w ∈ s.serving, w.conn = conn) ∧ read.len ≤ 0 then [conn] else []
  | .uart _ _ => []

/-- The listener thread, with the server whose workers it spawns. Sessions are numbered in the order in
which they were opened. -/
structure Listener where
  /-- `_verify_peer`: the server asks for certificates and verifies them. -/
  verifyPeer : Bool
  /-- `_client_name`: the name that the certificate of a client has to carry. -/
  clientName : List UInt8
  /-- `_exitFlag`: a signal handler has asked the listener to leave its loop. -/
  exitFlag : Bool
  /-- The listener is in its loop, and waits in `accept`. -/
  accepting : Bool
  ssls : List Ssl
  /-- `freed`: the sessions that were given to `SSL_free`, in order. -/
  freed : List ℕ
  /-- `spawned`: the session of each worker that was spawned, in order. -/
  spawned : List ℕ
  server : Server

namespace Listener

/-- `Listener.start`: the listener as `createServer` has spawned it, before any client connects. -/
def start (verifyPeer : Bool) (clientName : List UInt8) : Listener where
  verifyPeer := verifyPeer
  clientName := clientName
  exitFlag := false
  accepting := true
  ssls := []
  freed := []
  spawned := []
  server := .initial

/-- `SSL_free`: the session is freed, and is recorded as such. -/
def sslFree (l : Listener) (ssl : ℕ) : Listener := { l with freed := l.freed ++ [ssl] }

/-- `connectSSL`; it returns the session, or `none` for `NULL`. -/
def connectSSL (l : Listener) (commonName : Option (List UInt8)) (handshake : Handshake) :
    Listener × Option ℕ :=
  let ssl := l.ssls.length
  let l := { l with ssls := l.ssls ++ [⟨commonName, handshake⟩] }
  if handshake.accepted ≤ 0 then (l.sslFree ssl, none)
  else if handshake.certificate then (l, some ssl)
  else (l.sslFree ssl, none)

/-- `sessionOf`: the session that the worker of a connection was given. -/
def sessionOf (l : Listener) (conn : ℕ) : ℕ := l.spawned.getD conn 0

/-- A step of the server; a worker that leaves frees its session. -/
def serverStep (l : Listener) (input : Server.Input) : Listener :=
  { l with
    server := l.server.step input
    freed := l.freed ++ (l.server.exits input).map l.sessionOf }

/-- `spawn`: the listener spawns a worker for a session, and the server accepts its client. -/
def spawn (l : Listener) (ssl : ℕ) (buffer : Server.Buffer) : Listener :=
  { l with spawned := l.spawned ++ [ssl] }.serverStep (.accept buffer)

/-- `commonName`: the name that `_tls_listener` has the certificate checked for, `none` for `NULL`. -/
def commonName (l : Listener) : Option (List UInt8) := if l.verifyPeer then some l.clientName else none

/-- `serve`: what `_tls_listener` does with a connection that `accept` returns. -/
def serve (l : Listener) (handshake : Handshake) (buffer : Server.Buffer) : Listener :=
  match l.connectSSL l.commonName handshake with
  | (l', none) => l'
  | (l', some ssl) =>
    if l.verifyPeer && !verifyCertificate ⟨l.commonName, handshake⟩ then l' else l'.spawn ssl buffer

/-- `connect`: one iteration of the loop in `_tls_listener`, and the test of its condition. -/
def connect (l : Listener) (handshake : Handshake) (buffer : Server.Buffer) : Listener :=
  { l.serve handshake buffer with accepting := !l.exitFlag }

/-- `Event`: what happens to the listener, which is a connection, with what the stack holds for the
buffer of its worker; one of the signals that set `_exitFlag`; or what the server meets besides its
clients. -/
inductive Event
  | connect (handshake : Handshake) (buffer : Server.Buffer)
  | signal
  | read (conn : ℕ) (read : Server.SslRead) (residue : TPacket)
  | uart (packet : TPacket) (c : Int32)

/-- `Listener.step`: what one event makes of the listener and of its server. -/
def step (l : Listener) : Event → Listener
  | .connect handshake buffer => if l.accepting then l.connect handshake buffer else l
  | .signal => { l with exitFlag := true }
  | .read conn read residue => l.serverStep (.read conn read residue)
  | .uart packet c => l.serverStep (.uart packet c)

/-- `opened`: the listener with one more session, at the end of the list. -/
def opened (l : Listener) (ssl : Ssl) : Listener := { l with ssls := l.ssls ++ [ssl] }

/-- The session is connected, but its certificate is wanted and does not verify. -/
def refuses (l : Listener) (ssl : Ssl) : Bool := ssl.connected && (l.verifyPeer && !verifyCertificate ssl)

/-- `refused`: the sessions that the listener refused, which nobody frees. -/
def refused (l : Listener) : List ℕ := (List.range l.ssls.length).filter fun i => l.ssls[i]?.any l.refuses

/-- The listener frees the session that it opens, forgets it, or spawns its worker. -/
theorem serve_eq (l : Listener) (handshake : Handshake) (buffer : Server.Buffer) :
    l.serve handshake buffer =
      if (⟨l.commonName, handshake⟩ : Ssl).connected then
        if l.refuses ⟨l.commonName, handshake⟩ then l.opened ⟨l.commonName, handshake⟩
        else (l.opened ⟨l.commonName, handshake⟩).spawn l.ssls.length buffer
      else (l.opened ⟨l.commonName, handshake⟩).sslFree l.ssls.length := by
  unfold serve connectSSL refuses Ssl.connected
  dsimp only
  by_cases haccepted : handshake.accepted ≤ 0
  · rw [if_pos haccepted, decide_eq_false (Int32.not_lt.mpr haccepted)]
    rfl
  · rw [if_neg haccepted, decide_eq_true (Int32.not_le.mp haccepted)]
    cases handshake.certificate with
    | false => rfl
    | true => rfl

/-- The listener has one more session after it has opened one. -/
theorem length_opened (l : Listener) (ssl : Ssl) : (l.opened ssl).ssls.length = l.ssls.length + 1 :=
  List.length_append

/-- A session that is opened is refused or not, and the others are as before. -/
theorem refused_opened (l : Listener) (ssl : Ssl) :
    (l.opened ssl).refused = l.refused ++ if l.refuses ssl then [l.ssls.length] else [] := by
  have hrefuses : (l.opened ssl).refuses = l.refuses := rfl
  rw [refused, length_opened, hrefuses, List.range_succ, List.filter_append]
  congr 1
  · apply List.filter_congr
    intro i hi
    rw [opened, List.getElem?_append_left (List.mem_range.mp hi)]
  · have hlast : (l.opened ssl).ssls[l.ssls.length]? = some ssl := List.getElem?_concat_length
    rw [List.filter_singleton, hlast, Bool.cond_eq_ite]
    rfl

/-- A ledger says where the sessions of the listener are. -/
structure Tracks (l : Listener) (g : Ledger) : Prop where
  opened : g.opened = l.ssls.length
  held : g.held = l.server.serving.map fun w => l.sessionOf w.conn
  released : g.released = l.freed
  lost : g.lost = l.refused
  spawned : l.spawned.length = l.server.accepted
  numbered : l.server.Numbered

/-- The workers in their loops have sessions of their own. -/
theorem Tracks.sessionOf_injOn {l : Listener} {g : Ledger} (h : l.Tracks g) {v w : Server.Worker}
    (hv : v ∈ l.server.serving) (hw : w ∈ l.server.serving) (hsame : l.sessionOf v.conn = l.sessionOf w.conn) :
    v = w := by
  have hnodup := g.held_nodup
  rw [h.held] at hnodup
  exact List.inj_on_of_nodup_map hnodup hv hw hsame

/-- A ledger keeps track of a session that is freed as soon as it was opened. -/
theorem Tracks.sslFree {l : Listener} {g : Ledger} (h : l.Tracks g) {ssl : Ssl}
    (hrefuses : l.refuses ssl = false) :
    ∃ g' : Ledger, ((l.opened ssl).sslFree l.ssls.length).Tracks g' := by
  refine ⟨g.acquire.release g.opened_mem_acquire, ?_, ?_, ?_, ?_, h.spawned, h.numbered⟩
  · exact (congrArg (· + 1) h.opened).trans (l.length_opened ssl).symm
  · exact g.acquire_held_filter.trans h.held
  · change g.released ++ [g.opened] = l.freed ++ [l.ssls.length]
    rw [h.released, h.opened]
  · change g.lost = (l.opened ssl).refused
    rw [refused_opened, hrefuses, h.lost]
    exact (List.append_nil _).symm

/-- A ledger keeps track of a session that is opened and then refused. -/
theorem Tracks.opened_refused {l : Listener} {g : Ledger} (h : l.Tracks g) {ssl : Ssl}
    (hrefuses : l.refuses ssl = true) : ∃ g' : Ledger, (l.opened ssl).Tracks g' := by
  refine ⟨g.acquire.lose g.opened_mem_acquire, ?_, ?_, h.released, ?_, h.spawned, h.numbered⟩
  · exact (congrArg (· + 1) h.opened).trans (l.length_opened ssl).symm
  · exact g.acquire_held_filter.trans h.held
  · change g.lost ++ [g.opened] = (l.opened ssl).refused
    rw [refused_opened, hrefuses, h.lost, h.opened]
    rfl

/-- The session of a worker stays the same when another is spawned. -/
theorem sessionOf_spawned {l : Listener} {conn : ℕ} (h : conn < l.spawned.length) (ssl : ℕ) :
    { l with spawned := l.spawned ++ [ssl] }.sessionOf conn = l.sessionOf conn := List.getD_append _ _ _ _ h

/-- The session of the worker that was spawned last is the one that it was given. -/
theorem sessionOf_last (l : Listener) (ssl : ℕ) :
    { l with spawned := l.spawned ++ [ssl] }.sessionOf l.spawned.length = ssl := by
  rw [sessionOf, List.getD_append_right _ _ _ _ le_rfl, Nat.sub_self, List.getD_cons_zero]

/-- A ledger keeps track of a session whose worker is spawned. -/
theorem Tracks.spawn {l : Listener} {g : Ledger} (h : l.Tracks g) {ssl : Ssl} (hrefuses : l.refuses ssl = false)
    (buffer : Server.Buffer) : ∃ g' : Ledger, ((l.opened ssl).spawn l.ssls.length buffer).Tracks g' := by
  have hopened : g.opened + 1 = (l.opened ssl).ssls.length :=
    (congrArg (· + 1) h.opened).trans (l.length_opened ssl).symm
  have hlost : g.lost = (l.opened ssl).refused := by
    rw [refused_opened, hrefuses, h.lost]
    exact (List.append_nil _).symm
  have hspawned : (l.spawned ++ [l.ssls.length]).length = l.server.accepted + 1 := by
    rw [List.length_append, h.spawned, List.length_singleton]
  have hlast : { l.opened ssl with spawned := l.spawned ++ [l.ssls.length] }.sessionOf l.server.accepted =
      g.opened := by
    rw [← h.spawned, h.opened]
    exact (l.opened ssl).sessionOf_last l.ssls.length
  have hsame : g.held = l.server.serving.map fun w =>
      { l.opened ssl with spawned := l.spawned ++ [l.ssls.length] }.sessionOf w.conn := by
    rw [h.held]
    apply List.map_congr_left
    intro w hw
    exact (sessionOf_spawned ((h.numbered w hw).trans_eq h.spawned.symm) l.ssls.length).symm
  have hnumbered := Server.step_numbered h.numbered (.accept buffer)
  cases hactive : l.server.networkActive with
  | true =>
    refine ⟨g.acquire, hopened, ?_, ?_, hlost, ?_, hnumbered⟩
    · change g.held ++ [g.opened] = (l.server.step (.accept buffer)).serving.map _
      rw [Server.accept_active hactive, List.map_append, hsame]
      exact congrArg (_ ++ [·]) hlast.symm
    · change g.released = l.freed ++ (l.server.exits (.accept buffer)).map _
      rw [Server.exits, if_pos hactive, h.released]
      exact (List.append_nil _).symm
    · change (l.spawned ++ [l.ssls.length]).length = (l.server.step (.accept buffer)).accepted
      rw [hspawned, Server.accept_active hactive]
  | false =>
    refine ⟨g.acquire.release g.opened_mem_acquire, hopened, ?_, ?_, hlost, ?_, hnumbered⟩
    · refine g.acquire_held_filter.trans ?_
      change g.held = (l.server.step (.accept buffer)).serving.map _
      have hserving : l.server.serving.filter (fun w => w.conn ≠ l.server.accepted) = l.server.serving := by
        rw [List.filter_eq_self]
        exact fun w hw => decide_eq_true (h.numbered w hw).ne
      rw [Server.accept_inactive hactive]
      exact hsame.trans (congrArg (List.map _) hserving.symm)
    · change g.released ++ [g.opened] = l.freed ++ (l.server.exits (.accept buffer)).map _
      rw [Server.exits, hactive, h.released]
      exact congrArg (_ ++ [·]) hlast.symm
    · change (l.spawned ++ [l.ssls.length]).length = (l.server.step (.accept buffer)).accepted
      rw [hspawned, Server.accept_inactive hactive]
      rfl

/-- A ledger keeps track of a step of the server that frees no session. -/
theorem Tracks.serverStep {l : Listener} {g : Ledger} (h : l.Tracks g) {input : Server.Input}
    (hexits : l.server.exits input = [])
    (hserving : (l.server.step input).serving.map Server.Worker.conn = l.server.serving.map Server.Worker.conn)
    (haccepted : (l.server.step input).accepted = l.server.accepted) : (l.serverStep input).Tracks g where
  opened := h.opened
  held := by
    have hconns := congrArg (List.map l.sessionOf) hserving
    rw [List.map_map, List.map_map] at hconns
    exact h.held.trans hconns.symm
  released := by
    rw [Listener.serverStep, hexits, h.released]
    exact (List.append_nil _).symm
  lost := h.lost
  spawned := h.spawned.trans haccepted.symm
  numbered := Server.step_numbered h.numbered input

/-- A ledger keeps track of a worker that leaves its loop, as it frees its session. -/
theorem Tracks.read_ended {l : Listener} {g : Ledger} (h : l.Tracks g) {conn : ℕ} {read : Server.SslRead}
    {residue : TPacket} (hserved : ∃ w ∈ l.server.serving, w.conn = conn) (hlen : read.len ≤ 0)
    (hends : l.server.Ends (l.server.step (.read conn read residue)) conn) :
    ∃ g' : Ledger, (l.serverStep (.read conn read residue)).Tracks g' := by
  obtain ⟨v, hv, rfl⟩ := hserved
  have hmem : l.sessionOf v.conn ∈ g.held := by
    rw [h.held]
    exact List.mem_map_of_mem hv
  have hexits : l.server.exits (.read v.conn read residue) = [v.conn] := if_pos ⟨⟨v, hv, rfl⟩, hlen⟩
  refine ⟨g.release hmem, h.opened, ?_, ?_, h.lost, ?_, Server.step_numbered h.numbered _⟩
  · change g.held.filter (· ≠ l.sessionOf v.conn) = (l.server.step _).serving.map _
    rw [hends, h.held, List.filter_map]
    congr 1
    apply List.filter_congr
    intro w hw
    rw [Function.comp_apply, decide_eq_decide]
    constructor
    · exact fun hne hsame => hne (congrArg l.sessionOf hsame)
    · exact fun hne hsame => hne (congrArg Server.Worker.conn (h.sessionOf_injOn hw hv hsame))
  · change g.released ++ [l.sessionOf v.conn] = l.freed ++ (l.server.exits _).map l.sessionOf
    rw [hexits, h.released]
    rfl
  · change l.spawned.length = (l.server.step _).accepted
    rw [hends]
    exact h.spawned

/-- A ledger keeps track of a connection that the listener serves. -/
theorem Tracks.serve {l : Listener} {g : Ledger} (h : l.Tracks g) (handshake : Handshake)
    (buffer : Server.Buffer) : ∃ g' : Ledger, (l.serve handshake buffer).Tracks g' := by
  rw [serve_eq]
  split
  · split
    · rename_i hrefuses
      exact h.opened_refused hrefuses
    · rename_i hrefuses
      exact h.spawn (Bool.eq_false_iff.mpr hrefuses) buffer
  · rename_i hconnected
    apply h.sslFree
    rw [refuses, Bool.eq_false_iff.mpr hconnected, Bool.false_and]

/-- A ledger keeps track of what a worker reads, whether it then leaves its loop or goes on. -/
theorem Tracks.read {l : Listener} {g : Ledger} (h : l.Tracks g) (conn : ℕ) (read : Server.SslRead)
    (residue : TPacket) : ∃ g' : Ledger, (l.serverStep (.read conn read residue)).Tracks g' := by
  rcases l.server.read_cases conn read residue with
    ⟨hnone, hstep⟩ | ⟨hserved, ⟨hlen, hends⟩ | ⟨hlen, w, uart, hw, hcontinues⟩⟩
  · have hexits : l.server.exits (.read conn read residue) = [] :=
      if_neg fun ⟨⟨w, hw, hconn⟩, _⟩ => hnone w hw hconn
    exact ⟨g, h.serverStep hexits (by rw [hstep]) (by rw [hstep])⟩
  · exact h.read_ended hserved hlen hends
  · have hexits : l.server.exits (.read conn read residue) = [] :=
      if_neg fun ⟨_, hended⟩ => absurd hlen (not_lt.mpr hended)
    refine ⟨g, h.serverStep hexits ?_ (by rw [hcontinues])⟩
    rw [hcontinues, List.map_map]
    apply List.map_congr_left
    intro v hv
    rw [Function.comp_apply]
    split
    · rename_i hsame
      rw [hw, hsame]
    · rfl

/-- Every event leaves the listener with a ledger if there was one before. -/
theorem step_tracks {l : Listener} (h : ∃ g, l.Tracks g) (event : Event) : ∃ g, (l.step event).Tracks g := by
  obtain ⟨g, h⟩ := h
  cases event with
  | connect handshake buffer =>
    rw [step]
    split
    · obtain ⟨g', h'⟩ := h.serve handshake buffer
      exact ⟨g', h'.opened, h'.held, h'.released, h'.lost, h'.spawned, h'.numbered⟩
    · exact ⟨g, h⟩
  | signal => exact ⟨g, h.opened, h.held, h.released, h.lost, h.spawned, h.numbered⟩
  | read conn read residue => exact h.read conn read residue
  | uart packet c =>
    obtain ⟨written, hstep⟩ := l.server.uart_eq packet c
    exact ⟨g, h.serverStep rfl (by rw [hstep]) (by rw [hstep])⟩

/-- The ledger of a listener that has just been spawned is empty. -/
theorem start_tracks (verifyPeer : Bool) (clientName : List UInt8) :
    (start verifyPeer clientName).Tracks .empty :=
  ⟨rfl, rfl, rfl, rfl, rfl, fun _ hw => absurd hw List.not_mem_nil⟩

/-- A session that may be served: its handshake has succeeded and shown a certificate, and if the peer is
verified, for the name of the client and with success. -/
structure Admitted (verifyPeer : Bool) (clientName : List UInt8) (ssl : Ssl) : Prop where
  accepted : 0 < ssl.handshake.accepted
  certificate : ssl.handshake.certificate = true
  verified : verifyPeer = true → ssl.hostname = some clientName ∧ ssl.handshake.verifyResult = x509VOk

instance (verifyPeer : Bool) (clientName : List UInt8) (ssl : Ssl) :
    Decidable (Admitted verifyPeer clientName ssl) :=
  decidable_of_iff (0 < ssl.handshake.accepted ∧ ssl.handshake.certificate = true ∧
      (verifyPeer = true → ssl.hostname = some clientName ∧ ssl.handshake.verifyResult = x509VOk))
    ⟨fun h => ⟨h.1, h.2.1, h.2.2⟩, fun h => ⟨h.accepted, h.certificate, h.verified⟩⟩

/-- Every session whose worker is spawned may be served. -/
theorem admitted_of_connected {l : Listener} {handshake : Handshake}
    (hconnected : (⟨l.commonName, handshake⟩ : Ssl).connected = true)
    (hrefuses : l.refuses ⟨l.commonName, handshake⟩ = false) :
    Admitted l.verifyPeer l.clientName ⟨l.commonName, handshake⟩ := by
  have hparts := hconnected
  rw [Ssl.connected, Bool.and_eq_true] at hparts
  refine ⟨of_decide_eq_true hparts.1, hparts.2, fun hverify => ⟨if_pos hverify, ?_⟩⟩
  rw [refuses, hconnected, hverify, Bool.true_and, Bool.true_and, Bool.not_eq_false'] at hrefuses
  exact of_decide_eq_true hrefuses

/-- The workers were spawned for sessions that may be served. -/
def Vouched (l : Listener) : Prop :=
  ∀ i ∈ l.spawned, ∃ ssl, l.ssls[i]? = some ssl ∧ Admitted l.verifyPeer l.clientName ssl

/-- Opening another session changes nothing for the workers. -/
theorem Vouched.opened {l : Listener} (h : l.Vouched) (ssl : Ssl) : (l.opened ssl).Vouched := by
  intro i hi
  obtain ⟨admitted, hget, hadmitted⟩ := h i hi
  have hlt : i < l.ssls.length := (List.getElem?_eq_some_iff.mp hget).1
  exact ⟨admitted, (List.getElem?_append_left hlt).trans hget, hadmitted⟩

/-- Every event keeps the workers' sessions ones that may be served. -/
theorem step_vouched {l : Listener} (h : l.Vouched) (event : Event) : (l.step event).Vouched := by
  cases event with
  | connect handshake buffer =>
    rw [step]
    split
    · change (l.serve handshake buffer).Vouched
      rw [serve_eq]
      split
      · rename_i hconnected
        split
        · exact h.opened _
        · rename_i hrefuses
          intro i hi
          rcases List.mem_append.mp hi with hold | hnew
          · exact h.opened _ i hold
          · rw [List.mem_singleton.mp hnew]
            exact ⟨_, List.getElem?_concat_length,
              admitted_of_connected hconnected (Bool.eq_false_iff.mpr hrefuses)⟩
      · exact h.opened _
    · exact h
  | signal => exact h
  | read conn read residue => exact h
  | uart packet c => exact h

/-- `Kept`: what the listener keeps, which is a ledger of its sessions, workers whose sessions may be
served, and a `tls_conn` that is `NULL` or one of theirs. -/
structure Kept (l : Listener) : Prop where
  tracked : ∃ g, l.Tracks g
  vouched : l.Vouched
  tlsConn : l.server.TlsConnServed

/-- `admits`: the listener waits for a connection, and spawns a worker for this one. -/
def admits (l : Listener) (handshake : Handshake) : Bool :=
  l.accepting && ((⟨l.commonName, handshake⟩ : Ssl).connected && !l.refuses ⟨l.commonName, handshake⟩)

/-- The server accepts the clients that the listener admits. -/
theorem connect_server (l : Listener) (handshake : Handshake) (buffer : Server.Buffer) :
    (l.step (.connect handshake buffer)).server =
      if l.admits handshake then l.server.step (.accept buffer) else l.server := by
  rw [step, admits]
  cases l.accepting with
  | false => rfl
  | true =>
    change (l.serve handshake buffer).server = _
    rw [serve_eq]
    cases (⟨l.commonName, handshake⟩ : Ssl).connected with
    | false => rfl
    | true =>
      cases l.refuses ⟨l.commonName, handshake⟩ with
      | false => rfl
      | true => rfl

/-- An event is for the server of the listener one step or none at all. -/
theorem step_server (l : Listener) (event : Event) :
    (l.step event).server = l.server ∨ ∃ input, (l.step event).server = l.server.step input := by
  cases event with
  | connect handshake buffer =>
    rw [connect_server]
    split
    · exact Or.inr ⟨.accept buffer, rfl⟩
    · exact Or.inl rfl
  | signal => exact Or.inl rfl
  | read conn read residue => exact Or.inr ⟨.read conn read residue, rfl⟩
  | uart packet c => exact Or.inr ⟨.uart packet c, rfl⟩

/-- An event keeps the ledger, the entitled workers and `tls_conn` as the listener has them. -/
theorem step_kept (l : Listener) (event : Event) (h : l.Kept) : (l.step event).Kept where
  tracked := step_tracks h.tracked event
  vouched := step_vouched h.vouched event
  tlsConn := by
    rcases l.step_server event with hstep | ⟨input, hstep⟩
    · rw [hstep]
      exact h.tlsConn
    · rw [hstep]
      exact Server.step_tlsConnServed h.tlsConn input

/-- A listener that has just been spawned has nothing to keep. -/
theorem start_kept (verifyPeer : Bool) (clientName : List UInt8) : (start verifyPeer clientName).Kept where
  tracked := ⟨.empty, start_tracks verifyPeer clientName⟩
  vouched _ hi := absurd hi List.not_mem_nil
  tlsConn := Or.inl rfl

/-- The session of a connection may be served, and was not freed. -/
structure Entitled (l : Listener) (conn : ℕ) : Prop where
  admitted : ∃ ssl, l.ssls[l.sessionOf conn]? = some ssl ∧ Admitted l.verifyPeer l.clientName ssl
  notFreed : l.sessionOf conn ∉ l.freed

instance (l : Listener) (conn : ℕ) : Decidable (l.Entitled conn) :=
  decidable_of_iff
    ((l.ssls[l.sessionOf conn]?.any fun ssl => decide (Admitted l.verifyPeer l.clientName ssl)) = true ∧
      l.sessionOf conn ∉ l.freed) <| by
    rw [Option.any_eq_true]
    exact ⟨fun ⟨⟨ssl, hssl, hadmitted⟩, hfreed⟩ => ⟨⟨ssl, hssl, of_decide_eq_true hadmitted⟩, hfreed⟩,
      fun ⟨⟨ssl, hssl, hadmitted⟩, hfreed⟩ => ⟨⟨ssl, hssl, decide_eq_true hadmitted⟩, hfreed⟩⟩

/-- A worker that is in its loop serves a connection that is entitled to be served. -/
theorem Kept.entitled {l : Listener} (h : l.Kept) {w : Server.Worker} (hw : w ∈ l.server.serving) :
    l.Entitled w.conn := by
  obtain ⟨g, hg⟩ := h.tracked
  have hconn : w.conn < l.spawned.length := (hg.numbered w hw).trans_eq hg.spawned.symm
  refine ⟨h.vouched _ ?_, ?_⟩
  · rw [sessionOf, List.getD_eq_getElem _ _ hconn]
    exact List.getElem_mem hconn
  · rw [← hg.released]
    apply g.notMem_released
    rw [hg.held]
    exact List.mem_map_of_mem hw

/-- The connection that `tls_conn` names is entitled to be served. -/
theorem Kept.entitled_tlsConn {l : Listener} (h : l.Kept) {conn : ℕ} (htls : l.server.tlsConn = some conn) :
    l.Entitled conn := by
  rcases h.tlsConn with hnone | ⟨w, hw, hserved⟩
  · cases hnone.symm.trans htls
  · obtain rfl : w.conn = conn := Option.some.inj (hserved.symm.trans htls)
    exact h.entitled hw

/-- After any events each session that was opened is in one place: it was freed, once; or it has a
worker in its loop, that no other worker shares it with; or it was refused, and nobody frees it. The
session that is answered was not freed. -/
theorem sessions_accounted (verifyPeer : Bool) (clientName : List UInt8) (events : List Event) :
    let l := Run.after step (start verifyPeer clientName) events
    (l.freed ++ l.refused ++ l.server.serving.map fun w => l.sessionOf w.conn).Perm
        (List.range l.ssls.length) ∧
      ∀ conn, l.server.tlsConn = some conn → l.sessionOf conn ∉ l.freed := by
  intro l
  have hkept : l.Kept := Run.after_invariant step_kept (start_kept verifyPeer clientName) events
  refine ⟨?_, fun conn htls => (hkept.entitled_tlsConn htls).notFreed⟩
  obtain ⟨g, hg⟩ := hkept.tracked
  rw [← hg.released, ← hg.lost, ← hg.held, ← hg.opened]
  exact g.balanced

/-- Only a worker that is entitled sends something to the Arduino in this step, and only to a connection
that is entitled something is written. -/
structure Discloses (l : Listener) (event : Event) : Prop where
  commands : (l.step event).server.uart ≠ l.server.uart →
    ∃ conn read residue, event = .read conn read residue ∧ l.Entitled conn
  replies : ∃ replies, (l.step event).server.written = l.server.written ++ replies ∧
    ∀ reply ∈ replies, l.Entitled reply.1

/-- An event that leaves the server as it is, or lets it accept a client, has no output. -/
theorem discloses_of_quiet {l : Listener} {event : Event} (huart : (l.step event).server.uart = l.server.uart)
    (hwritten : (l.step event).server.written = l.server.written) : l.Discloses event where
  commands hchanged := absurd huart hchanged
  replies := ⟨[], hwritten.trans (List.append_nil _).symm, fun _ hreply => absurd hreply List.not_mem_nil⟩

/-- A connection sends nothing to the Arduino and writes nothing to a client. -/
theorem connect_quiet (l : Listener) (handshake : Handshake) (buffer : Server.Buffer) :
    (l.step (.connect handshake buffer)).server.uart = l.server.uart ∧
      (l.step (.connect handshake buffer)).server.written = l.server.written := by
  rw [connect_server]
  split
  · obtain ⟨residue, huart⟩ := l.server.step_uart (.accept buffer)
    exact ⟨huart.trans (List.append_nil _), l.server.written_of_client nofun⟩
  · exact ⟨rfl, rfl⟩

/-- In every run, whatever the connections and the order of the events, each command that reaches the
Arduino was received, and each reply of the Arduino is written, on a session that was not freed, whose
handshake succeeded and showed a certificate, and where the peer is verified, one that is valid and was
to be checked for the client's name. -/
theorem only_entitled (verifyPeer : Bool) (clientName : List UInt8) (events : List Event) :
    Run.Along step Discloses (start verifyPeer clientName) events := by
  refine Run.along_of_invariant step_kept ?_ (start_kept verifyPeer clientName) events
  intro l event h
  cases event with
  | connect handshake buffer =>
    obtain ⟨huart, hwritten⟩ := l.connect_quiet handshake buffer
    exact discloses_of_quiet huart hwritten
  | signal => exact discloses_of_quiet rfl rfl
  | read conn read residue =>
    refine ⟨fun hchanged => ⟨conn, read, residue, rfl, ?_⟩, [], ?_, fun _ hreply =>
      absurd hreply List.not_mem_nil⟩
    · rcases l.server.read_cases conn read residue with ⟨-, hstep⟩ | ⟨⟨w, hw, rfl⟩, -⟩
      · exact absurd (congrArg Server.uart hstep) hchanged
      · exact h.entitled hw
    · have hquiet : (l.server.step (.read conn read residue)).written = l.server.written :=
        l.server.written_of_client nofun
      exact hquiet.trans (List.append_nil _).symm
  | uart packet c =>
    obtain ⟨replies, hwritten, -, htls⟩ := l.server.written_of_packet packet c
    refine ⟨fun hchanged => absurd ?_ hchanged, replies, hwritten, fun reply hreply => ?_⟩
    · obtain ⟨written, hstep⟩ := l.server.uart_eq packet c
      change (l.server.step (.uart packet c)).uart = _
      rw [hstep]
    · exact h.entitled_tlsConn (htls reply hreply)

/-- An event in which no connection shows a certificate. -/
def Event.ShowsNone : Event → Prop
  | .connect handshake _ => handshake.certificate = false
  | .signal => True
  | .read _ _ _ => True
  | .uart _ _ => True

/-- No worker was spawned, and every session was freed. -/
structure Deserted (l : Listener) : Prop where
  freed : l.freed = List.range l.ssls.length
  spawned : l.spawned = []
  serving : l.server.serving = []
  tlsConn : l.server.tlsConn = none
  uart : l.server.uart = []
  written : l.server.written = []

/-- While no connection shows a certificate, the listener frees each session at once and spawns no
worker. -/
theorem step_deserted {l : Listener} (h : l.Deserted) {event : Event} (hnone : event.ShowsNone) :
    (l.step event).Deserted := by
  cases event with
  | connect handshake buffer =>
    rw [step]
    split
    · have hcertificate : handshake.certificate = false := hnone
      have hconnected : (⟨l.commonName, handshake⟩ : Ssl).connected = false := by
        rw [Ssl.connected, hcertificate, Bool.and_false]
      have hserve : l.serve handshake buffer = (l.opened ⟨l.commonName, handshake⟩).sslFree l.ssls.length := by
        rw [serve_eq, hconnected]
        rfl
      have hfreed : (l.serve handshake buffer).freed = List.range (l.serve handshake buffer).ssls.length := by
        rw [hserve]
        change l.freed ++ [l.ssls.length] = List.range (l.opened _).ssls.length
        rw [length_opened, List.range_succ, h.freed]
      have hserver : (l.serve handshake buffer).server = l.server := by
        rw [hserve]
        rfl
      have hspawned : (l.serve handshake buffer).spawned = [] := by
        rw [hserve]
        exact h.spawned
      exact ⟨hfreed, hspawned, (congrArg Server.serving hserver).trans h.serving,
        (congrArg Server.tlsConn hserver).trans h.tlsConn, (congrArg Server.uart hserver).trans h.uart,
        (congrArg Server.written hserver).trans h.written⟩
    · exact h
  | signal => exact ⟨h.freed, h.spawned, h.serving, h.tlsConn, h.uart, h.written⟩
  | read conn read residue =>
    have hserved : ¬ ∃ w ∈ l.server.serving, w.conn = conn := by
      rintro ⟨w, hw, -⟩
      rw [h.serving] at hw
      cases hw
    have hstep : l.server.step (.read conn read residue) = l.server := by
      rcases l.server.read_cases conn read residue with ⟨-, hstep⟩ | ⟨hread, -⟩
      · exact hstep
      · exact absurd hread hserved
    have hexits : l.server.exits (.read conn read residue) = [] := if_neg fun hread => hserved hread.1
    have hsame : l.step (.read conn read residue) = l := by
      rw [step, serverStep, hstep, hexits, List.map_nil, List.append_nil]
    rwa [hsame]
  | uart packet c =>
    obtain ⟨written, hstep⟩ := l.server.uart_eq packet c
    have hwritten : (l.server.step (.uart packet c)).written = [] := by
      obtain ⟨replies, hreplies, -, htls⟩ := l.server.written_of_packet packet c
      have hempty : replies = [] := List.eq_nil_iff_forall_not_mem.mpr fun reply hreply => by
        cases h.tlsConn.symm.trans (htls reply hreply)
      rw [hempty, List.append_nil, h.written] at hreplies
      exact hreplies
    have hfreed : (l.step (.uart packet c)).freed = l.freed := List.append_nil _
    refine ⟨hfreed.trans h.freed, h.spawned, ?_, ?_, ?_, hwritten⟩
    · change (l.server.step (.uart packet c)).serving = []
      rw [hstep]
      exact h.serving
    · change (l.server.step (.uart packet c)).tlsConn = none
      rw [hstep]
      exact h.tlsConn
    · change (l.server.step (.uart packet c)).uart = []
      rw [hstep]
      exact h.uart

/-- The flag is set, and with the session of the connection that is waited for there are at most `bound`. -/
structure Stopping (bound : ℕ) (l : Listener) : Prop where
  exitFlag : l.exitFlag = true
  length : l.ssls.length + l.accepting.toNat ≤ bound

/-- `serve` opens one session for a connection, and leaves the exit flag as it was. -/
theorem serve_opens (l : Listener) (handshake : Handshake) (buffer : Server.Buffer) :
    (l.serve handshake buffer).ssls.length = l.ssls.length + 1 ∧
      (l.serve handshake buffer).exitFlag = l.exitFlag := by
  rw [serve_eq]
  split
  · split
    · exact ⟨l.length_opened _, rfl⟩
    · exact ⟨l.length_opened _, rfl⟩
  · exact ⟨l.length_opened _, rfl⟩

/-- After the connection that is waited for, nothing is waited for. -/
theorem step_stopping {bound : ℕ} (l : Listener) (event : Event) (h : l.Stopping bound) :
    (l.step event).Stopping bound := by
  cases event with
  | connect handshake buffer =>
    rw [step]
    split
    · rename_i haccepting
      have hlength := h.length
      rw [haccepting] at hlength
      obtain ⟨hopens, hflag⟩ := l.serve_opens handshake buffer
      refine ⟨hflag.trans h.exitFlag, ?_⟩
      change (l.serve handshake buffer).ssls.length + (!l.exitFlag).toNat ≤ bound
      rw [hopens, h.exitFlag]
      exact hlength
    · exact h
  | signal => exact ⟨rfl, h.length⟩
  | read conn read residue => exact ⟨h.exitFlag, h.length⟩
  | uart packet c => exact ⟨h.exitFlag, h.length⟩

/-- Once a signal has set the flag, at most one more session is opened. -/
theorem signal_opens_one (l : Listener) (events : List Event) :
    (Run.after step (l.step .signal) events).ssls.length ≤ l.ssls.length + 1 := by
  have hstart : (l.step .signal).Stopping (l.ssls.length + 1) :=
    ⟨rfl, Nat.add_le_add_left (Bool.toNat_le _) _⟩
  have hrun := Run.after_invariant step_stopping hstart events
  exact (Nat.le_add_right _ _).trans hrun.length

end Listener

end AlexRobot
