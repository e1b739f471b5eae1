import AlexRobot.Server.Listener

/-!
# The context that all sessions of the listener share

`_tls_listener` creates one context before its loop, and `verifyPeer` decides what the context has
OpenSSL do. OpenSSL is not part of the repository: a function stands for what it reports of a
client, given the context and the name to check for. What its documentation says of
`SSL_VERIFY_NONE` and `SSL_VERIFY_PEER` on a server are hypotheses on that function. Without
verification nobody is asked for a certificate, and so nobody is served; with it, a certificate that
does not verify already ends the handshake, and the listener never comes to refuse one itself.
-/

namespace AlexRobot

/-- The two methods that `create_context` makes a context for. -/
inductive SslMethod
  | sslv23Client
  | sslv23Server

/-- The two modes of verification: `SSL_VERIFY_NONE`, which a context starts in, and `SSL_VERIFY_PEER`. -/
inductive VerifyMode
  | none
  | peer

/-- `SslCtx`: an `SSL_CTX`, as far as `create_context` sets it. -/
structure SslCtx where
  method : SslMethod
  /-- `noSslv2`: the option `SSL_OP_NO_SSLv2` of the context is set. -/
  noSslv2 : Bool
  /-- `noSslv3`: the option `SSL_OP_NO_SSLv3` of the context is set. -/
  noSslv3 : Bool
  verifyMode : VerifyMode
  /-- The callback that may overrule the result of a verification. -/
  verifyCallback : Option (Int32 → Int32)
  /-- `verifyDepth`: the verification depth, if one was set for the context. -/
  verifyDepth : Option Int32
  /-- The file that the certificates of the CA were loaded from. -/
  caFile : Option (List UInt8)

/-- `SSL_CTX_new`: the context allows every protocol of its method and verifies nobody. -/
def SslCtx.new (method : SslMethod) : SslCtx where
  method := method
  noSslv2 := false
  noSslv3 := false
  verifyMode := .none
  verifyCallback := none
  verifyDepth := none
  caFile := none

/-- `_verify_callback` leaves the result of the verification as it is. -/
def verifyCallback (preverify : Int32) : Int32 := preverify

/-- `create_context`: the context of a client or a server, which verifies its peers or does not. -/
def createContext (caCertName : List UInt8) (verifyPeer isServer : Bool) : SslCtx :=
  let method := if !isServer then SslMethod.sslv23Client else .sslv23Server
  let ctx := { SslCtx.new method with noSslv2 := true, noSslv3 := true }
  if verifyPeer then
    { ctx with
      verifyMode := .peer
      verifyCallback := some verifyCallback
      verifyDepth := some 4
      caFile := some caCertName }
  else ctx

/-- The listener thread with the context that it has created before its loop. -/
structure TlsListener where
  ctx : SslCtx
  listener : Listener

namespace TlsListener

/-- `TlsListener.start`: `_tls_listener` as it comes to its loop, with the context that it has created. -/
def start (caCertName : List UInt8) (verifyPeer : Bool) (clientName : List UInt8) : TlsListener where
  ctx := createContext caCertName verifyPeer true
  listener := .start verifyPeer clientName

variable {κ : Type*}

/-- The events of the listener, with a client in place of what OpenSSL reports of it. -/
inductive Event (κ : Type*)
  | connect (client : κ) (buffer : Server.Buffer)
  | signal
  | read (conn : ℕ) (read : Server.SslRead) (residue : TPacket)
  | uart (packet : TPacket) (c : Int32)

variable (openssl : SslCtx → Option (List UInt8) → κ → Handshake)

/-- The event that the listener sees: OpenSSL reports of a client by the context and by the name to
check for. -/
def reported (t : TlsListener) : Event κ → Listener.Event
  | .connect client buffer => .connect (openssl t.ctx t.listener.commonName client) buffer
  | .signal => .signal
  | .read conn read residue => .read conn read residue
  | .uart packet c => .uart packet c

/-- `TlsListener.step`: one event of the listener with OpenSSL; the context stays as it was created. -/
def step (t : TlsListener) (event : Event κ) : TlsListener :=
  { t with listener := t.listener.step (t.reported openssl event) }

/-- `AsksNobody`: what OpenSSL documents for a server in mode `SSL_VERIFY_NONE`, that it does not ask
the client for a certificate, so that the client shows none. -/
def AsksNobody : Prop :=
  ∀ ctx hostname client, ctx.method = .sslv23Server → ctx.verifyMode = .none →
    (openssl ctx hostname client).certificate = false

/-- `EndsUnverified`: what OpenSSL documents for a server in mode `SSL_VERIFY_PEER` whose callback
confirms a failure, that a certificate that does not verify ends the handshake. -/
def EndsUnverified : Prop :=
  ∀ ctx hostname client callback, ctx.method = .sslv23Server → ctx.verifyMode = .peer →
    ctx.verifyCallback = some callback → callback 0 = 0 →
      (openssl ctx hostname client).certificate = true → 0 < (openssl ctx hostname client).accepted →
        (openssl ctx hostname client).verifyResult = x509VOk

variable {openssl}

/-- Without verification no client of the listener shows a certificate. -/
theorem reported_showsNone (hopenssl : AsksNobody openssl) {t : TlsListener} {caCertName : List UInt8}
    (hctx : t.ctx = createContext caCertName false true) (event : Event κ) :
    (t.reported openssl event).ShowsNone := by
  cases event with
  | connect client buffer =>
    rw [reported, hctx]
    exact hopenssl (createContext caCertName false true) t.listener.commonName client rfl rfl
  | signal => trivial
  | read conn read residue => trivial
  | uart packet c => trivial

/-- A server that does not verify its peers serves nobody, as OpenSSL then asks no client for a
certificate: whatever connects, every session is freed as soon as it was opened, no worker is spawned,
no command reaches the Arduino and nothing is written to a client. -/
theorem serves_nobody_unverified (hopenssl : AsksNobody openssl) (caCertName clientName : List UInt8)
    (events : List (Event κ)) :
    (Run.after (step openssl) (start caCertName false clientName) events).listener.Deserted := by
  let Holds (t : TlsListener) : Prop := t.ctx = createContext caCertName false true ∧ t.listener.Deserted
  have hstart : Holds (start caCertName false clientName) := ⟨rfl, rfl, rfl, rfl, rfl, rfl, rfl⟩
  have hstep (t : TlsListener) (event : Event κ) (h : Holds t) : Holds (t.step openssl event) :=
    ⟨h.1, Listener.step_deserted h.2 (reported_showsNone hopenssl h.1 event)⟩
  exact (Run.after_invariant hstep hstart events).2

/-- An OpenSSL whose clients are what it would report of them if it asked: it asks those of a server
that verifies, and ends the handshake of one whose certificate does not verify. -/
def asking (ctx : SslCtx) (_hostname : Option (List UInt8)) (client : Handshake) : Handshake :=
  match ctx.verifyMode with
  | .none => ⟨client.accepted, false, x509VOk⟩
  | .peer =>
    if client.certificate ∧ client.verifyResult ≠ x509VOk then { client with accepted := -1 } else client

/-- A client with a valid certificate connects and sends a stop, and nobody reads it. -/
theorem asking_serves_nobody_unverified : (Run.after (step asking) (start [] false [])
    [.connect ⟨1, true, x509VOk⟩ (Vector.replicate Server.bufLen 0),
      .read 0 (.stored [Server.TNetConstants.command.code, 115] ⟨by decide, by decide⟩)
        (.bare .commandKeyboard .stop)]).listener.Deserted := by
  apply serves_nobody_unverified
  intro ctx hostname client _ hmode
  rw [asking, hmode]

/-- Whatever the listener does with a connection, it opens one session for it, and goes on to verify or
not. -/
theorem serve_ssls (l : Listener) (handshake : Handshake) (buffer : Server.Buffer) :
    (l.serve handshake buffer).ssls = l.ssls ++ [⟨l.commonName, handshake⟩] ∧
      (l.serve handshake buffer).verifyPeer = l.verifyPeer := by
  rw [Listener.serve_eq]
  split
  · split
    · exact ⟨rfl, rfl⟩
    · exact ⟨rfl, rfl⟩
  · exact ⟨rfl, rfl⟩

/-- The listener refuses nobody that OpenSSL reports, as OpenSSL has ended the handshakes that it would
refuse. -/
theorem refuses_reported (hopenssl : EndsUnverified openssl) {t : TlsListener} {caCertName : List UInt8}
    (hctx : t.ctx = createContext caCertName t.listener.verifyPeer true) (client : κ) :
    t.listener.refuses ⟨t.listener.commonName, openssl t.ctx t.listener.commonName client⟩ = false := by
  rw [Listener.refuses]
  cases hverify : t.listener.verifyPeer with
  | false => rw [Bool.false_and, Bool.and_false]
  | true =>
    rw [hverify] at hctx
    cases hconnected : Ssl.connected ⟨t.listener.commonName, openssl t.ctx t.listener.commonName client⟩ with
    | false => rfl
    | true =>
      rw [Ssl.connected, Bool.and_eq_true, decide_eq_true_iff, hctx] at hconnected
      have hresult :=
        hopenssl (createContext caCertName true true) t.listener.commonName client verifyCallback rfl rfl
        rfl rfl hconnected.2 hconnected.1
      rw [verifyCertificate, hctx, hresult]
      rfl

/-- `Kept`: what the context keeps to, that it was created for a server that verifies as the listener
does, and that the listener has refused nobody. -/
structure Kept (caCertName : List UInt8) (t : TlsListener) : Prop where
  ctx : t.ctx = createContext caCertName t.listener.verifyPeer true
  listener : t.listener.Kept
  refusesNone : ∀ ssl ∈ t.listener.ssls, t.listener.refuses ssl = false

/-- Every event keeps the context one that refuses nobody. -/
theorem step_kept (hopenssl : EndsUnverified openssl) {caCertName : List UInt8} (t : TlsListener)
    (event : Event κ) (h : t.Kept caCertName) : (t.step openssl event).Kept caCertName := by
  have hlistener := t.listener.step_kept (t.reported openssl event) h.listener
  cases event with
  | connect client buffer =>
    let handshake := openssl t.ctx t.listener.commonName client
    by_cases haccepting : t.listener.accepting
    · obtain ⟨hssls, hverify⟩ := serve_ssls t.listener handshake buffer
      have hstep : t.listener.step (.connect handshake buffer) = t.listener.connect handshake buffer :=
        if_pos haccepting
      refine ⟨?_, hlistener, ?_⟩
      · change t.ctx = createContext caCertName (t.listener.step (.connect handshake buffer)).verifyPeer true
        rw [hstep]
        exact h.ctx.trans (congrArg (createContext caCertName · true) hverify.symm)
      · change ∀ ssl ∈ (t.listener.step (.connect handshake buffer)).ssls,
          (t.listener.step (.connect handshake buffer)).refuses ssl = false
        have hrefuses (ssl : Ssl) :
            (t.listener.connect handshake buffer).refuses ssl = t.listener.refuses ssl :=
          congrArg (fun verifyPeer => ssl.connected && (verifyPeer && !verifyCertificate ssl)) hverify
        rw [hstep]
        intro ssl hssl
        rw [hrefuses]
        rcases List.mem_append.mp (hssls ▸ hssl) with hold | hnew
        · exact h.refusesNone ssl hold
        · rw [List.mem_singleton.mp hnew]
          exact refuses_reported hopenssl h.ctx client
    · have hstep : t.step openssl (.connect client buffer) = t :=
        congrArg (TlsListener.mk t.ctx) (if_neg haccepting)
      rwa [hstep]
  | signal => exact ⟨h.ctx, hlistener, h.refusesNone⟩
  | read conn read residue => exact ⟨h.ctx, hlistener, h.refusesNone⟩
  | uart packet c => exact ⟨h.ctx, hlistener, h.refusesNone⟩

/-- No session is ever lost: whether the peers are verified or not, after any events each session that
was opened was freed, once, or has a worker in its loop. -/
theorem loses_none (hopenssl : EndsUnverified openssl) (caCertName : List UInt8) (verifyPeer : Bool)
    (clientName : List UInt8) (events : List (Event κ)) :
    let l := (Run.after (step openssl) (start caCertName verifyPeer clientName) events).listener
    (l.freed ++ l.server.serving.map fun w => l.sessionOf w.conn).Perm (List.range l.ssls.length) := by
  intro l
  have hstart : (start caCertName verifyPeer clientName).Kept caCertName :=
    ⟨rfl, Listener.start_kept verifyPeer clientName, fun _ hssl => absurd hssl List.not_mem_nil⟩
  have hkept := Run.after_invariant (step_kept hopenssl) hstart events
  have hrefused : l.refused = [] := by
    rw [Listener.refused, List.filter_eq_nil_iff]
    intro i _ hany
    obtain ⟨ssl, hget, hrefuses⟩ := (Option.any_eq_true ..).mp hany
    have hfine := hkept.refusesNone ssl (List.mem_of_getElem? hget)
    exact absurd (hrefuses.symm.trans hfine) Bool.noConfusion
  obtain ⟨g, hg⟩ := hkept.listener.tracked
  have hbalanced := g.balanced
  rwa [hg.lost, hrefused, List.append_nil, hg.released, hg.held, hg.opened] at hbalanced

end TlsListener

end AlexRobot
