import AlexRobot.Server.Relay

/-!
# Serving the next client

The flag that keeps the workers in their loops is set once, before the first client. It is
cleared by the worker that loses its client, and by a failed reply; only a read by a worker
that is still in its loop sets it again. Once the last worker has left, the flag stays clear: the
listener accepts every further client, and each of their workers returns at once.
-/

namespace AlexRobot

namespace Server

/-- `Relays s conn`: the commands that arrive on the connection `conn` reach the Arduino. -/
def Relays (s : Server) (conn : ℕ) : Prop :=
  ∀ (letter : UInt8) (params : List UInt8) (hlen) (residue : TPacket) (command : TCommandType),
    commandOf? (Char.ofNat letter.toNat) = some command →
      ∃ packet : TPacket,
        (s.step (.read conn (.stored (TNetConstants.command.code :: letter :: params) hlen) residue)).uart =
          s.uart ++ [packet] ∧
        packet.packetType = TPacketType.command.code ∧ packet.command = command.code

/-- If nobody is served, the worker of the next client enters its loop, and its commands reach the
Arduino. -/
def Usable (s : Server) : Prop :=
  s.serving = [] → ∀ buffer, (∃ w ∈ (s.step (.accept buffer)).serving, w.conn = s.accepted) ∧
    (s.step (.accept buffer)).Relays s.accepted

/-- The last worker does not lose its client in this step, and with no worker in its loop no reply fails. -/
def KeepsUsable (s : Server) : Input → Prop
  | .accept _ => True
  | .read conn read _ => read.len ≤ 0 → (∃ w ∈ s.serving, w.conn = conn) → ∃ w ∈ s.serving, w.conn ≠ conn
  | .uart packet c => s.serving = [] → reply? packet ≠ none → 0 < c

/-- A network message with a known command leads to one packet. -/
theorem relayed_of_command (w : Worker) {letter : UInt8} {command : TCommandType}
    (h : commandOf? (Char.ofNat letter.toNat) = some command) (params : List UInt8) (residue : TPacket) :
    relayed (w.store (TNetConstants.command.code :: letter :: params)).buffer residue =
      [commandPacket (w.store (TNetConstants.command.code :: letter :: params)).buffer residue command] := by
  have hkind : (w.store (TNetConstants.command.code :: letter :: params)).buffer.cell 0 =
      TNetConstants.command.code := cell_store w _ (by decide)
  have hletter : (w.store (TNetConstants.command.code :: letter :: params)).buffer.cell 1 = letter :=
    cell_store w _ (by decide)
  rw [relayed, if_pos hkind, hletter, h]
  rfl

/-- The commands of a client whose worker is in its loop reach the Arduino. -/
theorem relays_of_mem {s : Server} {conn : ℕ} (h : ∃ w ∈ s.serving, w.conn = conn) : s.Relays conn := by
  intro letter params hlen residue command hcommand
  cases hfind : s.serving.find? fun w => w.conn = conn with
  | none =>
    obtain ⟨w, hw, hconn⟩ := h
    exact absurd hconn (by simpa using List.find?_eq_none.mp hfind w hw)
  | some w =>
    refine ⟨commandPacket (w.store (TNetConstants.command.code :: letter :: params)).buffer residue command,
      ?_, rfl, rfl⟩
    rw [step, hfind]
    dsimp only
    rw [iteration_stored, relayed_of_command w hcommand]

/-- The server is usable exactly if the flag is set whenever nobody is served. -/
theorem usable_iff (s : Server) : s.Usable ↔ (s.serving = [] → s.networkActive = true) := by
  constructor
  · intro h hnone
    by_contra hinactive
    rw [Bool.not_eq_true] at hinactive
    obtain ⟨⟨w, hw, -⟩, -⟩ := h hnone (Vector.replicate bufLen 0)
    rw [accept_inactive hinactive] at hw
    have hserving : w ∈ s.serving := List.mem_of_mem_filter hw
    rw [hnone] at hserving
    cases hserving
  · intro h hnone buffer
    have hserved : ∃ w ∈ (s.step (.accept buffer)).serving, w.conn = s.accepted := by
      rw [accept_active (h hnone)]
      exact ⟨_, List.mem_append_right _ (List.mem_singleton_self _), rfl⟩
    exact ⟨hserved, relays_of_mem hserved⟩

/-- Every step that keeps the server usable leaves a usable server. -/
theorem step_usable {s : Server} (hnumbered : s.Numbered) (h : s.Usable) {input : Input}
    (hkeeps : s.KeepsUsable input) : (s.step input).Usable := by
  rw [usable_iff] at h ⊢
  cases input with
  | accept buffer =>
    cases hactive : s.networkActive with
    | true =>
      rw [accept_active hactive]
      exact fun _ => hactive
    | false =>
      rw [accept_inactive hactive]
      intro hnone
      -- The worker that leaves is not one of those in their loops.
      have hserving : s.serving.filter (fun w => w.conn ≠ s.accepted) = s.serving := by
        rw [List.filter_eq_self]
        exact fun w hw => decide_eq_true (hnumbered w hw).ne
      exact h (hserving.symm.trans hnone)
  | read conn read residue =>
    rcases s.read_cases conn read residue with
      ⟨-, hstep⟩ | ⟨hserved, ⟨hlen, hends⟩ | ⟨-, w, uart, -, hcontinues⟩⟩
    · rwa [hstep]
    · obtain ⟨v, hv, hne⟩ := hkeeps hlen hserved
      rw [hends]
      intro hnone
      exact absurd (decide_eq_true hne) (List.filter_eq_nil_iff.mp hnone v hv)
    · rw [hcontinues]
      exact fun _ => rfl
  | uart packet c =>
    obtain ⟨written, hstep⟩ := s.uart_eq packet c
    rw [hstep]
    intro hnone
    have hserving : s.serving = [] := hnone
    have hreply : (reply? packet).all (fun _ => decide (0 < c)) = true := by
      rw [Option.all_eq_true]
      intro data hdata
      apply decide_eq_true
      apply hkeeps hserving
      rw [hdata]
      exact Option.some_ne_none data
    rw [h hserving, hreply]
    rfl

/-- A step after which the server is usable kept it so. -/
theorem keepsUsable_of_usable {s : Server} {input : Input} (h : (s.step input).Usable) :
    s.KeepsUsable input := by
  rw [usable_iff] at h
  cases input with
  | accept buffer => trivial
  | read conn read residue =>
    rintro hlen ⟨w, hw, hconn⟩
    rcases s.read_cases conn read residue with ⟨hnone, -⟩ | ⟨-, ⟨-, hends⟩ | ⟨hpos, -⟩⟩
    · exact absurd hconn (hnone w hw)
    · rw [hends] at h
      by_contra halone
      have hleft : s.serving.filter (fun v => v.conn ≠ conn) = [] := by
        rw [List.filter_eq_nil_iff]
        intro v hv hne
        exact halone ⟨v, hv, of_decide_eq_true hne⟩
      exact Bool.false_ne_true (h hleft)
    · exact absurd hpos (not_lt.mpr hlen)
  | uart packet c =>
    intro hnone hreply
    obtain ⟨written, hstep⟩ := s.uart_eq packet c
    rw [hstep] at h
    obtain ⟨data, hdata⟩ := Option.ne_none_iff_exists'.mp hreply
    have hset : (s.networkActive && (reply? packet).all fun _ => decide (0 < c)) = true := h hnone
    rw [hdata, Option.all_some, Bool.and_eq_true] at hset
    exact of_decide_eq_true hset.2

/-- Throughout a run the next client is served, if nobody else is, exactly when the last worker never loses
its client and no reply fails with no worker in its loop. -/
theorem stays_usable (inputs : List Input) :
    Run.Throughout step Usable initial inputs ↔ Run.Along step KeepsUsable initial inputs := by
  apply Run.throughout_iff_along fun s => s.Numbered ∧ s.Usable
  · intro s h
    exact h.2
  · intro s input h hkeeps
    exact ⟨step_numbered h.1 input, step_usable h.1 h.2 hkeeps⟩
  · intro s input _ h
    exact keepsUsable_of_usable h
  · refine ⟨fun w hw => absurd hw List.not_mem_nil, ?_⟩
    rw [usable_iff]
    exact fun _ => rfl

/-- After the first client has left, no other is served. -/
theorem stays_usable_refuted : ¬ ∀ inputs : List Input, Run.Throughout step Usable initial inputs := by
  intro hclaim
  let residue : TPacket := AlexRobot.TPacket.bare .hello .forward
  obtain ⟨-, -, hlast⟩ := hclaim [.accept (Vector.replicate bufLen 0), .read 0 .closed residue]
  rw [Run.Throughout, usable_iff] at hlast
  exact Bool.false_ne_true (hlast rfl)

end Server

end AlexRobot
