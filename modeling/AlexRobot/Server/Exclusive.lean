import AlexRobot.Server.Relay

/-!
# Serving one client at a time

Nothing but the flag keeps the workers apart, and a worker that serves a client leaves it set: the
next client is let in, not kept out. The connection that is answered always belongs to a worker
in its loop, whatever the order of the steps; with two of them it is the one that wrote last,
and it is lost with the first that leaves.
-/

namespace AlexRobot

namespace Server

/-- `answered`: the connection, if any, that the next reply would be written to. -/
def answered (s : Server) : Option ℕ := if s.networkActive then s.tlsConn else none

/-- The step closes this connection: its worker loses the client, or leaves without serving it. -/
def Closes (s : Server) : Input → ℕ → Prop
  | .accept _, conn => s.networkActive = false ∧ conn = s.accepted
  | .read conn' read _, conn => read.len ≤ 0 ∧ (∃ w ∈ s.serving, w.conn = conn') ∧ conn = conn'
  | .uart _ _, _ => False

/-- `tls_conn` is `NULL` or the connection of a worker in its loop. -/
def TlsConnServed (s : Server) : Prop := s.tlsConn = none ∨ ∃ w ∈ s.serving, s.tlsConn = some w.conn

/-- At most one worker is in its loop, `tls_conn` is `NULL` or its connection, and closing a connection
does not cut off the replies of another. -/
structure Exclusive (s : Server) : Prop where
  atMostOne : s.serving.length ≤ 1
  tlsConn : s.TlsConnServed
  replies : ∀ input conn, s.Closes input conn → ∀ other, other ≠ conn → s.answered = some other →
    (s.step input).answered = some other

/-- A client is accepted only while nobody is served, or with the flag clear. -/
def AcceptsAlone (s : Server) : Input → Prop
  | .accept _ => s.networkActive = true → s.serving = []
  | _ => True

/-- Every step leaves `tls_conn` with a worker in its loop. -/
theorem step_tlsConnServed {s : Server} (h : s.TlsConnServed) (input : Input) :
    (s.step input).TlsConnServed := by
  cases input with
  | accept buffer =>
    cases hactive : s.networkActive with
    | true =>
      rw [accept_active hactive]
      rcases h with hnone | ⟨w, hw, hconn⟩
      · exact Or.inl hnone
      · exact Or.inr ⟨w, List.mem_append_left _ hw, hconn⟩
    | false =>
      rw [accept_inactive hactive]
      exact Or.inl rfl
  | read conn read residue =>
    rcases s.read_cases conn read residue with
      ⟨-, hstep⟩ | ⟨⟨old, hold, hsame⟩, ⟨-, hends⟩ | ⟨-, w, uart, hw, hcontinues⟩⟩
    · rwa [hstep]
    · rw [hends]
      exact Or.inl rfl
    · rw [hcontinues]
      refine Or.inr ⟨w, List.mem_map.mpr ⟨old, hold, if_pos hsame⟩, ?_⟩
      rw [hw]
  | uart packet c =>
    obtain ⟨written, hstep⟩ := s.uart_eq packet c
    rw [hstep]
    exact h

/-- A step that lets no second client in leaves at most one worker in its loop. -/
theorem step_atMostOne {s : Server} (h : s.serving.length ≤ 1) {input : Input}
    (halone : s.AcceptsAlone input) : (s.step input).serving.length ≤ 1 := by
  cases input with
  | accept buffer =>
    cases hactive : s.networkActive with
    | true =>
      rw [accept_active hactive, halone hactive]
      exact le_rfl
    | false =>
      rw [accept_inactive hactive]
      exact (List.length_filter_le _ _).trans h
  | read conn read residue =>
    rcases s.read_cases conn read residue with ⟨-, hstep⟩ | ⟨-, ⟨-, hends⟩ | ⟨-, w, uart, -, hcontinues⟩⟩
    · rwa [hstep]
    · rw [hends]
      exact (List.length_filter_le _ _).trans h
    · rw [hcontinues]
      exact (List.length_map _).trans_le h
  | uart packet c =>
    obtain ⟨written, hstep⟩ := s.uart_eq packet c
    rw [hstep]
    exact h

/-- With at most one worker in its loop, the connection that closes is the one that is answered. -/
theorem Exclusive.of {s : Server} (hone : s.serving.length ≤ 1) (hserved : s.TlsConnServed) : s.Exclusive := by
  refine ⟨hone, hserved, ?_⟩
  intro input conn hcloses other hne hanswered
  obtain ⟨hactive, hother⟩ := Option.ite_none_right_eq_some.mp hanswered
  cases input with
  | accept buffer => exact absurd (hcloses.1.symm.trans hactive) Bool.false_ne_true
  | read conn' read residue =>
    obtain ⟨-, ⟨v, hv, hconn⟩, rfl⟩ := hcloses
    rcases hserved with hnone | ⟨w, hw, hserved⟩
    · cases hnone.symm.trans hother
    · have hsame : v = w := by
        obtain ⟨i, hi, rfl⟩ := List.getElem_of_mem hv
        obtain ⟨j, hj, rfl⟩ := List.getElem_of_mem hw
        congr 1
        omega
      have heq : some w.conn = some other := hserved.symm.trans hother
      rw [← hconn, hsame] at hne
      exact absurd (Option.some.inj heq).symm hne
  | uart packet c => exact hcloses.elim

/-- Throughout a run at most one client is served, and its replies are not cut off, exactly when no client
is accepted while another is served and the flag is set. -/
theorem at_most_one_served (inputs : List Input) :
    Run.Throughout step Exclusive initial inputs ↔ Run.Along step AcceptsAlone initial inputs := by
  apply Run.throughout_iff_along Exclusive
  · intro s h
    exact h
  · intro s input h halone
    exact Exclusive.of (step_atMostOne h.atMostOne halone) (step_tlsConnServed h.tlsConn input)
  · intro s input _ h
    cases input with
    | accept buffer =>
      intro hactive
      have hone := h.atMostOne
      rw [accept_active hactive, List.length_append, List.length_singleton] at hone
      exact List.length_eq_zero_iff.mp (Nat.le_zero.mp (Nat.le_of_succ_le_succ hone))
    | read conn read residue => trivial
    | uart packet c => trivial
  · exact Exclusive.of (Nat.zero_le 1) (Or.inl rfl)

/-- Two clients that are accepted one after the other are both served. -/
theorem at_most_one_served_refuted : ¬ ∀ inputs : List Input, Run.Throughout step Exclusive initial inputs := by
  intro hclaim
  let buffer : Buffer := Vector.replicate bufLen 0
  obtain ⟨-, -, hlast⟩ := hclaim [.accept buffer, .accept buffer]
  have htwo : ((initial.step (.accept buffer)).step (.accept buffer)).serving.length = 2 := rfl
  have hone := hlast.atMostOne
  rw [htwo] at hone
  exact absurd hone (by decide)

end Server

end AlexRobot
