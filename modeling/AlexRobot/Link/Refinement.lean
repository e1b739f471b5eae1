import AlexRobot.Link.System

/-!
# Programs in more detail

A program that controls the robot can be looked at more closely: with what is in front of it, as a
listener or a terminal. In more detail there is more state and there are other inputs, and the
program as it was sees some of them. Then every run with the robot is one of the program as it was,
over the same lines and with the same Arduino.
-/

namespace AlexRobot

variable {σ ι ρ σ' ι' : Type*}

/-- A program in more detail: what it is without the detail, and what its inputs are there. -/
structure Detailed (H : Host σ ι ρ) (σ' ι' : Type*) where
  step : σ' → ι' → σ'
  round : σ' → Read → ρ → σ'
  abstract : σ' → σ
  seen? : σ' → ι' → Option ι
  step_abstract : ∀ s input, abstract (step s input) = (seen? s input).elim (abstract s) (H.step (abstract s))
  round_abstract : ∀ s read env, abstract (round s read env) = H.round (abstract s) read env

namespace Detailed

variable {H : Host σ ι ρ} (D : Detailed H σ' ι')

/-- The program in more detail controls the robot as the program without the detail does. -/
def host : Host σ' ι' ρ where
  step := D.step
  round := D.round
  thread s := H.thread (D.abstract s)
  sent s := H.sent (D.abstract s)
  step_thread s input := by
    rw [D.step_abstract]
    cases D.seen? s input with
    | none => rfl
    | some seen => exact H.step_thread (D.abstract s) seen
  step_sent s input := by
    rw [D.step_abstract]
    cases D.seen? s input with
    | none => exact List.prefix_rfl
    | some seen => exact H.step_sent (D.abstract s) seen
  round_thread s read env := by
    rw [D.round_abstract]
    exact H.round_thread (D.abstract s) read env
  round_sent s read env := by
    rw [D.round_abstract]
    exact H.round_sent (D.abstract s) read env

/-- The machine with the detail of the program left out. -/
def project (s : System σ') : System σ := { s with host := D.abstract s.host }

/-- What an event is to the machine without the detail, if that sees it at all. -/
def seenEvent? (s : System σ') : System.Event ι' ρ → Option (System.Event ι ρ)
  | .host input => (D.seen? s.host input).map .host
  | .leftPulse => some .leftPulse
  | .rightPulse => some .rightPulse
  | .loop guardEcho sensors recvPacket count => some (.loop guardEcho sensors recvPacket count)
  | .round count env => some (.round count env)

/-- An event is one of the machine without the detail, or none. -/
theorem step_project (wires : Wires) (s : System σ') (event : System.Event ι' ρ) :
    D.project (s.step D.host wires event) =
      (D.seenEvent? s event).elim (D.project s) ((D.project s).step H wires) := by
  cases event with
  | host input =>
    have hsent : D.project (s.step D.host wires (.host input)) =
        (D.project s).hostTo H wires (D.abstract (D.step s.host input)) := rfl
    rw [hsent, D.step_abstract, seenEvent?]
    cases D.seen? s.host input with
    | none => exact System.hostTo_self (D.project s)
    | some seen => rfl
  | leftPulse => rfl
  | rightPulse => rfl
  | loop guardEcho sensors recvPacket count => rfl
  | round count env =>
    have hround := D.round_abstract s.host (s.read count) env
    change { s.step D.host wires (.round count env) with
      host := D.abstract (D.round s.host (s.read count) env) } = _
    rw [hround]
    rfl

/-- The reads of an event that fit a frame still fit it in the machine without the detail. -/
theorem fits_seen {s : System σ'} {event : System.Event ι' ρ} {seen : System.Event ι ρ}
    (hseen : D.seenEvent? s event = some seen) (hfits : event.Fits) : seen.Fits := by
  cases event with
  | host input =>
    obtain ⟨input, -, rfl⟩ := Option.map_eq_some_iff.mp hseen
    trivial
  | leftPulse => cases hseen; trivial
  | rightPulse => cases hseen; trivial
  | loop guardEcho sensors recvPacket count => cases hseen; exact hfits
  | round count env => cases hseen; exact hfits

/-- A run whose reads fit is a run of the machine without the detail, whose reads fit. -/
theorem after_project (wires : Wires) (s : System σ') {events : List (System.Event ι' ρ)}
    (hfits : ∀ event ∈ events, event.Fits) :
    ∃ seen, (∀ event ∈ seen, event.Fits) ∧
      D.project (Run.after (System.step D.host wires) s events) =
        Run.after (System.step H wires) (D.project s) seen ∧
      Run.projectTrace D.project D.seenEvent? (Run.trace (System.step D.host wires) s events) =
        Run.trace (System.step H wires) (D.project s) seen := by
  obtain ⟨seen, hafter, htrace, hseen⟩ :=
    Run.after_projects D.project D.seenEvent? (D.step_project wires) s events
  refine ⟨seen, fun event hevent => ?_, hafter, htrace⟩
  obtain ⟨first, hfirst, s, hsees⟩ := hseen event hevent
  exact D.fits_seen hsees (hfits first hfirst)

end Detailed

end AlexRobot
