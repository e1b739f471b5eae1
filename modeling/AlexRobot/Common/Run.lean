import Mathlib.Data.List.Basic

/-!
# Runs of a deterministic machine

A machine is a step function on states and inputs. `Throughout` speaks of every state of
a run, `Along` of every step taken in it, and `trace` is its history. The rules turn a fact
about one step into a fact about whole runs; one of them needs a guard that is exactly what
one step requires, and returns an equivalence for runs of every length.
-/

namespace Run

variable {σ ι : Type*} (step : σ → ι → σ)

/-- The state after a sequence of inputs, taken one after another. -/
def after (s : σ) (inputs : List ι) : σ := inputs.foldl step s

/-- A property of every state of the run, the first and the last included. -/
def Throughout (Holds : σ → Prop) : σ → List ι → Prop
  | s, [] => Holds s
  | s, input :: rest => Holds s ∧ Throughout Holds (step s input) rest

/-- A guard on every step of the run: the state it is taken from and its input. -/
def Along (Guard : σ → ι → Prop) : σ → List ι → Prop
  | _, [] => True
  | s, input :: rest => Guard s input ∧ Along Guard (step s input) rest

/-- The steps of the run so far: the state each was taken from, and its input. -/
def trace : σ → List ι → List (σ × ι)
  | _, [] => []
  | s, input :: rest => (s, input) :: trace (step s input) rest

variable {step}

/-- A run takes its first input, and then the others from there. -/
theorem after_cons (s : σ) (input : ι) (rest : List ι) :
    after step s (input :: rest) = after step (step s input) rest := rfl

/-- A run over two lists of inputs is a run over the first, and one over the second from there. -/
theorem after_append (s : σ) (first second : List ι) :
    after step s (first ++ second) = after step (after step s first) second := List.foldl_append

/-- A property preserved by every step holds after every run. -/
theorem after_invariant {Holds : σ → Prop} (hstep : ∀ s input, Holds s → Holds (step s input))
    {s : σ} (hs : Holds s) (inputs : List ι) : Holds (after step s inputs) := by
  induction inputs generalizing s with
  | nil => exact hs
  | cons input rest ih => exact ih (hstep s input hs)

/-- A property of the state and its history that every step extends holds after every run. -/
theorem after_trace_invariant (Holds : σ → List (σ × ι) → Prop)
    (hstep : ∀ s past input, Holds s past → Holds (step s input) (past ++ [(s, input)]))
    {s : σ} {past : List (σ × ι)} (hs : Holds s past) (inputs : List ι) :
    Holds (after step s inputs) (past ++ trace step s inputs) := by
  induction inputs generalizing s past with
  | nil =>
    rw [trace, List.append_nil]
    exact hs
  | cons input rest ih =>
    rw [trace, List.append_cons]
    exact ih (hstep s past input hs)

/-- When every guarded step simulates a step of another machine, guarded runs simulate its runs. -/
theorem after_simulates {τ κ : Type*} {abstractStep : τ → κ → τ} (R : σ → τ → Prop) (f : ι → κ)
    {Guard : ι → Prop} (hstep : ∀ s t input, R s t → Guard input → R (step s input) (abstractStep t (f input)))
    {s : σ} {t : τ} (h : R s t) {inputs : List ι} (hguard : ∀ input ∈ inputs, Guard input) :
    R (after step s inputs) (after abstractStep t (inputs.map f)) := by
  induction inputs generalizing s t with
  | nil => exact h
  | cons input rest ih =>
    exact ih (hstep s t input h (hguard input List.mem_cons_self))
      fun later hlater => hguard later (List.mem_cons_of_mem _ hlater)

/-- A property preserved by the guarded steps holds throughout a guarded run. -/
theorem throughout_of_along {Holds : σ → Prop} {Guard : σ → ι → Prop}
    (hstep : ∀ s input, Holds s → Guard s input → Holds (step s input))
    {s : σ} (hs : Holds s) {inputs : List ι} (h : Along step Guard s inputs) :
    Throughout step Holds s inputs := by
  induction inputs generalizing s with
  | nil => exact hs
  | cons input rest ih => exact ⟨hs, ih (hstep s input hs h.1) h.2⟩

/-- A property preserved by the guarded steps holds after a guarded run. -/
theorem after_of_along (Holds : σ → Prop) {Guard : σ → ι → Prop}
    (hstep : ∀ s input, Holds s → Guard s input → Holds (step s input))
    {s : σ} (hs : Holds s) {inputs : List ι} (h : Along step Guard s inputs) :
    Holds (after step s inputs) := by
  induction inputs generalizing s with
  | nil => exact hs
  | cons input rest ih => exact ih (hstep s input hs h.1) h.2

/-- What is weaker than a property that holds throughout a run holds throughout it, too. -/
theorem Throughout.mono {Holds Weaker : σ → Prop} (himp : ∀ s, Holds s → Weaker s)
    {s : σ} {inputs : List ι} (h : Throughout step Holds s inputs) :
    Throughout step Weaker s inputs := by
  induction inputs generalizing s with
  | nil => exact himp s h
  | cons input rest ih => exact ⟨himp s h.1, ih h.2⟩

/-- When guarded steps keep an invariant that implies the property, and a step that leaves the
property true was guarded, a run has the property throughout exactly when all its steps are
guarded. -/
theorem throughout_iff_along (Inv : σ → Prop) {Holds : σ → Prop} {Guard : σ → ι → Prop}
    (hholds : ∀ s, Inv s → Holds s)
    (hkeep : ∀ s input, Inv s → Guard s input → Inv (step s input))
    (hfail : ∀ s input, Inv s → Holds (step s input) → Guard s input)
    {s : σ} (hs : Inv s) (inputs : List ι) :
    Throughout step Holds s inputs ↔ Along step Guard s inputs := by
  induction inputs generalizing s with
  | nil => exact iff_of_true (hholds s hs) trivial
  | cons input rest ih =>
    constructor
    · rintro ⟨-, hrest⟩
      have hnext : Holds (step s input) := by
        cases rest with
        | nil => exact hrest
        | cons second rest => exact hrest.1
      have hguard := hfail s input hs hnext
      exact ⟨hguard, (ih (hkeep s input hs hguard)).mp hrest⟩
    · rintro ⟨hguard, hrest⟩
      exact ⟨hholds s hs, (ih (hkeep s input hs hguard)).mpr hrest⟩

/-- A guard that every step taken from an invariant meets holds along every run. -/
theorem along_of_invariant {Inv : σ → Prop} {Guard : σ → ι → Prop}
    (hkeep : ∀ s input, Inv s → Inv (step s input)) (hguard : ∀ s input, Inv s → Guard s input)
    {s : σ} (hs : Inv s) (inputs : List ι) : Along step Guard s inputs := by
  induction inputs generalizing s with
  | nil => trivial
  | cons input rest ih => exact ⟨hguard s input hs, ih (hkeep s input hs)⟩

/-- The steps of a history as another machine sees them, which does not see all of them. -/
def projectTrace {τ κ : Type*} (f : σ → τ) (g : σ → ι → Option κ) (past : List (σ × ι)) : List (τ × κ) :=
  past.filterMap fun taken => (g taken.1 taken.2).map fun input => (f taken.1, input)

section Projection

variable {τ κ : Type*} (f : σ → τ) (g : σ → ι → Option κ)

/-- A step that the other machine does not see leaves no trace in its history. -/
theorem projectTrace_cons_none {s : σ} {input : ι} (h : g s input = none) (past : List (σ × ι)) :
    projectTrace f g ((s, input) :: past) = projectTrace f g past := by
  rw [projectTrace, List.filterMap_cons, h]
  rfl

/-- A step that the other machine sees is the first of its history. -/
theorem projectTrace_cons_some {s : σ} {input : ι} {seen : κ} (h : g s input = some seen)
    (past : List (σ × ι)) :
    projectTrace f g ((s, input) :: past) = (f s, seen) :: projectTrace f g past := by
  rw [projectTrace, List.filterMap_cons, h]
  rfl

/-- When every step is a step of another machine or leaves that as it is, a run is a run of it, with the
history that it sees. -/
theorem after_projects {abstractStep : τ → κ → τ}
    (hstep : ∀ s input, f (step s input) = (g s input).elim (f s) (abstractStep (f s))) (s : σ)
    (inputs : List ι) :
    ∃ seen, f (after step s inputs) = after abstractStep (f s) seen ∧
      projectTrace f g (trace step s inputs) = trace abstractStep (f s) seen ∧
        ∀ first ∈ seen, ∃ input ∈ inputs, ∃ s, g s input = some first := by
  induction inputs generalizing s with
  | nil => exact ⟨[], rfl, rfl, fun _ hfirst => absurd hfirst List.not_mem_nil⟩
  | cons input rest ih =>
    obtain ⟨seen, hafter, htrace, hseen⟩ := ih (step s input)
    have hlater : ∀ first ∈ seen, ∃ input' ∈ input :: rest, ∃ s, g s input' = some first := fun first hfirst =>
      (hseen first hfirst).imp fun _ h => ⟨List.mem_cons_of_mem input h.1, h.2⟩
    have hnext := hstep s input
    rw [after_cons, hafter, trace]
    cases hinput : g s input with
    | none =>
      rw [hinput] at hnext
      rw [projectTrace_cons_none f g hinput, htrace, hnext]
      exact ⟨seen, rfl, rfl, hlater⟩
    | some first =>
      rw [hinput] at hnext
      rw [projectTrace_cons_some f g hinput, htrace, hnext]
      exact ⟨first :: seen, rfl, rfl, List.forall_mem_cons.mpr ⟨⟨input, List.mem_cons_self, s, hinput⟩, hlater⟩⟩

end Projection

/-- A guard that an input meets in every state holds along every run of such inputs. -/
theorem along_of_forall {Guard : σ → ι → Prop} {inputs : List ι}
    (h : ∀ input ∈ inputs, ∀ s, Guard s input) (s : σ) : Along step Guard s inputs := by
  induction inputs generalizing s with
  | nil => trivial
  | cons input rest ih =>
    exact ⟨h input List.mem_cons_self s,
      ih (fun later hlater => h later (List.mem_cons_of_mem _ hlater)) (step s input)⟩

/-- A guard on the inputs alone does not depend on the states of the run. -/
theorem along_iff_forall {Guard : ι → Prop} (s : σ) (inputs : List ι) :
    Along step (fun _ => Guard) s inputs ↔ ∀ input ∈ inputs, Guard input := by
  induction inputs generalizing s with
  | nil => simp [Along]
  | cons input rest ih => rw [Along, ih, List.forall_mem_cons]

end Run
