import AlexRobot.Link.PiSystem

/-!
# The dead man's switch of the robot

Key-hold mode has the robot move while a key is held. Its switch works on the commands that the Pi
sends, and the robot is further down the line; the mode is entered from other modes, and left for
them. As long as the switch is kept, the robot rests once no key is held and the line is empty.
-/

namespace AlexRobot

open TracedMemory

namespace Session

/-- The loop of `main()` goes on, or enters key-hold mode. -/
theorem mainLoop_cases (s : Session) :
    s.mainLoop = s ∨ ∃ ui, s.mainLoop = { s with toKeyHold := .enter ui } := by
  unfold mainLoop
  split
  · exact Or.inr ⟨s.ui, rfl⟩
  · exact Or.inl rfl

/-- The step enters key-hold mode, and the robot was last told to stop or never to move. -/
def EntersSettled (keyName : Int32 → Char) (s : Session) (input : Input) : Prop :=
  s.inside = false → (s.step keyName input).inside = true → Settled (s.step keyName input).ui.sent

/-- What keeps the dead man's switch: in key-hold mode no call disarms it, and from other modes the mode is
entered only with a settled robot. -/
def KeepsSwitch (keyName : Int32 → Char) (s : Session) : Input → Prop
  | .poll poll => KeyHold.KeepsSwitch s.toKeyHold poll
  | .typed ch residue terminal => s.EntersSettled keyName (.typed ch residue terminal)
  | .getch c residue => s.EntersSettled keyName (.getch c residue)
  | .received _ => True

/-- While the program is in key-hold mode, its dead man's switch is sound. -/
def Guarded (s : Session) : Prop := s.inside = true → s.toKeyHold.Sound

/-- One state comes from another outside key-hold mode, through the loop of `main()` or without it. -/
def Outside (s s' : Session) : Prop :=
  s' = s ∨ (s.inside = false ∧
    ∃ between : Session, between.inside = false ∧ (s' = between ∨ s' = between.mainLoop))

/-- A result of `getch` in the mode of single keys works outside key-hold mode. -/
theorem outside_pressAndPress {s : Session} (h : s.inside = false) (c : Int32) (residue : TPacket) :
    Outside s (s.pressAndPress c residue) := by
  refine Or.inr ⟨h, ?_⟩
  unfold pressAndPress
  dsimp only
  split
  · refine ⟨_, ?_, Or.inl rfl⟩
    exact h
  · refine ⟨_, ?_, Or.inr rfl⟩
    exact h

/-- A result of `getch` in the mode of timed movements works outside key-hold mode. -/
theorem outside_timedMovement {s : Session} (h : s.inside = false) (c : Int32) (residue : TPacket) :
    Outside s (s.timedMovement c residue) := by
  refine Or.inr ⟨h, ?_⟩
  unfold timedMovement
  dsimp only
  split
  · refine ⟨_, ?_, Or.inl rfl⟩
    exact h
  · refine ⟨_, ?_, Or.inr rfl⟩
    exact h

/-- A result of `getch` works outside key-hold mode, whatever the mode. -/
theorem outside_getch (keyName : Int32 → Char) (s : Session) (c : Int32) (residue : TPacket) :
    Outside s (s.step keyName (.getch c residue)) := by
  rw [step]
  split
  · rename_i hwaiting
    exact outside_pressAndPress hwaiting.1 c residue
  · split
    · rename_i hwaiting
      exact outside_timedMovement hwaiting.1 c residue
    · exact Or.inl rfl

/-- A character that is typed in params mode works outside key-hold mode. -/
theorem outside_typed (keyName : Int32 → Char) (s : Session) (ch : Char) (residue : TPacket)
    (terminal : List Char) : Outside s (s.step keyName (.typed ch residue terminal)) := by
  rw [step]
  split
  · rename_i hwaiting
    refine Or.inr ⟨hwaiting.1, _, ?_, Or.inr rfl⟩
    exact hwaiting.1
  · exact Or.inl rfl

/-- What enters key-hold mode with a settled robot leaves the switch sound. -/
theorem Outside.guarded {s s' : Session} (h : Outside s s') (hguarded : s.Guarded)
    (hsettled : s.inside = false → s'.inside = true → Settled s'.ui.sent) : s'.Guarded := by
  obtain rfl | ⟨hinside, between, hbetween, rfl | rfl⟩ := h
  · exact hguarded
  · intro henters
    cases hbetween.symm.trans henters
  · intro henters
    have hui := hsettled hinside henters
    obtain hsame | ⟨ui, henter⟩ := between.mainLoop_cases
    · rw [hsame, hbetween] at henters
      cases henters
    · rw [henter] at hui ⊢
      exact KeyHold.enter_sound hui

/-- A packet from the Arduino does not concern the switch. -/
theorem guarded_received (keyName : Int32 → Char) {s : Session} (h : s.Guarded) (packet : TPacket) :
    (s.step keyName (.received packet)).Guarded := by
  intro hinside
  have hsound := h hinside
  obtain ⟨screen, clear, hui⟩ := s.ui.handlePacket_eq packet
  rw [step, hui]
  exact ⟨hsound.armed, hsound.flagHeld, hsound.stopped⟩

/-- A step that keeps the switch leaves it sound in key-hold mode. -/
theorem step_guarded (keyName : Int32 → Char) {s : Session} (h : s.Guarded) {input : Input}
    (hkeeps : s.KeepsSwitch keyName input) : (s.step keyName input).Guarded := by
  cases input with
  | poll poll =>
    intro hinside
    by_cases hbefore : s.inside = true
    · exact KeyHold.step_sound keyName (h hbefore) hkeeps
    · have hsame := KeyHold.step_of_outside keyName (Bool.eq_false_iff.mpr hbefore) poll
      change (s.toKeyHold.step keyName poll).inside = true at hinside
      rw [hsame] at hinside
      exact absurd hinside hbefore
  | received packet => exact guarded_received keyName h packet
  | typed ch residue terminal => exact (outside_typed keyName s ch residue terminal).guarded h hkeeps
  | getch c residue => exact (outside_getch keyName s c residue).guarded h hkeeps

/-- Several packets from the Arduino leave the switch sound in key-hold mode. -/
theorem guarded_receivedAll (keyName : Int32 → Char) {s : Session} (h : s.Guarded) (packets : List TPacket) :
    (Run.after (step keyName) s (packets.map .received)).Guarded := by
  induction packets generalizing s with
  | nil => exact h
  | cons packet rest ih => exact ih (guarded_received keyName h packet)

end Session

namespace PiSetting

variable (e : PiSetting)

/-- What keeps the dead man's switch; only the operator's keys and events can do otherwise. -/
def KeepsSwitch (s : System PiProgram) : Event → Prop
  | .host input => s.host.session.KeepsSwitch e.keyName input.val
  | .leftPulse => True
  | .rightPulse => True
  | .loop _ _ _ _ => True
  | .round _ _ => True

/-- The switch is sound after every run that keeps it. -/
theorem guarded {events : List Event} (hkeeps : Run.Along e.step e.KeepsSwitch e.start events) :
    (e.after events).host.session.Guarded := by
  have hstep (s : System PiProgram) (event : Event) (h : s.host.session.Guarded)
      (hevent : e.KeepsSwitch s event) :
      (e.step s event).host.session.Guarded := by
    cases event with
    | host input => exact Session.step_guarded e.keyName h hevent
    | leftPulse => exact h
    | rightPulse => exact h
    | loop guardEcho sensors recvPacket count => exact h
    | round count _ => exact Session.guarded_receivedAll e.keyName h _
  have hstart : e.start.host.session.Guarded := nofun
  exact Run.after_of_along (fun s : System PiProgram => s.host.session.Guarded) hstep hstart hkeeps

end PiSetting

end AlexRobot
