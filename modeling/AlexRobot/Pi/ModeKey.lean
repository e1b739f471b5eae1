import AlexRobot.Pi.StepCommand

/-!
# The mode keys

Every mode passes a digit on to `sendCommand`, which switches to its mode. Key-press mode first
compares it with the previous command, and that outlives the visit that it was entered in: a
mode left by a digit before cannot be left by the same digit again.
-/

namespace AlexRobot

namespace Session

/-- A key that asks for a mode is among those that `PressAndPress` filters. -/
theorem filtered_of_modeKey {d : Char} {mode : KeyboardMode} (h : Ui.modeKey? d = some mode) : Filtered d := by
  unfold Ui.modeKey? at h
  split at h
  · decide
  · decide
  · decide
  · decide
  · cases h

/-- A filtered key is passed on to `sendCommand`, unless key-press mode drops it. -/
theorem command_of_entered {key : Char} (hkey : Filtered key) (keyName : Int32 → Char) {s : Session}
    {input : Input} (hentered : s.entered input = some key)
    (hnew : s.ui.keyboardMode = .keyPress → s.ui.previousCommand ≠ key) :
    s.command keyName input = some key := by
  have hcomma := hkey.1
  have hdot := hkey.2.1
  cases input with
  | typed ch residue terminal => exact hentered
  | getch c residue =>
    obtain ⟨⟨hwaiting, hc⟩, hchar⟩ := Option.ite_none_right_eq_some.mp hentered
    replace hchar : toChar c = key := Option.some.inj hchar
    rw [command]
    by_cases hpress : s.Waiting .keyPress
    · have hignores : ignores s.ui c = false := by
        rw [Bool.eq_false_iff]
        exact fun h => hnew hpress.2.2 ((ignores_iff hkey s.ui hc hchar).mp h)
      simp [hpress, hignores, hchar, hcomma, hdot]
    · have hadjust : s.Waiting .smallAdjustment := hwaiting.resolve_left hpress
      simp [hpress, hadjust, hc, hchar, hcomma, hdot]
  | poll poll => cases hentered
  | received packet => cases hentered

/-- A step with a mode key switches to its mode, unless key-press mode drops the key. -/
theorem step_modeKey {keyName : Int32 → Char} {s : Session} {input : Input} {d : Char} {mode : KeyboardMode}
    (hmode : Ui.modeKey? d = some mode) (hentered : s.entered input = some d)
    (hnew : s.ui.keyboardMode = .keyPress → s.ui.previousCommand ≠ d) :
    (s.step keyName input).ui.keyboardMode = mode := by
  have hcommand := command_of_entered (filtered_of_modeKey hmode) keyName hentered hnew
  obtain ⟨u, residue, scan, -, hstep⟩ := step_of_command hcommand
  have hswitched : (s.step keyName input).ui.keyboardMode = (u.sendCommand d residue scan).keyboardMode :=
    ((Ui.core_eq_iff _ _).mp hstep).2.2.2.1
  rw [hswitched, u.sendCommand_keyboardMode, hmode]
  rfl

/-- After any history, a mode key of another mode switches to its mode exactly if it does not repeat, in
key-press mode, the last command key that was entered there. -/
theorem mode_key (keyName : Int32 → Char) (residue : TPacket) (history : List Input) (input : Input) (d : Char)
    (mode : KeyboardMode) (hmode : Ui.modeKey? d = some mode)
    (hentered : (Run.after (step keyName) (initial residue) history).entered input = some d)
    (hother : (Run.after (step keyName) (initial residue) history).ui.keyboardMode ≠ mode) :
    ((Run.after (step keyName) (initial residue) history).step keyName input).ui.keyboardMode = mode ↔
      ¬ ((Run.after (step keyName) (initial residue) history).ui.keyboardMode = .keyPress ∧
        lastPressed (Run.trace (step keyName) (initial residue) history) = d) := by
  rw [← remembers_after keyName residue history]
  generalize Run.after (step keyName) (initial residue) history = s at hentered hother ⊢
  constructor
  · rintro hswitched ⟨hpress, hrepeat⟩
    have hdropped := step_of_repeated (filtered_of_modeKey hmode) keyName hentered hpress hrepeat
    rw [hdropped, Ui.call_keyboardMode] at hswitched
    exact hother hswitched
  · intro hnew
    exact step_modeKey hmode hentered fun hpress hrepeat => hnew ⟨hpress, hrepeat⟩

/-- On the second visit to key-press mode `1` does not lead back to params mode. -/
theorem mode_key_refuted : ¬ ∀ (keyName : Int32 → Char) (residue : TPacket) (history : List Input)
    (input : Input) (d : Char) (mode : KeyboardMode), Ui.modeKey? d = some mode →
      (Run.after (step keyName) (initial residue) history).entered input = some d →
        (Run.after (step keyName) (initial residue) history).ui.keyboardMode ≠ mode →
          ((Run.after (step keyName) (initial residue) history).step keyName input).ui.keyboardMode = mode := by
  intro hclaim
  have hswitched := hclaim KeyHold.asciiName (.bare .hello .forward)
    (keyPressHistory ['1'] ++ keyPressHistory []) (.ofKey '1') '1' .params rfl (by decide) (by decide)
  exact absurd hswitched (by decide)

/-- The mode key obeys the law on the first visit of key-press mode, when the previous command is
another key. -/
theorem params_mode_key : ((Run.after (step KeyHold.asciiName) (initial (.bare .hello .forward))
    (keyPressHistory [])).step KeyHold.asciiName (.ofKey '1')).ui.keyboardMode = .params :=
  (mode_key KeyHold.asciiName (.bare .hello .forward) (keyPressHistory []) (.ofKey '1') '1' .params rfl
    (by decide) (by decide)).mpr (by decide)

end Session

end AlexRobot
