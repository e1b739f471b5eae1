import AlexRobot.Pi.Session

/-!
# The stop key

In params mode and in small-adjustment mode every stop key sends a stop. In key-press mode a
key that repeats the previous command is dropped, and the previous command outlives every
visit to another mode: it is the last key, other than the two speed keys, that was entered in
key-press mode since the program started.
-/

namespace AlexRobot

namespace Session

/-- The key that a step enters, if any: one that params mode reads, or one that `getch` returns to one
of the other two modes. -/
def entered (s : Session) : Input → Option Char
  | .typed ch _ _ => if s.Waiting .params then some ch else none
  | .getch c _ =>
    if (s.Waiting .keyPress ∨ s.Waiting .smallAdjustment) ∧ c ≠ err then some (toChar c) else none
  | .poll _ => none
  | .received _ => none

/-- The command key that a step enters in key-press mode, if any. -/
def pressedKey (step : Session × Input) : Option Char :=
  if step.1.Waiting .keyPress then
    (step.1.entered step.2).filter fun key => key ≠ ',' && key ≠ '.'
  else none

/-- The last command key of key-press mode in a history; `'0'` before the first. -/
def lastPressed (past : List (Session × Input)) : Char := (past.filterMap pressedKey).getLast?.getD '0'

/-- `sends`: the packets that a step of the session sends. -/
def sends (keyName : Int32 → Char) (s : Session) (input : Input) : List TPacket :=
  (s.step keyName input).ui.sent.drop s.ui.sent.length

/-- The step sends a stop of the current mode and nothing else. -/
def TransmitsStop (keyName : Int32 → Char) (s : Session) (input : Input) : Prop :=
  ∃ packet, sends keyName s input = [packet] ∧ packet.packetType = s.ui.commandType.code ∧
    packet.command = TCommandType.stop.code

end Session

namespace KeyHold

/-- Returning from `keypressControl` does not change the globals. -/
theorem leave_ui (s : KeyHold) : s.leave.ui = s.ui := by
  unfold leave
  split <;> rfl

section PreviousCommand

variable (keyName : Int32 → Char) (s : KeyHold) (key : Int32) (poll : Poll)

/-- `keyUp`, for a key that is released, does not set the previous command. -/
theorem keyUp_previousCommand : (s.keyUp key poll).ui.previousCommand = s.ui.previousCommand := by
  unfold keyUp
  dsimp only
  split_ifs
  · rfl
  · exact s.ui.sendCommand_previousCommand _ _ _
  · rfl

/-- `pressed`, for a key that is acted on, does not set the previous command. -/
theorem pressed_previousCommand :
    (s.pressed keyName key poll).ui.previousCommand = s.ui.previousCommand := by
  unfold pressed
  split_ifs
  · rfl
  · exact s.ui.decreaseSpeed_previousCommand
  · exact s.ui.increaseSpeed_previousCommand
  · exact s.ui.sendCommand_previousCommand _ _ _

/-- `keyDown`, for a key that is pressed, does not set the previous command. -/
theorem keyDown_previousCommand :
    (s.keyDown keyName key poll).ui.previousCommand = s.ui.previousCommand := by
  unfold keyDown
  split_ifs
  · rfl
  · exact pressed_previousCommand keyName _ key poll
  · rfl

/-- `handleEvent` does not set the previous command, whatever the event. -/
theorem handleEvent_previousCommand (event : SDLEvent) :
    (s.handleEvent keyName event poll).ui.previousCommand = s.ui.previousCommand := by
  cases event with
  | quit => rfl
  | keyUp key => exact keyUp_previousCommand _ key poll
  | keyDown key => exact keyDown_previousCommand keyName _ key poll
  | other => rfl

/-- `KeyHold.step` does not set the previous command, as only key-press mode does. -/
theorem step_previousCommand : (s.step keyName poll).ui.previousCommand = s.ui.previousCommand := by
  unfold step
  dsimp only
  split
  · split
    · split
      · rw [leave_ui]
      · exact handleEvent_previousCommand keyName _ poll _
    · rw [leave_ui]
  · rfl

end PreviousCommand

/-- `main()` calls `keypressControl` with the globals as they are. -/
theorem enter_ui {u : Ui} (hexit : u.exitFlag = false) (hmode : u.keyboardMode = .keyHold) :
    (enter u).ui = u := by
  cases u
  cases hexit
  cases hmode
  rfl

end KeyHold

namespace Session

/-- The loop of `main()` chooses the control function, and does not change the globals. -/
@[simp] theorem mainLoop_ui (s : Session) : s.mainLoop.ui = s.ui := by
  unfold mainLoop
  split
  · rename_i h
    exact KeyHold.enter_ui h.1 h.2
  · rfl

/-- The program waits for input in at most one mode at a time. -/
theorem Waiting.not_waiting {s : Session} {mode mode' : KeyboardMode} (h : s.Waiting mode)
    (hne : mode ≠ mode') : ¬ s.Waiting mode' := fun h' => hne (h.2.2.symm.trans h'.2.2)

/-- `PressAndPress` makes each key the previous command, apart from the speed keys. -/
theorem pressAndPress_previousCommand (s : Session) (c : Int32) (residue : TPacket) :
    (s.pressAndPress c residue).ui.previousCommand =
      if c = err ∨ toChar c = ',' ∨ toChar c = '.' then s.ui.previousCommand else toChar c := by
  unfold pressAndPress
  dsimp only
  by_cases hignores : ignores (s.ui.call .getch) c = true
  · rw [if_pos hignores]
    simp only [ignores, Bool.or_eq_true, Bool.and_eq_true, decide_eq_true_eq] at hignores
    split
    · rfl
    · rename_i hcommand
      exact (hignores.resolve_left fun herr => hcommand (Or.inl herr)).1.1.1.1.symm
  · rw [if_neg hignores, mainLoop_ui]
    have hc : c ≠ err := by
      rintro rfl
      exact hignores (by simp [ignores])
    dsimp only
    by_cases hcomma : toChar c = ','
    · rw [if_pos hcomma, if_pos (Or.inr (Or.inl hcomma))]
      simp [Ui.decreaseSpeedw]
    · by_cases hdot : toChar c = '.'
      · rw [if_neg hcomma, if_pos hdot, if_pos (Or.inr (Or.inr hdot))]
        simp [Ui.increaseSpeedw]
      · rw [if_neg hcomma, if_neg hdot, if_neg (by simp [hc, hcomma, hdot])]

/-- `TimedMovement` leaves the previous command alone. -/
theorem timedMovement_previousCommand (s : Session) (c : Int32) (residue : TPacket) :
    (s.timedMovement c residue).ui.previousCommand = s.ui.previousCommand := by
  unfold timedMovement
  dsimp only
  split
  · rfl
  · rw [mainLoop_ui, Ui.call_previousCommand]
    split_ifs <;> simp

/-- A step makes the command key that it enters in key-press mode the previous command. -/
theorem step_previousCommand (keyName : Int32 → Char) (s : Session) (input : Input) :
    (s.step keyName input).ui.previousCommand = (pressedKey (s, input)).getD s.ui.previousCommand := by
  cases input with
  | typed ch residue terminal =>
    have hnone : pressedKey (s, .typed ch residue terminal) = none := by
      simp only [pressedKey, entered]
      split
      · rename_i hpress
        have hparams : ¬ s.Waiting .params := hpress.not_waiting (by decide)
        rw [if_neg hparams, Option.filter_none]
      · rfl
    rw [hnone, step]
    split
    · rw [paramsControl, mainLoop_ui]
      exact s.ui.sendCommand_previousCommand _ _ _
    · rfl
  | getch c residue =>
    rw [step]
    by_cases hpress : s.Waiting .keyPress
    · rw [if_pos hpress, pressAndPress_previousCommand]
      simp only [pressedKey, entered, hpress, true_or, true_and, if_true]
      by_cases hc : c = err
      · simp [hc]
      · by_cases hspeed : toChar c = ',' ∨ toChar c = '.'
        · rcases hspeed with hcomma | hdot
          · simp [hc, hcomma, Option.filter_some]
          · simp [hc, hdot, Option.filter_some]
        · obtain ⟨hcomma, hdot⟩ := not_or.mp hspeed
          simp [hc, hcomma, hdot, Option.filter_some]
    · rw [if_neg hpress]
      simp only [pressedKey, hpress, if_false, Option.getD_none]
      split
      · exact timedMovement_previousCommand s c residue
      · rfl
  | poll poll =>
    have hnone : pressedKey (s, .poll poll) = none := by
      unfold pressedKey
      split <;> rfl
    rw [hnone]
    exact KeyHold.step_previousCommand keyName s.toKeyHold poll
  | received packet =>
    have hnone : pressedKey (s, .received packet) = none := by
      unfold pressedKey
      split <;> rfl
    obtain ⟨screen, clear, hhandled⟩ := s.ui.handlePacket_eq packet
    rw [hnone, step, hhandled]
    rfl

/-- `lastPressed` after one more step is the command key of that step, if the step has one. -/
theorem lastPressed_concat (past : List (Session × Input)) (s : Session) (input : Input) :
    lastPressed (past ++ [(s, input)]) = (pressedKey (s, input)).getD (lastPressed past) := by
  rw [lastPressed, List.filterMap_append]
  cases hkey : pressedKey (s, input) with
  | none => simp [hkey, lastPressed]
  | some key => simp [hkey]

/-- The previous command is the last command key of key-press mode in the history. -/
def Remembers (s : Session) (past : List (Session × Input)) : Prop :=
  s.ui.previousCommand = lastPressed past

/-- A step remembers its command key, and the earlier one if it has none. -/
theorem step_remembers (keyName : Int32 → Char) (s : Session) (past : List (Session × Input)) (input : Input)
    (h : Remembers s past) : Remembers (s.step keyName input) (past ++ [(s, input)]) := by
  rw [Remembers, step_previousCommand, lastPressed_concat, h]

/-- After every history the previous command is the last command key of key-press mode. -/
theorem remembers_after (keyName : Int32 → Char) (residue : TPacket) (history : List Input) :
    Remembers (Run.after (step keyName) (initial residue) history)
      (Run.trace (step keyName) (initial residue) history) := by
  have hinitial : Remembers (initial residue) [] := rfl
  exact Run.after_trace_invariant Remembers (step_remembers keyName) hinitial history

/-- A key that key-press mode drops when it repeats the previous command. -/
def Filtered (key : Char) : Prop := key ≠ ',' ∧ key ≠ '.' ∧ key ≠ 'v' ∧ key ≠ 'u'

instance (key : Char) : Decidable (Filtered key) := inferInstanceAs (Decidable (_ ∧ _ ∧ _ ∧ _))

section Filtered

variable {key : Char} (hkey : Filtered key)

include hkey

/-- In key-press mode a filtered key is dropped exactly when it repeats the previous command. -/
theorem ignores_iff (u : Ui) {c : Int32} (hc : c ≠ err) (hchar : toChar c = key) :
    ignores u c = true ↔ u.previousCommand = key := by
  obtain ⟨hcomma, hdot, hv, hu⟩ := hkey
  simp [ignores, hc, hchar, hcomma, hdot, hv, hu, eq_comm]

/-- A step whose key `PressAndPress` drops leads to no command. -/
theorem step_of_repeated (keyName : Int32 → Char) {s : Session} {input : Input}
    (hentered : s.entered input = some key) (hmode : s.ui.keyboardMode = .keyPress)
    (hrepeat : s.ui.previousCommand = key) : (s.step keyName input).ui = s.ui.call .getch := by
  cases input with
  | typed ch residue terminal =>
    have hwaiting := (Option.ite_none_right_eq_some.mp hentered).1
    cases hmode.symm.trans hwaiting.2.2
  | getch c residue =>
    obtain ⟨⟨hwaiting, hc⟩, hchar⟩ := Option.ite_none_right_eq_some.mp hentered
    have hpress : s.Waiting .keyPress := by
      refine hwaiting.resolve_right fun hadjust => ?_
      cases hmode.symm.trans hadjust.2.2
    have hignores : ignores (s.ui.call .getch) c = true :=
      (ignores_iff hkey _ hc (Option.some.inj hchar)).mpr hrepeat
    rw [step, if_pos hpress, pressAndPress]
    dsimp only
    rw [if_pos hignores]
  | poll poll => cases hentered
  | received packet => cases hentered

end Filtered

section StopKey

variable {key : Char} (hkey : key = 'o' ∨ key = 'O')

include hkey

/-- A step transmits a stop if the packet of a stop key is all that it sends. -/
theorem transmitsStop_of_sent {keyName : Int32 → Char} {s : Session} {input : Input} (u : Ui)
    (residue : TPacket) (scan : Scan) (hmode : u.keyboardMode = s.ui.keyboardMode) (hsent : u.sent = s.ui.sent)
    (h : (s.step keyName input).ui.sent = (u.sendCommand key residue scan).sent) :
    TransmitsStop keyName s input := by
  have htype : u.commandType = s.ui.commandType := by
    rw [Ui.commandType, Ui.commandType, hmode]
  refine ⟨{ residue with packetType := s.ui.commandType.code, command := TCommandType.stop.code }, ?_, rfl, rfl⟩
  rw [sends, h, u.sendCommand_stop hkey, htype, hsent, List.drop_left]

/-- The stop keys are among the keys that `PressAndPress` filters. -/
theorem filtered_of_stop : Filtered key := by
  obtain rfl | rfl := hkey
  · decide
  · decide

/-- A stop key is transmitted in every mode that reads it, unless key-press mode drops it. -/
theorem transmitsStop_of_entered {keyName : Int32 → Char} {s : Session} {input : Input}
    (hentered : s.entered input = some key)
    (hnew : s.ui.keyboardMode = .keyPress → s.ui.previousCommand ≠ key) : TransmitsStop keyName s input := by
  obtain ⟨hcomma, hdot, -⟩ := filtered_of_stop hkey
  cases input with
  | typed ch residue terminal =>
    obtain ⟨hwaiting, hch⟩ := Option.ite_none_right_eq_some.mp hentered
    cases hch
    apply transmitsStop_of_sent hkey s.ui residue (scanf terminal) rfl rfl
    rw [step, if_pos hwaiting, paramsControl, mainLoop_ui]
  | getch c residue =>
    obtain ⟨⟨hwaiting, hc⟩, hchar⟩ := Option.ite_none_right_eq_some.mp hentered
    replace hchar : toChar c = key := Option.some.inj hchar
    by_cases hpress : s.Waiting .keyPress
    · have hignores : ¬ ignores (s.ui.call .getch) c = true := fun h =>
        hnew hpress.2.2 ((ignores_iff (filtered_of_stop hkey) _ hc hchar).mp h)
      let u := (((s.ui.call .getch).refreshScreen s.commandsSent).call .printw).call .refresh
      apply transmitsStop_of_sent hkey u residue .none
      · simp [u]
      · simp [u]
      · rw [step, if_pos hpress, pressAndPress]
        dsimp only
        rw [if_neg hignores, mainLoop_ui]
        dsimp only
        rw [hchar, if_neg hcomma, if_neg hdot]
    · have hadjust : s.Waiting .smallAdjustment := hwaiting.resolve_left hpress
      let u := ((s.ui.call .getch).refreshScreen s.commandsSent).call .printw
      apply transmitsStop_of_sent hkey u residue .none
      · simp [u]
      · simp [u]
      · rw [step, if_neg hpress, if_pos hadjust, timedMovement]
        dsimp only
        rw [if_neg hc, mainLoop_ui]
        dsimp only
        rw [hchar, if_neg hcomma, if_neg hdot]
        rfl
  | poll poll => cases hentered
  | received packet => cases hentered

/-- A step whose stop key `PressAndPress` drops sends no packet. -/
theorem sends_of_repeated (keyName : Int32 → Char) {s : Session} {input : Input}
    (hentered : s.entered input = some key) (hmode : s.ui.keyboardMode = .keyPress)
    (hrepeat : s.ui.previousCommand = key) : sends keyName s input = [] := by
  rw [sends, step_of_repeated (filtered_of_stop hkey) keyName hentered hmode hrepeat]
  exact List.drop_length

end StopKey

/-- Whatever was entered before, a stop key in params mode, key-press mode or small-adjustment mode
sends a stop, unless it repeats the last command key of key-press mode there: then it sends nothing. -/
theorem stop_key (keyName : Int32 → Char) (residue : TPacket) (history : List Input) (input : Input)
    (key : Char) (hkey : key = 'o' ∨ key = 'O')
    (hentered : (Run.after (step keyName) (initial residue) history).entered input = some key) :
    if (Run.after (step keyName) (initial residue) history).ui.keyboardMode = .keyPress ∧
        lastPressed (Run.trace (step keyName) (initial residue) history) = key then
      sends keyName (Run.after (step keyName) (initial residue) history) input = []
    else TransmitsStop keyName (Run.after (step keyName) (initial residue) history) input := by
  rw [← remembers_after keyName residue history]
  split
  · rename_i h
    exact sends_of_repeated hkey keyName hentered h.1 h.2
  · rename_i h
    exact transmitsStop_of_entered hkey hentered fun hmode hrepeat => h ⟨hmode, hrepeat⟩

/-- `Input.ofKey`: the result of `getch` for a key, over a stack that holds zeros. -/
def Input.ofKey (key : Char) : Input := .getch (Int32.ofNat key.toNat) (.bare .commandKeyboard .stop)

/-- The program in key-press mode, after `3` in params mode and some keys. -/
def keyPressHistory (keys : List Char) : List Input :=
  .typed '3' (.bare .commandParam .stop) [] :: keys.map .ofKey

/-- A second stop key in key-press mode is not transmitted. -/
theorem stop_key_refuted : ¬ ∀ (keyName : Int32 → Char) (residue : TPacket) (history : List Input)
    (input : Input) (key : Char), key = 'o' ∨ key = 'O' →
      (Run.after (step keyName) (initial residue) history).entered input = some key →
        TransmitsStop keyName (Run.after (step keyName) (initial residue) history) input := by
  intro hclaim
  obtain ⟨packet, hsends, -⟩ := hclaim KeyHold.asciiName (.bare .hello .forward) (keyPressHistory ['o'])
    (.ofKey 'o') 'o' (Or.inl rfl) (by decide)
  exact List.cons_ne_nil packet [] hsends.symm

/-- After a movement key the stop key of key-press mode is transmitted again. -/
theorem movement_stop_key : TransmitsStop KeyHold.asciiName
    (Run.after (step KeyHold.asciiName) (initial (.bare .hello .forward)) (keyPressHistory ['o', 'w']))
    (.ofKey 'o') := by
  have hsent := stop_key KeyHold.asciiName (.bare .hello .forward) (keyPressHistory ['o', 'w']) (.ofKey 'o')
    'o' (Or.inl rfl) (by decide)
  rwa [if_neg (by decide)] at hsent

end Session

end AlexRobot
