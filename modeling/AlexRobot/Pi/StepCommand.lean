import AlexRobot.Pi.StopKey

/-!
# What a step passes to `sendCommand`

However a key reaches the program, it ends in one call of `sendCommand`, or it adjusts the
speed or the delay, or it leads nowhere. Up to the display, the previous command and the
handshake flag, a step is that call, so what one call does is what one step does.
-/

namespace AlexRobot

namespace Ui

/-- The globals without the display, the previous command and the handshake flag. -/
def core (u : Ui) : Ui := { u with clearToSendCommand := true, previousCommand := '0', screen := [] }

/-- Equal cores are equal in everything but the packets sent and the calls to the screen. -/
theorem core_eq_iff (u v : Ui) : u.core = v.core ↔ u.exitFlag = v.exitFlag ∧ u.speed = v.speed ∧
    u.delayTime = v.delayTime ∧ u.keyboardMode = v.keyboardMode ∧ u.sent = v.sent := by
  simp [core]

@[simp] theorem refreshScreen_core (commandsSent : ℕ) (u : Ui) :
    (u.refreshScreen commandsSent).core = u.core := by
  obtain ⟨screen, hscreen⟩ := u.refreshScreen_eq commandsSent
  rw [hscreen]
  rfl

@[simp] theorem handlePacket_core (u : Ui) (packet : TPacket) : (u.handlePacket packet).core = u.core := by
  obtain ⟨screen, clear, hhandled⟩ := u.handlePacket_eq packet
  rw [hhandled]
  rfl

/-- `modeKey?`: the mode that a digit asks for, if the key is such a digit. -/
def modeKey? : Char → Option KeyboardMode
  | '1' => some .params
  | '2' => some .keyHold
  | '3' => some .keyPress
  | '4' => some .smallAdjustment
  | _ => none

/-- `IsQuit`: the key is one of those that end the program. -/
def IsQuit (key : Char) : Prop := key = 'q' ∨ key = 'Q'

instance (key : Char) : Decidable (IsQuit key) := inferInstanceAs (Decidable (_ ∨ _))

section SendCommand

variable (u : Ui) (key : Char) (residue : TPacket) (scan : Scan)

/-- The way out of a mode, which closes an open screen, changes the calls to the screen alone. -/
theorem endwin_eq : ∃ screen, (if u.onScreen then u.call .endwin else u) = { u with screen := screen } := by
  split
  · exact ⟨_, rfl⟩
  · exact ⟨u.screen, rfl⟩

/-- The way into a mode, which opens a closed screen, changes the calls to the screen alone. -/
theorem initscr_eq : ∃ screen, (if u.onScreen then u else u.call .initscr) = { u with screen := screen } := by
  split
  · exact ⟨u.screen, rfl⟩
  · exact ⟨_, rfl⟩

/-- A command switches the mode, sends a packet, ends the program or none of these; the speed and the
delay stay. -/
theorem sendCommand_cases :
    (∃ mode screen, modeKey? key = some mode ∧
        u.sendCommand key residue scan = { u with keyboardMode := mode, screen := screen }) ∨
      (∃ packet, modeKey? key = none ∧ ¬ IsQuit key ∧ u.sendCommand key residue scan = u.sendPacket packet) ∨
      (∃ screen, IsQuit key ∧ u.sendCommand key residue scan = { u with exitFlag := true, screen := screen }) ∨
      ∃ screen, modeKey? key = none ∧ ¬ IsQuit key ∧ u.sendCommand key residue scan =
        { u with screen := screen } := by
  obtain ⟨endwin, hendwin⟩ := u.endwin_eq
  obtain ⟨initscr, hinitscr⟩ := u.initscr_eq
  unfold sendCommand
  dsimp only
  rw [hendwin, hinitscr]
  split
  · exact Or.inl ⟨_, _, rfl, rfl⟩
  · exact Or.inl ⟨_, _, rfl, rfl⟩
  · exact Or.inl ⟨_, _, rfl, rfl⟩
  · exact Or.inl ⟨_, _, rfl, rfl⟩
  -- Twenty keys send a packet, two clear the screen and two end the program.
  iterate 20 exact Or.inr (Or.inl ⟨_, rfl, by decide, rfl⟩)
  iterate 2 exact Or.inr (Or.inr (Or.inr ⟨_, rfl, by decide, rfl⟩))
  iterate 2 exact Or.inr (Or.inr (Or.inl ⟨_, by decide, rfl⟩))
  · refine Or.inr (Or.inr (Or.inr ⟨u.screen, ?_, ?_, rfl⟩))
    · unfold modeKey?
      split
      all_goals first
        | rfl
        | contradiction
    · rintro (rfl | rfl)
      all_goals contradiction

/-- `modeKey?` has no mode for a key that ends the program. -/
theorem modeKey?_of_isQuit {key : Char} (h : IsQuit key) : modeKey? key = none := by
  obtain rfl | rfl := h
  · rfl
  · rfl

/-- `sendCommand` switches to the mode that the key asks for, and to no other. -/
theorem sendCommand_keyboardMode :
    (u.sendCommand key residue scan).keyboardMode = (modeKey? key).getD u.keyboardMode := by
  rcases u.sendCommand_cases key residue scan with
    ⟨mode, screen, hmode, h⟩ | ⟨packet, hmode, -, h⟩ | ⟨screen, hquit, h⟩ | ⟨screen, hmode, -, h⟩
  · rw [h, hmode]
    rfl
  · rw [h, hmode]
    rfl
  · rw [h, modeKey?_of_isQuit hquit]
    rfl
  · rw [h, hmode]
    rfl

/-- The exit flag is set by the keys that end the program. -/
theorem sendCommand_exitFlag :
    (u.sendCommand key residue scan).exitFlag = true ↔ u.exitFlag = true ∨ IsQuit key := by
  rcases u.sendCommand_cases key residue scan with
    ⟨mode, screen, hmode, h⟩ | ⟨packet, -, hquit, h⟩ | ⟨screen, hquit, h⟩ | ⟨screen, -, hquit, h⟩
  · rw [h, or_iff_left]
    intro hquit
    cases hmode.symm.trans (modeKey?_of_isQuit hquit)
  · rw [h, or_iff_left hquit]
    rfl
  · rw [h]
    exact iff_of_true rfl (Or.inr hquit)
  · rw [h, or_iff_left hquit]

/-- `sendCommand` leaves the speed and the delay alone. -/
theorem sendCommand_adjustments : (u.sendCommand key residue scan).speed = u.speed ∧
    (u.sendCommand key residue scan).delayTime = u.delayTime := by
  rcases u.sendCommand_cases key residue scan with
    ⟨mode, screen, -, h⟩ | ⟨packet, -, -, h⟩ | ⟨screen, -, h⟩ | ⟨screen, -, -, h⟩
  · rw [h]
    exact ⟨rfl, rfl⟩
  · rw [h]
    exact ⟨rfl, rfl⟩
  · rw [h]
    exact ⟨rfl, rfl⟩
  · rw [h]
    exact ⟨rfl, rfl⟩

end SendCommand

/-- `Adjusts u v`: what a key that is no command makes of the globals. -/
inductive Adjusts (u : Ui) : Ui → Prop
  | ignore : u.Adjusts u
  | leave : u.Adjusts { u with keyboardMode := .params }
  | increaseSpeed : u.Adjusts u.increaseSpeed
  | decreaseSpeed : u.Adjusts u.decreaseSpeed
  | increaseDelay : u.Adjusts u.increaseDelay
  | decreaseDelay : u.Adjusts u.decreaseDelay

/-- An adjustment concerns the mode, the speed, the delay and the screen. -/
theorem Adjusts.eq {u v : Ui} (h : u.Adjusts v) : ∃ mode speed delayTime screen, v =
    { u with keyboardMode := mode, speed := speed, delayTime := delayTime, screen := screen } := by
  cases h with
  | ignore => exact ⟨_, _, _, _, rfl⟩
  | leave => exact ⟨_, u.speed, u.delayTime, u.screen, rfl⟩
  | increaseSpeed =>
    unfold Ui.increaseSpeed
    split
    · exact ⟨u.keyboardMode, _, u.delayTime, u.screen, rfl⟩
    · exact ⟨u.keyboardMode, _, u.delayTime, u.screen, rfl⟩
  | decreaseSpeed =>
    unfold Ui.decreaseSpeed
    split
    · exact ⟨_, _, _, _, rfl⟩
    · exact ⟨u.keyboardMode, _, u.delayTime, u.screen, rfl⟩
  | increaseDelay => exact ⟨u.keyboardMode, u.speed, _, _, rfl⟩
  | decreaseDelay =>
    unfold Ui.decreaseDelay
    dsimp only
    split
    · exact ⟨u.keyboardMode, u.speed, _, _, rfl⟩
    · exact ⟨u.keyboardMode, u.speed, _, _, rfl⟩

theorem increaseSpeed_screen (u : Ui) : u.increaseSpeed.screen = u.screen := by
  unfold increaseSpeed
  split <;> rfl

theorem decreaseSpeed_screen (u : Ui) : u.decreaseSpeed.screen = u.screen := by
  unfold decreaseSpeed
  split <;> rfl

end Ui

namespace KeyHold

/-- The keys that key-hold mode does not pass on: three of the mode keys, and the arrows. -/
def reserved (key : Int32) : Bool :=
  key = sdlk1 || key = sdlk3 || key = sdlk4 || key = leftArrowKey || key = rightArrowKey

/-- The command that a call of `SDL_PollEvent` leads to. -/
def command (keyName : Int32 → Char) (s : KeyHold) (poll : Poll) : Option Char :=
  if s.inside = true ∧ s.flags.stop = false then
    match poll.event with
    | some (.keyUp key) => if s.flags.keyAlreadyPressed && !exempt key then some 'o' else none
    | some (.keyDown key) =>
      if !s.flags.keyAlreadyPressed && !reserved key then some (keyName key) else none
    | _ => none
  else none

/-- A released key sends a stop, unless it is exempt or no key acted before. -/
theorem keyUp_eq (s : KeyHold) (key : Int32) (poll : Poll) :
    s.keyUp key poll = { s with
      ui := if s.flags.keyAlreadyPressed && !exempt key then
        s.ui.sendCommand 'o' poll.residue poll.scan else s.ui
      flags := { s.flags with keyAlreadyPressed := false } } := by
  unfold keyUp
  cases hflag : s.flags.keyAlreadyPressed with
  | false =>
    have hflags : { s.flags with keyAlreadyPressed := false } = s.flags := by rw [← hflag]
    simp only [Bool.false_eq_true, if_false, Bool.false_and, hflags]
  | true => cases hkey : exempt key <;> simp

section KeyDown

variable (keyName : Int32 → Char) {s : KeyHold} (hclear : s.ui.clearToSendCommand = true)

include hclear

/-- `keyDown` passes the first key that is pressed on to `sendCommand`, unless the key is reserved. -/
theorem keyDown_of_command {key : Int32} (hflag : s.flags.keyAlreadyPressed = false)
    (hkey : reserved key = false) (poll : Poll) :
    s.keyDown keyName key poll = { s with
      ui := s.ui.sendCommand (keyName key) poll.residue poll.scan
      flags := { s.flags with keyAlreadyPressed := true, informed := false } } := by
  simp only [reserved, Bool.or_eq_false_iff, decide_eq_false_iff_not] at hkey
  obtain ⟨⟨⟨⟨h1, h3⟩, h4⟩, hleft⟩, hright⟩ := hkey
  simp [keyDown, pressed, hflag, hclear, h1, h3, h4, hleft, hright]

/-- `keyDown` ignores every other key or adjusts the globals by it. -/
theorem keyDown_adjusts {key : Int32} (hkey : (!s.flags.keyAlreadyPressed && !reserved key) = false)
    (poll : Poll) :
    s.ui.Adjusts (s.keyDown keyName key poll).ui ∧ (s.keyDown keyName key poll).ui.screen = s.ui.screen := by
  unfold keyDown
  cases hflag : s.flags.keyAlreadyPressed with
  | true =>
    rw [if_neg (by simp)]
    exact ⟨.ignore, rfl⟩
  | false =>
    rw [hflag] at hkey
    have hreserved : reserved key = true := by simpa using hkey
    rw [if_pos (by simp), if_neg (by simp [hclear])]
    unfold pressed
    split_ifs with hmode hleft hright
    · exact ⟨.leave, rfl⟩
    · exact ⟨.decreaseSpeed, s.ui.decreaseSpeed_screen⟩
    · exact ⟨.increaseSpeed, s.ui.increaseSpeed_screen⟩
    · obtain ⟨h1, h3, h4⟩ : key ≠ sdlk1 ∧ key ≠ sdlk3 ∧ key ≠ sdlk4 := by simpa using hmode
      simp [reserved, h1, h3, h4, hleft, hright] at hreserved

end KeyDown

/-- A call of `SDL_PollEvent` that leads to a command is that command, and the event loop goes on. -/
theorem step_of_command {keyName : Int32 → Char} {s : KeyHold} {poll : Poll} {key : Char}
    (h : s.command keyName poll = some key) :
    (s.step keyName poll).ui =
        { s.ui with clearToSendCommand := true }.sendCommand key poll.residue poll.scan ∧
      (s.step keyName poll).inside = true ∧ (s.step keyName poll).flags.stop = false := by
  obtain ⟨⟨hinside, hstop⟩, h⟩ := Option.ite_none_right_eq_some.mp h
  cases hevent : poll.event with
  | none =>
    rw [hevent] at h
    cases h
  | some event =>
    rw [hevent] at h
    rw [step_of_event hinside hstop hevent]
    cases event with
    | quit => cases h
    | other => cases h
    | keyUp released =>
      obtain ⟨hkey, hname⟩ := Option.ite_none_right_eq_some.mp h
      cases hname
      rw [handleEvent, keyUp_eq]
      exact ⟨if_pos hkey, hinside, hstop⟩
    | keyDown pressed =>
      obtain ⟨hkey, hname⟩ := Option.ite_none_right_eq_some.mp h
      cases hname
      simp only [Bool.and_eq_true, Bool.not_eq_true'] at hkey
      let ready : KeyHold := { s with
        ui := { s.ui with clearToSendCommand := true }
        held := heldAfter s.held (some (.keyDown pressed)) }
      have hclear : ready.ui.clearToSendCommand = true := rfl
      have hdown : handleEvent keyName { s with held := heldAfter s.held (some (.keyDown pressed)) }
          (.keyDown pressed) poll = ready.keyDown keyName pressed poll := rfl
      rw [hdown, keyDown_of_command keyName hclear hkey.1 hkey.2]
      exact ⟨rfl, hinside, hstop⟩

/-- A call that leads to no command adjusts the globals at most, and leaves the screen alone. -/
theorem step_of_no_command {keyName : Int32 → Char} {s : KeyHold} {poll : Poll}
    (h : s.command keyName poll = none) :
    ∃ u v : Ui, u.core = s.ui.core ∧ u.Adjusts v ∧ (s.step keyName poll).ui.core = v.core ∧
      (s.step keyName poll).ui.screen = s.ui.screen := by
  have hsame (hui : (s.step keyName poll).ui = s.ui) : ∃ u v : Ui, u.core = s.ui.core ∧ u.Adjusts v ∧
      (s.step keyName poll).ui.core = v.core ∧ (s.step keyName poll).ui.screen = s.ui.screen :=
    ⟨s.ui, s.ui, rfl, .ignore, congrArg Ui.core hui, congrArg Ui.screen hui⟩
  by_cases hinside : s.inside = true
  · by_cases hstop : s.flags.stop = true
    · apply hsame
      simp only [step, hinside, hstop, if_true]
      cases poll.event <;> exact leave_ui _
    · have hrunning : s.flags.stop = false := Bool.eq_false_iff.mpr hstop
      rw [command, if_pos ⟨hinside, hrunning⟩] at h
      cases hevent : poll.event with
      | none =>
        apply hsame
        simp only [step, hinside, hevent, if_true, leave_ui]
      | some event =>
        rw [hevent] at h
        rw [step_of_event hinside hrunning hevent]
        cases event with
        | quit => exact ⟨s.ui, s.ui, rfl, .ignore, rfl, rfl⟩
        | other => exact ⟨s.ui, s.ui, rfl, .ignore, rfl, rfl⟩
        | keyUp released =>
          have hkey : ¬ (s.flags.keyAlreadyPressed && !exempt released) = true := by
            intro hkey
            simp only [hkey, if_true] at h
            cases h
          rw [handleEvent, keyUp_eq]
          dsimp only
          rw [if_neg hkey]
          exact ⟨s.ui, s.ui, rfl, .ignore, rfl, rfl⟩
        | keyDown pressed =>
          have hkey : ¬ (!s.flags.keyAlreadyPressed && !reserved pressed) = true := by
            intro hkey
            simp only [hkey, if_true] at h
            cases h
          let ready : KeyHold := { s with
            ui := { s.ui with clearToSendCommand := true }
            held := heldAfter s.held (some (.keyDown pressed)) }
          have hclear : ready.ui.clearToSendCommand = true := rfl
          obtain ⟨hadjusts, hscreen⟩ := keyDown_adjusts keyName hclear (Bool.eq_false_iff.mpr hkey) poll
          exact ⟨ready.ui, _, rfl, hadjusts, rfl, hscreen⟩
  · apply hsame
    rw [step_of_outside keyName (Bool.eq_false_iff.mpr hinside)]

end KeyHold

namespace Session

/-- `command`: the key, if any, whose command a step of the session leads to. -/
def command (keyName : Int32 → Char) (s : Session) : Input → Option Char
  | .typed ch _ _ => if s.Waiting .params then some ch else none
  | .getch c _ =>
    if s.Waiting .keyPress then
      if ignores s.ui c || toChar c = ',' || toChar c = '.' then none else some (toChar c)
    else if s.Waiting .smallAdjustment then
      if c = err || toChar c = ',' || toChar c = '.' then none else some (toChar c)
    else none
  | .poll poll => s.toKeyHold.command keyName poll
  | .received _ => none

section GetchModes

variable (s : Session) (c : Int32) (residue : TPacket)

/-- `PressAndPress` passes a key that it does not ignore and that adjusts nothing to `sendCommand`. -/
theorem pressAndPress_of_command (h : (ignores s.ui c || toChar c = ',' || toChar c = '.') = false) :
    (s.pressAndPress c residue).ui.core =
      ((((((s.ui.call .getch).refreshScreen s.commandsSent).call .printw).call .refresh).sendCommand
        (toChar c) residue .none).core) := by
  simp only [Bool.or_eq_false_iff, decide_eq_false_iff_not] at h
  obtain ⟨⟨hignores, hcomma⟩, hdot⟩ := h
  have hnew : ¬ ignores (s.ui.call .getch) c = true := Bool.eq_false_iff.mp hignores
  rw [pressAndPress]
  dsimp only
  rw [if_neg hnew, if_neg hcomma, if_neg hdot, mainLoop_ui]
  rfl

/-- `PressAndPress` ignores every other key or adjusts the globals by it. -/
theorem pressAndPress_adjusts (h : (ignores s.ui c || toChar c = ',' || toChar c = '.') = true) :
    ∃ u v : Ui, u.core = s.ui.core ∧ u.Adjusts v ∧ (s.pressAndPress c residue).ui.core = v.core := by
  rw [pressAndPress]
  dsimp only
  by_cases hignores : ignores (s.ui.call .getch) c = true
  · rw [if_pos hignores]
    exact ⟨s.ui, s.ui, rfl, .ignore, rfl⟩
  · rw [if_neg hignores, mainLoop_ui]
    let shown := (s.ui.call .getch).refreshScreen s.commandsSent
    have hshown : shown.core = s.ui.core := Ui.refreshScreen_core _ _
    dsimp only
    split_ifs with hcomma hdot
    · exact ⟨shown, _, hshown, .decreaseSpeed, rfl⟩
    · exact ⟨shown, _, hshown, .increaseSpeed, rfl⟩
    · have hnew : ignores s.ui c = false := Bool.eq_false_iff.mpr hignores
      simp [hnew, hcomma, hdot] at h

/-- `TimedMovement` passes a key that adjusts nothing to `sendCommand`. -/
theorem timedMovement_of_command (h : (c = err || toChar c = ',' || toChar c = '.') = false) :
    (s.timedMovement c residue).ui =
      (((((s.ui.call .getch).refreshScreen s.commandsSent).call .printw).sendCommand
        (toChar c) residue .none).call .refresh) := by
  simp only [Bool.or_eq_false_iff, decide_eq_false_iff_not] at h
  obtain ⟨⟨hc, hcomma⟩, hdot⟩ := h
  rw [timedMovement]
  dsimp only
  rw [if_neg hc, if_neg hcomma, if_neg hdot, mainLoop_ui]

/-- `TimedMovement` ignores every other key or adjusts the globals by it. -/
theorem timedMovement_adjusts (h : (c = err || toChar c = ',' || toChar c = '.') = true) :
    ∃ u v : Ui, u.core = s.ui.core ∧ u.Adjusts v ∧ (s.timedMovement c residue).ui.core = v.core := by
  rw [timedMovement]
  dsimp only
  by_cases hc : c = err
  · rw [if_pos hc]
    exact ⟨s.ui, s.ui, rfl, .ignore, rfl⟩
  · rw [if_neg hc, mainLoop_ui]
    let shown := (s.ui.call .getch).refreshScreen s.commandsSent
    have hshown : shown.core = s.ui.core := Ui.refreshScreen_core _ _
    dsimp only
    split_ifs with hcomma hdot
    · exact ⟨shown, _, hshown, .decreaseDelay, rfl⟩
    · exact ⟨shown, _, hshown, .increaseDelay, rfl⟩
    · simp [hc, hcomma, hdot] at h

end GetchModes

/-- `Session.step` with a key that leads to a command gives the globals of that command. -/
theorem step_of_command {keyName : Int32 → Char} {s : Session} {input : Input} {key : Char}
    (h : s.command keyName input = some key) : ∃ (u : Ui) (residue : TPacket) (scan : Scan),
      u.core = s.ui.core ∧ (s.step keyName input).ui.core = (u.sendCommand key residue scan).core := by
  cases input with
  | typed ch residue terminal =>
    obtain ⟨hwaiting, hkey⟩ := Option.ite_none_right_eq_some.mp h
    cases hkey
    refine ⟨s.ui, residue, scanf terminal, rfl, ?_⟩
    rw [step, if_pos hwaiting, paramsControl, mainLoop_ui]
  | getch c residue =>
    rw [command] at h
    rw [step]
    by_cases hpress : s.Waiting .keyPress
    · rw [if_pos hpress] at h ⊢
      obtain ⟨hnew, hkey⟩ := Option.ite_none_left_eq_some.mp h
      cases hkey
      refine ⟨_, residue, .none, ?_, s.pressAndPress_of_command c residue (Bool.eq_false_iff.mpr hnew)⟩
      exact Ui.refreshScreen_core _ _
    · rw [if_neg hpress] at h ⊢
      obtain ⟨hadjust, hgiven⟩ := Option.ite_none_right_eq_some.mp h
      obtain ⟨hnew, hkey⟩ := Option.ite_none_left_eq_some.mp hgiven
      cases hkey
      let shown := ((s.ui.call .getch).refreshScreen s.commandsSent).call .printw
      have hshown : shown.core = s.ui.core := Ui.refreshScreen_core _ _
      rw [if_pos hadjust, s.timedMovement_of_command c residue (Bool.eq_false_iff.mpr hnew)]
      exact ⟨shown, residue, .none, hshown, rfl⟩
  | poll poll =>
    let ready : Ui := { s.ui with clearToSendCommand := true }
    have hready : ready.core = s.ui.core := rfl
    exact ⟨ready, poll.residue, poll.scan, hready, congrArg Ui.core (KeyHold.step_of_command h).1⟩
  | received packet => cases h

/-- A step that leads to no command adjusts the globals at most. -/
theorem step_of_no_command {keyName : Int32 → Char} {s : Session} {input : Input}
    (h : s.command keyName input = none) :
    ∃ u v : Ui, u.core = s.ui.core ∧ u.Adjusts v ∧ (s.step keyName input).ui.core = v.core := by
  have hsame : ∃ u v : Ui, u.core = s.ui.core ∧ u.Adjusts v ∧ s.ui.core = v.core :=
    ⟨s.ui, s.ui, rfl, .ignore, rfl⟩
  cases input with
  | typed ch residue terminal =>
    have hwaiting : ¬ s.Waiting .params := by
      intro hwaiting
      rw [command, if_pos hwaiting] at h
      cases h
    rw [step, if_neg hwaiting]
    exact hsame
  | getch c residue =>
    rw [command] at h
    rw [step]
    by_cases hpress : s.Waiting .keyPress
    · rw [if_pos hpress] at h ⊢
      apply s.pressAndPress_adjusts c residue
      by_contra hnew
      rw [if_neg hnew] at h
      cases h
    · rw [if_neg hpress] at h ⊢
      by_cases hadjust : s.Waiting .smallAdjustment
      · rw [if_pos hadjust] at h ⊢
        apply s.timedMovement_adjusts c residue
        by_contra hnew
        rw [if_neg hnew] at h
        cases h
      · rw [if_neg hadjust]
        exact hsame
  | poll poll =>
    obtain ⟨u, v, hcore, hadjusts, hstep, -⟩ := KeyHold.step_of_no_command h
    exact ⟨u, v, hcore, hadjusts, hstep⟩
  | received packet => exact ⟨s.ui, s.ui, rfl, .ignore, s.ui.handlePacket_core packet⟩

end Session

end AlexRobot
