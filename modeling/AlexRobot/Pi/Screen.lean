import AlexRobot.Pi.StepCommand

/-!
# The ncurses screen

Whether the screen is open is not stored anywhere: the code infers it from the mode, and it is
right about that in every switch between modes. It fails where a call does not ask the mode at
all, and where the mode outlives the screen.
-/

namespace AlexRobot

/-- `ScreenCall.apply`: what a call makes of a screen that is open or closed, if the call may be made at
all. -/
def ScreenCall.apply : ScreenCall → Bool → Option Bool
  | .initscr, false => some true
  | .initscr, true => none
  | .endwin, true => some false
  | .endwin, false => none
  | .printw, isOpen | .clear, isOpen | .refresh, isOpen | .getch, isOpen => if isOpen then some true else none

/-- Whether the screen is open after some calls; `none` if one of them was misplaced. -/
def screenAfter (calls : List ScreenCall) : Option Bool :=
  calls.foldl (fun screen c => screen.bind c.apply) (some false)

/-- A run of calls in which one was misplaced stays misplaced, whatever calls follow. -/
theorem foldl_misplaced (calls : List ScreenCall) :
    calls.foldl (fun screen c => screen.bind c.apply) (none : Option Bool) = none := by
  induction calls with
  | nil => rfl
  | cons c rest ih => exact ih

/-- A run of `printw` calls leaves an open screen open. -/
theorem foldl_printw (n : ℕ) :
    (List.replicate n ScreenCall.printw).foldl (fun screen c => screen.bind c.apply) (some true) =
      some true := by
  induction n with
  | zero => rfl
  | succ n ih => exact ih

namespace Ui

/-- `shown`: the state of the screen after the calls made so far, if none was misplaced. -/
def shown (u : Ui) : Option Bool := screenAfter u.screen

/-- Every call so far was in its place, and a program that ends has closed the screen. -/
structure ScreenLaw (u : Ui) : Prop where
  placed : u.shown ≠ none
  closed : u.exitFlag = true → u.shown = some false

/-- The screen is as the mode has it, until the program ends. -/
def Fits (u : Ui) : Prop := u.shown = some (u.onScreen && !u.exitFlag)

/-- `Open`: the screen is open, the mode is one that uses it, and the program goes on. -/
structure Open (u : Ui) : Prop where
  shown : u.shown = some true
  onScreen : u.onScreen = true
  running : u.exitFlag = false

/-- `IsClear`: the keys whose command clears the screen. -/
def IsClear (key : Char) : Prop := key = 'c' ∨ key = 'C'

instance (key : Char) : Decidable (IsClear key) := inferInstanceAs (Decidable (_ ∨ _))

/-- `IsClosing`: the keys whose command closes an open screen. -/
def IsClosing (key : Char) : Prop := key = '1' ∨ key = '2' ∨ IsQuit key

instance (key : Char) : Decidable (IsClosing key) := inferInstanceAs (Decidable (_ ∨ _ ∨ _))

/-- The state of the screen after more calls is that of those calls from the state before. -/
theorem shown_append (u : Ui) (calls : List ScreenCall) :
    { u with screen := u.screen ++ calls }.shown =
      calls.foldl (fun screen c => screen.bind c.apply) u.shown := List.foldl_append

@[simp] theorem shown_call (u : Ui) (c : ScreenCall) : (u.call c).shown = u.shown.bind c.apply :=
  u.shown_append [c]

/-- The law of the screen holds of every screen that fits its mode. -/
theorem Fits.screenLaw {u : Ui} (h : u.Fits) : u.ScreenLaw where
  placed := by
    rw [h]
    exact Option.some_ne_none _
  closed hexit := by rw [h, hexit, Bool.not_true, Bool.and_false]

/-- An open screen fits its mode, as that mode uses the screen. -/
theorem Open.fits {u : Ui} (h : u.Open) : u.Fits := by
  rw [Fits, h.shown, h.onScreen, h.running]
  rfl

/-- A screen that fits is open in the modes that use it. -/
theorem Fits.isOpen {u : Ui} (h : u.Fits) (honScreen : u.onScreen = true) (hexit : u.exitFlag = false) :
    u.Open := by
  refine ⟨?_, honScreen, hexit⟩
  rw [h, honScreen, hexit]
  rfl

/-- A screen that fits is closed in the modes that do not use it. -/
theorem Fits.isClosed {u : Ui} (h : u.Fits) (honScreen : u.onScreen = false) : u.shown = some false := by
  rw [h, honScreen, Bool.false_and]

/-- An open screen stays open over a call that an open screen allows. -/
theorem Open.call {u : Ui} (h : u.Open) {c : ScreenCall} (hc : c.apply true = some true) : (u.call c).Open := by
  refine ⟨?_, h.onScreen, h.running⟩
  rw [shown_call, h.shown, Option.bind_some, hc]

/-- An open screen stays open when it is refreshed, as every fifth command does. -/
theorem Open.refreshScreen {u : Ui} (h : u.Open) (commandsSent : ℕ) : (u.refreshScreen commandsSent).Open := by
  unfold Ui.refreshScreen
  split
  · exact ((h.call rfl).call rfl).call rfl
  · exact h

/-- Changing the speed or the delay leaves the screen open. -/
theorem Open.adjusted {u : Ui} (h : u.Open) (speed delayTime : ℤ) :
    { u with speed := speed, delayTime := delayTime }.Open := ⟨h.shown, h.onScreen, h.running⟩

/-- An open screen stays open when the speed is adjusted. -/
theorem Open.adjustSpeed {u : Ui} (h : u.Open) : u.increaseSpeedw.Open ∧ u.decreaseSpeedw.Open := by
  constructor
  · unfold increaseSpeedw increaseSpeed
    split
    · exact (h.adjusted _ u.delayTime).call rfl
    · exact (h.adjusted _ u.delayTime).call rfl
  · unfold decreaseSpeedw decreaseSpeed
    split
    · exact h.call rfl
    · exact (h.adjusted _ u.delayTime).call rfl

/-- An open screen stays open when the delay is adjusted. -/
theorem Open.adjustDelay {u : Ui} (h : u.Open) : u.increaseDelay.Open ∧ u.decreaseDelay.Open := by
  constructor
  · exact (h.adjusted u.speed _).call rfl
  · unfold decreaseDelay
    dsimp only
    split
    · exact (h.adjusted u.speed _).call rfl
    · exact (h.adjusted u.speed _).call rfl

section SendCommand

variable {u : Ui} (h : u.Fits)

include h

/-- A screen that fits is closed after the `endwin` on the way out of its mode. -/
theorem Fits.endwin (hexit : u.exitFlag = true → u.onScreen = false) :
    (if u.onScreen then u.call .endwin else u).shown = some false := by
  split
  · rename_i honScreen
    have hrunning : u.exitFlag = false := by
      rw [Bool.eq_false_iff]
      intro hset
      cases honScreen.symm.trans (hexit hset)
    rw [shown_call, (h.isOpen honScreen hrunning).shown]
    rfl
  · rename_i honScreen
    exact h.isClosed (Bool.eq_false_iff.mpr honScreen)

/-- Entering one of the modes that use the screen opens it. -/
theorem Fits.initscr (hrunning : u.exitFlag = false) :
    (if u.onScreen then u else u.call .initscr).shown = some true := by
  split
  · rename_i honScreen
    exact (h.isOpen honScreen hrunning).shown
  · rename_i honScreen
    rw [shown_call, h.isClosed (Bool.eq_false_iff.mpr honScreen)]
    rfl

/-- After a command the screen fits, unless the command clears a closed screen, or opens it after the
end. -/
theorem Fits.sendCommand {key : Char} (hclear : IsClear key → u.onScreen = true)
    (hexit : u.exitFlag = true → u.onScreen = false ∧ key ≠ '3' ∧ key ≠ '4') (residue : TPacket) (scan : Scan) :
    (u.sendCommand key residue scan).Fits := by
  have hrunning (hkeys : ¬ (u.onScreen = false ∧ key ≠ '3' ∧ key ≠ '4')) : u.exitFlag = false :=
    Bool.eq_false_iff.mpr fun hset => hkeys (hexit hset)
  have hendwin := h.endwin fun hset => (hexit hset).1
  have hinitscr (hrunning : u.exitFlag = false) (mode : KeyboardMode)
      (hmode : { u with keyboardMode := mode }.onScreen = true) :
      Open { (if u.onScreen then u else u.call .initscr) with keyboardMode := mode } := by
    obtain ⟨screen, hscreen⟩ := u.initscr_eq
    refine ⟨h.initscr hrunning, hmode, ?_⟩
    rw [hscreen]
    exact hrunning
  unfold Ui.sendCommand
  dsimp only
  split
  · exact hendwin
  · exact hendwin
  · have hrunning := hrunning fun hkeys => hkeys.2.1 rfl
    exact (((hinitscr hrunning .keyPress rfl).call rfl).call rfl).fits
  · have hrunning := hrunning fun hkeys => hkeys.2.2 rfl
    exact (((hinitscr hrunning .smallAdjustment rfl).call rfl).call rfl).fits
  -- Twenty keys send a packet, two clear the screen and two end the program.
  iterate 20 exact h
  iterate 2
    have honScreen := hclear (by decide)
    have hrunning := hrunning fun hkeys => Bool.false_ne_true (hkeys.1.symm.trans honScreen)
    exact ((((h.isOpen honScreen hrunning).call rfl).call rfl).call rfl).fits
  iterate 2 exact hendwin.trans (congrArg some (Bool.and_false _).symm)
  · exact h

end SendCommand

/-- The digits of the modes without the screen close it. -/
theorem modeKey?_onScreen {key : Char} {mode : KeyboardMode} (h : modeKey? key = some mode) (u : Ui) :
    { u with keyboardMode := mode }.onScreen = true ∨ IsClosing key := by
  unfold modeKey? at h
  split at h
  · exact Or.inr (Or.inl rfl)
  · exact Or.inr (Or.inr (Or.inl rfl))
  · cases h
    exact Or.inl rfl
  · cases h
    exact Or.inl rfl
  · cases h

/-- After a command on an open screen the screen fits. -/
theorem Open.command_fits {u : Ui} (h : u.Open) (key : Char) (residue : TPacket) (scan : Scan) :
    (u.sendCommand key residue scan).Fits := by
  apply h.fits.sendCommand
  · exact fun _ => h.onScreen
  · intro hset
    cases h.running.symm.trans hset

/-- A command that does not close the screen leaves it open. -/
theorem Open.sendCommand {u : Ui} (h : u.Open) {key : Char} (hkey : ¬ IsClosing key) (residue : TPacket)
    (scan : Scan) : (u.sendCommand key residue scan).Open := by
  have hfits := h.command_fits key residue scan
  rcases u.sendCommand_cases key residue scan with
    ⟨mode, screen, hmode, hsent⟩ | ⟨packet, -, -, hsent⟩ | ⟨screen, hquit, -⟩ | ⟨screen, -, -, hsent⟩
  · rw [hsent] at hfits ⊢
    exact hfits.isOpen ((modeKey?_onScreen hmode u).resolve_right hkey) h.running
  · rw [hsent] at hfits ⊢
    exact hfits.isOpen h.onScreen h.running
  · exact absurd (Or.inr (Or.inr hquit)) hkey
  · rw [hsent] at hfits ⊢
    exact hfits.isOpen h.onScreen h.running

/-- A command that closes an open screen leaves it closed. -/
theorem Open.closed {u : Ui} (h : u.Open) {key : Char} (hkey : IsClosing key) (residue : TPacket)
    (scan : Scan) : (u.sendCommand key residue scan).shown = some false := by
  have hfits := h.command_fits key residue scan
  obtain rfl | rfl | hquit := hkey
  · exact hfits
  · exact hfits
  · rw [hfits, (u.sendCommand_exitFlag key residue scan).mpr (Or.inr hquit), Bool.not_true, Bool.and_false]

/-- Only the digits of the modes with a screen change to one. -/
theorem sendCommand_onScreen (u : Ui) {key : Char} (h : u.onScreen = false) (hkey : key ≠ '3' ∧ key ≠ '4')
    (residue : TPacket) (scan : Scan) : (u.sendCommand key residue scan).onScreen = false := by
  have hmode {mode : KeyboardMode} (hdigit : modeKey? key = some mode) : mode = .params ∨ mode = .keyHold := by
    unfold modeKey? at hdigit
    split at hdigit
    · exact Or.inl (Option.some.inj hdigit).symm
    · exact Or.inr (Option.some.inj hdigit).symm
    · exact absurd rfl hkey.1
    · exact absurd rfl hkey.2
    · cases hdigit
  rw [Ui.onScreen, u.sendCommand_keyboardMode]
  cases hdigit : modeKey? key with
  | none => exact h
  | some mode => obtain rfl | rfl := hmode hdigit <;> rfl

/-- The calls are misplaced after a key that clears a screen that is closed. -/
theorem shown_of_clear {u : Ui} (h : u.shown = some false) {key : Char} (hkey : IsClear key) (residue : TPacket)
    (scan : Scan) : (u.sendCommand key residue scan).shown = none := by
  have hcleared : (((u.call .clear).call .printw).call .refresh).shown = none := by
    rw [shown_call, shown_call, shown_call, h]
    rfl
  obtain rfl | rfl := hkey
  · exact hcleared
  · exact hcleared

/-- The responses that the program prints on the screen, where the mode has one. -/
def IsPrinted (packet : TPacket) : Prop :=
  packet.packetType = TPacketType.response.code ∧
    (packet.command = TResponseType.ok.code ∨ packet.command = TResponseType.color.code)

/-- A packet whose response is not printed leaves the screen alone. -/
theorem handlePacket_screen (u : Ui) {packet : TPacket} (h : IsPrinted packet → u.onScreen = false) :
    (u.handlePacket packet).screen = u.screen := by
  unfold handlePacket handleResponse handleColor
  split_ifs with htype hok honScreen hcolor honScreen
  · cases honScreen.symm.trans (h ⟨htype, Or.inl hok⟩)
  · rfl
  · cases honScreen.symm.trans (h ⟨htype, Or.inr hcolor⟩)
  · rfl
  · rfl
  · rfl

/-- `handlePacket` prints a response on the screen with one or more `printw` calls. -/
theorem handlePacket_shown (u : Ui) {packet : TPacket} (h : IsPrinted packet) (honScreen : u.onScreen = true) :
    ∃ n, (u.handlePacket packet).shown =
      (List.replicate (n + 1) ScreenCall.printw).foldl (fun screen c => screen.bind c.apply) u.shown := by
  obtain ⟨htype, hok | hcolor⟩ := h
  · refine ⟨0, ?_⟩
    rw [handlePacket, if_pos htype, handleResponse, if_pos hok, if_pos honScreen]
    exact u.shown_call .printw
  · refine ⟨7, ?_⟩
    have hok : ¬ packet.command = TResponseType.ok.code := by
      rw [hcolor]
      decide
    rw [handlePacket, if_pos htype, handleResponse, if_neg hok, if_pos hcolor, handleColor, if_pos honScreen]
    exact u.shown_append _

/-- An adjustment does not change to a mode with a screen, and it does not end the program. -/
theorem Adjusts.onScreen {u v : Ui} (h : u.Adjusts v) (honScreen : u.onScreen = false) :
    v.onScreen = false := by
  cases h with
  | ignore => exact honScreen
  | leave => rfl
  | increaseSpeed =>
    unfold Ui.increaseSpeed
    split
    · exact honScreen
    · exact honScreen
  | decreaseSpeed =>
    unfold Ui.decreaseSpeed
    split
    · exact honScreen
    · exact honScreen
  | increaseDelay => exact honScreen
  | decreaseDelay =>
    unfold Ui.decreaseDelay
    dsimp only
    split
    · exact honScreen
    · exact honScreen

/-- The modes that use the screen are told by the core of the globals. -/
theorem onScreen_of_core {u v : Ui} (h : u.core = v.core) : u.onScreen = v.onScreen := by
  have hmode : u.keyboardMode = v.keyboardMode := ((core_eq_iff u v).mp h).2.2.2.1
  rw [Ui.onScreen, Ui.onScreen, hmode]

end Ui

namespace Session

/-- `SDL_GetKeyName` returns a digit for the key of that digit alone. -/
def DigitNames (keyName : Int32 → Char) : Prop :=
  ∀ key, (keyName key = '3' → key = sdlk3) ∧ (keyName key = '4' → key = sdlk4)

/-- The step keeps to the screen: it clears the screen only in a mode that has one, it does not close it
from small-adjustment mode, and it prints no response between the end of a mode with a screen and the end
of the program. -/
structure KeepsScreen (keyName : Int32 → Char) (s : Session) (input : Input) : Prop where
  clear : ∀ key, s.command keyName input = some key → Ui.IsClear key → s.ui.onScreen = true
  close : ∀ key, s.command keyName input = some key → Ui.IsClosing key →
    s.ui.keyboardMode ≠ .smallAdjustment
  respond : ∀ packet, input = .received packet → Ui.IsPrinted packet → s.ui.onScreen = true →
    s.ui.exitFlag = false

/-- The screen fits, and the event loop of key-hold mode runs without one. -/
structure ScreenFits (s : Session) : Prop where
  fits : s.ui.Fits
  keyHold : s.inside = true → s.ui.onScreen = false

/-- `main()` calls the event loop in a mode without a screen. -/
theorem mainLoop_screenFits {s : Session} (houtside : s.inside = false) (h : s.ui.Fits) :
    s.mainLoop.ScreenFits := by
  refine ⟨by rwa [mainLoop_ui], ?_⟩
  unfold mainLoop
  split
  · exact fun _ => rfl
  · intro hinside
    cases houtside.symm.trans hinside

section Steps

variable {keyName : Int32 → Char} {s : Session}

/-- The screen of a mode with a screen is open while the mode waits for a key. -/
theorem ScreenFits.isOpen (h : s.ScreenFits) {mode : KeyboardMode} (hwaiting : s.Waiting mode)
    (hmode : mode = .keyPress ∨ mode = .smallAdjustment) : s.ui.Open := by
  refine h.fits.isOpen ?_ hwaiting.2.1
  rw [Ui.onScreen, hwaiting.2.2]
  obtain rfl | rfl := hmode
  · rfl
  · rfl

/-- A key of params mode keeps the screen fitting, if it does not clear it. -/
theorem typed_screenFits (h : s.ScreenFits) (hwaiting : s.Waiting .params) {ch : Char}
    (hclear : Ui.IsClear ch → s.ui.onScreen = true) (residue : TPacket) (terminal : List Char) :
    (s.paramsControl ch residue terminal).ScreenFits := by
  have hsent : (s.ui.sendCommand ch residue (scanf terminal)).Fits := by
    apply h.fits.sendCommand hclear
    intro hset
    cases hwaiting.2.1.symm.trans hset
  rw [paramsControl]
  apply mainLoop_screenFits
  · exact hwaiting.1
  · exact hsent

/-- A key of key-press mode keeps the screen fitting, whatever the key is. -/
theorem pressAndPress_screenFits (h : s.ScreenFits) (hwaiting : s.Waiting .keyPress) (c : Int32)
    (residue : TPacket) : (s.pressAndPress c residue).ScreenFits := by
  have hopen : (s.ui.call .getch).Open := (h.isOpen hwaiting (Or.inl rfl)).call rfl
  rw [pressAndPress]
  dsimp only
  split_ifs with hignores hcomma hdot
  · refine ⟨hopen.fits, fun hinside => ?_⟩
    cases hwaiting.1.symm.trans hinside
  · apply mainLoop_screenFits
    · exact hwaiting.1
    · exact (hopen.refreshScreen s.commandsSent).adjustSpeed.2.fits
  · apply mainLoop_screenFits
    · exact hwaiting.1
    · exact (hopen.refreshScreen s.commandsSent).adjustSpeed.1.fits
  · have hready := ((hopen.refreshScreen s.commandsSent).call (c := .printw) rfl).call (c := .refresh) rfl
    have hsent := hready.command_fits (toChar c) residue .none
    apply mainLoop_screenFits
    · exact hwaiting.1
    · exact hsent

/-- A key of small-adjustment mode that does not close the screen. -/
theorem timedMovement_screenFits (h : s.ScreenFits) (hwaiting : s.Waiting .smallAdjustment) {c : Int32}
    (hkey : (c = err || toChar c = ',' || toChar c = '.') = false → ¬ Ui.IsClosing (toChar c))
    (residue : TPacket) : (s.timedMovement c residue).ScreenFits := by
  have hopen : (s.ui.call .getch).Open := (h.isOpen hwaiting (Or.inr rfl)).call rfl
  rw [timedMovement]
  dsimp only
  split_ifs with herr hcomma hdot
  · refine ⟨hopen.fits, fun hinside => ?_⟩
    cases hwaiting.1.symm.trans hinside
  · apply mainLoop_screenFits
    · exact hwaiting.1
    · exact ((hopen.refreshScreen s.commandsSent).adjustDelay.2.call rfl).fits
  · apply mainLoop_screenFits
    · exact hwaiting.1
    · exact ((hopen.refreshScreen s.commandsSent).adjustDelay.1.call rfl).fits
  · have hready := (hopen.refreshScreen s.commandsSent).call (c := .printw) rfl
    have hclosing : ¬ Ui.IsClosing (toChar c) := hkey (by simp [herr, hcomma, hdot])
    apply mainLoop_screenFits
    · exact hwaiting.1
    · exact ((hready.sendCommand hclosing residue .none).call rfl).fits

/-- The keys that the event loop passes on are not the digits of the modes with a screen. -/
theorem KeyHold.command_ne {keyName : Int32 → Char} (hdigits : DigitNames keyName) {s : KeyHold} {poll : Poll}
    {key : Char} (h : s.command keyName poll = some key) : key ≠ '3' ∧ key ≠ '4' := by
  obtain ⟨-, h⟩ := Option.ite_none_right_eq_some.mp h
  split at h
  · obtain ⟨-, hname⟩ := Option.ite_none_right_eq_some.mp h
    cases hname
    decide
  · rename_i pressed _
    obtain ⟨hkey, hname⟩ := Option.ite_none_right_eq_some.mp h
    cases hname
    have hreserved : KeyHold.reserved pressed = false := by
      rw [Bool.and_eq_true, Bool.not_eq_true', Bool.not_eq_true'] at hkey
      exact hkey.2
    simp only [KeyHold.reserved, Bool.or_eq_false_iff, decide_eq_false_iff_not] at hreserved
    obtain ⟨⟨⟨⟨-, h3⟩, h4⟩, -⟩, -⟩ := hreserved
    exact ⟨fun hname => h3 ((hdigits pressed).1 hname), fun hname => h4 ((hdigits pressed).2 hname)⟩
  · cases h

/-- A key event of key-hold mode keeps the screen fitting, if its key does not clear it. -/
theorem poll_screenFits (hdigits : DigitNames keyName) (h : s.ScreenFits) {poll : Poll}
    (hclear : ∀ key, s.toKeyHold.command keyName poll = some key → Ui.IsClear key → s.ui.onScreen = true) :
    (s.step keyName (.poll poll)).ScreenFits := by
  by_cases hinside : s.inside = true
  · have hclosed := h.keyHold hinside
    cases hcommand : s.toKeyHold.command keyName poll with
    | none =>
      obtain ⟨u, v, hcore, hadjusts, hstep, hscreen⟩ := KeyHold.step_of_no_command hcommand
      have honScreen : (s.step keyName (.poll poll)).ui.onScreen = false := by
        have hv : v.onScreen = false := hadjusts.onScreen (by rwa [Ui.onScreen_of_core hcore])
        exact (Ui.onScreen_of_core hstep).trans hv
      refine ⟨?_, fun _ => honScreen⟩
      have hshown : (s.step keyName (.poll poll)).ui.shown = s.ui.shown := congrArg screenAfter hscreen
      rw [Ui.Fits, hshown, honScreen, h.fits.isClosed hclosed, Bool.false_and]
    | some key =>
      obtain ⟨hui, -, -⟩ := KeyHold.step_of_command hcommand
      have hne := KeyHold.command_ne hdigits hcommand
      let ready : Ui := { s.ui with clearToSendCommand := true }
      have hready : ready.Fits := h.fits
      have hfits := hready.sendCommand (hclear key hcommand) (fun _ => ⟨hclosed, hne⟩) poll.residue poll.scan
      have hstep : (s.step keyName (.poll poll)).ui = ready.sendCommand key poll.residue poll.scan := hui
      rw [← hstep] at hfits
      refine ⟨hfits, fun _ => ?_⟩
      rw [hstep]
      exact ready.sendCommand_onScreen hclosed hne poll.residue poll.scan
  · rw [step, KeyHold.step_of_outside keyName (Bool.eq_false_iff.mpr hinside)]
    exact h

/-- A packet keeps the screen fitting, if a printed response meets an open screen. -/
theorem received_screenFits (h : s.ScreenFits) {packet : TPacket}
    (hrespond : Ui.IsPrinted packet → s.ui.onScreen = true → s.ui.exitFlag = false) :
    (s.step keyName (.received packet)).ScreenFits := by
  have hcore : (s.ui.handlePacket packet).core = s.ui.core := s.ui.handlePacket_core packet
  have honScreen : (s.ui.handlePacket packet).onScreen = s.ui.onScreen := Ui.onScreen_of_core hcore
  have hexit : (s.ui.handlePacket packet).exitFlag = s.ui.exitFlag := ((Ui.core_eq_iff _ _).mp hcore).1
  refine ⟨?_, fun hinside => honScreen.trans (h.keyHold hinside)⟩
  have hfits : (s.ui.handlePacket packet).shown = s.ui.shown := by
    by_cases hprinted : Ui.IsPrinted packet ∧ s.ui.onScreen = true
    · obtain ⟨n, hshown⟩ := s.ui.handlePacket_shown hprinted.1 hprinted.2
      have hopen := h.fits.isOpen hprinted.2 (hrespond hprinted.1 hprinted.2)
      rw [hshown, hopen.shown, foldl_printw]
    · refine congrArg screenAfter (s.ui.handlePacket_screen fun hpacket => ?_)
      rw [Bool.eq_false_iff]
      exact fun hset => hprinted ⟨hpacket, hset⟩
  have hlaw : (s.ui.handlePacket packet).Fits := by
    rw [Ui.Fits, hfits, honScreen, hexit]
    exact h.fits
  exact hlaw

end Steps

/-- Every step that keeps to the screen leaves a screen that fits. -/
theorem step_screenFits {keyName : Int32 → Char} (hdigits : DigitNames keyName) {s : Session} (h : s.ScreenFits)
    {input : Input} (hkeeps : KeepsScreen keyName s input) : (s.step keyName input).ScreenFits := by
  cases input with
  | typed ch residue terminal =>
    rw [step]
    by_cases hwaiting : s.Waiting .params
    · rw [if_pos hwaiting]
      exact typed_screenFits h hwaiting (hkeeps.clear ch (if_pos hwaiting)) residue terminal
    · rwa [if_neg hwaiting]
  | getch c residue =>
    rw [step]
    by_cases hpress : s.Waiting .keyPress
    · rw [if_pos hpress]
      exact pressAndPress_screenFits h hpress c residue
    · rw [if_neg hpress]
      by_cases hadjust : s.Waiting .smallAdjustment
      · rw [if_pos hadjust]
        refine timedMovement_screenFits h hadjust (fun hnew hclosing => ?_) residue
        have hcommand : s.command keyName (.getch c residue) = some (toChar c) := by
          rw [command, if_neg hpress, if_pos hadjust, if_neg (Bool.eq_false_iff.mp hnew)]
        exact hkeeps.close _ hcommand hclosing hadjust.2.2
      · rwa [if_neg hadjust]
  | poll poll => exact poll_screenFits hdigits h hkeeps.clear
  | received packet => exact received_screenFits h (hkeeps.respond packet rfl)

section Misplaced

variable {keyName : Int32 → Char} {s : Session} {input : Input} (h : s.ScreenFits)
  (hplaced : (s.step keyName input).ui.shown ≠ none)

include h hplaced

/-- A command that clears a closed screen is misplaced. -/
theorem onScreen_of_clear {key : Char} (hcommand : s.command keyName input = some key)
    (hclear : Ui.IsClear key) : s.ui.onScreen = true := by
  by_contra honScreen
  rw [Bool.not_eq_true] at honScreen
  have hclosed := h.fits.isClosed honScreen
  apply hplaced
  cases input with
  | typed ch residue terminal =>
    obtain ⟨hwaiting, hkey⟩ := Option.ite_none_right_eq_some.mp hcommand
    cases hkey
    rw [step, if_pos hwaiting, paramsControl, mainLoop_ui]
    exact Ui.shown_of_clear hclosed hclear residue (scanf terminal)
  | getch c residue =>
    have hnowhere (mode : KeyboardMode) (hmode : mode = .keyPress ∨ mode = .smallAdjustment) :
        ¬ s.Waiting mode :=
      fun hwaiting => Bool.false_ne_true (honScreen.symm.trans (h.isOpen hwaiting hmode).onScreen)
    rw [command, if_neg (hnowhere .keyPress (Or.inl rfl)),
      if_neg (hnowhere .smallAdjustment (Or.inr rfl))] at hcommand
    cases hcommand
  | poll poll =>
    let ready : Ui := { s.ui with clearToSendCommand := true }
    have hready : ready.shown = some false := hclosed
    have hstep : (s.step keyName (.poll poll)).ui = ready.sendCommand key poll.residue poll.scan :=
      (KeyHold.step_of_command hcommand).1
    rw [hstep]
    exact Ui.shown_of_clear hready hclear poll.residue poll.scan
  | received packet => cases hcommand

/-- A command that closes the screen of small-adjustment mode is followed by a misplaced call. -/
theorem not_smallAdjustment_of_close {key : Char} (hcommand : s.command keyName input = some key)
    (hclosing : Ui.IsClosing key) : s.ui.keyboardMode ≠ .smallAdjustment := by
  intro hmode
  apply hplaced
  cases input with
  | typed ch residue terminal =>
    obtain ⟨hwaiting, -⟩ := Option.ite_none_right_eq_some.mp hcommand
    cases hmode.symm.trans hwaiting.2.2
  | getch c residue =>
    have hpress : ¬ s.Waiting .keyPress := fun hwaiting => by cases hmode.symm.trans hwaiting.2.2
    rw [command, if_neg hpress] at hcommand
    obtain ⟨hadjust, hgiven⟩ := Option.ite_none_right_eq_some.mp hcommand
    obtain ⟨hnew, hkey⟩ := Option.ite_none_left_eq_some.mp hgiven
    cases hkey
    have hopen := (((h.isOpen hadjust (Or.inr rfl)).call (c := .getch) rfl).refreshScreen
      s.commandsSent).call (c := .printw) rfl
    rw [step, if_neg hpress, if_pos hadjust, s.timedMovement_of_command c residue (Bool.eq_false_iff.mpr hnew),
      Ui.shown_call, hopen.closed hclosing]
    rfl
  | poll poll =>
    obtain ⟨⟨hinside, -⟩, -⟩ := Option.ite_none_right_eq_some.mp hcommand
    have honScreen := h.keyHold hinside
    rw [Ui.onScreen, hmode] at honScreen
    cases honScreen
  | received packet => cases hcommand

end Misplaced

/-- A response that is printed on the screen of a program that ends is misplaced. -/
theorem running_of_respond {s : Session} (h : s.ScreenFits) {packet : TPacket}
    (hplaced : (s.ui.handlePacket packet).shown ≠ none) (hprinted : Ui.IsPrinted packet)
    (honScreen : s.ui.onScreen = true) : s.ui.exitFlag = false := by
  by_contra hexit
  obtain ⟨n, hshown⟩ := s.ui.handlePacket_shown hprinted honScreen
  have hclosed : s.ui.shown = some false := by
    rw [h.fits, Bool.eq_true_of_not_eq_false hexit, Bool.not_true, Bool.and_false]
  rw [hshown, hclosed, List.replicate_succ, List.foldl_cons] at hplaced
  exact hplaced (foldl_misplaced _)

/-- The program starts with a screen that fits, as it is closed in params mode. -/
theorem initial_screenFits (residue : TPacket) : (initial residue).ScreenFits where
  fits := rfl
  keyHold hinside := by cases hinside

/-- Key names for the letter keys alone name no digit. -/
theorem asciiName_digitNames : DigitNames KeyHold.asciiName := by
  have hletter (n : Fin 26) : Char.ofNat (65 + n) ≠ '3' ∧ Char.ofNat (65 + n) ≠ '4' := by
    revert n
    decide
  intro key
  unfold KeyHold.asciiName
  split
  · rename_i hrange
    rw [Int32.le_iff_toInt_le, Int32.le_iff_toInt_le] at hrange
    have hlow : 97 ≤ key.toInt := hrange.1
    have hhigh : key.toInt ≤ 122 := hrange.2
    have hnat : key.toNatClampNeg = key.toInt.toNat := rfl
    have hcode : key.toNatClampNeg - 32 = 65 + (key.toNatClampNeg - 97) := by omega
    obtain ⟨h3, h4⟩ := hletter ⟨key.toNatClampNeg - 97, by omega⟩
    rw [hcode]
    exact ⟨fun hname => absurd hname h3, fun hname => absurd hname h4⟩
  · exact ⟨fun hname => absurd hname (by decide), fun hname => absurd hname (by decide)⟩

/-- Throughout a run every call to the screen is in its place, and a program that ends has closed the
screen, exactly when every step of the run keeps to the screen. -/
theorem screen_discipline (keyName : Int32 → Char) (hdigits : DigitNames keyName) (residue : TPacket)
    (inputs : List Input) :
    Run.Throughout (step keyName) (fun s => s.ui.ScreenLaw) (initial residue) inputs ↔
      Run.Along (step keyName) (KeepsScreen keyName) (initial residue) inputs := by
  apply Run.throughout_iff_along ScreenFits
  · intro s h
    exact h.fits.screenLaw
  · intro s input h hkeeps
    exact step_screenFits hdigits h hkeeps
  · intro s input h hlaw
    refine ⟨?_, ?_, ?_⟩
    · intro key hcommand hclear
      exact onScreen_of_clear h hlaw.placed hcommand hclear
    · intro key hcommand hclosing
      exact not_smallAdjustment_of_close h hlaw.placed hcommand hclosing
    · rintro packet rfl hprinted honScreen
      exact running_of_respond h hlaw.placed hprinted honScreen
  · exact initial_screenFits residue

/-- Key-press mode, one command and Q keep to the screen. -/
theorem q_screen_discipline : Run.Throughout (step KeyHold.asciiName) (fun s => s.ui.ScreenLaw)
    (initial (.bare .hello .forward))
    [.typed '3' (.bare .commandParam .stop) [], .getch 119 (.bare .commandKeyboard .stop),
      .received (.bare .response .forward), .getch 113 (.bare .commandKeyboard .stop)] := by
  apply (screen_discipline KeyHold.asciiName asciiName_digitNames (.bare .hello .forward) _).mpr
  refine ⟨⟨?_, ?_, nofun⟩, ⟨?_, ?_, nofun⟩, ⟨nofun, nofun, fun _ _ _ _ => by decide⟩, ⟨?_, ?_, nofun⟩, trivial⟩
  all_goals
    intro key hcommand hkey
    cases hcommand
    revert hkey
    decide

/-- C in params mode clears a screen that was never opened. -/
theorem screen_discipline_refuted : ¬ ∀ (keyName : Int32 → Char) (residue : TPacket) (inputs : List Input),
    DigitNames keyName →
      Run.Throughout (step keyName) (fun s => s.ui.ScreenLaw) (initial residue) inputs := by
  intro hclaim
  have hlaw := hclaim KeyHold.asciiName (.bare .hello .forward) [.typed 'c' (.bare .commandParam .stop) []]
    asciiName_digitNames
  exact hlaw.2.placed (by decide)

end Session

end AlexRobot
