import AlexRobot.Pi.KeyHold

/-!
# The operator's program as a whole

`main()` calls the control function of the current mode until the exit flag is set. One step
here is what one key, one SDL event or one packet from the Arduino leads to: a control
function is waiting for its next key whenever `main()` has called it. Two of the modes share
`getch`, and only one of them compares the key with the previous command.
-/

namespace AlexRobot

namespace Ui

/-- `increase_speedw`: raise the speed, and print it on the screen. -/
def increaseSpeedw (u : Ui) : Ui := u.increaseSpeed.call .printw

/-- `decrease_speedw`: lower the speed, and print it on the screen. -/
def decreaseSpeedw (u : Ui) : Ui := u.decreaseSpeed.call .printw

/-- `increase_delay`: raise the delay by 50 milliseconds, and print it on the screen. -/
def increaseDelay (u : Ui) : Ui := { u with delayTime := u.delayTime + 50 }.call .printw

/-- `decrease_delay`: lower the delay by 50 milliseconds, and print it on the screen. -/
def decreaseDelay (u : Ui) : Ui :=
  let u := { u with delayTime := u.delayTime - 50 }
  if u.delayTime < 0 then { u with delayTime := 0 }.call .printw else u.call .printw

/-- `refresh_screen`: clear the screen after every fifth command. -/
def refreshScreen (commandsSent : ℕ) (u : Ui) : Ui :=
  if commandsSent ≠ 0 ∧ commandsSent % 5 = 0 then ((u.call .clear).call .printw).call .refresh else u

/-- `handleColor`: eight calls of `printw`, or of `printf`. -/
def handleColor (u : Ui) : Ui :=
  if u.onScreen then { u with screen := u.screen ++ List.replicate 8 .printw } else u

/-- `handleResponse`; the other responses only print on the terminal. -/
def handleResponse (u : Ui) (packet : TPacket) : Ui :=
  if packet.command = TResponseType.ok.code then
    let u := if u.onScreen then u.call .printw else u
    { u with clearToSendCommand := true }
  else if packet.command = TResponseType.color.code then u.handleColor
  else u

/-- The Pi's `handlePacket`; errors and messages only print on the terminal. -/
def handlePacket (u : Ui) (packet : TPacket) : Ui :=
  if packet.packetType = TPacketType.response.code then u.handleResponse packet else u

@[simp] theorem increaseDelay_previousCommand (u : Ui) :
    u.increaseDelay.previousCommand = u.previousCommand := rfl

@[simp] theorem decreaseDelay_previousCommand (u : Ui) :
    u.decreaseDelay.previousCommand = u.previousCommand := by
  unfold decreaseDelay
  dsimp only
  split <;> rfl

/-- `refreshScreen` changes the calls to the screen and nothing else. -/
theorem refreshScreen_eq (commandsSent : ℕ) (u : Ui) :
    ∃ screen, u.refreshScreen commandsSent = { u with screen := screen } := by
  unfold refreshScreen
  split
  · exact ⟨_, rfl⟩
  · exact ⟨u.screen, rfl⟩

@[simp] theorem refreshScreen_sent (commandsSent : ℕ) (u : Ui) :
    (u.refreshScreen commandsSent).sent = u.sent := by
  obtain ⟨screen, hscreen⟩ := u.refreshScreen_eq commandsSent
  rw [hscreen]

@[simp] theorem refreshScreen_keyboardMode (commandsSent : ℕ) (u : Ui) :
    (u.refreshScreen commandsSent).keyboardMode = u.keyboardMode := by
  obtain ⟨screen, hscreen⟩ := u.refreshScreen_eq commandsSent
  rw [hscreen]

@[simp] theorem refreshScreen_previousCommand (commandsSent : ℕ) (u : Ui) :
    (u.refreshScreen commandsSent).previousCommand = u.previousCommand := by
  obtain ⟨screen, hscreen⟩ := u.refreshScreen_eq commandsSent
  rw [hscreen]

/-- A packet from the Arduino concerns the screen and `clear_to_send_command` alone. -/
theorem handlePacket_eq (u : Ui) (packet : TPacket) : ∃ screen clear,
    u.handlePacket packet = { u with screen := screen, clearToSendCommand := clear } := by
  unfold handlePacket handleResponse handleColor
  split_ifs
  · exact ⟨_, _, rfl⟩
  · exact ⟨_, _, rfl⟩
  · exact ⟨_, _, rfl⟩
  · exact ⟨u.screen, u.clearToSendCommand, rfl⟩
  · exact ⟨u.screen, u.clearToSendCommand, rfl⟩
  · exact ⟨u.screen, u.clearToSendCommand, rfl⟩

end Ui

/-- `ERR`, which `getch` returns while no key is there. -/
def err : Int32 := -1

/-- `char(c)`: the character that a result of `getch` is cast to. -/
def toChar (c : Int32) : Char := Char.ofNat c.toUInt32.toUInt8.toNat

/-- The program, with the number of commands that the two `getch` modes count. -/
structure Session extends KeyHold where
  commandsSent : ℕ

namespace Session

/-- `Input`: what the program meets, which is a character for the `scanf("%c")` of params mode, with the
terminal input that a `scanf("%d %d")` finds after it; a result of `getch`; a call of `SDL_PollEvent`;
or a packet for the receiving thread. A `residue` is what the stack holds for the packet of the command. -/
inductive Input
  | typed (ch : Char) (residue : TPacket) (terminal : List Char)
  | getch (c : Int32) (residue : TPacket)
  | poll (poll : Poll)
  | received (packet : TPacket)

/-- `main()` before its loop: it sends a hello packet. -/
def initial (residue : TPacket) : Session where
  ui := Ui.initial.sendPacket { residue with packetType := TPacketType.hello.code }
  flags := .entry
  inside := false
  held := ∅
  commandsSent := 0

/-- The loop of `main()` has called the control function of this mode; for key-hold mode that is
`inside`. -/
def Waiting (s : Session) (mode : KeyboardMode) : Prop :=
  s.inside = false ∧ s.ui.exitFlag = false ∧ s.ui.keyboardMode = mode

instance (s : Session) (mode : KeyboardMode) : Decidable (s.Waiting mode) :=
  inferInstanceAs (Decidable (_ ∧ _ ∧ _))

/-- The loop of `main()` after a control function has returned. -/
def mainLoop (s : Session) : Session :=
  if s.ui.exitFlag = false ∧ s.ui.keyboardMode = .keyHold then { s with toKeyHold := .enter s.ui } else s

/-- `paramsControl`: one round of params mode, for the character it reads. -/
def paramsControl (s : Session) (ch : Char) (residue : TPacket) (terminal : List Char) : Session :=
  mainLoop { s with ui := s.ui.sendCommand ch residue (scanf terminal) }

/-- The condition of the loop around `getch` in `PressAndPress`. -/
def ignores (u : Ui) (c : Int32) : Bool :=
  c = err || (toChar c = u.previousCommand && toChar c ≠ ',' && toChar c ≠ '.' && toChar c ≠ 'v' &&
    toChar c ≠ 'u')

/-- `PressAndPress`: one round of key-press mode, for one result of `getch`. -/
def pressAndPress (s : Session) (c : Int32) (residue : TPacket) : Session :=
  let s := { s with ui := s.ui.call .getch }
  if ignores s.ui c then s
  else
    let ch := toChar c
    let ui := s.ui.refreshScreen s.commandsSent
    let ui :=
      if ch = ',' then ui.decreaseSpeedw
      else if ch = '.' then ui.increaseSpeedw
      else
        let ui := (ui.call .printw).call .refresh
        -- Only params mode scans the terminal for parameters.
        { ui.sendCommand ch residue .none with previousCommand := ch }
    mainLoop { s with ui := ui, commandsSent := s.commandsSent + 1 }

/-- `TimedMovement`: one round of small-adjustment mode, for one result of `getch`. -/
def timedMovement (s : Session) (c : Int32) (residue : TPacket) : Session :=
  let s := { s with ui := s.ui.call .getch }
  if c = err then s
  else
    let ch := toChar c
    let ui := s.ui.refreshScreen s.commandsSent
    let ui :=
      if ch = ',' then ui.decreaseDelay
      else if ch = '.' then ui.increaseDelay
      else (ui.call .printw).sendCommand ch residue .none
    mainLoop { s with ui := ui.call .refresh, commandsSent := s.commandsSent + 1 }

/-- `Session.step`: one step of the program; what the current control function does not wait for is left
where it is. -/
def step (keyName : Int32 → Char) (s : Session) : Input → Session
  | .typed ch residue terminal =>
    if s.Waiting .params then s.paramsControl ch residue terminal else s
  | .getch c residue =>
    if s.Waiting .keyPress then s.pressAndPress c residue
    else if s.Waiting .smallAdjustment then s.timedMovement c residue
    else s
  | .poll poll => { s with toKeyHold := s.toKeyHold.step keyName poll }
  | .received packet => { s with ui := s.ui.handlePacket packet }

end Session

end AlexRobot
