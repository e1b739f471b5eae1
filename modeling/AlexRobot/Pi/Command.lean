import AlexRobot.Wire.Packet

/-!
# Sending commands from the Pi

The state of the operator's program and the functions that its four control modes share. What
is printed on the plain terminal is not part of the state; calls to the ncurses screen are.
`commandPacket` is a local variable, so the fields that a command does not set keep what the
stack holds.
-/

namespace AlexRobot

/-- `keyboardMode`, which is only ever given the values 1 to 4. -/
inductive KeyboardMode
  | params
  | keyHold
  | keyPress
  | smallAdjustment
  deriving DecidableEq, Repr

/-- `ScreenCall`: a call that the program makes to the ncurses screen. -/
inductive ScreenCall
  | initscr
  | endwin
  | printw
  | clear
  | refresh
  | getch
  deriving DecidableEq, Repr

/-- `Scan`: what `scanf("%d %d")` finds, which is no number, only the first, or both. -/
inductive Scan
  | none
  | first (a : UInt32)
  | both (a b : UInt32)
  deriving DecidableEq, Repr

/-- `isSpace`: the white space that `scanf` skips before a number. -/
def isSpace (c : Char) : Bool := c.toNat = 32 || (9 ≤ c.toNat && c.toNat ≤ 13)

/-- `%d`: white space, a sign and digits. Returns the number, as far as an `int` holds it, and what
follows it. -/
def scanInt (input : List Char) : Option (UInt32 × List Char) :=
  let input := input.dropWhile isSpace
  let negative := input.head? = some '-'
  let input := if negative ∨ input.head? = some '+' then input.tail else input
  let digits := input.takeWhile Char.isDigit
  let value : ℕ := digits.foldl (fun value digit => 10 * value + (digit.toNat - 48)) 0
  if digits = [] then none
  else some (UInt32.ofInt (if negative then -value else value), input.dropWhile Char.isDigit)

/-- `scanf("%d %d")`: it stops at the first number that does not match. -/
def scanf (input : List Char) : Scan :=
  match scanInt input with
  | none => .none
  | some (a, rest) =>
    match scanInt rest with
    | none => .first a
    | some (b, _) => .both a b

example : scanf "50 -75 ".toList = .both 50 (-75) := by decide

/-- The globals of the Pi's user interface. `speed` and `delay_time` are in the range of `int`. -/
structure Ui where
  exitFlag : Bool
  speed : ℤ
  delayTime : ℤ
  clearToSendCommand : Bool
  keyboardMode : KeyboardMode
  previousCommand : Char
  /-- `sent`: the packets that the program has given to `sendPacket` so far. -/
  sent : List TPacket
  /-- `screen`: the ncurses calls that the program has made so far. -/
  screen : List ScreenCall

/-- `DEFAULT_SPEED`: the speed, in percent, that the program starts with. -/
def defaultSpeed : ℤ := 40

/-- `DEFAULT_DELAY`: the duration, in milliseconds, of a timed movement as the program starts. -/
def defaultDelay : ℤ := 150

namespace Ui

/-- `Ui.initial`: the globals of the program as it starts. -/
def initial : Ui where
  exitFlag := false
  speed := defaultSpeed
  delayTime := defaultDelay
  clearToSendCommand := true
  keyboardMode := .params
  previousCommand := '0'
  sent := []
  screen := []

/-- `sendPacket`; the packet is serialized and written to the serial port. -/
def sendPacket (u : Ui) (packet : TPacket) : Ui := { u with sent := u.sent ++ [packet] }

/-- `Ui.call`: the program makes an ncurses call, and nothing else changes. -/
def call (u : Ui) (c : ScreenCall) : Ui := { u with screen := u.screen ++ [c] }

/-- `increase_speedf`: raise the speed by 5 percent, up to 100. -/
def increaseSpeed (u : Ui) : Ui :=
  if u.speed + 5 ≤ 100 then { u with speed := u.speed + 5 } else { u with speed := 100 }

/-- `decrease_speedf`: lower the speed by 5 percent, unless it is 0. -/
def decreaseSpeed (u : Ui) : Ui := if u.speed = 0 then u else { u with speed := u.speed - 5 }

/-- The numbers that `scanf` stores in the parameters. -/
def scanParams (packet : TPacket) : Scan → TPacket
  | .none => packet
  | .first a => packet.setParam 0 a
  | .both a b => (packet.setParam 0 a).setParam 1 b

/-- `getParams`: fill in the parameters of a command, from the terminal or from the globals, by the
mode. -/
def getParams (u : Ui) (packet : TPacket) (scan : Scan) : TPacket :=
  match u.keyboardMode with
  | .params => scanParams packet scan
  | .keyHold | .keyPress => packet.setParam 0 (UInt32.ofInt u.speed)
  | .smallAdjustment => packet.setParam 0 (UInt32.ofInt u.delayTime)

/-- `commandType`: the packet type that `sendCommand` gives a command in the current mode. -/
def commandType (u : Ui) : TPacketType :=
  match u.keyboardMode with
  | .params => .commandParam
  | .keyHold | .keyPress => .commandKeyboard
  | .smallAdjustment => .commandTime

/-- `onScreen`: the current mode is one of those that use the ncurses screen. -/
def onScreen (u : Ui) : Bool :=
  match u.keyboardMode with
  | .params | .keyHold => false
  | .keyPress | .smallAdjustment => true

/-- `sendMovement`: send a movement command with its parameters, as the branches of `sendCommand` for
them do. -/
def sendMovement (u : Ui) (packet : TPacket) (scan : Scan) (c : TCommandType) : Ui :=
  u.sendPacket { u.getParams packet scan with command := c.code }

/-- `sendCommand`, for a command character; `residue` is what the stack holds for `commandPacket`. -/
def sendCommand (u : Ui) (command : Char) (residue : TPacket) (scan : Scan) : Ui :=
  let commandPacket := { residue with packetType := u.commandType.code }
  match command with
  | '1' =>
    let u := if u.onScreen then u.call .endwin else u
    { u with keyboardMode := .params }
  | '2' =>
    let u := if u.onScreen then u.call .endwin else u
    { u with keyboardMode := .keyHold }
  | '3' =>
    let u := if u.onScreen then u else u.call .initscr
    ({ u with keyboardMode := .keyPress }.call .printw).call .refresh
  | '4' =>
    let u := if u.onScreen then u else u.call .initscr
    ({ u with keyboardMode := .smallAdjustment }.call .printw).call .refresh
  | 'w' | 'W' => u.sendMovement commandPacket scan .forward
  | 's' | 'S' => u.sendMovement commandPacket scan .reverse
  | 'a' | 'A' => u.sendMovement commandPacket scan .turnLeft
  | 'd' | 'D' => u.sendMovement commandPacket scan .turnRight
  | 'o' | 'O' => u.sendPacket { commandPacket with command := TCommandType.stop.code }
  | 'k' | 'K' =>
    u.sendPacket { commandPacket.setParam 0 0 with command := TCommandType.clearStats.code }
  | 'g' | 'G' => u.sendPacket { commandPacket with command := TCommandType.getStats.code }
  | 'v' | 'V' => u.sendPacket { commandPacket with command := TCommandType.color.code }
  | 'u' | 'U' => u.sendPacket { commandPacket with command := TCommandType.dist.code }
  | 'l' | 'L' => u.sendPacket { commandPacket with command := commandLcd }
  | 'c' | 'C' => ((u.call .clear).call .printw).call .refresh
  | 'q' | 'Q' =>
    let u := if u.onScreen then u.call .endwin else u
    { u with exitFlag := true }
  | _ => u

@[simp] theorem call_sent (u : Ui) (c : ScreenCall) : (u.call c).sent = u.sent := rfl

@[simp] theorem call_keyboardMode (u : Ui) (c : ScreenCall) : (u.call c).keyboardMode = u.keyboardMode := rfl

@[simp] theorem call_previousCommand (u : Ui) (c : ScreenCall) :
    (u.call c).previousCommand = u.previousCommand := rfl

@[simp] theorem increaseSpeed_previousCommand (u : Ui) :
    u.increaseSpeed.previousCommand = u.previousCommand := by
  unfold increaseSpeed
  split <;> rfl

@[simp] theorem decreaseSpeed_previousCommand (u : Ui) :
    u.decreaseSpeed.previousCommand = u.previousCommand := by
  unfold decreaseSpeed
  split <;> rfl

/-- `sendCommand` leaves the previous command alone, as only `PressAndPress` sets it. -/
@[simp] theorem sendCommand_previousCommand (u : Ui) (command : Char) (residue : TPacket) (scan : Scan) :
    (u.sendCommand command residue scan).previousCommand = u.previousCommand := by
  have hendwin : (if u.onScreen then u.call .endwin else u).previousCommand = u.previousCommand := by
    split <;> rfl
  have hinitscr : (if u.onScreen then u else u.call .initscr).previousCommand = u.previousCommand := by
    split <;> rfl
  unfold sendCommand
  dsimp only
  split
  all_goals first
    | rfl
    | exact hendwin
    | exact hinitscr

/-- A stop key of `sendCommand` sends a stop of the packet type that the mode calls for. -/
theorem sendCommand_stop (u : Ui) {key : Char} (hkey : key = 'o' ∨ key = 'O') (residue : TPacket)
    (scan : Scan) : (u.sendCommand key residue scan).sent = u.sent ++
      [{ residue with packetType := u.commandType.code, command := TCommandType.stop.code }] := by
  obtain rfl | rfl := hkey
  · rfl
  · rfl

end Ui

end AlexRobot
