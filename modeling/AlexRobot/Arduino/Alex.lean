import AlexRobot.Arduino.Motion
import AlexRobot.Arduino.ReadPacket

/-!
# The Arduino program

All globals of the sketch, its senders and sensors, the three command handlers and `loop()`.
A packet or a frame is built on a local structure whose unset fields keep what the stack
holds, so the state carries arbitrary stack contents, one for each packet sent. The three
handlers differ only in how they start a movement and share one definition.
-/

namespace AlexRobot

open Conversion
open TracedMemory

/-- `SPEED_OF_SOUND`, in metres per second, for the distance that an echo stands for. -/
def speedOfSound : UInt32 := 340

/-- `DIST_OFFSET`, in centimetres, which the sensor's distance is corrected by. -/
def distOffset : ℚ := 0

/-- `ShroudMouthToUltrasonic`: the sensor sits 7 cm behind the mouth of the shroud. -/
def shroudMouthToUltrasonic : Int16 := 7

/-- `DistancetoStop`: the colour arm is to stop 2 cm before the object. -/
def distancetoStop : UInt32 := 2

/-- `distpersec`: the colour arm moves by 6 cm in a second. -/
def distpersec : ℚ := 6

/-- `ServoMove`: the angle that the colour arm turns at, and the argument of the `delay` after
which it stops. -/
structure ServoMove where
  angle : ℕ
  millis : UInt32
  deriving DecidableEq, Repr

/-- What the sensors report while a command is handled: the echo that `pulseIn` measures, and five
pulses for each of the three colours. -/
structure Sensors where
  echo : UInt32
  red : Fin 5 → UInt32
  green : Fin 5 → UInt32
  blue : Fin 5 → UInt32

/-- Sensors that report no echo and no light, for runs in which they do not matter. -/
def Sensors.silent : Sensors := ⟨0, fun _ => 0, fun _ => 0, fun _ => 0⟩

/-- What is on the stack where the n-th packet sent, and its frame, are built. -/
structure Stack where
  packet : ℕ → TPacket
  comms : ℕ → TComms

/-- The state of the sketch: the driving globals, the colour readings, the arm, the receiver and the
sent packets. -/
structure Alex extends Motion where
  redFreq : UInt32
  greenFreq : UInt32
  blueFreq : UInt32
  linearactuatordist : UInt32
  /-- The moves made with the colour arm so far, each with its angle and its time. -/
  servo : List ServoMove
  receiver : Receiver
  stack : Stack
  /-- The packets given to `sendResponse` so far, in order. -/
  sent : List TPacket
  /-- The bytes given to `writeSerial` so far, in order. -/
  written : List UInt8

namespace Alex

/-- Run a function of the driving code, which changes the driving globals alone. -/
def onMotion (a : Alex) (f : Motion → Motion) : Alex := { a with toMotion := f a.toMotion }

/-- `sendResponse`: serialize the packet over what the stack holds, and write its frame. -/
def sendResponse (a : Alex) (packet : TPacket) : Alex :=
  { a with
    sent := a.sent ++ [packet]
    written := a.written ++ serialize (a.stack.comms a.sent.length) packet.payload }

/-- The local packet of a sender, before its fields are set. -/
def localPacket (a : Alex) : TPacket := a.stack.packet a.sent.length

/-- A packet of the given type and command, otherwise as the stack has it. -/
def headed (a : Alex) (packetType : TPacketType) (command : TResponseType) : TPacket :=
  { a.localPacket with packetType := packetType.code, command := command.code }

/-- `sendOK`: a response that says that the packet was handled. -/
def sendOK (a : Alex) : Alex := a.sendResponse (a.headed .response .ok)

/-- `sendBadPacket`: an error that says that the magic number was wrong. -/
def sendBadPacket (a : Alex) : Alex := a.sendResponse (a.headed .error .badPacket)

/-- `sendBadChecksum`: an error that says that the checksum did not match. -/
def sendBadChecksum (a : Alex) : Alex := a.sendResponse (a.headed .error .badChecksum)

/-- `sendBadCommand`: an error that says that the command is unknown. -/
def sendBadCommand (a : Alex) : Alex := a.sendResponse (a.headed .error .badCommand)

/-- `sendStatus`: a response with the ticks, the turns, the distances and the turn's target. -/
def sendStatus (a : Alex) : Alex :=
  let statusPacket := a.headed .response .status
  let statusPacket := statusPacket.setParam 0 a.leftForwardTicks
  let statusPacket := statusPacket.setParam 1 a.rightForwardTicks
  let statusPacket := statusPacket.setParam 2 a.leftReverseTicks
  let statusPacket := statusPacket.setParam 3 a.rightReverseTicks
  let statusPacket := statusPacket.setParam 4 a.leftForwardTurns
  let statusPacket := statusPacket.setParam 5 a.rightForwardTurns
  let statusPacket := statusPacket.setParam 6 a.leftReverseTurns
  let statusPacket := statusPacket.setParam 7 a.rightReverseTurns
  let statusPacket := statusPacket.setParam 8 a.forwardDist
  let statusPacket := statusPacket.setParam 9 a.reverseDist
  let statusPacket := statusPacket.setParam 10 a.deltaTicks
  let statusPacket := statusPacket.setParam 11 a.targetTicks
  a.sendResponse statusPacket

/-- `strncpy` to the text field, of a string with the given characters before its terminator. -/
def strncpy (message : List UInt8) : Vector UInt8 maxStrLen := Vector.ofFn fun i => message.getD i 0

/-- `sendMessage`: a message with the text, cut to the field. -/
def sendMessage (a : Alex) (message : List UInt8) : Alex :=
  a.sendResponse { a.localPacket with
    packetType := TPacketType.message.code
    data := strncpy message }

/-- The text that `loop()` sends when it stops the robot before an obstacle. -/
def autoStopped : List UInt8 := "auto stopped".toList.map fun c => UInt8.ofNat c.toNat

/-- `getUltrasonicDistance`, from the echo that `pulseIn` measures. -/
def getUltrasonicDistance (duration : UInt32) : Int16 :=
  toInt16 ((duration * speedOfSound).toNat / 20000 - distOffset)

/-- `sendDistance`: a response with the sensor's distance, and then an OK. -/
def sendDistance (a : Alex) (sensors : Sensors) : Alex :=
  let ultrasonicDist := getUltrasonicDistance sensors.echo
  let distancePacket := a.headed .response .dist
  let a := a.sendResponse (distancePacket.setParam 0 ultrasonicDist.toInt32.toUInt32)
  a.sendOK

/-- `distance_forward`: turn the servo so that the arm moves out, for as long as the distance takes. -/
def distanceForward (a : Alex) (dist : ℚ) : Alex :=
  { a with servo := a.servo ++ [⟨135, toUInt32 (dist / distpersec * 1000)⟩] }

/-- `distance_reverse`: turn the servo so that the arm moves back, for as long as the distance takes. -/
def distanceReverse (a : Alex) (dist : ℚ) : Alex :=
  { a with servo := a.servo ++ [⟨45, toUInt32 (dist / distpersec * 1000)⟩] }

/-- `average_freq`, of five readings; all its variables are 16 bits wide. -/
def averageFreq (pulses : Fin 5 → UInt32) : Int16 :=
  let total := (List.finRange 5).foldl (fun total i => total + (pulses i).toUInt16.toInt16) 0
  total / 5

/-- `findColor`: store the average of five pulses for each of the three colours. -/
def findColor (a : Alex) (sensors : Sensors) : Alex :=
  { a with
    redFreq := (averageFreq sensors.red).toInt32.toUInt32
    greenFreq := (averageFreq sensors.green).toInt32.toUInt32
    blueFreq := (averageFreq sensors.blue).toInt32.toUInt32 }

/-- The arm movement at the start of `sendColor`: out by the free gap, but by 7 cm at most. -/
def extendArm (a : Alex) (sensors : Sensors) : Alex :=
  let currentdist := (getUltrasonicDistance sensors.echo - shroudMouthToUltrasonic).toInt32.toUInt32
  if distancetoStop < currentdist then
    let a := { a with linearactuatordist := currentdist - distancetoStop }
    let a := if 7 < a.linearactuatordist then { a with linearactuatordist := 7 } else a
    a.distanceForward a.linearactuatordist.toNat
  else a

/-- `sendColor`: move the arm out, read the colour, move the arm back and send the three readings. -/
def sendColor (a : Alex) (sensors : Sensors) : Alex :=
  let a := (a.extendArm sensors).findColor sensors
  let colorPacket := a.headed .response .color
  let colorPacket := colorPacket.setParam 0 a.redFreq
  let colorPacket := colorPacket.setParam 1 a.greenFreq
  let colorPacket := colorPacket.setParam 2 a.blueFreq
  let a := a.sendResponse colorPacket
  let a := a.distanceReverse (a.linearactuatordist.toNat + 1 / 4)
  { a with linearactuatordist := 0 }

/-- The movement function that a command calls, by its direction. -/
def drive (d : TDirection) (dist speed : ℚ) (m : Motion) : Motion :=
  match d with
  | .forward => m.forward dist speed
  | .backward => m.backward dist speed
  | .left => m.left dist speed
  | .right => m.right dist speed

/-- The body shared by the three handlers; `go` is how a handler carries out a movement command. -/
def handleCommand (go : TDirection → Motion → Motion) (command : TPacket) (sensors : Sensors)
    (a : Alex) : Alex :=
  match TCommandType.ofCode? command.command with
  | some .forward => a.sendOK.onMotion (go .forward)
  | some .reverse => a.sendOK.onMotion (go .backward)
  | some .turnLeft => a.sendOK.onMotion (go .left)
  | some .turnRight => a.sendOK.onMotion (go .right)
  | some .stop => a.sendOK.onMotion Motion.stop
  | some .getStats => a.sendOK.sendStatus
  | some .clearStats => a.sendOK.onMotion Motion.clearCounters
  | some .color => (a.sendColor sensors).sendOK
  | some .dist => a.sendDistance sensors
  | none => a.sendBadCommand

/-- `handleCommandParam`: the packet's parameters are the distance and the speed. -/
def handleCommandParam (command : TPacket) : Sensors → Alex → Alex :=
  handleCommand (fun d => drive d (command.param 0).toNat (command.param 1).toNat) command

/-- `handleCommandKeyboard`: the packet's first parameter is the speed, and a movement has no distance. -/
def handleCommandKeyboard (command : TPacket) : Sensors → Alex → Alex :=
  handleCommand (fun d => drive d (-1) (command.param 0).toNat) command

/-- `handleCommandTime`: the packet's first parameter is the delay after which a movement ends. -/
def handleCommandTime (command : TPacket) : Sensors → Alex → Alex :=
  handleCommand (fun d m => ((drive d (-1) 100 m).delay (command.param 0).toNat).stop) command

/-- `handlePacket`: each of the three command types has its handler, and the other types have none. -/
def handlePacket (packet : TPacket) (sensors : Sensors) (a : Alex) : Alex :=
  match TPacketType.ofCode? packet.packetType with
  | some .commandParam => handleCommandParam packet sensors a
  | some .commandKeyboard => handleCommandKeyboard packet sensors a
  | some .commandTime => handleCommandTime packet sensors a
  | some .response => a
  | some .error => a
  | some .message => a
  | some .hello => a
  | none => a

/-- What one iteration of `loop()` meets: the echo of the collision check, the sensors while a command
is handled, the stack contents of `recvPacket`, and the bytes available. -/
structure Surroundings where
  guardEcho : UInt32
  sensors : Sensors
  recvPacket : ℕ → UInt8
  available : List UInt8

/-- The condition of the collision check: the guard is set, and the echo says that something is close. -/
def obstructed (m : Motion) (guardEcho : UInt32) : Bool :=
  m.preventCollision &&
    (decide (getUltrasonicDistance guardEcho < 15) && decide (10 < getUltrasonicDistance guardEcho))

/-- The collision check of `loop()`: before an obstacle, stop and send a message. -/
def collisionCheck (a : Alex) (guardEcho : UInt32) : Alex :=
  if obstructed a.toMotion guardEcho then (a.onMotion Motion.stop).sendMessage autoStopped else a

/-- What `loop()` does before it reads a packet: the collision check, the distance rule and the turn
rule. -/
def checks (a : Alex) (guardEcho : UInt32) : Alex :=
  ((a.collisionCheck guardEcho).onMotion Motion.distanceRule).onMotion Motion.turnRule

/-- What `loop()` does with the result of `readPacket`: handle the packet, or report the frame. -/
def respond (a : Alex) (result : TResult) (sensors : Sensors) : Alex :=
  match result with
  | .packetOk => handlePacket (TPacket.ofCells a.receiver.output) sensors a
  | .packetBad => a.sendBadPacket
  | .packetChecksumBad => a.sendBadChecksum
  | .packetIncomplete => a
  | .packetComplete => a

/-- `loop`: the checks, a read, and the response to what was read. -/
def loop (a : Alex) (s : Surroundings) : Alex :=
  let a := a.checks s.guardEcho
  let (result, receiver) := readPacket a.receiver s.recvPacket s.available
  { a with receiver := receiver }.respond result s.sensors

/-- The state after `setup()`: the globals are zero, the motors were constructed stopped, and the
rest of memory holds anything. -/
def setup (alexCirc : ℚ) (stack : Stack) (memory : Memory Obj UInt8) : Alex where
  toMotion :=
    Motion.clearCounters
      { dir := Tdir.stop.code
        preventCollision := false
        leftForwardTicks := 0
        rightForwardTicks := 0
        leftReverseTicks := 0
        rightReverseTicks := 0
        leftForwardTurns := 0
        rightForwardTurns := 0
        leftReverseTurns := 0
        rightReverseTurns := 0
        forwardDist := 0
        reverseDist := 0
        deltaDist := 0
        newDist := 0
        deltaTicks := 0
        targetTicks := 0
        alexCirc := alexCirc
        motors := ⟨⟨0, Tdir.stop.code⟩, ⟨0, Tdir.stop.code⟩, ⟨0, Tdir.stop.code⟩, ⟨0, Tdir.stop.code⟩⟩
        delayed := 0 }
  redFreq := 0
  greenFreq := 0
  blueFreq := 0
  linearactuatordist := 0
  servo := []
  receiver := Receiver.initial memory
  stack := stack
  sent := []
  written := []

/-- The state after `setup()` over zeroed memory, which closed examples start from. -/
def fresh : Alex :=
  setup 0 ⟨fun _ => .bare .commandKeyboard .stop, fun _ => zeroComms⟩ ⟨fun _ _ => 0, []⟩

/-- The operations that a run interleaves: pulses of the two encoders, packets, and iterations of
`loop()`. -/
inductive Op
  | leftPulse
  | rightPulse
  | packet (packet : TPacket) (sensors : Sensors)
  | loop (s : Surroundings)

/-- One whole operation: the interrupts do not fall inside an iteration of `loop()`. -/
def step (a : Alex) : Op → Alex
  | .leftPulse => a.onMotion Motion.leftISR
  | .rightPulse => a.onMotion Motion.rightISR
  | .packet packet sensors => handlePacket packet sensors a
  | .loop s => a.loop s

end Alex

end AlexRobot
