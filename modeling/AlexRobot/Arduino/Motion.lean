import AlexRobot.Common.Conversion

/-!
# What drives the Arduino's wheels

The globals that the movement functions, the encoder interrupts and the stop rules of
`loop()` share. `dir` is declared as a `TDirection` and also given values of `Tdir`; the two
enumerations agree on the numbers they share, so it is kept as the number stored. Floating
point is taken as exact arithmetic, `unsigned long` has 32 bits and `int` has 16.
-/

namespace AlexRobot

open Conversion

/-- `TDirection`, the first of the two enumerations of directions in `constants.h`. -/
inductive TDirection
  | forward
  | backward
  | left
  | right
  deriving DecidableEq, Repr

/-- The value of a `TDirection` in C; the enumeration starts at 1. -/
def TDirection.code : TDirection → Fin 5
  | .forward => 1
  | .backward => 2
  | .left => 3
  | .right => 4

/-- `Tdir`, the second of the two enumerations of directions in `constants.h`. -/
inductive Tdir
  | stop
  | go
  | back
  | ccw
  | cw
  deriving DecidableEq, Repr

/-- The value of a `Tdir` in C; the enumeration starts at 0. -/
def Tdir.code : Tdir → Fin 5
  | .stop => 0
  | .go => 1
  | .back => 2
  | .ccw => 3
  | .cw => 4

/-- The case that a `switch` over `Tdir` selects for a value. -/
def Tdir.ofCode : Fin 5 → Tdir
  | 0 => .stop
  | 1 => .go
  | 2 => .back
  | 3 => .ccw
  | 4 => .cw

/-- `COUNTS_PER_REV`: an encoder gives four pulses for a turn of its wheel. -/
def countsPerRev : ℚ := 4

/-- `WHEEL_CIRC`: the circumference of a wheel, in centimetres. -/
def wheelCirc : ℚ := 2073 / 100

/-- An `AF_DCMotor`: the last arguments of `setSpeed` and `run`. -/
structure AFDCMotor where
  speed : UInt8
  command : Fin 5
  deriving DecidableEq, Repr

/-- The four motors: front left, front right, back left and back right. -/
structure Motors where
  fl : AFDCMotor
  fr : AFDCMotor
  bl : AFDCMotor
  br : AFDCMotor
  deriving DecidableEq, Repr

/-- `setSpeed` on all four motors; the library's parameter is a byte. -/
def Motors.setSpeed (motors : Motors) (speed : Int16) : Motors where
  fl := { motors.fl with speed := speed.toUInt16.toUInt8 }
  fr := { motors.fr with speed := speed.toUInt16.toUInt8 }
  bl := { motors.bl with speed := speed.toUInt16.toUInt8 }
  br := { motors.br with speed := speed.toUInt16.toUInt8 }

/-- Give each of the four motors its own command, as four calls of `run` do. -/
def Motors.run (motors : Motors) (fl fr bl br : Fin 5) : Motors where
  fl := { motors.fl with command := fl }
  fr := { motors.fr with command := fr }
  bl := { motors.bl with command := bl }
  br := { motors.br with command := br }

/-- `move`: set the speed of all four motors, and give each its command for the direction. -/
def Motors.move (motors : Motors) (speed : ℚ) (direction : Fin 5) : Motors :=
  let speedScaled := toInt16 (speed / 100 * 255)
  let motors := motors.setSpeed speedScaled
  let forward := TDirection.forward.code
  let backward := TDirection.backward.code
  match Tdir.ofCode direction with
  | .back => motors.run backward backward forward forward
  | .go => motors.run forward forward backward backward
  | .ccw => motors.run backward forward forward backward
  | .cw => motors.run forward backward backward forward
  | .stop => motors.run Tdir.stop.code Tdir.stop.code Tdir.stop.code Tdir.stop.code

/-- The globals of the driving code, with the time spent in `delay`. -/
structure Motion where
  dir : Fin 5
  preventCollision : Bool
  leftForwardTicks : UInt32
  rightForwardTicks : UInt32
  leftReverseTicks : UInt32
  rightReverseTicks : UInt32
  leftForwardTurns : UInt32
  rightForwardTurns : UInt32
  leftReverseTurns : UInt32
  rightReverseTurns : UInt32
  forwardDist : UInt32
  reverseDist : UInt32
  deltaDist : UInt32
  newDist : UInt32
  deltaTicks : UInt32
  targetTicks : UInt32
  /-- The circumference that the robot turns on; only initialised. -/
  alexCirc : ℚ
  motors : Motors
  /-- The milliseconds spent in `delay` by the driving code. -/
  delayed : ℕ

namespace Motion

/-- `(unsigned long)((float)ticks / COUNTS_PER_REV * WHEEL_CIRC)`. -/
def tickDistance (ticks : UInt32) : UInt32 := toUInt32 (ticks.toNat / countsPerRev * wheelCirc)

/-- `leftISR`: count a tick of the left wheel, by the current direction. -/
def leftISR (m : Motion) : Motion :=
  if m.dir = TDirection.forward.code then
    { m with
      leftForwardTicks := m.leftForwardTicks + 1
      forwardDist := tickDistance (m.leftForwardTicks + 1) }
  else if m.dir = TDirection.backward.code then
    { m with
      leftReverseTicks := m.leftReverseTicks + 1
      reverseDist := tickDistance (m.leftReverseTicks + 1) }
  else if m.dir = TDirection.left.code then { m with leftReverseTurns := m.leftReverseTurns + 1 }
  else if m.dir = TDirection.right.code then { m with leftForwardTurns := m.leftForwardTurns + 1 }
  else m

/-- `rightISR`: count a tick of the right wheel, by the current direction. -/
def rightISR (m : Motion) : Motion :=
  if m.dir = TDirection.forward.code then { m with rightForwardTicks := m.rightForwardTicks + 1 }
  else if m.dir = TDirection.backward.code then { m with rightReverseTicks := m.rightReverseTicks + 1 }
  else if m.dir = TDirection.left.code then { m with rightForwardTurns := m.rightForwardTurns + 1 }
  else if m.dir = TDirection.right.code then { m with rightReverseTurns := m.rightReverseTurns + 1 }
  else m

/-- `clearCounters`: zero the counters and the distances, and what remains to be travelled. -/
def clearCounters (m : Motion) : Motion :=
  { m with
    leftForwardTicks := 0
    rightForwardTicks := 0
    leftReverseTicks := 0
    rightReverseTicks := 0
    leftForwardTurns := 0
    rightForwardTurns := 0
    leftReverseTurns := 0
    rightReverseTurns := 0
    forwardDist := 0
    reverseDist := 0
    deltaTicks := 0
    targetTicks := 0
    deltaDist := 0
    newDist := 0 }

/-- `move`, as a function on the globals: it changes the motors alone. -/
def move (m : Motion) (speed : ℚ) (direction : Fin 5) : Motion :=
  { m with motors := m.motors.move speed direction }

/-- `delay`: time passes, and nothing else happens in the driving code. -/
def delay (m : Motion) (ms : ℕ) : Motion := { m with delayed := m.delayed + ms }

/-- `forward`: drive on until the distance, or 9999999 cm without one, is travelled; set the guard. -/
def forward (m : Motion) (dist speed : ℚ) : Motion :=
  let deltaDist := if 0 < dist then toUInt32 dist else 9999999
  let m := { m with deltaDist := deltaDist, newDist := m.forwardDist + deltaDist }
  let m := { m with dir := TDirection.forward.code }
  let m := m.move speed TDirection.forward.code
  { m with preventCollision := true }

/-- `backward`: drive back until the distance, or 9999999 cm without one, is travelled. -/
def backward (m : Motion) (dist speed : ℚ) : Motion :=
  let deltaDist := if 0 < dist then toUInt32 dist else 9999999
  let m := { m with deltaDist := deltaDist, newDist := m.reverseDist + deltaDist }
  let m := { m with dir := TDirection.backward.code }
  m.move speed TDirection.backward.code

/-- `computeDeltaTicks`: the ticks that a turn by the angle takes, one at least. -/
def computeDeltaTicks (m : Motion) (ang : ℚ) : UInt32 :=
  let ticks := toUInt32 (ang * m.alexCirc * countsPerRev / (360 * wheelCirc))
  if ticks < 1 then 1 else ticks

/-- `ccw`: turn to the left; it ignores the distance. -/
def ccw (m : Motion) (_dist speed : ℚ) : Motion :=
  let m := { m with dir := Tdir.ccw.code }
  m.move speed Tdir.ccw.code

/-- `left`: turn to the left by the ticks of the angle, or by 99999999 for a negative one. -/
def left (m : Motion) (ang speed : ℚ) : Motion :=
  let deltaTicks := if ang < 0 then 99999999 else m.computeDeltaTicks ang
  let m := { m with deltaTicks := deltaTicks, targetTicks := m.leftReverseTurns + deltaTicks }
  m.ccw ang speed

/-- `cw`: turn to the right; it ignores the distance. -/
def cw (m : Motion) (_dist speed : ℚ) : Motion :=
  let m := { m with dir := Tdir.cw.code }
  m.move speed Tdir.cw.code

/-- `right`: turn to the right by the ticks of the angle, or by 99999999 for a negative one. -/
def right (m : Motion) (ang speed : ℚ) : Motion :=
  let deltaTicks := if ang < 0 then 99999999 else m.computeDeltaTicks ang
  let m := { m with deltaTicks := deltaTicks, targetTicks := m.rightReverseTurns + deltaTicks }
  m.cw ang speed

/-- `stop`: give up what remains to be travelled, set the speed of all motors to 0, and clear the guard. -/
def stop (m : Motion) : Motion :=
  let m := { m with dir := Tdir.stop.code, deltaDist := 0, deltaTicks := 0 }
  let m := m.move 0 Tdir.stop.code
  { m with preventCollision := false }

/-- The distance rule of `loop()`: stop where the distance that was asked for is travelled. -/
def distanceRule (m : Motion) : Motion :=
  if 0 < m.deltaDist then
    if m.dir = TDirection.forward.code then
      if m.newDist < m.forwardDist then { m with deltaDist := 0, newDist := 0 }.stop.delay 1000 else m
    else if m.dir = TDirection.backward.code then
      if m.newDist < m.reverseDist then { m with deltaDist := 0, newDist := 0 }.stop.delay 1000 else m
    else if m.dir = Tdir.stop.code then { m with deltaDist := 0, newDist := 0 }.stop.delay 1000
    else m
  else m

/-- The turn rule of `loop()`: stop where the ticks that the turn takes are counted. -/
def turnRule (m : Motion) : Motion :=
  if 0 < m.deltaTicks then
    if m.dir = TDirection.left.code then
      if m.targetTicks ≤ m.leftReverseTurns then
        { m with deltaTicks := 0, targetTicks := 0 }.stop.delay 1000
      else m
    else if m.dir = TDirection.right.code then
      if m.targetTicks ≤ m.rightReverseTurns then
        { m with deltaTicks := 0, targetTicks := 0 }.stop.delay 1000
      else m
    else if m.dir = Tdir.stop.code then { m with deltaTicks := 0, targetTicks := 0 }.stop.delay 1000
    else m
  else m

end Motion

end AlexRobot
