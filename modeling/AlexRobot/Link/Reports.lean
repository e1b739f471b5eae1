import AlexRobot.Arduino.Odometry
import AlexRobot.Arduino.Senders
import AlexRobot.Pi.Colour
import AlexRobot.Pi.Session

/-!
# What the operator is told

The Pi prints every response, error and message that it receives. What an operation of the sketch
has to report depends on the sensors, the counters and the command it handles; what the Pi makes of
the packets that the sketch sends for it is the same report, with every number in its place.
-/

namespace AlexRobot

/-- The lines of a status report, as `handleStatus` labels them. -/
structure StatusReport where
  leftForwardTicks : Int32
  rightForwardTicks : Int32
  leftReverseTicks : Int32
  rightReverseTicks : Int32
  leftForwardTicksTurns : Int32
  rightForwardTicksTurns : Int32
  leftReverseTicksTurns : Int32
  rightReverseTicksTurns : Int32
  forwardDistance : Int32
  reverseDistance : Int32
  deriving DecidableEq

/-- What the Pi prints for a packet of the Arduino, by the case that prints it. -/
inductive Report
  | commandOk
  | status (report : StatusReport)
  | colour (report : ColourReport)
  | distance (ultrasonic actual : Int32) (wallNearby : Bool)
  | confused
  | badMagicNumber
  | badChecksum
  | badCommand
  | unexpectedResponse
  | weirdError
  | message (text : List UInt8)

/-- `SHROUDTOULTRA`: the Pi takes 7 cm off the distance that it was sent. -/
def shroudToUltra : UInt32 := 7

/-- `DIST_THRESHOLD`: the Pi warns of distances below 25 cm. -/
def distThreshold : UInt32 := 25

/-- `handleStatus`; `%d` prints a word as an `int`. -/
def handleStatus (packet : TPacket) : Report := .status
  { leftForwardTicks := (packet.param 0).toInt32
    rightForwardTicks := (packet.param 1).toInt32
    leftReverseTicks := (packet.param 2).toInt32
    rightReverseTicks := (packet.param 3).toInt32
    leftForwardTicksTurns := (packet.param 4).toInt32
    rightForwardTicksTurns := (packet.param 5).toInt32
    leftReverseTicksTurns := (packet.param 6).toInt32
    rightReverseTicksTurns := (packet.param 7).toInt32
    forwardDistance := (packet.param 8).toInt32
    reverseDistance := (packet.param 9).toInt32 }

/-- `handleDistance` prints the distance, from the sensor and from the shroud, and whether it is close. -/
def handleDistance (packet : TPacket) : Report :=
  let distance := packet.param 0
  .distance distance.toInt32 (distance - shroudToUltra).toInt32 (decide (distance < distThreshold))

/-- What `handleResponse` prints for a response, by its command and the mode. -/
def printResponse (u : Ui) (packet : TPacket) : Report :=
  if packet.command = TResponseType.ok.code then .commandOk
  else if packet.command = TResponseType.status.code then handleStatus packet
  else if packet.command = TResponseType.color.code then .colour (handleColorReport u packet)
  else if packet.command = TResponseType.dist.code then handleDistance packet
  else .confused

/-- `handleErrorResponse` prints which error the Arduino has reported. -/
def handleErrorResponse (packet : TPacket) : Report :=
  if packet.command = TResponseType.badPacket.code then .badMagicNumber
  else if packet.command = TResponseType.badChecksum.code then .badChecksum
  else if packet.command = TResponseType.badCommand.code then .badCommand
  else if packet.command = TResponseType.badResponse.code then .unexpectedResponse
  else .weirdError

/-- `handleMessage`, for a text with a terminator in its field. -/
def handleMessage (packet : TPacket) : Report := .message (packet.data.toList.takeWhile (· ≠ 0))

/-- What `handlePacket` prints for a packet, if anything. -/
def printPacket (u : Ui) (packet : TPacket) : Option Report :=
  if packet.packetType = TPacketType.response.code then some (printResponse u packet)
  else if packet.packetType = TPacketType.error.code then some (handleErrorResponse packet)
  else if packet.packetType = TPacketType.message.code then some (handleMessage packet)
  else none

/-- What the encoders have counted, as a status report shows it. -/
def Odometer.statusReport (o : Odometer) : StatusReport where
  leftForwardTicks := (o.counter .left .forward).toInt32
  rightForwardTicks := (o.counter .right .forward).toInt32
  leftReverseTicks := (o.counter .left .backward).toInt32
  rightReverseTicks := (o.counter .right .backward).toInt32
  leftForwardTicksTurns := (o.counter .left .right).toInt32
  rightForwardTicksTurns := (o.counter .right .left).toInt32
  leftReverseTicksTurns := (o.counter .left .left).toInt32
  rightReverseTicksTurns := (o.counter .right .right).toInt32
  forwardDistance := o.forwardDist.toInt32
  reverseDistance := o.reverseDist.toInt32

/-- A colour that the sensor has measured, as the report shows it. -/
def Sensors.colourReport (sensors : Sensors) : ColourReport :=
  let red := (Alex.averageFreq sensors.red).toInt32.toUInt32
  let green := (Alex.averageFreq sensors.green).toInt32.toUInt32
  let blue := (Alex.averageFreq sensors.blue).toInt32.toUInt32
  printColour red green blue (getPercentDiff red green) (getPercentDiff red blue) (getPercentDiff blue green)

/-- A distance that the sensor has measured, as the report shows it: a wall is near if it is below 25
cm, and not negative. -/
def Sensors.distanceReport (sensors : Sensors) : Report :=
  let distance := Alex.getUltrasonicDistance sensors.echo
  .distance distance.toInt32 (distance.toInt32 - 7) (decide (0 ≤ distance ∧ distance < 25))

namespace Alex

/-- What the Arduino has to report for a packet that it handles. -/
def packetReports (o : Odometer) (sensors : Sensors) (packet : TPacket) : List Report :=
  if packet.IsCommand then
    match TCommandType.ofCode? packet.command with
    | some .forward | some .reverse | some .turnLeft | some .turnRight | some .stop
    | some .clearStats => [.commandOk]
    | some .getStats => [.commandOk, .status o.statusReport]
    | some .color => [.colour sensors.colourReport, .commandOk]
    | some .dist => [sensors.distanceReport, .commandOk]
    | none => [.badCommand]
  else []

/-- What an operation has to report; a status report shows the counters as they were before. -/
def reports (a : Alex) : Op → List Report
  | .leftPulse => []
  | .rightPulse => []
  | .packet packet sensors => packetReports a.odometer sensors packet
  | .loop s =>
    (if obstructed a.toMotion s.guardEcho then [.message autoStopped] else []) ++
      let (result, receiver) := readPacket a.receiver s.recvPacket s.available
      match result with
      | .packetOk => packetReports a.odometer s.sensors (TPacket.ofCells receiver.output)
      | .packetBad => [.badMagicNumber]
      | .packetChecksumBad => [.badChecksum]
      | .packetIncomplete => []
      | .packetComplete => []

end Alex

/-- From one state to another packets were sent that the Pi prints as these reports, whatever its mode. -/
def Reporting (reports : List Report) (a b : Alex) : Prop :=
  ∃ packets, b.sent = a.sent ++ packets ∧ ∀ u : Ui, packets.filterMap (printPacket u) = reports

section Reporting

variable {first second : List Report} {a b c : Alex}

/-- From one state to another that has sent the same, nothing was reported. -/
theorem Reporting.of_same (h : b.sent = a.sent) : Reporting [] a b :=
  ⟨[], h.trans (List.append_nil _).symm, fun _ => rfl⟩

/-- What is reported in two parts is what the first reports, and then what the second does. -/
theorem Reporting.trans (hab : Reporting first a b) (hbc : Reporting second b c) :
    Reporting (first ++ second) a c := by
  obtain ⟨packets, hsent, hfirst⟩ := hab
  obtain ⟨later, hsent', hsecond⟩ := hbc
  refine ⟨packets ++ later, ?_, fun u => ?_⟩
  · rw [hsent', hsent, List.append_assoc]
  · rw [List.filterMap_append, hfirst u, hsecond u]

/-- Running a function of the driving code reports nothing. -/
theorem Reporting.onMotion (h : Reporting first a b) (f : Motion → Motion) : Reporting first a (b.onMotion f) :=
  h

/-- `sendResponse` reports what the Pi prints for its packet. -/
theorem reporting_sendResponse {packet : TPacket} {report : Report}
    (h : ∀ u : Ui, printPacket u packet = some report) : Reporting [report] a (a.sendResponse packet) := by
  refine ⟨[packet], rfl, fun u => ?_⟩
  rw [List.filterMap_cons_some (h u), List.filterMap_nil]

end Reporting

namespace Alex

variable (a : Alex)

/-- `sendOK` reports that the command is done. -/
theorem reporting_sendOK : Reporting [.commandOk] a a.sendOK := reporting_sendResponse fun _ => rfl

/-- `sendStatus` reports what the encoders have counted. -/
theorem reporting_sendStatus : Reporting [.status a.odometer.statusReport] a a.sendStatus := by
  apply reporting_sendResponse
  intro u
  change some (handleStatus _) = _
  unfold handleStatus Odometer.statusReport
  simp (disch := decide) only [TPacket.param_setParam, if_pos, if_neg]
  rfl

/-- A distance in 16 bits is nearer than 25 cm, as a word, exactly if it is and is not negative. -/
theorem toUInt32_lt_distThreshold (distance : Int16) :
    distance.toInt32.toUInt32 < distThreshold ↔ 0 ≤ distance ∧ distance < 25 := by
  have hword : distance.toInt32.toInt = if 2 * distance.toInt32.toUInt32.toNat < 2 ^ 32 then
      (distance.toInt32.toUInt32.toNat : ℤ) else distance.toInt32.toUInt32.toNat - 2 ^ 32 :=
    BitVec.toInt_eq_toNat_cond _
  have hextended : distance.toInt32.toInt = distance.toInt := Int16.toInt_toInt32 distance
  have hmax : distance.toInt < 2 ^ 15 := distance.toInt_lt
  have hwide : distance.toInt32.toUInt32.toNat < 2 ^ 32 := UInt32.toNat_lt _
  have hthreshold : distThreshold.toNat = 25 := rfl
  have hlimit : (25 : Int16).toInt = 25 := rfl
  rw [UInt32.lt_iff_toNat_lt, Int16.le_iff_toInt_le, Int16.lt_iff_toInt_lt, hthreshold, hlimit,
    Int16.toInt_zero]
  split at hword <;> omega

/-- `sendDistance` reports the distance, and that the command is done. -/
theorem reporting_sendDistance (sensors : Sensors) :
    Reporting [sensors.distanceReport, .commandOk] a (a.sendDistance sensors) := by
  have hdist : Reporting [sensors.distanceReport] a (a.sendResponse ((a.headed .response .dist).setParam 0
      (getUltrasonicDistance sensors.echo).toInt32.toUInt32)) := by
    apply reporting_sendResponse
    intro u
    change some (handleDistance _) = _
    unfold handleDistance Sensors.distanceReport
    rw [TPacket.param_setParam _ (Nat.zero_lt_succ 15), if_pos rfl]
    generalize getUltrasonicDistance sensors.echo = distance
    simp only [toUInt32_lt_distThreshold]
    rfl
  exact hdist.trans (reporting_sendOK _)

/-- `sendColor` reports the colour that was read. -/
theorem reporting_sendColor (sensors : Sensors) :
    Reporting [.colour sensors.colourReport] a (a.sendColor sensors) := by
  obtain ⟨dist, servo, harm⟩ := a.extendArm_eq sensors
  rw [sendColor, harm]
  refine ⟨[_], rfl, fun u => ?_⟩
  have hprints (u : Ui) (packet : TPacket) (htype : packet.packetType = TPacketType.response.code)
      (hcommand : packet.command = TResponseType.color.code) :
      printPacket u packet = some (.colour (handleColorReport u packet)) := by
    rw [printPacket, htype, printResponse, hcommand]
    rfl
  rw [List.filterMap_cons_some (hprints u _ rfl rfl), List.filterMap_nil, handleColorReport]
  simp (disch := decide) only [TPacket.param_setParam, if_pos, if_neg]
  exact congrArg (fun report => [Report.colour report]) (ite_self _)

/-- A command handler reports what its command has to report. -/
theorem reporting_handleCommand (go : TDirection → Motion → Motion) {packet : TPacket} (h : packet.IsCommand)
    (sensors : Sensors) :
    Reporting (packetReports a.odometer sensors packet) a (handleCommand go packet sensors a) := by
  unfold handleCommand packetReports
  rw [if_pos h]
  cases TCommandType.ofCode? packet.command with
  | none => exact reporting_sendResponse fun _ => rfl
  | some c =>
    cases c with
    | forward => exact a.reporting_sendOK.onMotion _
    | reverse => exact a.reporting_sendOK.onMotion _
    | turnLeft => exact a.reporting_sendOK.onMotion _
    | turnRight => exact a.reporting_sendOK.onMotion _
    | stop => exact a.reporting_sendOK.onMotion _
    | getStats => exact a.reporting_sendOK.trans a.sendOK.reporting_sendStatus
    | clearStats => exact a.reporting_sendOK.onMotion _
    | color => exact (a.reporting_sendColor sensors).trans (a.sendColor sensors).reporting_sendOK
    | dist => exact a.reporting_sendDistance sensors

/-- Handling a packet reports what the packet has the Arduino report. -/
theorem reporting_handlePacket (packet : TPacket) (sensors : Sensors) :
    Reporting (packetReports a.odometer sensors packet) a (handlePacket packet sensors a) := by
  have hnothing (h : ¬ packet.IsCommand) : Reporting (packetReports a.odometer sensors packet) a a := by
    rw [packetReports, if_neg h]
    exact .of_same rfl
  unfold handlePacket
  cases htype : TPacketType.ofCode? packet.packetType with
  | none =>
    apply hnothing
    unfold TPacket.IsCommand
    simp only [← TPacketType.ofCode?_eq_some_iff, htype]
    decide
  | some t =>
    have hcode : packet.packetType = t.code := (TPacketType.ofCode?_eq_some_iff _ _).mp htype
    cases t with
    | commandParam => exact a.reporting_handleCommand _ (Or.inl hcode) sensors
    | commandKeyboard => exact a.reporting_handleCommand _ (Or.inr (Or.inl hcode)) sensors
    | commandTime => exact a.reporting_handleCommand _ (Or.inr (Or.inr hcode)) sensors
    | response => exact hnothing (by rw [TPacket.IsCommand, hcode]; decide)
    | error => exact hnothing (by rw [TPacket.IsCommand, hcode]; decide)
    | message => exact hnothing (by rw [TPacket.IsCommand, hcode]; decide)
    | hello => exact hnothing (by rw [TPacket.IsCommand, hcode]; decide)

/-- The checks of `loop()` report an automatic stop, if there is one. -/
theorem reporting_checks (guardEcho : UInt32) :
    Reporting (if obstructed a.toMotion guardEcho then [.message autoStopped] else []) a
      (a.checks guardEcho) := by
  have hguard : Reporting (if obstructed a.toMotion guardEcho then [.message autoStopped] else []) a
      (a.collisionCheck guardEcho) := by
    unfold collisionCheck
    split
    · exact reporting_sendResponse fun _ => rfl
    · exact .of_same rfl
  exact (hguard.onMotion _).onMotion _

/-- What an operation has to report is what the Pi prints for the packets that it sends, in order. -/
theorem reporting_step (op : Op) : Reporting (a.reports op) a (a.step op) := by
  cases op with
  | leftPulse => exact .of_same rfl
  | rightPulse => exact .of_same rfl
  | packet packet sensors => exact a.reporting_handlePacket packet sensors
  | loop s =>
    have hodometer : (a.checks s.guardEcho).odometer = a.odometer := by
      rw [checks_toMotion, checked_odometer]
    rw [step, loop_eq, reports]
    generalize readPacket a.receiver s.recvPacket s.available = outcome
    obtain ⟨result, receiver⟩ := outcome
    have hread : Reporting [] (a.checks s.guardEcho) { a.checks s.guardEcho with receiver := receiver } :=
      .of_same rfl
    refine (a.reporting_checks s.guardEcho).trans ?_
    dsimp only
    cases result with
    | packetOk =>
      rw [← hodometer]
      exact hread.trans (reporting_handlePacket _ _ _)
    | packetBad => exact hread.trans (reporting_sendResponse fun _ => rfl)
    | packetChecksumBad => exact hread.trans (reporting_sendResponse fun _ => rfl)
    | packetIncomplete => exact hread
    | packetComplete => exact hread

end Alex

/-- What the operations of a run have to report, in their order. -/
def reportsIn (past : List (Alex × Alex.Op)) : List Report := past.flatMap fun (a, op) => a.reports op

/-- The status report of a history: the pulses of each wheel since the counters were last cleared, while the
motors ran in the pattern of each movement, and the distances of the left wheel. -/
def tally (past : List (Alex × Alex.Op)) : StatusReport :=
  let count (wheel : Wheel) (pattern : Tdir) : UInt32 := .ofNat (pulses past wheel pattern)
  { leftForwardTicks := (count .left .go).toInt32
    rightForwardTicks := (count .right .go).toInt32
    leftReverseTicks := (count .left .back).toInt32
    rightReverseTicks := (count .right .back).toInt32
    leftForwardTicksTurns := (count .left .cw).toInt32
    rightForwardTicksTurns := (count .right .ccw).toInt32
    leftReverseTicksTurns := (count .left .ccw).toInt32
    rightReverseTicksTurns := (count .right .cw).toInt32
    forwardDistance := (Motion.tickDistance (count .left .go)).toInt32
    reverseDistance := (Motion.tickDistance (count .left .back)).toInt32 }

/-- An odometer in agreement with a history shows its status report. -/
theorem Tallied.statusReport {o : Odometer} {past : List (Alex × Alex.Op)} (h : Tallied o past) :
    o.statusReport = tally past := by
  unfold Odometer.statusReport tally
  simp only [h.forwardDist, h.reverseDist, h.counter]
  rfl

/-- A status report that an operation has to make shows the counters as they were before. -/
theorem status_mem_reports {a : Alex} {op : Alex.Op} {report : StatusReport}
    (h : .status report ∈ a.reports op) : report = a.odometer.statusReport := by
  have hpacket (sensors : Sensors) (packet : TPacket)
      (h : .status report ∈ Alex.packetReports a.odometer sensors packet) :
        report = a.odometer.statusReport := by
    unfold Alex.packetReports at h
    split at h
    · split at h
      case h_7 => simpa using h
      all_goals simp [Sensors.distanceReport] at h
    · exact absurd h List.not_mem_nil
  cases op with
  | leftPulse => exact absurd h List.not_mem_nil
  | rightPulse => exact absurd h List.not_mem_nil
  | packet packet sensors => exact hpacket sensors packet h
  | loop s =>
    rcases List.mem_append.mp h with hguard | hread
    · split at hguard
      · cases List.mem_singleton.mp hguard
      · exact absurd hguard List.not_mem_nil
    · generalize readPacket a.receiver s.recvPacket s.available = outcome at hread
      obtain ⟨result, receiver⟩ := outcome
      cases result with
      | packetOk => exact hpacket _ _ hread
      | packetBad => cases List.mem_singleton.mp hread
      | packetChecksumBad => cases List.mem_singleton.mp hread
      | packetIncomplete => exact absurd hread List.not_mem_nil
      | packetComplete => exact absurd hread List.not_mem_nil

/-- The packets that were sent are printed as what was to be reported, and every status report was true
when it was made. -/
structure Truthful (a : Alex) (past : List (Alex × Alex.Op)) : Prop where
  patterned : Patterned a.control
  tallied : Tallied a.odometer past
  printed : ∀ u : Ui, a.sent.filterMap (printPacket u) = reportsIn past
  status : ∀ report, .status report ∈ reportsIn past → ∃ earlier, earlier <+: past ∧ report = tally earlier

/-- One operation keeps the reports truthful to the history. -/
theorem step_truthful (a : Alex) (past : List (Alex × Alex.Op)) (op : Alex.Op) (h : Truthful a past) :
    Truthful (a.step op) (past ++ [(a, op)]) := by
  obtain ⟨hpattern, htallied⟩ := step_tallied a past op ⟨h.patterned, h.tallied⟩
  have hreports : reportsIn (past ++ [(a, op)]) = reportsIn past ++ a.reports op := by
    rw [reportsIn, List.flatMap_append, List.flatMap_singleton]
    rfl
  refine ⟨hpattern, htallied, fun u => ?_, fun report hreport => ?_⟩
  · obtain ⟨packets, hsent, hprinted⟩ := a.reporting_step op
    rw [hsent, List.filterMap_append, h.printed u, hprinted u, hreports]
  · rw [hreports] at hreport
    rcases List.mem_append.mp hreport with hearlier | hnow
    · obtain ⟨earlier, hprefix, htally⟩ := h.status report hearlier
      exact ⟨earlier, hprefix.trans (List.prefix_append _ _), htally⟩
    · exact ⟨past, List.prefix_append _ _, (status_mem_reports hnow).trans h.tallied.statusReport⟩

/-- After every run the reports are truthful to its history. -/
theorem truthful_after (alexCirc : ℚ) (stack : Stack) (memory : TracedMemory.Memory Obj UInt8)
    (ops : List Alex.Op) : Truthful (Run.after Alex.step (Alex.setup alexCirc stack memory) ops)
      (Run.trace Alex.step (Alex.setup alexCirc stack memory) ops) := by
  have hzero : (Alex.setup alexCirc stack memory).odometer = .zero := Motion.clearCounters_odometer _
  have hsetup : Truthful (Alex.setup alexCirc stack memory) [] := by
    refine ⟨rfl, ?_, fun _ => rfl, fun report hreport => absurd hreport List.not_mem_nil⟩
    rw [hzero]
    exact tallied_zero fun _ _ => rfl
  exact Run.after_trace_invariant Truthful step_truthful hsetup ops

end AlexRobot
