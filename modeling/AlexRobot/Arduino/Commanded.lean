import AlexRobot.Arduino.StopCondition

/-!
# What the robot was told to do

To its operator the robot rests or drives in one direction with one power, and every command
either replaces that or leaves it. The sketch does what it was last told to do, down to the
direction and the power of each motor, or it has stopped on its own: no other setting of the
motors is ever left behind.
-/

namespace AlexRobot

open TracedMemory

/-- What the wheels are told to do: to rest, or to drive in a direction with a power. -/
inductive Drive
  | resting
  | moving (d : TDirection) (speed : ℚ)

namespace Drive

/-- A command replaces what the wheels are told to do or leaves it; a timed movement ends with its
command. -/
def obey (drive : Drive) : Effect → Drive
  | .ignore => drive
  | .clear => drive
  | .halt => .resting
  | .timed _ _ => .resting
  | .start d _ speed => .moving d speed

/-- What the wheels are told to do after several packets, one after another. -/
def obeyAll (drive : Drive) (packets : List TPacket) : Drive :=
  packets.foldl (fun drive packet => drive.obey packet.effect) drive

/-- The value of `dir` that goes with what the wheels are told to do. -/
def dir : Drive → Fin 5
  | .resting => Tdir.stop.code
  | .moving d _ => d.code

/-- The settings of motors that were never given a speed or a command. -/
def released : Motors :=
  ⟨⟨0, Tdir.stop.code⟩, ⟨0, Tdir.stop.code⟩, ⟨0, Tdir.stop.code⟩, ⟨0, Tdir.stop.code⟩⟩

/-- The settings of the four motors that go with what the wheels are told to do. -/
def motors : Drive → Motors
  | .resting => released
  | .moving d speed => released.move speed d.code

/-- The direction and the settings of the motors are those of the given order. -/
structure Shows (c : Control) (drive : Drive) : Prop where
  dir : c.dir = drive.dir
  motors : c.motors = drive.motors

/-- The robot does what it was told to do, or it has stopped. -/
def Obeys (c : Control) (drive : Drive) : Prop := Shows c drive ∨ Shows c .resting

/-- Obeying two lists of packets after each other is obeying them as one. -/
theorem obeyAll_append (drive : Drive) (first second : List TPacket) :
    drive.obeyAll (first ++ second) = (drive.obeyAll first).obeyAll second := List.foldl_append

/-- What `move` sets does not depend on what the motors were set to before. -/
theorem move_congr (motors motors' : Motors) (speed : ℚ) (direction : Fin 5) :
    motors.move speed direction = motors'.move speed direction := by
  unfold Motors.move
  cases Tdir.ofCode direction with
  | stop => rfl
  | go => rfl
  | back => rfl
  | ccw => rfl
  | cw => rfl

/-- Moving at speed 0 in no direction releases the motors. -/
theorem move_stop (motors : Motors) : motors.move 0 Tdir.stop.code = released := by
  rw [Motors.move, zero_div, zero_mul, Conversion.toInt16_zero]
  rfl

/-- A halted robot shows the order to rest. -/
theorem shows_halted (c : Control) : Shows c.halted .resting where
  dir := rfl
  motors := move_stop c.motors

/-- A movement that starts shows the order to drive in its direction with its power. -/
theorem shows_started (c : Control) (d : TDirection) (delta : UInt32) (speed : ℚ) :
    Shows (c.started d delta speed) (.moving d speed) where
  dir := c.started_dir d delta speed
  motors := by
    have hmotors : (c.started d delta speed).motors = c.motors.move speed d.code := by
      cases d <;> rfl
    rw [hmotors]
    exact move_congr _ _ _ _

/-- Clearing the counters changes neither the direction nor the motors. -/
theorem Obeys.disarmed {c : Control} {drive : Drive} (h : Obeys c drive) : Obeys c.disarmed drive :=
  h.imp (fun hshows => ⟨hshows.dir, hshows.motors⟩) fun hrests => ⟨hrests.dir, hrests.motors⟩

/-- Carrying out the effect of a packet obeys the packet. -/
theorem Obeys.effect {m : Motion} {drive : Drive} (h : Obeys m.control drive) (effect : Effect) :
    Obeys (effect.apply m).control (drive.obey effect) := by
  cases effect with
  | ignore => exact h
  | halt => exact Or.inl (shows_halted m.control)
  | clear => exact h.disarmed
  | start d dist speed =>
    obtain ⟨delta, -, hstarted⟩ := Motion.drive_control d dist speed m
    rw [Effect.apply, hstarted]
    exact Or.inl (shows_started _ d delta speed)
  | timed d ms =>
    rw [timed_control]
    exact Or.inl (shows_halted m.control)

end Drive

namespace Alex

/-- The packet that an operation handles, as a list of at most one. -/
def handled (a : Alex) (op : Op) : List TPacket := ((a.handles op).map Prod.fst).toList

/-- One operation obeys the packet that it handles, and beyond that it can only stop the robot. -/
theorem obeys_step {a : Alex} {drive : Drive} (h : drive.Obeys a.control) (op : Op) :
    (drive.obeyAll (a.handled op)).Obeys (a.step op).control := by
  let holds (c : Control) : Prop := drive.Obeys c
  have hhalted (c : Control) : holds c.halted := Or.inr (Drive.shows_halted c)
  have hstart : holds a.control := h
  rcases step_preserves hhalted hstart op with ⟨hnone, hstep⟩ | ⟨packet, m, hsome, hobeys, hstep⟩
  · rw [handled, hnone]
    exact hstep
  · rw [handled, hsome, hstep]
    exact Drive.Obeys.effect hobeys packet.effect

/-- The packets that the operations of a run have handled, in order. -/
def handledIn (past : List (Alex × Op)) : List TPacket := past.flatMap fun (a, op) => a.handled op

/-- Every run obeys the packets that it handles, in their order. -/
theorem obeys_after {a : Alex} {drive : Drive} (h : drive.Obeys a.control) (ops : List Op) :
    (drive.obeyAll (handledIn (Run.trace step a ops))).Obeys (Run.after step a ops).control := by
  have hstart : (drive.obeyAll (handledIn [])).Obeys a.control := h
  refine Run.after_trace_invariant (fun a past => (drive.obeyAll (handledIn past)).Obeys a.control) ?_
    hstart ops
  intro a past op hobeys
  rw [handledIn, List.flatMap_append, List.flatMap_singleton, Drive.obeyAll_append]
  exact obeys_step hobeys op

end Alex

/-- A packet that starts no movement leaves a resting robot resting. -/
theorem obey_resting {packet : TPacket} (h : ∀ d, ¬ packet.Starts d) :
    Drive.resting.obey packet.effect = .resting := by
  cases heffect : packet.effect with
  | ignore => rfl
  | halt => rfl
  | clear => rfl
  | start d dist speed => exact absurd ((effect_eq_start_iff packet d).mp ⟨dist, speed, heffect⟩) (h d)
  | timed d ms => rfl

/-- Packets that start no movement leave a resting robot resting. -/
theorem obeyAll_resting {packets : List TPacket} (h : ∀ packet ∈ packets, ∀ d, ¬ packet.Starts d) :
    Drive.resting.obeyAll packets = .resting := by
  induction packets with
  | nil => rfl
  | cons packet rest ih =>
    change (Drive.resting.obey packet.effect).obeyAll rest = .resting
    rw [obey_resting (h packet List.mem_cons_self)]
    exact ih fun later hlater => h later (List.mem_cons_of_mem _ hlater)

/-- After every run the direction and the settings of all four motors are those of the last command
that was handled and concerns them, or those of a stopped robot; and only an untimed movement command
ever leaves a robot moving. -/
theorem obeys_last_command (alexCirc : ℚ) (stack : Stack) (memory : Memory Obj UInt8) (ops : List Alex.Op) :
    let a := Run.after Alex.step (Alex.setup alexCirc stack memory) ops
    let handled := Alex.handledIn (Run.trace Alex.step (Alex.setup alexCirc stack memory) ops)
    (Drive.resting.obeyAll handled).Obeys a.control ∧
      ((∀ packet ∈ handled, ∀ d, ¬ packet.Starts d) → Drive.Shows a.control .resting) := by
  intro a handled
  have hsetup : Drive.resting.Obeys (Alex.setup alexCirc stack memory).control := Or.inl ⟨rfl, rfl⟩
  have hobeys : (Drive.resting.obeyAll handled).Obeys a.control := Alex.obeys_after hsetup ops
  refine ⟨hobeys, fun hnone => ?_⟩
  rw [obeyAll_resting hnone] at hobeys
  exact hobeys.elim id id

end AlexRobot
