import AlexRobot.Link.Operator
import AlexRobot.Link.Reports
import AlexRobot.Link.System

/-!
# The operator's program and the robot

The Pi's program joins the Arduino's through the two lines. Every command is handled once, in the
order of the keys, and answered once; and the robot never does anything that the operator has not
asked for. Nobody waits for anybody: the program sends on without an answer, so the robot may be
behind by as much as the line holds, and what it is behind by is exactly that.
-/

namespace AlexRobot

open TracedMemory

/-- Every history of the session keeps its speed and its delay within the limits. -/
theorem after_withinLimits (keyName : Int32 → Char) {s : Session} (h : WithinLimits s.ui.speed s.ui.delayTime)
    (history : List Session.Input) :
    WithinLimits (Run.after (Session.step keyName) s history).ui.speed
      (Run.after (Session.step keyName) s history).ui.delayTime :=
  Run.after_invariant (step_withinLimits keyName) h history

/-- The program starts with a speed and a delay within the limits. -/
theorem default_withinLimits : WithinLimits defaultSpeed defaultDelay :=
  ⟨by decide, by decide, by decide, by decide⟩

/-- The operator's program with its receive thread; its speed and its delay are within the limits. -/
structure PiProgram where
  session : Session
  thread : ReceiveThread
  limits : WithinLimits session.ui.speed session.ui.delayTime

namespace PiProgram

/-- What the operator's program meets, except for the packets that its own thread gives it. -/
def Operated : Type := { input : Session.Input // ∀ packet, input ≠ .received packet }

variable (keyName : Int32 → Char)

/-- The main thread takes a key, an event or a result of `getch`. -/
def operate (p : PiProgram) (input : Operated) : PiProgram where
  session := p.session.step keyName input.val
  thread := p.thread
  limits := step_withinLimits keyName p.session input.val p.limits

/-- The packets that a round of the thread passes to `handlePacket`. -/
def accepts (p : PiProgram) (read : Read) : List TPacket :=
  (p.thread.iterate read).handled.drop p.thread.handled.length

/-- One round of `receiveThread`, with the packets that it passes to `handlePacket`. -/
def round (p : PiProgram) (read : Read) : PiProgram where
  session := Run.after (Session.step keyName) p.session ((p.accepts read).map .received)
  thread := p.thread.iterate read
  limits := after_withinLimits keyName p.limits _

/-- The program as `main()` has started the thread and sent the hello packet. -/
def initial (residue : TPacket) (cells : Obj → ℕ → UInt8) : PiProgram where
  session := Session.initial residue
  thread := .start cells
  limits := default_withinLimits

/-- Packets from the Arduino concern the screen and the handshake flag. -/
theorem after_received_core (s : Session) (packets : List TPacket) :
    (Run.after (Session.step keyName) s (packets.map .received)).ui.core = s.ui.core := by
  induction packets generalizing s with
  | nil => rfl
  | cons packet rest ih =>
    rw [List.map_cons, Run.after_cons, ih]
    exact s.ui.handlePacket_core packet

/-- Packets from the Arduino do not enter or leave the control function of key-hold mode. -/
theorem after_received_inside (s : Session) (packets : List TPacket) :
    (Run.after (Session.step keyName) s (packets.map .received)).inside = s.inside := by
  induction packets generalizing s with
  | nil => rfl
  | cons packet rest ih =>
    rw [List.map_cons, Run.after_cons, ih]
    rfl

/-- A round of `receiveThread` sends nothing to the Arduino. -/
theorem round_sent (p : PiProgram) (read : Read) :
    (p.round keyName read).session.ui.sent = p.session.ui.sent := by
  have hcore := after_received_core keyName p.session (p.accepts read)
  obtain ⟨-, -, -, -, hsent⟩ := (Ui.core_eq_iff _ _).mp hcore
  exact hsent

/-- Whatever mode waits for its next key, the thread leaves it waiting. -/
theorem round_waiting (p : PiProgram) (read : Read) {mode : KeyboardMode} (h : p.session.Waiting mode) :
    (p.round keyName read).session.Waiting mode := by
  have hcore := after_received_core keyName p.session (p.accepts read)
  obtain ⟨hexit, -, -, hmode, -⟩ := (Ui.core_eq_iff _ _).mp hcore
  exact ⟨(after_received_inside keyName p.session _).trans h.1, hexit.trans h.2.1, hmode.trans h.2.2⟩

/-- The operator's program as the controller of the robot. -/
def host : Host PiProgram Operated Unit where
  step := operate keyName
  round p read _ := p.round keyName read
  thread := thread
  sent p := p.session.ui.sent
  step_thread _ _ := rfl
  step_sent p input := by
    obtain ⟨packets, hsent, -⟩ := Session.step_sends p.limits input.val
    exact ⟨packets, hsent.symm⟩
  round_thread _ _ _ := rfl
  round_sent p read _ := p.round_sent keyName read

/-- What the operator's inputs ask of the wheels. -/
def asks : System.Asks (host keyName) where
  asked p input := p.session.asked keyName input.val
  step_asked p input := by
    obtain ⟨packets, hsent, hone, -, hasked⟩ := Session.step_sends p.limits input.val
    exact ⟨packets, hsent, hone, hasked⟩

end PiProgram

/-- The answer to a command: OK if the Arduino knows it. -/
def TPacket.answer (packet : TPacket) : UInt8 × UInt8 :=
  if (TCommandType.ofCode? packet.command).isSome then ack .response .ok else ack .error .badCommand

/-- Every packet of a command type is acknowledged with its answer. -/
theorem ackFor_of_isCommand {packet : TPacket} (h : packet.IsCommand) : packet.ackFor = some packet.answer := by
  unfold TPacket.ackFor TPacket.answer
  rcases h with h | h | h
  · rw [h]
    exact (apply_ite some _ _ _).symm
  · rw [h]
    exact (apply_ite some _ _ _).symm
  · rw [h]
    exact (apply_ite some _ _ _).symm

/-- An acknowledgement is OK, or says that the command is unknown. -/
theorem ackFor_cases {packet : TPacket} {report : UInt8 × UInt8} (h : packet.ackFor = some report) :
    report = ack .response .ok ∨ report = ack .error .badCommand := by
  unfold TPacket.ackFor at h
  split at h
  case h_4 => cases h
  all_goals
    split at h
    · exact Or.inl (Option.some.inj h).symm
    · exact Or.inr (Option.some.inj h).symm

/-- The packets of a mode's commands are of a command type. -/
theorem isCommand_of_commandType {u : Ui} {packet : TPacket} (h : packet.packetType = u.commandType.code) :
    packet.IsCommand := by
  unfold Ui.commandType at h
  cases hmode : u.keyboardMode with
  | params =>
    rw [hmode] at h
    exact Or.inl h
  | keyHold =>
    rw [hmode] at h
    exact Or.inr (Or.inl h)
  | keyPress =>
    rw [hmode] at h
    exact Or.inr (Or.inl h)
  | smallAdjustment =>
    rw [hmode] at h
    exact Or.inr (Or.inr h)

/-- The hello packet leaves the wheels to do what they do. -/
theorem obey_hello {hello : TPacket} (h : hello.packetType = TPacketType.hello.code) (drive : Drive) :
    drive.obey hello.effect = drive := by
  rw [TPacket.effect, h]
  rfl

/-- `HelloThen commands sent`: the packets sent are a hello packet and then the given commands. -/
def HelloThen (commands sent : List TPacket) : Prop :=
  (∃ hello : TPacket, sent = hello :: commands ∧ hello.packetType = TPacketType.hello.code) ∧
    ∀ command ∈ commands, command.IsCommand

/-- Of a hello packet and commands exactly the commands are answered. -/
theorem HelloThen.filterMap_ackFor {commands sent : List TPacket} (h : HelloThen commands sent) :
    sent.filterMap TPacket.ackFor = commands.map TPacket.answer := by
  obtain ⟨⟨hello, rfl, hhello⟩, hcommands⟩ := h
  have hnone : hello.ackFor = none := by
    rw [TPacket.ackFor, hhello]
    rfl
  rw [List.filterMap_cons_none hnone, ← List.filterMap_eq_map]
  apply List.filterMap_congr
  intro command hcommand
  exact ackFor_of_isCommand (hcommands command hcommand)

/-- What the two programs find as they start: the names of the keys, what the frames meet on the wires,
what the Pi's stack holds for the hello packet, the memory of its thread, and what the Arduino finds. -/
structure PiSetting where
  keyName : Int32 → Char
  wires : Wires
  residue : TPacket
  cells : Obj → ℕ → UInt8
  alexCirc : ℚ
  stack : Stack
  memory : Memory Obj UInt8

namespace PiSetting

/-- What happens to the Pi's program and the robot, in any order. -/
abbrev Event : Type := System.Event PiProgram.Operated Unit

variable (e : PiSetting)

/-- One event of the Pi's program and the robot. -/
def step : System PiProgram → Event → System PiProgram := System.step (PiProgram.host e.keyName) e.wires

/-- The Pi's program and the robot as they start. -/
def start : System PiProgram :=
  System.start (PiProgram.host e.keyName) e.wires (PiProgram.initial e.residue e.cells) e.alexCirc
    e.stack e.memory

/-- The Pi's program and the robot after some events. -/
def after (events : List Event) : System PiProgram := Run.after e.step e.start events

/-- A run over two lists of events is one over the first, and one over the second from there. -/
theorem after_append (first second : List Event) :
    e.after (first ++ second) = Run.after e.step (e.after first) second := Run.after_append e.start first second

/-- The packets that the Pi has sent, the hello packet included. -/
def sent (s : System PiProgram) : List TPacket := s.host.session.ui.sent

/-- The acknowledgements that the Pi has heard, in order. -/
def heardAnswers (s : System PiProgram) : List (UInt8 × UInt8) := s.answers (PiProgram.host e.keyName)

/-- What the operator's inputs in a run ask of the wheels. -/
def asks : System.Asks (PiProgram.host e.keyName) := PiProgram.asks e.keyName

/-- Over a lossless wire the Arduino is linked to the line to it after every run whose reads fit. -/
theorem linkedDown (hlossless : e.wires.down.Lossless) {events : List Event}
    (hfits : ∀ event ∈ events, event.Fits) :
    (e.after events).LinkedDown (PiProgram.host e.keyName) e.wires :=
  System.linkedDown_run (System.linkedDown_start _ e.alexCirc e.stack e.memory) hlossless hfits

/-- Over a lossless wire the Pi is linked to the line from the Arduino after every run whose reads fit. -/
theorem linkedUp (hlossless : e.wires.up.Lossless) {events : List Event}
    (hfits : ∀ event ∈ events, event.Fits) : (e.after events).LinkedUp (PiProgram.host e.keyName) e.wires :=
  System.linkedUp_run (System.linkedUp_start rfl e.alexCirc e.stack e.memory) hlossless hfits

/-- Every event sends only commands, or nothing. -/
theorem step_sent (s : System PiProgram) (event : Event) :
    ∃ packets, sent (e.step s event) = sent s ++ packets ∧ ∀ packet ∈ packets, packet.IsCommand := by
  have hnone : ∀ packet ∈ ([] : List TPacket), packet.IsCommand := fun _ hpacket =>
    absurd hpacket List.not_mem_nil
  cases event with
  | host input =>
    obtain ⟨packets, hsent, -, htype, -⟩ := Session.step_sends s.host.limits input.val
    exact ⟨packets, hsent, fun packet hpacket => isCommand_of_commandType (htype packet hpacket)⟩
  | leftPulse => exact ⟨[], (List.append_nil _).symm, hnone⟩
  | rightPulse => exact ⟨[], (List.append_nil _).symm, hnone⟩
  | loop guardEcho sensors recvPacket count => exact ⟨[], (List.append_nil _).symm, hnone⟩
  | round count env =>
    exact ⟨[], (s.host.round_sent e.keyName (s.read count)).trans (List.append_nil _).symm, hnone⟩

/-- After every run the Pi has sent a hello packet, and then only commands. -/
theorem helloThen (events : List Event) : ∃ commands, HelloThen commands (sent (e.after events)) := by
  refine Run.after_of_along (fun s => ∃ commands, HelloThen commands (sent s)) ?_ ?_
    ((Run.along_iff_forall e.start events).mpr fun _ _ => trivial)
  · rintro s event ⟨commands, ⟨hello, hsent, hhello⟩, hcommands⟩ -
    obtain ⟨packets, hmore, hpackets⟩ := e.step_sent s event
    refine ⟨commands ++ packets, ⟨hello, ?_, hhello⟩, ?_⟩
    · rw [hmore, hsent, List.cons_append]
    · exact List.forall_mem_append.mpr ⟨hcommands, hpackets⟩
  · exact ⟨[], ⟨_, rfl, rfl⟩, fun command hcommand => absurd hcommand List.not_mem_nil⟩

/-- A setting with quiet wires in which all memory is zero, and every key is called W. -/
def zero : PiSetting where
  keyName _ := 'W'
  wires := .quiet fun _ => zeroComms
  residue := .bare .commandKeyboard .stop
  cells _ _ := 0
  alexCirc := 0
  stack := ⟨fun _ => .bare .commandKeyboard .stop, fun _ => zeroComms⟩
  memory := ⟨fun _ _ => 0, []⟩

/-- Over clean wires, in every run whose reads fit a frame, the Arduino handles the packets that the Pi
has sent, in order, none twice and none left out, and so does the Pi with what the Arduino has sent,
which are the bytes that the Arduino has written; neither ever reports a damaged frame. What is missing
is on the lines. -/
theorem in_order (hdown : e.wires.down.Clean) (hup : e.wires.up.Clean) (events : List Event)
    (hfits : ∀ event ∈ events, event.Fits) :
    let s := e.after events
    (s.handled <+: sent s ∧ (s.down.transit = [] → s.handled = sent s)) ∧
      (s.host.thread.handled <+: s.alex.sent ∧ (s.up.transit = [] → s.host.thread.handled = s.alex.sent)) ∧
        s.host.thread.errors = [] ∧ (∀ report ∈ s.alex.acks, report = ack .response .ok ∨
          report = ack .error .badCommand) ∧ s.up.sent.flatten = s.alex.written := by
  intro s
  have hlinkedDown := e.linkedDown hdown.lossless hfits
  have hlinkedUp := e.linkedUp hup.lossless hfits
  refine ⟨⟨hlinkedDown.handled_isPrefix hdown, hlinkedDown.handled_eq hdown⟩,
    ⟨hlinkedUp.heard_isPrefix hup, hlinkedUp.heard_eq hup⟩, hlinkedUp.no_errors hup, fun report hreport => ?_,
    hlinkedUp.flatten_sent hup⟩
  rw [hlinkedDown.acks_eq hdown] at hreport
  obtain ⟨packet, -, hack⟩ := List.mem_filterMap.mp hreport
  exact ackFor_cases hack

/-- Some events whose reads fit: a key, then two iterations of `loop()` and two rounds of the thread. -/
def someEvents : List Event :=
  [.host ⟨.typed 'o' (.bare .commandKeyboard .stop) [], nofun⟩, .loop 0 .silent (fun _ => 0) 140,
    .loop 0 .silent (fun _ => 0) 140, .round 100 (), .round 40 ()]

/-- `someEvents` has reads of the thread that fit a frame. -/
theorem fits_someEvents : ∀ event ∈ someEvents, event.Fits := by
  intro event hevent
  simp only [someEvents, List.mem_cons, List.not_mem_nil, or_false] at hevent
  obtain rfl | rfl | rfl | rfl | rfl := hevent
  · trivial
  · exact Nat.le_refl 140
  · exact Nat.le_refl 140
  · exact Nat.le_of_lt_succ (by decide)
  · exact Nat.le_of_lt_succ (by decide)

/-- A stop that the operator has typed is handled after the hello packet. -/
theorem someEvents_in_order : (zero.after someEvents).handled <+: sent (zero.after someEvents) :=
  (zero.in_order Wire.quiet_clean Wire.quiet_clean someEvents fits_someEvents).1.1

/-- Over clean wires, in every run whose reads fit a frame, the Pi has sent a hello packet and then only
commands; the acknowledgements that it has heard answer these commands, one each and in order, and once
both lines are empty every command was answered. -/
theorem answered (hdown : e.wires.down.Clean) (hup : e.wires.up.Clean) (events : List Event)
    (hfits : ∀ event ∈ events, event.Fits) :
    let s := e.after events
    ∃ commands, HelloThen commands (sent s) ∧ e.heardAnswers s <+: commands.map TPacket.answer ∧
      (s.down.transit = [] → s.up.transit = [] → e.heardAnswers s = commands.map TPacket.answer) := by
  intro s
  have hlinkedDown := e.linkedDown hdown.lossless hfits
  have hlinkedUp := e.linkedUp hup.lossless hfits
  obtain ⟨commands, hcommands⟩ := e.helloThen events
  refine ⟨commands, hcommands, ?_, fun hemptyDown hemptyUp => ?_⟩
  · rw [← hcommands.filterMap_ackFor]
    exact System.answers_isPrefix hlinkedDown hlinkedUp hdown hup
  · rw [← hcommands.filterMap_ackFor]
    exact System.answers_eq hlinkedDown hlinkedUp hdown hup hemptyDown hemptyUp

/-- `someEvents` has the stop that was typed answered at most once. -/
theorem someEvents_answered : ∃ commands, HelloThen commands (sent (zero.after someEvents)) ∧
    zero.heardAnswers (zero.after someEvents) <+: commands.map TPacket.answer := by
  obtain ⟨commands, hcommands, hanswers, -⟩ :=
    zero.answered Wire.quiet_clean Wire.quiet_clean someEvents fits_someEvents
  exact ⟨commands, hcommands, hanswers⟩

/-- What the Pi has printed for the packets that it has received; the mode decides where it is printed. -/
def display (u : Ui) (s : System PiProgram) : List Report := s.host.thread.handled.filterMap (printPacket u)

/-- Over a clean wire from the Arduino, in every run whose reads fit a frame, the Pi prints what the
Arduino's operations had to report, in order, nothing twice and nothing left out, and all of it once the
line from the Arduino is empty; and every status report counts the pulses of the encoders since the
counters were cleared, by some time before, with the distances that they make exactly. -/
theorem display_truthful (hup : e.wires.up.Clean) (events : List Event) (hfits : ∀ event ∈ events, event.Fits)
    (u : Ui) :
    let s := e.after events
    let past := System.alexPast (Run.trace e.step e.start events)
    display u s <+: reportsIn past ∧ (s.up.transit = [] → display u s = reportsIn past) ∧
      ∀ report, .status report ∈ display u s → ∃ earlier, earlier <+: past ∧ report = tally earlier := by
  intro s past
  have hlinked := e.linkedUp hup.lossless hfits
  obtain ⟨ops, hafter, htrace⟩ := System.alex_after (PiProgram.host e.keyName) e.wires e.start events
  have htruthful : Truthful s.alex past := by
    have hrun : Truthful (Run.after Alex.step e.start.alex ops) (Run.trace Alex.step e.start.alex ops) :=
      truthful_after e.alexCirc e.stack e.memory ops
    rw [← htrace, ← hafter] at hrun
    exact hrun
  have hheard : display u s <+: reportsIn past := by
    rw [← htruthful.printed u]
    exact (hlinked.heard_isPrefix hup).filterMap _
  refine ⟨hheard, fun hempty => ?_, fun report hreport => htruthful.status report (hheard.subset hreport)⟩
  rw [← htruthful.printed u]
  exact congrArg (List.filterMap (printPacket u)) (hlinked.heard_eq hup hempty)

/-- What the Pi prints for the stop that was typed was to be reported. -/
theorem someEvents_display_truthful : display Ui.initial (zero.after someEvents) <+:
    reportsIn (System.alexPast (Run.trace zero.step zero.start someEvents)) :=
  (zero.display_truthful Wire.quiet_clean someEvents fits_someEvents Ui.initial).1

/-- As many iterations of `loop()` as there are bytes on the line to the Arduino, a byte at a time. -/
def loopsFor (s : System PiProgram) : List Event :=
  List.replicate s.down.transit.length (.loop 0 .silent (fun _ => 0) 1)

/-- As many rounds of the thread as there are bytes on the line from the Arduino, a byte at a time. -/
def roundsFor (s : System PiProgram) : List Event := List.replicate s.up.transit.length (.round 1 ())

/-- As many iterations of `loop()` take as many bytes as are on the line to the Arduino. -/
theorem taken_loopsFor (s : System PiProgram) :
    ((loopsFor s).map System.Event.taken).sum = s.down.transit.length := by
  rw [loopsFor, List.map_replicate, List.sum_replicate]
  exact Nat.mul_one _

/-- As many rounds of the thread take as many bytes as are on the line from the Arduino. -/
theorem received_roundsFor (s : System PiProgram) :
    ((roundsFor s).map System.Event.received).sum = s.up.transit.length := by
  rw [roundsFor, List.map_replicate, List.sum_replicate]
  exact Nat.mul_one _

/-- Over clean wires, whatever else happens, once the Arduino has taken as many bytes as were before it,
it has handled all that the Pi had sent, and once the Pi has then taken as many as were before it, it
has heard the answers to all of it. -/
theorem catches_up (hdown : e.wires.down.Clean) (hup : e.wires.up.Clean) (first later last : List Event)
    (hfits : ∀ event ∈ first ++ later ++ last, event.Fits)
    (htaken : (e.after first).down.transit.length ≤ (later.map System.Event.taken).sum)
    (hreceived : (e.after (first ++ later)).up.transit.length ≤ (last.map System.Event.received).sum) :
    sent (e.after first) <+: (e.after (first ++ later)).handled ∧
      ∃ commands, HelloThen commands (sent (e.after first)) ∧
        commands.map TPacket.answer <+: e.heardAnswers (e.after (first ++ later ++ last)) := by
  have hfirst : ∀ event ∈ first, event.Fits := fun event hevent =>
    hfits event (List.mem_append_left _ (List.mem_append_left _ hevent))
  have hlater : ∀ event ∈ later, event.Fits := fun event hevent =>
    hfits event (List.mem_append_left _ (List.mem_append_right _ hevent))
  have hlast : ∀ event ∈ last, event.Fits := fun event hevent => hfits event (List.mem_append_right _ hevent)
  have hboth : ∀ event ∈ first ++ later, event.Fits := List.forall_mem_append.mpr ⟨hfirst, hlater⟩
  have hhandled : sent (e.after first) <+: (e.after (first ++ later)).handled := by
    rw [after_append]
    exact (e.linkedDown hdown.lossless hfirst).sent_handled_later hlater hdown htaken
  have hheard :
      (e.after (first ++ later)).alex.sent <+: (e.after (first ++ later ++ last)).host.thread.handled := by
    rw [e.after_append (first ++ later) last]
    exact (e.linkedUp hup.lossless hboth).sent_heard_later hlast hup hreceived
  obtain ⟨commands, hcommands⟩ := e.helloThen first
  refine ⟨hhandled, commands, hcommands, ?_⟩
  have hanswered := hhandled.filterMap TPacket.ackFor
  rw [hcommands.filterMap_ackFor, ← (e.linkedDown hdown.lossless hboth).acks_eq hdown] at hanswered
  exact hanswered.trans ((hheard.filter _).map _)

/-- The stop that was typed is handled and answered in the end. -/
theorem someEvents_catches_up :
    let later := loopsFor (zero.after someEvents)
    let last := roundsFor (zero.after (someEvents ++ later))
    ∃ commands, HelloThen commands (sent (zero.after someEvents)) ∧
      commands.map TPacket.answer <+: zero.heardAnswers (zero.after (someEvents ++ later ++ last)) := by
  intro later last
  refine (zero.catches_up Wire.quiet_clean Wire.quiet_clean someEvents later last ?_ ?_ ?_).2
  · intro event hevent
    rcases List.mem_append.mp hevent with hboth | hlast
    · rcases List.mem_append.mp hboth with hsome | hlater
      · exact fits_someEvents event hsome
      · rw [List.eq_of_mem_replicate hlater]
        exact Nat.le_of_lt_succ (by decide)
    · rw [List.eq_of_mem_replicate hlast]
      exact Nat.le_of_lt_succ (by decide)
  · exact (taken_loopsFor _).ge
  · exact (received_roundsFor _).ge

end PiSetting

end AlexRobot
