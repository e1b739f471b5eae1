import AlexRobot.Link.Console
import AlexRobot.Link.PiSystem
import AlexRobot.Link.Refinement

/-!
# What the operator types and what the robot does

From the text on the terminal to the motors: the text is read a call of `scanf` at a time, while
the packets travel and the answers come back. At every moment what was handled and what is still to
come make up what the text says, in its order.
-/

namespace AlexRobot

open TracedMemory

/-- What the wheels are told to do by requests that are obeyed one after another. -/
def Drive.obeyRequests (drive : Drive) (requests : List (UInt8 × Effect)) : Drive :=
  requests.foldl (fun drive request => drive.obey request.2) drive

/-- `answerTo`: the Arduino's answer to a command, by the number of the command. -/
def answerTo (command : UInt8) : UInt8 × UInt8 :=
  if (TCommandType.ofCode? command).isSome then ack .response .ok else ack .error .badCommand

/-- Packets tell the wheels to do what their requests say. -/
theorem Drive.obeyAll_eq (drive : Drive) (packets : List TPacket) :
    drive.obeyAll packets = drive.obeyRequests (packets.map TPacket.request) := by
  rw [obeyRequests, List.foldl_map]
  rfl

/-- Packets are answered as the commands in their requests are. -/
theorem map_answer (packets : List TPacket) :
    packets.map TPacket.answer = (packets.map TPacket.request).map fun request => answerTo request.1 := by
  rw [List.map_map]
  rfl

namespace Console

/-- What a call of `paramsControl` gives the program: a character, if one is there to be read. -/
def seen? (c : Console) (residue : TPacket) : Option PiProgram.Operated :=
  match c.terminal with
  | [] => none
  | ch :: rest =>
    if c.session.Waiting .params ∧ ((movement? ch).isSome → scanfRest rest ≠ []) then
      some ⟨.typed ch residue rest, nofun⟩
    else none

/-- A call of `paramsControl` is one step of the program, or leaves it waiting. -/
theorem step_session (keyName : Int32 → Char) (c : Console) (residue : TPacket) :
    (c.step keyName residue).session =
      (c.seen? residue).elim c.session fun input => c.session.step keyName input.val := by
  obtain ⟨session, terminal⟩ := c
  cases terminal with
  | nil => rfl
  | cons ch rest =>
    rw [step, seen?]
    dsimp only
    by_cases hwaiting : session.Waiting .params
    · by_cases hmove : (movement? ch).isSome
      · by_cases hrest : scanfRest rest = []
        · rw [if_pos hwaiting, if_pos hmove, if_pos hrest, if_neg fun h => h.2 hmove hrest]
          rfl
        · rw [if_pos hwaiting, if_pos hmove, if_neg hrest, if_pos ⟨hwaiting, fun _ => hrest⟩]
          rfl
      · rw [if_pos hwaiting, if_neg hmove, if_pos ⟨hwaiting, fun h => absurd h hmove⟩]
        rfl
    · rw [if_neg hwaiting, if_neg fun h => hwaiting h.1]
      rfl

end Console

/-- The operator's program with what was typed but not read. -/
structure ConsoleProgram where
  program : PiProgram
  terminal : List Char

namespace ConsoleProgram

variable (keyName : Int32 → Char)

/-- The console that the main thread works on: its session, and what is left on the terminal. -/
def console (p : ConsoleProgram) : Console := ⟨p.program.session, p.terminal⟩

/-- One call of `paramsControl` by the main thread. -/
def step (p : ConsoleProgram) (residue : TPacket) : ConsoleProgram where
  program := (p.console.seen? residue).elim p.program (p.program.operate keyName)
  terminal := (p.console.step keyName residue).terminal

/-- One round of `receiveThread`, which leaves the terminal alone. -/
def round (p : ConsoleProgram) (read : Read) : ConsoleProgram :=
  { p with program := p.program.round keyName read }

/-- A call of `paramsControl` by the program is one by its console. -/
theorem step_console (p : ConsoleProgram) (residue : TPacket) :
    (p.step keyName residue).console = p.console.step keyName residue := by
  have hprogram : (p.step keyName residue).program.session = (p.console.step keyName residue).session := by
    rw [Console.step_session, step]
    cases p.console.seen? residue with
    | none => rfl
    | some input => rfl
  rw [console, hprogram]
  rfl

/-- The program with its terminal is a more detailed form of the program without it. -/
def detailed : Detailed (PiProgram.host keyName) ConsoleProgram TPacket where
  step := step keyName
  round p read _ := p.round keyName read
  abstract := program
  seen? p residue := p.console.seen? residue
  step_abstract _ _ := rfl
  round_abstract _ _ _ := rfl

/-- The packets sent after the hello packet and what is left of the text make up these requests. -/
structure Means (requests : List (UInt8 × Effect)) (p : ConsoleProgram) (left : List Typed) : Prop where
  waiting : p.program.session.Waiting .params
  terminal : p.terminal = left.flatMap Typed.chars
  conserved : ∃ hello packets, p.program.session.ui.sent = hello :: packets ∧
    packets.map TPacket.request ++ left.flatMap Typed.requests = requests

variable {keyName} {requests : List (UInt8 × Effect)} {p : ConsoleProgram}

/-- A call that reads a part of the text keeps what the text means. -/
theorem Means.step_of_reads {left left' : List Typed} (h : Means requests p left) {residue : TPacket}
    {asked : List (UInt8 × Effect)}
    (hreads : Console.Reads p.program.session asked (left'.flatMap Typed.chars)
      (p.console.step keyName residue))
    (hleft : asked ++ left'.flatMap Typed.requests = left.flatMap Typed.requests) :
    Means requests (p.step keyName residue) left' := by
  rw [← step_console] at hreads
  obtain ⟨hello, before, hbefore, hrequests⟩ := h.conserved
  obtain ⟨packets, hsent, hasked⟩ := hreads.sent
  refine ⟨hreads.waiting, hreads.terminal, hello, before ++ packets, ?_, ?_⟩
  · change (p.step keyName residue).console.session.ui.sent = _
    rw [hsent, hbefore, List.cons_append]
  · rw [List.map_append, hasked, List.append_assoc, hleft, hrequests]

/-- A call reads at least a character of the text, if there is one. -/
theorem Means.step {left : List Typed} (h : Means requests p left) (residue : TPacket) :
    ∃ left', Means requests (p.step keyName residue) left' ∧
      (left'.flatMap Typed.chars).length ≤ (left.flatMap Typed.chars).length - 1 := by
  have hconsole : p.console = ⟨p.program.session, left.flatMap Typed.chars⟩ := congrArg _ h.terminal
  cases left with
  | nil =>
    have hreads : Console.Reads p.program.session [] [] (p.console.step keyName residue) := by
      rw [hconsole]
      exact ⟨h.waiting, rfl, [], (List.append_nil _).symm, rfl⟩
    exact ⟨[], h.step_of_reads hreads rfl, Nat.zero_le _⟩
  | cons typed left =>
    cases typed with
    | other ch hmove hstays =>
      refine ⟨left, h.step_of_reads ?_ rfl, ?_⟩
      · rw [hconsole]
        exact Console.step_other keyName h.waiting hmove hstays (left.flatMap Typed.chars) residue
      · rw [List.flatMap_cons, List.length_append]
        exact (Nat.add_sub_cancel_left ..).ge
    | movement ch d hmove before dist between hbetween power behind hbehind =>
      -- The blank behind the numbers is left, and is read as a command, and none.
      obtain ⟨hscan, hrest⟩ := scan_numerals before dist hbetween power hbehind (left.flatMap Typed.chars)
      obtain ⟨-, hnone, -, -, hnothing⟩ := isSpace_cases hbehind
      have htext : p.console = ⟨p.program.session, ch :: (before.val ++ (dist.chars ++ (between.val ++
          (power.chars ++ behind :: left.flatMap Typed.chars))))⟩ := by
        rw [hconsole, List.flatMap_cons]
        simp only [Typed.chars, List.cons_append, List.append_assoc, List.nil_append]
      have hreads := Console.step_movement keyName h.waiting hmove hscan hrest (List.cons_ne_nil _ _) residue
      rw [← htext] at hreads
      refine ⟨.other behind hnone (staysParams_of_isSpace hbehind) :: left, h.step_of_reads hreads ?_, ?_⟩
      · change _ ++ (Typed.keyRequests behind ++ left.flatMap Typed.requests) = _
        rw [hnothing]
        rfl
      · simp only [List.flatMap_cons, Typed.chars, List.length_append, List.length_cons, List.length_nil]
        omega

/-- A round of `receiveThread` keeps what the text means. -/
theorem Means.round {left : List Typed} (h : Means requests p left) (read : Read) :
    Means requests (p.round keyName read) left where
  waiting := p.program.round_waiting keyName read h.waiting
  terminal := h.terminal
  conserved := by
    obtain ⟨hello, packets, hsent, hrequests⟩ := h.conserved
    exact ⟨hello, packets, (p.program.round_sent keyName read).trans hsent, hrequests⟩

end ConsoleProgram

/-- What the programs find as they start, with the text that the operator types. -/
structure ConsoleSetting extends PiSetting where
  script : List Typed

namespace ConsoleSetting

/-- What happens to the programs: the Pi's comes to its `scanf`, with what the stack holds for its
packet, or one of the others goes on. -/
abbrev Event : Type := System.Event TPacket Unit

variable (e : ConsoleSetting)

/-- The Pi's program behind its terminal, in the detail that the text needs. -/
def detailed : Detailed (PiProgram.host e.keyName) ConsoleProgram TPacket := ConsoleProgram.detailed e.keyName

/-- One event of the Pi's program behind its terminal and the robot. -/
def step : System ConsoleProgram → Event → System ConsoleProgram := System.step e.detailed.host e.wires

/-- The programs as they start, with the text on the terminal. -/
def start : System ConsoleProgram :=
  System.start e.detailed.host e.wires
    ⟨PiProgram.initial e.residue e.cells, e.script.flatMap Typed.chars⟩ e.alexCirc e.stack e.memory

/-- The programs after some events, from their start with the whole text. -/
def after (events : List Event) : System ConsoleProgram := Run.after e.step e.start events

/-- What the text asks the Arduino for, in order. -/
def requests : List (UInt8 × Effect) := e.script.flatMap Typed.requests

/-- What the packets that the Arduino has handled after the hello packet asked for. -/
def handledRequests (s : System ConsoleProgram) : List (UInt8 × Effect) := s.handled.tail.map TPacket.request

/-- How often an event comes to the `scanf` of `paramsControl`. -/
def reads : Event → ℕ
  | .host _ => 1
  | .leftPulse => 0
  | .rightPulse => 0
  | .loop _ _ _ _ => 0
  | .round _ _ => 0

/-- An event keeps what the text means, and reads of it. -/
theorem step_means {s : System ConsoleProgram} {left : List Typed} (h : s.host.Means e.requests left)
    (event : Event) : ∃ left', (e.step s event).host.Means e.requests left' ∧
      (left'.flatMap Typed.chars).length ≤ (left.flatMap Typed.chars).length - reads event := by
  cases event with
  | host residue => exact h.step residue
  | leftPulse => exact ⟨left, h, le_rfl⟩
  | rightPulse => exact ⟨left, h, le_rfl⟩
  | loop guardEcho sensors recvPacket count => exact ⟨left, h, le_rfl⟩
  | round count _ => exact ⟨left, h.round (s.read count), le_rfl⟩

/-- A run keeps what the text means, and reads at least a character for each of its calls. -/
theorem after_means {s : System ConsoleProgram} {left : List Typed} (h : s.host.Means e.requests left)
    (events : List Event) : ∃ left', (Run.after e.step s events).host.Means e.requests left' ∧
      (left'.flatMap Typed.chars).length ≤ (left.flatMap Typed.chars).length - (events.map reads).sum := by
  induction events generalizing s left with
  | nil => exact ⟨left, h, le_rfl⟩
  | cons event rest ih =>
    obtain ⟨left₁, hstep, hfirst⟩ := e.step_means h event
    obtain ⟨left₂, hrest, hlater⟩ := ih hstep
    refine ⟨left₂, hrest, ?_⟩
    rw [List.map_cons, List.sum_cons]
    omega

/-- At the start all of the text is left to be read. -/
theorem start_means : e.start.host.Means e.requests e.script :=
  ⟨⟨rfl, rfl, rfl⟩, rfl, _, [], rfl, rfl⟩

/-- Over a lossless wire the Arduino is linked to the line to it after every run whose reads fit. -/
theorem linkedDown (hlossless : e.wires.down.Lossless) {events : List Event}
    (hfits : ∀ event ∈ events, event.Fits) : (e.after events).LinkedDown e.detailed.host e.wires :=
  System.linkedDown_run (System.linkedDown_start _ e.alexCirc e.stack e.memory) hlossless hfits

/-- Over a lossless wire the Pi is linked to the line from the Arduino after every run whose reads fit. -/
theorem linkedUp (hlossless : e.wires.up.Lossless) {events : List Event}
    (hfits : ∀ event ∈ events, event.Fits) : (e.after events).LinkedUp e.detailed.host e.wires :=
  System.linkedUp_run (System.linkedUp_start rfl e.alexCirc e.stack e.memory) hlossless hfits

/-- The Pi has sent a hello packet, and then only commands. -/
theorem helloThen {events : List Event} (hfits : ∀ event ∈ events, event.Fits) :
    ∃ commands, HelloThen commands (e.after events).host.program.session.ui.sent := by
  obtain ⟨seen, -, hafter, -⟩ := e.detailed.after_project e.wires e.start hfits
  obtain ⟨commands, hcommands⟩ := e.toPiSetting.helloThen seen
  have hsent : (e.after events).host.program.session.ui.sent = PiSetting.sent (e.toPiSetting.after seen) :=
    congrArg PiSetting.sent hafter
  exact ⟨commands, hsent ▸ hcommands⟩

/-- Whatever the operator types has at least one character. -/
theorem chars_ne_nil (typed : Typed) : typed.chars ≠ [] := by
  cases typed with
  | movement ch d hmove before dist between hbetween power behind hbehind => exact List.cons_ne_nil _ _
  | other ch hmove hstays => exact List.cons_ne_nil _ _

/-- Once all characters of a text are read, nothing is left of it. -/
theorem eq_nil_of_length {left : List Typed} (h : (left.flatMap Typed.chars).length ≤ 0) : left = [] := by
  have hchars : left.flatMap Typed.chars = [] := List.length_eq_zero_iff.mp (Nat.le_zero.mp h)
  rw [List.flatMap_eq_nil_iff] at hchars
  exact List.eq_nil_iff_forall_not_mem.mpr fun typed htyped => chars_ne_nil typed (hchars typed htyped)

/-- Over clean wires, while the text is read, the requests that the Arduino has handled are the first of
those that the text asks for, in order; once it is read and the line to the Arduino is empty, they are
all of them, the robot does what the last of them asks for or has stopped, and once the other line is
empty, too, each was answered. -/
theorem obeys_script (hcleanDown : e.wires.down.Clean) (hcleanUp : e.wires.up.Clean) (events : List Event)
    (hfits : ∀ event ∈ events, event.Fits) :
    let s := e.after events
    handledRequests s <+: e.requests ∧
      ((e.script.flatMap Typed.chars).length ≤ (events.map reads).sum → s.down.transit = [] →
        handledRequests s = e.requests ∧ (Drive.resting.obeyRequests e.requests).Obeys s.alex.control ∧
          (s.up.transit = [] →
            s.answers e.detailed.host = e.requests.map fun request => answerTo request.1)) := by
  intro s
  have hlinked := e.linkedDown hcleanDown.lossless hfits
  obtain ⟨left, hmeans, hleft⟩ := e.after_means e.start_means events
  obtain ⟨hello, packets, hsent, hrequests⟩ := hmeans.conserved
  obtain ⟨commands, hcommands⟩ := e.helloThen hfits
  obtain ⟨hhello, rfl⟩ : hello.packetType = TPacketType.hello.code ∧ packets = commands := by
    obtain ⟨⟨hello', hsame, hhello'⟩, -⟩ := hcommands
    obtain ⟨rfl, rfl⟩ := List.cons.inj (hsent.symm.trans hsame)
    exact ⟨hhello', rfl⟩
  have hhandled : s.handled.tail <+: packets := by
    have hprefix : s.handled <+: hello :: packets := hsent ▸ hlinked.handled_isPrefix hcleanDown
    obtain hnone | ⟨rest, hrest, htail⟩ := List.prefix_cons_iff.mp hprefix
    · rw [hnone]
      exact List.nil_prefix
    · rw [hrest]
      exact htail
  refine ⟨?_, fun hread hdown => ?_⟩
  · rw [← hrequests]
    exact (hhandled.map TPacket.request).trans (List.prefix_append _ _)
  · have hall : packets.map TPacket.request = e.requests := by
      obtain rfl := eq_nil_of_length (hleft.trans (Nat.sub_eq_zero_of_le hread).le)
      rw [← hrequests, List.flatMap_nil, List.append_nil]
    have heverything : s.handled = hello :: packets := (hlinked.handled_eq hcleanDown hdown).trans hsent
    refine ⟨?_, ?_, fun hup => ?_⟩
    · rw [handledRequests, heverything, ← hall]
      rfl
    · have hobeys := hlinked.obeys
      rw [heverything] at hobeys
      change ((Drive.resting.obey hello.effect).obeyAll packets).Obeys s.alex.control at hobeys
      rwa [obey_hello hhello, Drive.obeyAll_eq, hall] at hobeys
    · rw [System.answers_eq hlinked (e.linkedUp hcleanUp.lossless hfits) hcleanDown hcleanUp hdown hup]
      change s.host.program.session.ui.sent.filterMap TPacket.ackFor = _
      rw [hcommands.filterMap_ackFor, map_answer, hall]

/-- A setting in which all memory is zero, and the operator types the line `w50 -75`, and a stop. -/
def typing : ConsoleSetting := { PiSetting.zero with script := Console.someScript }

/-- Once the Pi has read the text and the Arduino three frames, that has handled what the text says. -/
theorem typing_obeys_script : handledRequests (typing.after
    (List.replicate 9 (.host (.bare .hello .stop)) ++ List.replicate 3 (.loop 0 .silent (fun _ => 0) 140))) =
      typing.requests := by
  refine ((typing.obeys_script Wire.quiet_clean Wire.quiet_clean _ ?_).2 (by decide) (by decide +kernel)).1
  intro event hevent
  rcases List.mem_append.mp hevent with hread | hloop
  · rw [List.eq_of_mem_replicate hread]
    trivial
  · rw [List.eq_of_mem_replicate hloop]
    exact Nat.le_refl 140

end ConsoleSetting

end AlexRobot
