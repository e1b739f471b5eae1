import AlexRobot.Common.Run
import AlexRobot.Pi.Command
import Mathlib.Data.Finset.Basic

/-!
# The dead-man switch of key-hold mode

`keypressControl` keeps one flag for all held keys: a press that finds it clear sets it and
acts, and the next release of any key clears it. The release sends a stop, except for five
keys; and a return to `main()` starts again with a clear flag. As long as neither happens
under way, a moving robot has the flag set, and a set flag has a held key.
-/

namespace AlexRobot

/-- `LEFT_ARROW_KEY`: the key code that lowers the speed in key-hold mode. -/
def leftArrowKey : Int32 := 1073741904

/-- `RIGHT_ARROW_KEY`: the key code that raises the speed in key-hold mode. -/
def rightArrowKey : Int32 := 1073741903

/-- `SDLK_1`; the key code of a character is its code. -/
def sdlk1 : Int32 := 49

/-- `SDLK_3`: the key code of a digit that ends key-hold mode. -/
def sdlk3 : Int32 := 51

/-- `SDLK_4`: the key code of another digit that ends key-hold mode. -/
def sdlk4 : Int32 := 52

/-- `SDLK_k`: the key code of the letter that clears the statistics. -/
def sdlkK : Int32 := 107

/-- `SDLK_u`: the key code of the letter that asks for the distance to an obstacle. -/
def sdlkU : Int32 := 117

/-- `SDLK_v`: the key code of the letter that asks for the colour. -/
def sdlkV : Int32 := 118

/-- `SDLEvent`: the events of `SDL_PollEvent` that `keypressControl` tells apart. -/
inductive SDLEvent
  | quit
  | keyUp (key : Int32)
  | keyDown (key : Int32)
  | other
  deriving DecidableEq

/-- `Poll`: one call of `SDL_PollEvent`, with the event taken from the queue, if any, what the stack
holds for the packet of a command that the event sends, and what a `scanf` would find. -/
structure Poll where
  event : Option SDLEvent
  residue : TPacket
  scan : Scan

/-- A call that takes an event from the queue, over a zeroed stack. -/
def Poll.of (event : SDLEvent) : Poll := ⟨some event, .bare .commandKeyboard .stop, .none⟩

/-- `Flags`: the local variables of `keypressControl` that its event loop reads and sets. -/
structure Flags where
  quit : Bool
  keyAlreadyPressed : Bool
  stop : Bool
  informed : Bool
  deriving DecidableEq

/-- `Flags.entry`: the values of the local variables as `keypressControl` is entered. -/
def Flags.entry : Flags := ⟨false, false, false, false⟩

/-- The program in key-hold mode, with the keys that are physically held. `inside` is false once
`main()` does not call `keypressControl` again. -/
structure KeyHold where
  ui : Ui
  flags : Flags
  inside : Bool
  held : Finset Int32

namespace KeyHold

/-- `main()` calls `keypressControl`, with no key held. -/
def enter (ui : Ui) : KeyHold where
  ui := { ui with exitFlag := false, keyboardMode := .keyHold }
  flags := .entry
  inside := true
  held := ∅

/-- `exempt key`: the key is one of those whose release sends no stop. -/
def exempt (key : Int32) : Bool :=
  key = leftArrowKey || key = rightArrowKey || key = sdlkU || key = sdlkK || key = sdlkV

/-- `keyUp`: the branch of the event loop for `SDL_KEYUP`. -/
def keyUp (s : KeyHold) (key : Int32) (poll : Poll) : KeyHold :=
  if s.flags.keyAlreadyPressed then
    let ui := if exempt key then s.ui else s.ui.sendCommand 'o' poll.residue poll.scan
    { s with ui := ui, flags := { s.flags with keyAlreadyPressed := false } }
  else s

/-- The `switch` on a pressed key; `keyName` gives the first character of `SDL_GetKeyName`. -/
def pressed (keyName : Int32 → Char) (s : KeyHold) (key : Int32) (poll : Poll) : KeyHold :=
  if key = sdlk1 ∨ key = sdlk3 ∨ key = sdlk4 then
    { s with
      ui := { s.ui with keyboardMode := .params }
      flags := { s.flags with quit := true, stop := true } }
  else if key = leftArrowKey then { s with ui := s.ui.decreaseSpeed }
  else if key = rightArrowKey then { s with ui := s.ui.increaseSpeed }
  else { s with ui := s.ui.sendCommand (keyName key) poll.residue poll.scan }

/-- `keyDown`: the branch of the event loop for `SDL_KEYDOWN`. -/
def keyDown (keyName : Int32 → Char) (s : KeyHold) (key : Int32) (poll : Poll) : KeyHold :=
  if ¬ s.flags.keyAlreadyPressed then
    if ¬ s.ui.clearToSendCommand then { s with flags := { s.flags with informed := true } }
    else
      let s := { s with flags := { s.flags with keyAlreadyPressed := true, informed := false } }
      s.pressed keyName key poll
  else s

/-- `handleEvent`: the body of the event loop of `keypressControl`, for one event. -/
def handleEvent (keyName : Int32 → Char) (s : KeyHold) (event : SDLEvent) (poll : Poll) : KeyHold :=
  let s := { s with ui := { s.ui with clearToSendCommand := true } }
  match event with
  | .quit => { s with flags := { s.flags with quit := true } }
  | .keyUp key => s.keyUp key poll
  | .keyDown key => s.keyDown keyName key poll
  | .other => s

/-- The event loop ends. The function returns if `quit` is set, and `main()` calls it again, with
fresh local variables, while the mode is still key-hold. -/
def leave (s : KeyHold) : KeyHold :=
  if s.flags.quit then
    { s with
      flags := .entry
      inside := !s.ui.exitFlag && s.ui.keyboardMode == .keyHold }
  else s

/-- `heldAfter`: the set of the keys that the operator holds after an event. -/
def heldAfter (held : Finset Int32) : Option SDLEvent → Finset Int32
  | some (.keyUp key) => held.erase key
  | some (.keyDown key) => insert key held
  | _ => held

/-- `KeyHold.step`: one call of `SDL_PollEvent` and what it leads to; an event taken after `stop` was
set is dropped. -/
def step (keyName : Int32 → Char) (s : KeyHold) (poll : Poll) : KeyHold :=
  if s.inside then
    let s := { s with held := heldAfter s.held poll.event }
    match poll.event with
    | some event => if s.flags.stop then s.leave else s.handleEvent keyName event poll
    | none => s.leave
  else s

end KeyHold

/-- `isDrive`: the packet is a command that makes the robot drive or stop. -/
def TPacket.isDrive (packet : TPacket) : Bool :=
  packet.command == TCommandType.forward.code || packet.command == TCommandType.reverse.code ||
    packet.command == TCommandType.turnLeft.code || packet.command == TCommandType.turnRight.code ||
    packet.command == TCommandType.stop.code

/-- The command of the last packet that drives or stops the robot, if any was sent. -/
def lastDrive (sent : List TPacket) : Option UInt8 :=
  (sent.filter TPacket.isDrive).getLast?.map TPacket.command

/-- The robot was last told to stop, or never to move. -/
def Settled (sent : List TPacket) : Prop :=
  lastDrive sent = none ∨ lastDrive sent = some TCommandType.stop.code

/-- The globals are settled after the command of a stop key, which stops the robot. -/
theorem settled_sendStop (u : Ui) (residue : TPacket) (scan : Scan) :
    Settled (u.sendCommand 'o' residue scan).sent := by
  let packet : TPacket := { residue with
    packetType := u.commandType.code
    command := TCommandType.stop.code }
  have hdrive : packet.isDrive = true := rfl
  right
  rw [u.sendCommand_stop (Or.inl rfl), lastDrive, List.filter_append, List.filter_cons_of_pos hdrive,
    List.filter_nil, List.getLast?_concat]
  rfl

namespace KeyHold

/-- The switch is armed: a robot that moves has the flag set. -/
def SwitchArmed (s : KeyHold) : Prop := Settled s.ui.sent ∨ s.flags.keyAlreadyPressed = true

/-- The call clears a set flag without a stop: it releases an exempt key, or it finds the queue
empty after `SDL_QUIT` and makes `keypressControl` return. -/
def Disarms (s : KeyHold) (poll : Poll) : Prop :=
  s.inside = true ∧ s.flags.stop = false ∧ s.flags.keyAlreadyPressed = true ∧
    ((∃ key, poll.event = some (.keyUp key) ∧ exempt key = true) ∨
      (poll.event = none ∧ s.flags.quit = true))

/-- The call does not disarm the switch of a moving robot. -/
def KeepsSwitch (s : KeyHold) (poll : Poll) : Prop := Disarms s poll → Settled s.ui.sent

/-- The keys that the poll speaks of behave physically: only a held key goes up. -/
def Physical (s : KeyHold) (poll : Poll) : Prop :=
  ∀ key, poll.event = some (.keyUp key) → key ∈ s.held

/-- `Sound`: what holds of key-hold mode as long as the switch is kept armed. -/
structure Sound (s : KeyHold) : Prop where
  armed : SwitchArmed s
  flagHeld : s.flags.keyAlreadyPressed = true → s.held.Nonempty
  stopped : s.flags.stop = true → s.flags.quit = true ∧ Settled s.ui.sent

/-- The program is sound on entry if the robot is settled. -/
theorem enter_sound {ui : Ui} (h : Settled ui.sent) : (enter ui).Sound where
  armed := Or.inl h
  flagHeld := nofun
  stopped := nofun

/-- Key-hold mode stays sound when it is left with a settled robot. -/
theorem leave_sound {s : KeyHold} (hquit : s.flags.quit = true) (h : Settled s.ui.sent) :
    s.leave.Sound := by
  rw [leave, if_pos hquit]
  exact ⟨Or.inl h, nofun, nofun⟩

/-- A pressed key sets the flag, and only a settled robot takes the branch that sets `stop`. -/
theorem pressed_sound (keyName : Int32 → Char) {s : KeyHold} (hflag : s.flags.keyAlreadyPressed = true)
    (hstop : s.flags.stop = false) (hheld : s.held.Nonempty) (h : Settled s.ui.sent) (key : Int32)
    (poll : Poll) : (s.pressed keyName key poll).Sound := by
  unfold pressed
  split_ifs
  · exact ⟨Or.inr hflag, fun _ => hheld, fun _ => ⟨rfl, h⟩⟩
  all_goals
    refine ⟨Or.inr hflag, fun _ => hheld, fun hset => ?_⟩
    exact absurd (hstop.symm.trans hset) Bool.false_ne_true

section Running

variable {s : KeyHold} (harmed : SwitchArmed s) (hstop : s.flags.stop = false)

include harmed hstop

/-- A release clears the flag: it sends a stop, or it must find the robot settled. -/
theorem keyUp_sound (key : Int32) (poll : Poll)
    (hexempt : exempt key = true → s.flags.keyAlreadyPressed = true → Settled s.ui.sent) :
    (s.keyUp key poll).Sound := by
  have hnever (hset : s.flags.stop = true) : False := Bool.false_ne_true (hstop.symm.trans hset)
  unfold keyUp
  split
  · rename_i hflag
    refine ⟨Or.inl ?_, nofun, fun hset => (hnever hset).elim⟩
    change Settled (if exempt key then s.ui else s.ui.sendCommand 'o' poll.residue poll.scan).sent
    split
    · rename_i hkey
      exact hexempt hkey hflag
    · exact settled_sendStop s.ui poll.residue poll.scan
  · rename_i hflag
    exact ⟨harmed, fun hset => absurd hset hflag, fun hset => (hnever hset).elim⟩

/-- A press acts only with the flag clear, so only with the robot settled. -/
theorem keyDown_sound (keyName : Int32 → Char) (hheld : s.held.Nonempty) (key : Int32) (poll : Poll) :
    (s.keyDown keyName key poll).Sound := by
  have hnever (hset : s.flags.stop = true) : False := Bool.false_ne_true (hstop.symm.trans hset)
  unfold keyDown
  split
  · rename_i hflag
    split
    · exact ⟨harmed, fun _ => hheld, fun hset => (hnever hset).elim⟩
    · exact pressed_sound keyName
        (s := { s with flags := { s.flags with keyAlreadyPressed := true, informed := false } }) rfl hstop
        hheld (harmed.resolve_right hflag) key poll
  · exact ⟨harmed, fun _ => hheld, fun hset => (hnever hset).elim⟩

end Running

/-- An event that does not disarm the switch keeps the program sound. -/
theorem handleEvent_sound (keyName : Int32 → Char) {s : KeyHold} (h : s.Sound)
    (hstop : s.flags.stop = false) (event : SDLEvent) (poll : Poll)
    (hexempt : ∀ key, event = .keyUp key → exempt key = true → s.flags.keyAlreadyPressed = true →
      Settled s.ui.sent) :
    ({ s with held := heldAfter s.held (some event) }.handleEvent keyName event poll).Sound := by
  have hnever (hset : s.flags.stop = true) : False := Bool.false_ne_true (hstop.symm.trans hset)
  let ready : KeyHold := { s with
    ui := { s.ui with clearToSendCommand := true }
    held := heldAfter s.held (some event) }
  have harmed : SwitchArmed ready := h.armed
  cases event with
  | quit => exact ⟨harmed, h.flagHeld, fun hset => (hnever hset).elim⟩
  | keyUp key => exact keyUp_sound harmed hstop key poll (hexempt key rfl)
  | keyDown key => exact keyDown_sound harmed hstop keyName (Finset.insert_nonempty key s.held) key poll
  | other => exact ⟨harmed, h.flagHeld, fun hset => (hnever hset).elim⟩

/-- `KeyHold.step` outside the event loop takes no event. -/
theorem step_of_outside (keyName : Int32 → Char) {s : KeyHold} (h : s.inside = false) (poll : Poll) :
    s.step keyName poll = s := by
  rw [step, h]
  rfl

/-- An event that is taken before `stop` is set is handled. -/
theorem step_of_event {keyName : Int32 → Char} {s : KeyHold} (hinside : s.inside = true)
    (hstop : s.flags.stop = false) {poll : Poll} {event : SDLEvent} (hevent : poll.event = some event) :
    s.step keyName poll = { s with held := heldAfter s.held (some event) }.handleEvent keyName event poll := by
  simp only [step, hinside, hevent, hstop, if_true, Bool.false_eq_true, if_false]

/-- A call that keeps the switch keeps the program sound. -/
theorem step_sound (keyName : Int32 → Char) {s : KeyHold} (h : s.Sound) {poll : Poll}
    (hkeeps : KeepsSwitch s poll) : (s.step keyName poll).Sound := by
  by_cases hinside : s.inside = true
  · by_cases hstop : s.flags.stop = true
    · obtain ⟨hquit, hsettled⟩ := h.stopped hstop
      have hleave : s.step keyName poll = { s with held := heldAfter s.held poll.event }.leave := by
        simp only [step, hinside, hstop, if_true]
        cases poll.event <;> rfl
      rw [hleave]
      exact leave_sound hquit hsettled
    · have hrunning : s.flags.stop = false := Bool.eq_false_iff.mpr hstop
      cases hevent : poll.event with
      | none =>
        have hleave : s.step keyName poll = s.leave := by
          rw [step, if_pos hinside, hevent]
          rfl
        rw [hleave]
        by_cases hquit : s.flags.quit = true
        · refine leave_sound hquit (h.armed.elim id fun hflag => ?_)
          exact hkeeps ⟨hinside, hrunning, hflag, Or.inr ⟨hevent, hquit⟩⟩
        · rw [leave, if_neg hquit]
          exact h
      | some event =>
        rw [step_of_event hinside hrunning hevent]
        apply handleEvent_sound keyName h hrunning
        rintro key rfl hkey hflag
        exact hkeeps ⟨hinside, hrunning, hflag, Or.inl ⟨key, hevent, hkey⟩⟩
  · rw [step_of_outside keyName (Bool.eq_false_iff.mpr hinside)]
    exact h

/-- A call that disarms the switch clears the flag and sends nothing. -/
theorem step_of_disarms (keyName : Int32 → Char) {s : KeyHold} {poll : Poll} (h : Disarms s poll) :
    (s.step keyName poll).flags.keyAlreadyPressed = false ∧ (s.step keyName poll).ui.sent = s.ui.sent := by
  obtain ⟨hinside, hstop, hflag, ⟨key, hevent, hkey⟩ | ⟨hevent, hquit⟩⟩ := h
  · simp only [step, hinside, hevent, hstop, handleEvent, keyUp, hflag, hkey, if_true, Bool.false_eq_true,
      if_false, and_self]
  · simp only [step, hinside, hevent, leave, hquit, if_true]
    exact ⟨rfl, trivial⟩

/-- Throughout a run the switch is armed exactly when no call of the run disarms the switch of a
moving robot. -/
theorem switchArmed_iff (keyName : Int32 → Char) {ui : Ui} (h : Settled ui.sent) (polls : List Poll) :
    Run.Throughout (step keyName) SwitchArmed (enter ui) polls ↔
      Run.Along (step keyName) KeepsSwitch (enter ui) polls := by
  apply Run.throughout_iff_along Sound
  · intro s hs
    exact hs.armed
  · intro s poll hs hkeeps
    exact step_sound keyName hs hkeeps
  · intro s poll hs harmed hdisarms
    obtain ⟨hflag, hsent⟩ := step_of_disarms keyName hdisarms
    rcases harmed with hsettled | hset
    · rwa [hsent] at hsettled
    · exact absurd (hflag.symm.trans hset) Bool.false_ne_true
  · exact enter_sound h

/-- `SDL_GetKeyName` returns the letter for letter keys. -/
def LetterNames (keyName : Int32 → Char) : Prop :=
  ∀ i : Fin 26, keyName (Int32.ofNat (97 + i)) = Char.ofNat (65 + i)

/-- `asciiName`: the name that `SDL_GetKeyName` has for a letter key, with `'?'` for every other key. -/
def asciiName (key : Int32) : Char :=
  if 97 ≤ key ∧ key ≤ 122 then Char.ofNat (key.toNatClampNeg - 32) else '?'

/-- The names of `asciiName` are those that `SDL_GetKeyName` has for the letter keys. -/
theorem asciiName_letterNames : LetterNames asciiName := by
  unfold LetterNames
  decide

/-- Holding W, pressing and releasing U, and releasing W leaves the robot driving with no key held. -/
theorem dead_man_switch_refuted :
    ¬ ∀ (keyName : Int32 → Char) (ui : Ui) (polls : List Poll), LetterNames keyName → Settled ui.sent →
      Run.Along (step keyName) Physical (enter ui) polls →
        Run.Throughout (step keyName) (fun s => s.held = ∅ → Settled s.ui.sent) (enter ui) polls := by
  intro hclaim
  let sdlkW : Int32 := 119
  have hphysical : Run.Along (step asciiName) Physical (enter Ui.initial)
      [.of (.keyDown sdlkW), .of (.keyDown sdlkU), .of (.keyUp sdlkU), .of (.keyUp sdlkW)] := by
    refine ⟨nofun, nofun, ?_, ?_, trivial⟩
    · intro key hevent
      cases hevent
      decide
    · intro key hevent
      cases hevent
      decide
  obtain ⟨-, -, -, -, hlast⟩ := hclaim asciiName Ui.initial _ asciiName_letterNames (Or.inl rfl) hphysical
  rcases hlast (by decide) with hnone | hstop
  · cases hnone
  · cases hstop

/-- Key-hold mode is a dead man's switch: as long as no call disarms the switch of a moving robot, the
robot is settled whenever every key has been released. -/
theorem dead_man_switch (keyName : Int32 → Char) (ui : Ui) (polls : List Poll) (hui : Settled ui.sent)
    (hrun : Run.Along (step keyName) KeepsSwitch (enter ui) polls) :
    Run.Throughout (step keyName) (fun s => s.held = ∅ → Settled s.ui.sent) (enter ui) polls := by
  have hstep (s : KeyHold) (poll : Poll) (hs : s.Sound) (hkeeps : KeepsSwitch s poll) :
      (s.step keyName poll).Sound := step_sound keyName hs hkeeps
  have hsound := Run.throughout_of_along hstep (enter_sound hui) hrun
  apply hsound.mono
  intro s hs hnone
  refine hs.armed.elim id fun hflag => ?_
  exact absurd hnone (hs.flagHeld hflag).ne_empty

/-- Holding W alone and releasing it leaves the robot settled. -/
theorem w_dead_man_switch : Run.Throughout (step asciiName) (fun s => s.held = ∅ → Settled s.ui.sent)
    (enter Ui.initial) [.of (.keyDown 119), .of (.keyUp 119)] := by
  apply dead_man_switch asciiName Ui.initial _ (Or.inl rfl)
  refine ⟨?_, ?_, trivial⟩
  · rintro ⟨-, -, hflag, -⟩
    cases hflag
  · rintro ⟨-, -, -, ⟨key, hevent, hkey⟩ | ⟨hevent, -⟩⟩
    · cases hevent
      cases hkey
    · cases hevent

end KeyHold

end AlexRobot
