import AlexRobot.Pi.StepCommand

/-!
# Quitting

The exit flag is read by the loop of `main()` alone. In the modes that return to `main()` after
every key nothing more is sent once it is set; key-hold mode has an event loop of its own, which
goes on sending commands until the window is closed.
-/

namespace AlexRobot

namespace Session

/-- From this state on, every packet that any step sends is a stop, for the release of a key that is
held now. -/
def QuitLaw (keyName : Int32 → Char) (s : Session) : Prop :=
  ∀ (later : List Input) (input : Input),
    ∀ packet ∈ sends keyName (Run.after (step keyName) s later) input,
      packet.command = TCommandType.stop.code ∧
        ∃ poll key, input = .poll poll ∧ poll.event = some (.keyUp key) ∧ key ∈ s.held

/-- The program is on its way out: `main()` calls no control function any more. -/
def Ended (s : Session) : Prop := s.inside = false ∧ s.ui.exitFlag = true

/-- The loop of `main()` makes no further round once the exit flag is set. -/
theorem mainLoop_of_exit {s : Session} (h : s.ui.exitFlag = true) : s.mainLoop = s := by
  rw [mainLoop, if_neg]
  intro hrunning
  cases h.symm.trans hrunning.1

/-- A program that ends in the loop of `main()` stays where it is. -/
theorem mainLoop_inside {s : Session} (h : s.mainLoop.ui.exitFlag = true) : s.mainLoop.inside = s.inside := by
  rw [mainLoop_of_exit (by rwa [mainLoop_ui] at h)]

/-- A control function does not wait for input in a program that ends. -/
theorem Ended.not_waiting {s : Session} (h : s.Ended) (mode : KeyboardMode) : ¬ s.Waiting mode :=
  fun hwaiting => Bool.false_ne_true (hwaiting.2.1.symm.trans h.2)

/-- A step of a program that ends sends nothing and leaves it so. -/
theorem step_of_ended (keyName : Int32 → Char) {s : Session} (h : s.Ended) (input : Input) :
    (s.step keyName input).Ended ∧ (s.step keyName input).ui.sent = s.ui.sent := by
  cases input with
  | typed ch residue terminal =>
    rw [step, if_neg (h.not_waiting .params)]
    exact ⟨h, rfl⟩
  | getch c residue =>
    rw [step, if_neg (h.not_waiting .keyPress), if_neg (h.not_waiting .smallAdjustment)]
    exact ⟨h, rfl⟩
  | poll poll =>
    rw [step, KeyHold.step_of_outside keyName h.1]
    exact ⟨h, rfl⟩
  | received packet =>
    obtain ⟨screen, clear, hhandled⟩ := s.ui.handlePacket_eq packet
    rw [step, hhandled]
    exact ⟨h, rfl⟩

/-- A program that ends obeys the law: it sends nothing. -/
theorem quitLaw_of_ended (keyName : Int32 → Char) {s : Session} (h : s.Ended) : QuitLaw keyName s := by
  intro later input packet hpacket
  have hstep (s : Session) (input : Input) (hs : s.Ended) : (s.step keyName input).Ended :=
    (step_of_ended keyName hs input).1
  have hended := Run.after_invariant hstep h later
  rw [sends, (step_of_ended keyName hended input).2, List.drop_length] at hpacket
  exact absurd hpacket List.not_mem_nil

/-- The release of any key leaves a running event loop ready for the next press. -/
theorem step_keyUp (keyName : Int32 → Char) {s : Session} (hinside : s.inside = true)
    (hstop : s.flags.stop = false) (key : Int32) :
    let after := s.step keyName (.poll (.of (.keyUp key)))
    after.inside = true ∧ after.flags.stop = false ∧ after.flags.keyAlreadyPressed = false := by
  have hevent : (Poll.of (.keyUp key)).event = some (.keyUp key) := rfl
  dsimp only [step]
  rw [KeyHold.step_of_event hinside hstop hevent, KeyHold.handleEvent, KeyHold.keyUp_eq]
  exact ⟨hinside, hstop, rfl⟩

/-- In an event loop that is ready, W drives the robot forward. -/
theorem sends_forward {keyName : Int32 → Char} (hletters : KeyHold.LetterNames keyName) {s : Session}
    (hinside : s.inside = true) (hstop : s.flags.stop = false) (hflag : s.flags.keyAlreadyPressed = false) :
    ∃ packet ∈ sends keyName s (.poll (.of (.keyDown 119))), packet.command = TCommandType.forward.code := by
  have hname : keyName 119 = 'W' := hletters 22
  have hcommand : s.toKeyHold.command keyName (.of (.keyDown 119)) = some 'W' := by
    rw [KeyHold.command, if_pos ⟨hinside, hstop⟩, ← hname]
    exact if_pos (by rw [hflag]; rfl)
  let ready : Ui := { s.ui with clearToSendCommand := true }
  obtain ⟨packet, hsent, hforward⟩ : ∃ packet : TPacket,
      (ready.sendCommand 'W' (Poll.of (.keyDown 119)).residue (Poll.of (.keyDown 119)).scan).sent =
        s.ui.sent ++ [packet] ∧ packet.command = TCommandType.forward.code := ⟨_, rfl, rfl⟩
  refine ⟨packet, ?_, hforward⟩
  rw [sends, step, (KeyHold.step_of_command hcommand).1, hsent, List.drop_left]
  exact List.mem_singleton_self packet

/-- While the event loop of key-hold mode runs, the law fails. -/
theorem not_quitLaw_of_inside {keyName : Int32 → Char} (hletters : KeyHold.LetterNames keyName) {s : Session}
    (hinside : s.inside = true) (hstop : s.flags.stop = false) : ¬ QuitLaw keyName s := by
  intro hlaw
  obtain ⟨hinside', hstop', hflag⟩ := step_keyUp keyName hinside hstop 0
  obtain ⟨packet, hpacket, hforward⟩ := sends_forward hletters hinside' hstop' hflag
  obtain ⟨hcommand, -⟩ := hlaw [.poll (.of (.keyUp 0))] (.poll (.of (.keyDown 119))) packet hpacket
  exact absurd (hforward.symm.trans hcommand) (by decide)

/-- A key of key-press mode that leaves the exit flag set does not enter key-hold mode. -/
theorem pressAndPress_inside {s : Session} {c : Int32} {residue : TPacket}
    (h : (s.pressAndPress c residue).ui.exitFlag = true) : (s.pressAndPress c residue).inside = s.inside := by
  unfold pressAndPress at h ⊢
  dsimp only at h ⊢
  split at h
  · rename_i hignores
    rw [if_pos hignores]
  · rename_i hignores
    rw [if_neg hignores]
    exact mainLoop_inside h

/-- A key of small-adjustment mode leaves the program outside the event loop of key-hold mode. -/
theorem timedMovement_inside {s : Session} {c : Int32} {residue : TPacket}
    (h : (s.timedMovement c residue).ui.exitFlag = true) : (s.timedMovement c residue).inside = s.inside := by
  unfold timedMovement at h ⊢
  dsimp only at h ⊢
  split at h
  · rename_i hc
    rw [if_pos hc]
  · rename_i hc
    rw [if_neg hc]
    exact mainLoop_inside h

section Quits

variable {keyName : Int32 → Char} {s : Session} {input : Input} (hbefore : s.ui.exitFlag = false)
  (hafter : (s.step keyName input).ui.exitFlag = true)

include hbefore hafter

/-- The exit flag is set only by a step that leads to a command. -/
theorem command_of_quits : ∃ key, s.command keyName input = some key := by
  cases hcommand : s.command keyName input with
  | some key => exact ⟨key, rfl⟩
  | none =>
    obtain ⟨u, v, hcore, hadjusts, hstep⟩ := step_of_no_command hcommand
    obtain ⟨mode, speed, delayTime, screen, rfl⟩ := hadjusts.eq
    have hexit : (s.step keyName input).ui.exitFlag = u.exitFlag := ((Ui.core_eq_iff _ _).mp hstep).1
    cases hbefore.symm.trans (((Ui.core_eq_iff _ _).mp hcore).1.symm.trans (hexit.symm.trans hafter))

/-- Outside key-hold mode a step that quits ends the program. -/
theorem ended_of_quits (houtside : s.inside = false) : (s.step keyName input).Ended := by
  refine ⟨?_, hafter⟩
  obtain ⟨key, hcommand⟩ := command_of_quits hbefore hafter
  cases input with
  | typed ch residue terminal =>
    have hwaiting := (Option.ite_none_right_eq_some.mp hcommand).1
    rw [step, if_pos hwaiting, paramsControl] at hafter ⊢
    exact (mainLoop_inside hafter).trans houtside
  | getch c residue =>
    rw [step] at hafter ⊢
    split at hafter
    · rename_i hpress
      rw [if_pos hpress]
      exact (pressAndPress_inside hafter).trans houtside
    · rename_i hpress
      rw [if_neg hpress]
      split at hafter
      · rename_i hadjust
        rw [if_pos hadjust]
        exact (timedMovement_inside hafter).trans houtside
      · rename_i hadjust
        rw [if_neg hadjust]
        exact houtside
  | poll poll =>
    cases houtside.symm.trans (Option.ite_none_right_eq_some.mp hcommand).1.1
  | received packet => cases hcommand

/-- In key-hold mode a step that quits leaves the event loop running. -/
theorem running_of_quits (hinside : s.inside = true) :
    (s.step keyName input).inside = true ∧ (s.step keyName input).flags.stop = false := by
  have hnowhere (mode : KeyboardMode) : ¬ s.Waiting mode :=
    fun hwaiting => Bool.false_ne_true (hwaiting.1.symm.trans hinside)
  obtain ⟨key, hcommand⟩ := command_of_quits hbefore hafter
  cases input with
  | typed ch residue terminal =>
    rw [command, if_neg (hnowhere .params)] at hcommand
    cases hcommand
  | getch c residue =>
    rw [command, if_neg (hnowhere .keyPress), if_neg (hnowhere .smallAdjustment)] at hcommand
    cases hcommand
  | poll poll => exact (KeyHold.step_of_command hcommand).2
  | received packet => cases hcommand

end Quits

/-- After any history, a step that quits ends the sending exactly if it is not taken in the event loop of
key-hold mode. -/
theorem quit_ends_session (keyName : Int32 → Char) (residue : TPacket) (history : List Input) (input : Input)
    (hletters : KeyHold.LetterNames keyName)
    (hbefore : (Run.after (step keyName) (initial residue) history).ui.exitFlag = false)
    (hafter : ((Run.after (step keyName) (initial residue) history).step keyName input).ui.exitFlag = true) :
    QuitLaw keyName ((Run.after (step keyName) (initial residue) history).step keyName input) ↔
      (Run.after (step keyName) (initial residue) history).inside = false := by
  constructor
  · intro hlaw
    by_contra hrunning
    rw [Bool.not_eq_false] at hrunning
    obtain ⟨hinside, hstop⟩ := running_of_quits hbefore hafter hrunning
    exact not_quitLaw_of_inside hletters hinside hstop hlaw
  · intro houtside
    exact quitLaw_of_ended keyName (ended_of_quits hbefore hafter houtside)

/-- Q in key-hold mode sets the exit flag, and the robot still follows the keys. -/
theorem quit_ends_session_refuted : ¬ ∀ (keyName : Int32 → Char) (residue : TPacket) (history : List Input)
    (input : Input), KeyHold.LetterNames keyName →
      (Run.after (step keyName) (initial residue) history).ui.exitFlag = false →
        ((Run.after (step keyName) (initial residue) history).step keyName input).ui.exitFlag = true →
          QuitLaw keyName ((Run.after (step keyName) (initial residue) history).step keyName input) := by
  intro hclaim
  let residue : TPacket := .bare .hello .forward
  let history : List Input := [.typed '2' residue []]
  let input : Input := .poll (.of (.keyDown 113))
  have hbefore : (Run.after (step KeyHold.asciiName) (initial residue) history).ui.exitFlag = false := by decide
  have hafter : ((Run.after (step KeyHold.asciiName) (initial residue) history).step
      KeyHold.asciiName input).ui.exitFlag = true := by decide
  have hlaw := hclaim KeyHold.asciiName residue history input KeyHold.asciiName_letterNames hbefore hafter
  obtain ⟨hinside, hstop⟩ := running_of_quits hbefore hafter (by decide)
  exact not_quitLaw_of_inside KeyHold.asciiName_letterNames hinside hstop hlaw

/-- Q in params mode sets the exit flag and ends the session. -/
theorem q_ends_session : QuitLaw KeyHold.asciiName ((initial (.bare .hello .forward)).step KeyHold.asciiName
    (.typed 'q' (.bare .commandParam .stop) [])) := by
  have hquit := quit_ends_session KeyHold.asciiName (.bare .hello .forward) []
    (.typed 'q' (.bare .commandParam .stop) []) KeyHold.asciiName_letterNames (by decide) (by decide)
  exact hquit.mpr (by decide)

end Session

end AlexRobot
