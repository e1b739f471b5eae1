import AlexRobot.Link.Operator

/-!
# The text that the operator types

In params mode two calls of `scanf` share the terminal: one takes the next character as a command,
the other the two numbers of a movement. What the second leaves is what the first goes on with. A
text in which every movement is followed by its numbers is taken apart exactly as it was
meant, blanks and newlines wherever `scanf` allows them.
-/

namespace AlexRobot

/-- `takeWhile` takes a list up to the first item that does not meet the test. -/
theorem takeWhile_append_stop {α : Type*} {p : α → Bool} {body rest : List α} (hbody : ∀ x ∈ body, p x = true)
    (hrest : ∀ x ∈ rest.head?, p x = false) : (body ++ rest).takeWhile p = body := by
  rw [List.takeWhile_append_of_pos hbody]
  cases rest with
  | nil => exact List.append_nil body
  | cons x rest =>
    rw [List.takeWhile_cons_of_neg (Bool.eq_false_iff.mp (hrest x rfl)), List.append_nil]

/-- `dropWhile` drops a list up to the first item that does not meet the test. -/
theorem dropWhile_append_stop {α : Type*} {p : α → Bool} {body rest : List α} (hbody : ∀ x ∈ body, p x = true)
    (hrest : ∀ x ∈ rest.head?, p x = false) : (body ++ rest).dropWhile p = rest := by
  rw [List.dropWhile_append_of_pos hbody]
  cases rest with
  | nil => rfl
  | cons x rest => rw [List.dropWhile_cons_of_neg (Bool.eq_false_iff.mp (hrest x rfl))]

/-- What `scanf` skips before a number: blanks, tabs and newlines, as many as there are. -/
def Blanks : Type := { chars : List Char // ∀ c ∈ chars, isSpace c = true }

/-- A decimal number that is in the range of `int`: its sign, if it was typed, and its digits. -/
structure Numeral where
  sign : Option Bool
  digits : List Char
  isDigit : ∀ c ∈ digits, c.isDigit = true
  nonempty : digits ≠ []
  inRange : digits.foldl (fun value digit => 10 * value + (digit.toNat - 48)) 0 < 2 ^ 31

namespace Numeral

/-- The characters of a number; the sign is `-` for `true`. -/
def chars (n : Numeral) : List Char :=
  (n.sign.map fun negative => if negative then '-' else '+').toList ++ n.digits

/-- The number that the characters stand for, with its sign. -/
def value (n : Numeral) : ℤ :=
  let value : ℕ := n.digits.foldl (fun value digit => 10 * value + (digit.toNat - 48)) 0
  if n.sign = some true then -value else value

end Numeral

/-- A decimal digit is neither a blank nor a sign. -/
theorem isDigit_cases {c : Char} (h : c.isDigit = true) : isSpace c = false ∧ c ≠ '-' ∧ c ≠ '+' := by
  have hrange : 48 ≤ c.toNat ∧ c.toNat ≤ 57 := by
    rw [Char.isDigit, Bool.and_eq_true] at h
    exact ⟨UInt32.le_iff_toNat_le.mp (of_decide_eq_true h.1), UInt32.le_iff_toNat_le.mp (of_decide_eq_true h.2)⟩
  refine ⟨?_, ?_, ?_⟩
  · rw [isSpace, Bool.or_eq_false_iff, decide_eq_false_iff_not, Bool.and_eq_false_iff, decide_eq_false_iff_not,
      decide_eq_false_iff_not]
    omega
  · rintro rfl
    exact absurd hrange.1 (by decide)
  · rintro rfl
    exact absurd hrange.1 (by decide)

namespace Numeral

variable (n : Numeral) (rest : List Char)

/-- The text of a number begins with its sign or with a digit. -/
theorem head_cases : (∃ digit ∈ n.digits, n.sign = none ∧ (n.chars ++ rest).head? = some digit) ∨
    (n.sign = some true ∧ n.chars ++ rest = '-' :: (n.digits ++ rest)) ∨
      (n.sign = some false ∧ n.chars ++ rest = '+' :: (n.digits ++ rest)) := by
  unfold chars
  cases hsign : n.sign with
  | some negative =>
    cases negative with
    | true => exact Or.inr (Or.inl ⟨rfl, rfl⟩)
    | false => exact Or.inr (Or.inr ⟨rfl, rfl⟩)
  | none =>
    cases hdigits : n.digits with
    | nil => exact absurd hdigits n.nonempty
    | cons digit digits => exact Or.inl ⟨digit, List.mem_cons_self, rfl, rfl⟩

/-- The text of a number does not begin with a blank. -/
theorem head_not_space : ∀ c ∈ (n.chars ++ rest).head?, isSpace c = false := by
  intro c hc
  rcases n.head_cases rest with ⟨digit, hdigit, -, hhead⟩ | ⟨-, hchars⟩ | ⟨-, hchars⟩
  · obtain rfl : digit = c := Option.some.inj (hhead.symm.trans hc)
    exact (isDigit_cases (n.isDigit digit hdigit)).1
  · rw [hchars] at hc
    obtain rfl := Option.some.inj hc
    rfl
  · rw [hchars] at hc
    obtain rfl := Option.some.inj hc
    rfl

/-- The text of a number begins with a minus exactly if the number was typed as a negative one. -/
theorem head_eq_minus_iff : (n.chars ++ rest).head? = some '-' ↔ n.sign = some true := by
  rcases n.head_cases rest with ⟨digit, hdigit, hsign, hhead⟩ | ⟨hsign, hchars⟩ | ⟨hsign, hchars⟩
  · rw [hhead, hsign]
    refine iff_of_false (fun h => ?_) nofun
    exact (isDigit_cases (n.isDigit digit hdigit)).2.1 (Option.some.inj h)
  · rw [hchars, hsign]
    exact iff_of_true rfl rfl
  · rw [hchars, hsign]
    exact iff_of_false (fun h => absurd (Option.some.inj h) (by decide)) (by decide)

/-- The text of a number is its digits once its sign is dropped. -/
theorem unsigned : (if (n.chars ++ rest).head? = some '-' ∨ (n.chars ++ rest).head? = some '+' then
    (n.chars ++ rest).tail else n.chars ++ rest) = n.digits ++ rest := by
  rcases n.head_cases rest with ⟨digit, hdigit, hsign, hhead⟩ | ⟨hsign, hchars⟩ | ⟨hsign, hchars⟩
  · obtain ⟨-, hminus, hplus⟩ := isDigit_cases (n.isDigit digit hdigit)
    rw [hhead, if_neg, chars, hsign]
    · rfl
    · rintro (h | h)
      · exact hminus (Option.some.inj h)
      · exact hplus (Option.some.inj h)
  · rw [hchars]
    exact if_pos (Or.inl rfl)
  · rw [hchars]
    exact if_pos (Or.inr rfl)

end Numeral

/-- `%d` reads a number that is typed after blanks, and stops behind its last digit. -/
theorem scanInt_numeral (blanks : Blanks) (n : Numeral) {rest : List Char}
    (hrest : ∀ c ∈ rest.head?, c.isDigit = false) :
    scanInt (blanks.val ++ (n.chars ++ rest)) = some (UInt32.ofInt n.value, rest) := by
  have hspaces : (blanks.val ++ (n.chars ++ rest)).dropWhile isSpace = n.chars ++ rest :=
    dropWhile_append_stop blanks.property (n.head_not_space rest)
  have hdigits : (n.digits ++ rest).takeWhile Char.isDigit = n.digits := takeWhile_append_stop n.isDigit hrest
  have hafter : (n.digits ++ rest).dropWhile Char.isDigit = rest := dropWhile_append_stop n.isDigit hrest
  unfold scanInt
  dsimp only
  rw [hspaces, n.unsigned rest, hdigits, hafter, if_neg n.nonempty]
  simp only [n.head_eq_minus_iff rest]
  rfl

/-- What `scanf("%d")` leaves unread; of input that does not match, the blanks and the sign are gone. -/
def scanIntRest (input : List Char) : List Char :=
  let input := input.dropWhile isSpace
  let input := if input.head? = some '-' ∨ input.head? = some '+' then input.tail else input
  input.dropWhile Char.isDigit

/-- What `scanf("%d %d")` leaves unread, of the second number or already of the first. -/
def scanfRest (input : List Char) : List Char :=
  match scanInt input with
  | none => scanIntRest input
  | some (_, rest) => scanIntRest rest

/-- When `scanf("%d")` reads a number, both models of it leave the same text unread. -/
theorem scanIntRest_eq {input rest : List Char} {value : UInt32} (h : scanInt input = some (value, rest)) :
    scanIntRest input = rest := by
  unfold scanInt at h
  dsimp only at h
  obtain ⟨-, hread⟩ := Option.ite_none_left_eq_some.mp h
  exact congrArg Prod.snd (Option.some.inj hread)

/-- The operator's program, and what was typed on its terminal but not read. -/
structure Console where
  session : Session
  terminal : List Char

namespace Console

/-- A call of `paramsControl`, if `main()` makes it; `residue` is what the stack holds for its packet.
It waits for a character, and after a movement for the one behind its numbers. -/
def step (keyName : Int32 → Char) (c : Console) (residue : TPacket) : Console :=
  match c.terminal with
  | [] => c
  | ch :: rest =>
    if c.session.Waiting .params then
      let session := c.session.step keyName (.typed ch residue rest)
      if (movement? ch).isSome then
        if scanfRest rest = [] then c else ⟨session, scanfRest rest⟩
      else ⟨session, rest⟩
    else c

end Console

/-- What a packet asks the Arduino for: its command, and what that does to the wheels. -/
def TPacket.request (packet : TPacket) : UInt8 × Effect := (packet.command, packet.effect)

/-- The keys after which `main()` goes on in params mode. -/
def StaysParams (key : Char) : Prop := (∀ mode, Ui.modeKey? key = some mode → mode = .params) ∧ ¬ Ui.IsQuit key

/-- What the operator types in params mode: a movement, with blanks before its distance, before its
power and one behind it; or another key that stays in the mode. -/
inductive Typed
  | movement (ch : Char) (d : TDirection) (hmove : movement? ch = some d) (before : Blanks) (dist : Numeral)
      (between : Blanks) (hbetween : between.val ≠ []) (power : Numeral) (behind : Char)
      (hbehind : isSpace behind = true)
  | other (ch : Char) (hmove : movement? ch = none) (hstays : StaysParams ch)

namespace Typed

/-- The text of what the operator types in params mode. -/
def chars : Typed → List Char
  | .movement ch _ _ before dist between _ power behind _ =>
    ch :: (before.val ++ (dist.chars ++ (between.val ++ (power.chars ++ [behind]))))
  | .other ch _ _ => [ch]

/-- What a key that is no movement asks the Arduino for. -/
def keyRequests : Char → List (UInt8 × Effect)
  | 'o' | 'O' => [(TCommandType.stop.code, .halt)]
  | 'k' | 'K' => [(TCommandType.clearStats.code, .clear)]
  | 'g' | 'G' => [(TCommandType.getStats.code, .ignore)]
  | 'v' | 'V' => [(TCommandType.color.code, .ignore)]
  | 'u' | 'U' => [(TCommandType.dist.code, .ignore)]
  | 'l' | 'L' => [(commandLcd, .ignore)]
  | _ => []

/-- What the operator asks the Arduino for by typing a movement or a key. -/
def requests : Typed → List (UInt8 × Effect)
  | .movement _ d _ _ dist _ _ power _ _ =>
    [(d.command.code, .start d (some (UInt32.ofInt dist.value)) (UInt32.ofInt power.value).toNat)]
  | .other ch _ _ => keyRequests ch

end Typed

/-- The six characters that `scanf` takes for blanks. -/
theorem mem_of_isSpace {c : Char} (h : isSpace c = true) :
    c ∈ [Char.ofNat 9, Char.ofNat 10, Char.ofNat 11, Char.ofNat 12, Char.ofNat 13, Char.ofNat 32] := by
  have hrange : c.toNat = 32 ∨ (9 ≤ c.toNat ∧ c.toNat ≤ 13) := by
    rwa [isSpace, Bool.or_eq_true, decide_eq_true_iff, Bool.and_eq_true, decide_eq_true_iff,
      decide_eq_true_iff] at h
  have hcases :
      c.toNat = 9 ∨ c.toNat = 10 ∨ c.toNat = 11 ∨ c.toNat = 12 ∨ c.toNat = 13 ∨ c.toNat = 32 := by omega
  rw [← Char.ofNat_toNat c]
  obtain h | h | h | h | h | h := hcases
  all_goals
    rw [h]
    decide

/-- A blank is no digit and no key of a command, of a mode or of quitting. -/
theorem isSpace_cases {c : Char} (h : isSpace c = true) :
    c.isDigit = false ∧ movement? c = none ∧ Ui.modeKey? c = none ∧ ¬ Ui.IsQuit c ∧
      Typed.keyRequests c = [] := by
  have hmem := mem_of_isSpace h
  simp only [List.mem_cons, List.not_mem_nil, or_false] at hmem
  obtain rfl | rfl | rfl | rfl | rfl | rfl := hmem
  all_goals exact ⟨rfl, rfl, rfl, by decide, rfl⟩

/-- A step with a key that stays in params mode waits in that mode again, and has sent what the key sends. -/
theorem step_typed (keyName : Int32 → Char) {s : Session} (hwaiting : s.Waiting .params) {ch : Char}
    (hstays : StaysParams ch) (residue : TPacket) (terminal : List Char) :
    (s.step keyName (.typed ch residue terminal)).Waiting .params ∧
      (s.step keyName (.typed ch residue terminal)).ui.sent =
        (s.ui.sendCommand ch residue (scanf terminal)).sent := by
  have hmode : (s.ui.sendCommand ch residue (scanf terminal)).keyboardMode = .params := by
    rw [Ui.sendCommand_keyboardMode]
    cases hkey : Ui.modeKey? ch with
    | none => exact hwaiting.2.2
    | some mode => exact hstays.1 mode hkey
  have hexit : (s.ui.sendCommand ch residue (scanf terminal)).exitFlag = false := by
    rw [Bool.eq_false_iff, ne_eq, Ui.sendCommand_exitFlag]
    rintro (hexit | hquit)
    · exact Bool.false_ne_true (hwaiting.2.1.symm.trans hexit)
    · exact hstays.2 hquit
  have hstep : s.step keyName (.typed ch residue terminal) =
      { s with ui := s.ui.sendCommand ch residue (scanf terminal) } := by
    rw [Session.step, if_pos hwaiting, Session.paramsControl, Session.mainLoop, if_neg]
    rintro ⟨-, hhold⟩
    cases hmode.symm.trans hhold
  rw [hstep]
  exact ⟨⟨hwaiting.1, hexit, hmode⟩, rfl⟩

section Keys

variable (u : Ui) (residue : TPacket) (scan : Scan)

/-- What a key that is no movement sends in params mode is what it asks for. -/
theorem requests_of_no_movement (hmode : u.keyboardMode = .params) {ch : Char} (hmove : movement? ch = none) :
    ∃ packets, (u.sendCommand ch residue scan).sent = u.sent ++ packets ∧
      packets.map TPacket.request = Typed.keyRequests ch := by
  have htype : u.commandType = .commandParam := by rw [Ui.commandType, hmode]
  obtain ⟨endwin, hendwin⟩ := u.endwin_eq
  obtain ⟨initscr, hinitscr⟩ := u.initscr_eq
  unfold Ui.sendCommand
  dsimp only
  rw [hendwin, hinitscr, htype]
  split
  -- The four digits; the eight movement keys; the keys of the six other commands.
  iterate 4 exact ⟨[], (List.append_nil _).symm, rfl⟩
  iterate 8 cases hmove
  iterate 12 exact ⟨_, rfl, rfl⟩
  iterate 4 exact ⟨[], (List.append_nil _).symm, rfl⟩
  · refine ⟨[], (List.append_nil _).symm, ?_⟩
    unfold Typed.keyRequests
    split
    all_goals first
      | rfl
      | contradiction

/-- What a movement sends in params mode asks for it with both numbers, when both are read. -/
theorem request_of_movement (hmode : u.keyboardMode = .params) {ch : Char} {d : TDirection}
    (hmove : movement? ch = some d) (a b : UInt32) :
    ∃ packet : TPacket, (u.sendCommand ch residue (.both a b)).sent = u.sent ++ [packet] ∧
      packet.request = (d.command.code, .start d (some a) b.toNat) := by
  have htype : u.commandType = .commandParam := by rw [Ui.commandType, hmode]
  have hparams : movementPacket u d residue (.both a b) =
      { ({ residue with packetType := TPacketType.commandParam.code }.setParam 0 a).setParam 1 b with
        command := d.command.code } := by
    rw [movementPacket, Ui.getParams, htype, hmode]
    rfl
  have hdist : (movementPacket u d residue (.both a b)).param 0 = a := by
    rw [hparams]
    change ((TPacket.setParam _ 0 a).setParam 1 b).param 0 = a
    rw [TPacket.param_setParam _ (Nat.one_lt_succ_succ 14), if_neg Nat.one_ne_zero,
      TPacket.param_setParam _ (Nat.zero_lt_succ 15), if_pos rfl]
  have hpower : (movementPacket u d residue (.both a b)).param 1 = b := by
    rw [hparams]
    change (TPacket.setParam _ 1 b).param 1 = b
    rw [TPacket.param_setParam _ (Nat.one_lt_succ_succ 14), if_pos rfl]
  refine ⟨movementPacket u d residue (.both a b), ?_, ?_⟩
  · rw [sendCommand_sent, newPackets_eq hmove]
  · have heffect : (movementPacket u d residue (.both a b)).effect = .start d
        (some ((movementPacket u d residue (.both a b)).param 0))
        ((movementPacket u d residue (.both a b)).param 1).toNat := by
      have hcode : TPacketType.ofCode? (movementPacket u d residue (.both a b)).packetType =
          some .commandParam := by
        rw [movementPacket_packetType, htype]
        rfl
      rw [TPacket.effect, hcode]
      exact commandEffect_command _ d
    rw [TPacket.request, heffect, hdist, hpower]
    rfl

end Keys

/-- Two numbers that are typed with blanks are read, up to the blank behind the second. -/
theorem scan_numerals (before : Blanks) (dist : Numeral) {between : Blanks} (hbetween : between.val ≠ [])
    (power : Numeral) {behind : Char} (hbehind : isSpace behind = true) (rest : List Char) :
    let input := before.val ++ (dist.chars ++ (between.val ++ (power.chars ++ behind :: rest)))
    scanf input = .both (UInt32.ofInt dist.value) (UInt32.ofInt power.value) ∧
      scanfRest input = behind :: rest := by
  intro input
  have hsecond : scanInt (between.val ++ (power.chars ++ behind :: rest)) =
      some (UInt32.ofInt power.value, behind :: rest) := by
    apply scanInt_numeral between power
    intro c hc
    obtain rfl := Option.some.inj hc
    exact (isSpace_cases hbehind).1
  have hfirst : scanInt input =
      some (UInt32.ofInt dist.value, between.val ++ (power.chars ++ behind :: rest)) := by
    apply scanInt_numeral before dist
    intro c hc
    rw [List.head?_append_of_ne_nil _ hbetween] at hc
    exact (isSpace_cases (between.property c (List.mem_of_mem_head? hc))).1
  constructor
  · rw [scanf, hfirst]
    dsimp only
    rw [hsecond]
  · rw [scanfRest, hfirst]
    exact scanIntRest_eq hsecond

/-- A movement key asks for no mode, and does not end the program. -/
theorem staysParams_of_movement {ch : Char} {d : TDirection} (h : movement? ch = some d) : StaysParams ch := by
  have hkey : Ui.modeKey? ch = none ∧ ¬ Ui.IsQuit ch := by
    unfold movement? at h
    split at h
    iterate 8 exact ⟨rfl, by decide⟩
    cases h
  exact ⟨fun mode hmode => absurd (hkey.1.symm.trans hmode) nofun, hkey.2⟩

/-- A blank that is read as a key stays in params mode. -/
theorem staysParams_of_isSpace {ch : Char} (h : isSpace ch = true) : StaysParams ch := by
  obtain ⟨-, -, hmode, hquit, -⟩ := isSpace_cases h
  exact ⟨fun mode hkey => absurd (hmode.symm.trans hkey) nofun, hquit⟩

namespace Console

variable (keyName : Int32 → Char)

/-- The program has read up to the given rest of the text, and has sent packets with these requests. -/
structure Reads (s : Session) (requests : List (UInt8 × Effect)) (rest : List Char) (c : Console) : Prop where
  waiting : c.session.Waiting .params
  terminal : c.terminal = rest
  sent : ∃ packets, c.session.ui.sent = s.ui.sent ++ packets ∧ packets.map TPacket.request = requests

/-- One call of `paramsControl` reads a key that is no movement. -/
theorem step_other {s : Session} (h : s.Waiting .params) {ch : Char} (hmove : movement? ch = none)
    (hstays : StaysParams ch) (rest : List Char) (residue : TPacket) :
    Reads s (Typed.keyRequests ch) rest (step keyName ⟨s, ch :: rest⟩ residue) := by
  obtain ⟨hwaiting, hsent⟩ := step_typed keyName h hstays residue rest
  obtain ⟨packets, hpackets, hrequests⟩ :=
    requests_of_no_movement s.ui residue (scanf rest) h.2.2 hmove
  have hstep : step keyName ⟨s, ch :: rest⟩ residue = ⟨s.step keyName (.typed ch residue rest), rest⟩ := by
    rw [step]
    dsimp only
    rw [if_pos h, hmove]
    rfl
  rw [hstep]
  exact ⟨hwaiting, rfl, packets, hsent.trans hpackets, hrequests⟩

/-- One call of `paramsControl` reads a movement with its numbers, up to the blank behind them. -/
theorem step_movement {s : Session} (h : s.Waiting .params) {ch : Char} {d : TDirection}
    (hmove : movement? ch = some d) {input rest : List Char} {a b : UInt32} (hscan : scanf input = .both a b)
    (hrest : scanfRest input = rest) (hne : rest ≠ []) (residue : TPacket) :
    Reads s [(d.command.code, .start d (some a) b.toNat)] rest (step keyName ⟨s, ch :: input⟩ residue) := by
  obtain ⟨hwaiting, hsent⟩ := step_typed keyName h (staysParams_of_movement hmove) residue input
  obtain ⟨packet, hpacket, hrequest⟩ := request_of_movement s.ui residue h.2.2 hmove a b
  have hstep : step keyName ⟨s, ch :: input⟩ residue = ⟨s.step keyName (.typed ch residue input), rest⟩ := by
    rw [step]
    dsimp only
    rw [if_pos h, hmove, hrest, if_neg hne]
    rfl
  rw [hstep]
  rw [hscan] at hsent
  exact ⟨hwaiting, rfl, [packet], hsent.trans hpacket, congrArg (fun request => [request]) hrequest⟩

variable {keyName}

/-- What is read first and what is read after it are read together. -/
theorem Reads.trans {s : Session} {c c' : Console} {first second : List (UInt8 × Effect)}
    {rest rest' : List Char}
    (h : Reads s first rest c) (h' : Reads c.session second rest' c') : Reads s (first ++ second) rest' c' := by
  obtain ⟨packets, hsent, hfirst⟩ := h.sent
  obtain ⟨later, hsent', hsecond⟩ := h'.sent
  refine ⟨h'.waiting, h'.terminal, packets ++ later, ?_, ?_⟩
  · rw [hsent', hsent, List.append_assoc]
  · rw [List.map_append, hfirst, hsecond]

variable (keyName)

/-- What the operator types is read by at most as many calls of `paramsControl` as it has characters. -/
theorem reads_typed (typed : Typed) {s : Session} (h : s.Waiting .params) (rest : List Char) :
    ∃ n ≤ typed.chars.length, ∀ residues : List TPacket, residues.length = n →
      Reads s typed.requests rest (Run.after (step keyName) ⟨s, typed.chars ++ rest⟩ residues) := by
  cases typed with
  | other ch hmove hstays =>
    refine ⟨1, le_rfl, fun residues hlength => ?_⟩
    obtain ⟨residue, rfl⟩ := List.length_eq_one_iff.mp hlength
    exact step_other keyName h hmove hstays rest residue
  | movement ch d hmove before dist between hbetween power behind hbehind =>
    refine ⟨2, ?_, fun residues hlength => ?_⟩
    · simp only [Typed.chars, List.length_cons, List.length_append, List.length_nil]
      omega
    · obtain ⟨residue, residue', rfl⟩ := List.length_eq_two.mp hlength
      have htext : (Typed.movement ch d hmove before dist between hbetween power behind hbehind).chars ++ rest =
          ch :: (before.val ++ (dist.chars ++ (between.val ++ (power.chars ++ behind :: rest)))) := by
        simp only [Typed.chars, List.cons_append, List.append_assoc, List.nil_append]
      obtain ⟨hscan, hrest⟩ := scan_numerals before dist hbetween power hbehind rest
      have hmovement := step_movement keyName h hmove hscan hrest (List.cons_ne_nil _ _) residue
      obtain ⟨-, hnone, -, -, hnothing⟩ := isSpace_cases hbehind
      have hblank := step_other keyName hmovement.waiting hnone (staysParams_of_isSpace hbehind) rest residue'
      rw [hnothing] at hblank
      rw [htext, Run.after_cons, Run.after_cons]
      apply hmovement.trans
      generalize hafter : step keyName ⟨s, _⟩ residue = c at hmovement hblank ⊢
      obtain ⟨session, terminal⟩ := c
      obtain rfl : terminal = behind :: rest := hmovement.terminal
      exact hblank

/-- With nothing typed, `main()` waits in params mode and sends nothing. -/
theorem after_empty (s : Session) (residues : List TPacket) :
    Run.after (step keyName) ⟨s, []⟩ residues = ⟨s, []⟩ := by
  induction residues with
  | nil => rfl
  | cons residue residues ih => exact ih

/-- A text that is typed in params mode, in which every movement has its two numbers, is read to its
end, and sends just the packets that were meant, in order, whatever the stack holds: each movement with
its own distance and power. -/
theorem script_read (script : List Typed) {s : Session} (h : s.Waiting .params) (residues : List TPacket)
    (hlength : (script.flatMap Typed.chars).length ≤ residues.length) :
    Reads s (script.flatMap Typed.requests) []
      (Run.after (step keyName) ⟨s, script.flatMap Typed.chars⟩ residues) := by
  induction script generalizing s residues with
  | nil =>
    rw [List.flatMap_nil, List.flatMap_nil, after_empty]
    exact ⟨h, rfl, [], (List.append_nil _).symm, rfl⟩
  | cons typed script ih =>
    rw [List.flatMap_cons, List.flatMap_cons] at *
    obtain ⟨n, hn, hreads⟩ := reads_typed keyName typed h (script.flatMap Typed.chars)
    rw [List.length_append] at hlength
    have hfirst := hreads (residues.take n) (List.length_take_of_le (by omega))
    have hrest := ih hfirst.waiting (residues.drop n) (by rw [List.length_drop]; omega)
    rw [← List.take_append_drop n residues, Run.after_append]
    apply hfirst.trans
    generalize Run.after (step keyName) ⟨s, _⟩ (residues.take n) = c at hfirst hrest ⊢
    obtain ⟨session, terminal⟩ := c
    obtain rfl : terminal = script.flatMap Typed.chars := hfirst.terminal
    exact hrest

/-- The line `w50 -75` as the operator types it, and a stop behind it. -/
def someScript : List Typed :=
  [.movement 'w' .forward rfl ⟨[], List.forall_mem_nil _⟩
      ⟨none, ['5', '0'], List.all_eq_true.mp rfl, nofun, by decide⟩ ⟨[' '], List.all_eq_true.mp rfl⟩ nofun
      ⟨some true, ['7', '5'], List.all_eq_true.mp rfl, nofun, by decide⟩ '\n' rfl,
    .other 'o' rfl ⟨nofun, by decide⟩]

example : someScript.flatMap Typed.chars = "w50 -75\no".toList := by decide

/-- The program reads the line and the stop as it starts. -/
theorem someScript_read :
    Reads (.initial (.bare .hello .stop)) (someScript.flatMap Typed.requests) []
      (Run.after (step fun _ => ' ') ⟨.initial (.bare .hello .stop), someScript.flatMap Typed.chars⟩
        (List.replicate 9 (.bare .hello .stop))) :=
  script_read (fun _ => ' ') someScript ⟨rfl, rfl, rfl⟩ (List.replicate 9 (.bare .hello .stop)) (by decide)

end Console

end AlexRobot
