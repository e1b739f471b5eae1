import AlexRobot.Common.Blocks

/-!
# A line that may lose items

A sender puts whole blocks on a line, and a reader takes their items off it in chunks of its own
size. Which items are lost on the way is a pattern on their positions in the stream. The items that
are not lost are those of the blocks that the reader has completed, those it holds back and those
still in transit, in this order. From that balance alone the blocks of a line that loses nothing
arrive whole, once each and in order, however the steps of the two ends interleave.
-/

namespace Blocks

variable {α : Type*}

/-- The items of a stream that are not lost, where `lost i` says that the item at position `i` is lost
and the first of these items is at position `first`. -/
def carried (lost : ℕ → Bool) (first : ℕ) : List α → List α
  | [] => []
  | item :: rest => if lost first then carried lost (first + 1) rest else item :: carried lost (first + 1) rest

/-- The items carried for a stream in two parts are those carried for each part at its own position. -/
theorem carried_append (lost : ℕ → Bool) (first : ℕ) (items later : List α) :
    carried lost first (items ++ later) = carried lost first items ++
      carried lost (first + items.length) later := by
  induction items generalizing first with
  | nil => rfl
  | cons item rest ih =>
    have hposition : first + 1 + rest.length = first + (item :: rest).length := by
      rw [List.length_cons, Nat.add_assoc, Nat.add_comm 1]
    rw [List.cons_append, carried, carried, ih, hposition]
    split
    · rfl
    · rfl

/-- A pattern that loses no item carries the whole stream. -/
theorem carried_eq_self {lost : ℕ → Bool} (h : ∀ i, lost i = false) (first : ℕ) (items : List α) :
    carried lost first items = items := by
  induction items generalizing first with
  | nil => rfl
  | cons item rest ih => rw [carried, h first, if_neg Bool.false_ne_true, ih]

/-- Full blocks have as many items as there are blocks times the length of a block. -/
theorem length_flatten_of_full {n : ℕ} {front : List (List α)} (h : ∀ block ∈ front, block.length = n) :
    front.flatten.length = front.length * n := by
  induction front with
  | nil => exact (Nat.zero_mul n).symm
  | cons block rest ih =>
    rw [List.flatten_cons, List.length_append, h block List.mem_cons_self, List.length_cons, Nat.succ_mul,
      Nat.add_comm, ih fun later hlater => h later (List.mem_cons_of_mem _ hlater)]

/-- A line for blocks of `n` items, with the pattern of the items that it loses, the blocks that were
put on it and the blocks that its reader has completed. -/
structure Line (α : Type*) (n : ℕ) where
  lost : ℕ → Bool
  sent : List (List α)
  transit : List α
  reader : Reader α n
  delivered : List (List α)
  sent_full : ∀ block ∈ sent, block.length = n
  delivered_full : ∀ block ∈ delivered, block.length = n
  balance : carried lost 0 sent.flatten = delivered.flatten ++ (reader.pending ++ transit)

namespace Line

variable {n : ℕ}

/-- A line with the given losses that nothing has been put on yet. -/
def empty (hn : 0 < n) (lost : ℕ → Bool) : Line α n where
  lost := lost
  sent := []
  transit := []
  reader := ⟨[], hn⟩
  delivered := []
  sent_full _ h := absurd h List.not_mem_nil
  delivered_full _ h := absurd h List.not_mem_nil
  balance := rfl

/-- The sender puts blocks on the line, and the items of them that are not lost get into transit. -/
def put (line : Line α n) (new : List (List α)) (hnew : ∀ block ∈ new, block.length = n) : Line α n where
  lost := line.lost
  sent := line.sent ++ new
  transit := line.transit ++ carried line.lost line.sent.flatten.length new.flatten
  reader := line.reader
  delivered := line.delivered
  sent_full block h := (List.mem_append.mp h).elim (line.sent_full block) (hnew block)
  delivered_full := line.delivered_full
  balance := by
    rw [List.flatten_append, carried_append, Nat.zero_add, line.balance, List.append_assoc, List.append_assoc]

/-- Putting no block on the line leaves the line as it is. -/
theorem put_nil (line : Line α n) (hnew : ∀ block ∈ ([] : List (List α)), block.length = n) :
    line.put [] hnew = line := by
  cases line
  simp only [put, List.append_nil, List.flatten_nil, carried]

/-- The items that the reader finds when it takes at most `count` of them. -/
def chunk (line : Line α n) (count : ℕ) : List α := line.transit.take count

/-- The reader takes at most `count` items, and completes the blocks that end in them. -/
def take (line : Line α n) (count : ℕ) : Line α n where
  lost := line.lost
  sent := line.sent
  transit := line.transit.drop count
  reader := line.reader.feed (line.chunk count)
  delivered := line.delivered ++ line.reader.completed (line.chunk count)
  sent_full := line.sent_full
  delivered_full block h := (List.mem_append.mp h).elim (line.delivered_full block) length_of_mem_blocks
  balance := by
    have hcut := flatten_blocks_append_remainder n (line.reader.pending ++ line.chunk count)
    have htransit : line.chunk count ++ line.transit.drop count = line.transit := List.take_append_drop ..
    rw [line.balance, List.flatten_append, List.append_assoc]
    congr 1
    rw [Reader.completed, Reader.feed, ← List.append_assoc, hcut, List.append_assoc, htransit]

/-- A chunk is no longer than the number of items asked for. -/
theorem chunk_length_le (line : Line α n) (count : ℕ) : (line.chunk count).length ≤ count :=
  List.length_take_le count line.transit

/-- The line loses no item, at whatever position of the stream. -/
def Lossless (line : Line α n) : Prop := ∀ i, line.lost i = false

/-- The blocks that can be cut from the items that the line carries are first ones of the blocks sent. -/
def Faithful (line : Line α n) : Prop := blocks n (carried line.lost 0 line.sent.flatten) <+: line.sent

section

variable {line : Line α n}

/-- The blocks carried are those delivered and those that the rest of the line still holds. -/
theorem blocks_carried (line : Line α n) : blocks n (carried line.lost 0 line.sent.flatten) =
    line.delivered ++ blocks n (line.reader.pending ++ line.transit) := by
  rw [line.balance, (blocks_flatten_append (Nat.zero_lt_of_lt line.reader.short) line.delivered
    line.delivered_full _).1]

/-- The blocks sent are the blocks that can be cut from the whole stream. -/
theorem blocks_sent (line : Line α n) : blocks n line.sent.flatten = line.sent := by
  have hn := Nat.zero_lt_of_lt line.reader.short
  have hnil : blocks n ([] : List α) = [] := blocks_of_lt hn
  have hsent := (blocks_flatten_append hn line.sent line.sent_full []).1
  rwa [List.append_nil, hnil, List.append_nil] at hsent

/-- A line that has carried the whole stream is faithful. -/
theorem faithful_of_carried (h : carried line.lost 0 line.sent.flatten = line.sent.flatten) : line.Faithful :=
  ⟨[], (List.append_nil _).trans ((congrArg (blocks n) h).trans line.blocks_sent)⟩

/-- A line that loses nothing is faithful, as it carries the whole stream. -/
theorem Lossless.faithful (h : line.Lossless) : line.Faithful := faithful_of_carried (carried_eq_self h _ _)

/-- The reader of a faithful line gets the blocks in the order in which they were sent, none twice and
none left out. -/
theorem Faithful.delivered_isPrefix (h : line.Faithful) : line.delivered <+: line.sent := by
  rw [Faithful, line.blocks_carried] at h
  exact (List.prefix_append _ _).trans h

/-- A chunk of a faithful line completes the blocks that were sent next. -/
theorem Faithful.completed_isPrefix (h : line.Faithful) (count : ℕ) :
    line.delivered ++ line.reader.completed (line.chunk count) <+: line.sent := by
  have htaken : (line.take count).Faithful := h
  exact htaken.delivered_isPrefix

/-- The blocks that a chunk of a faithful line completes were sent. -/
theorem Faithful.mem_sent (h : line.Faithful) {count : ℕ} {block : List α}
    (hblock : block ∈ line.reader.completed (line.chunk count)) : block ∈ line.sent :=
  (h.completed_isPrefix count).subset (List.mem_append_right _ hblock)

/-- Once nothing is in transit on a line that loses nothing, every block that was sent was delivered. -/
theorem Lossless.delivered_eq (h : line.Lossless) (hempty : line.transit = []) :
    line.delivered = line.sent := by
  have hcarried := line.blocks_carried
  rw [carried_eq_self h, line.blocks_sent, hempty, List.append_nil, blocks_of_lt line.reader.short,
    List.append_nil] at hcarried
  exact hcarried.symm

/-- The items that the reader has taken off the line so far. -/
def taken (line : Line α n) : List α := line.delivered.flatten ++ line.reader.pending

/-- Every item that the line carries was taken or is in transit. -/
theorem taken_append_transit (line : Line α n) :
    line.taken ++ line.transit = carried line.lost 0 line.sent.flatten := by
  rw [taken, List.append_assoc, line.balance]

/-- Taking a chunk adds exactly its items to those taken before. -/
theorem taken_take (line : Line α n) (count : ℕ) :
    (line.take count).taken = line.taken ++ line.chunk count := by
  have htransit : line.chunk count ++ line.transit.drop count = line.transit := List.take_append_drop ..
  have hbalance := (line.take count).taken_append_transit
  have hsame : carried (line.take count).lost 0 (line.take count).sent.flatten =
      carried line.lost 0 line.sent.flatten := rfl
  rw [hsame, ← line.taken_append_transit, ← htransit, ← List.append_assoc] at hbalance
  exact List.append_cancel_right hbalance

/-- Once the reader of a line that loses nothing has taken as many items as some first blocks have,
these blocks are delivered. -/
theorem Lossless.delivered_of_taken (h : line.Lossless) {early : List (List α)} (hearly : early <+: line.sent)
    (htaken : early.flatten.length ≤ line.taken.length) : early <+: line.delivered := by
  have hfull : ∀ block ∈ early, block.length = n := fun block hblock =>
    line.sent_full block (hearly.subset hblock)
  have hshort := line.reader.short
  rw [taken, List.length_append, length_flatten_of_full hfull,
    length_flatten_of_full line.delivered_full] at htaken
  have hlength : early.length < line.delivered.length + 1 := by
    apply Nat.lt_of_mul_lt_mul_right (a := n)
    rw [Nat.add_mul, Nat.one_mul]
    exact htaken.trans_lt (Nat.add_lt_add_left hshort _)
  exact List.prefix_of_prefix_length_le hearly h.faithful.delivered_isPrefix (Nat.le_of_lt_succ hlength)

end

/-- From one state of a line to a later one the reader has taken `count` items, or all that the line
carried then. -/
structure Advances (count : ℕ) (line later : Line α n) : Prop where
  lost : later.lost = line.lost
  sent : line.sent <+: later.sent
  taken : min (line.taken ++ line.transit).length (line.taken.length + count) ≤ later.taken.length

namespace Advances

variable {line later last : Line α n} {count more : ℕ}

/-- A line advances to itself without any item being taken. -/
theorem refl (line : Line α n) : Advances 0 line line := ⟨rfl, List.prefix_rfl, min_le_right _ _⟩

/-- Putting blocks on a line advances the line without any item being taken. -/
theorem put (line : Line α n) (new : List (List α)) (hnew : ∀ block ∈ new, block.length = n) :
    Advances 0 line (line.put new hnew) := ⟨rfl, List.prefix_append _ _, min_le_right _ _⟩

/-- Taking items off a line advances the line by the number asked for. -/
theorem take (line : Line α n) (count : ℕ) : Advances count line (line.take count) where
  lost := rfl
  sent := List.prefix_rfl
  taken := by
    rw [line.taken_take, List.length_append, List.length_append, chunk, List.length_take]
    omega

/-- A line that has advanced carries at least what it carried before. -/
theorem carried_length_le (h : Advances count line later) :
    (line.taken ++ line.transit).length ≤ (later.taken ++ later.transit).length := by
  obtain ⟨new, hnew⟩ := h.sent
  rw [line.taken_append_transit, later.taken_append_transit, h.lost, ← hnew, List.flatten_append,
    carried_append, List.length_append]
  exact Nat.le_add_right _ _

/-- Two advances, one after the other, are one advance by both counts. -/
theorem trans (h : Advances count line later) (h' : Advances more later last) :
    Advances (count + more) line last where
  lost := h'.lost.trans h.lost
  sent := h.sent.trans h'.sent
  taken := by
    have hfirst := h.taken
    have hsecond := h'.taken
    have hcarried := h.carried_length_le
    omega

/-- Once as many items were taken as were in transit on a line that loses nothing, all that had been sent is
delivered. -/
theorem delivered (h : Advances count line later) (hlossless : line.Lossless)
    (hcount : line.transit.length ≤ count) : line.sent <+: later.delivered := by
  have hlater : later.Lossless := fun i => (congrFun h.lost i).trans (hlossless i)
  have htaken := h.taken
  have hcarried := line.taken_append_transit
  rw [carried_eq_self hlossless] at hcarried
  apply hlater.delivered_of_taken h.sent
  rw [← hcarried, List.length_append] at *
  omega

end Advances

end Line

end Blocks
