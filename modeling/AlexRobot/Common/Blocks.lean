import Mathlib.Data.List.Basic
import Mathlib.Algebra.Order.Group.Nat

/-!
# Cutting a stream into blocks of a fixed length

A stream arrives in chunks whose boundaries have nothing to do with the blocks it is made
of. The blocks and the unfinished remainder are functions of the whole stream, and they
can be computed chunk by chunk from the remainder alone. A `Reader` packages that
remainder with the bound that makes it one.
-/

namespace Blocks

variable {α : Type*}

/-- The complete blocks of `n` consecutive items, in order. -/
def blocks (n : ℕ) (xs : List α) : List (List α) :=
  (List.range (xs.length / n)).map fun k => (xs.drop (k * n)).take n

/-- The items after the last complete block, fewer than a block has. -/
def remainder (n : ℕ) (xs : List α) : List α := xs.drop (xs.length / n * n)

/-- A list has one block for each complete `n` of its items. -/
theorem blocks_length (n : ℕ) (xs : List α) : (blocks n xs).length = xs.length / n := by
  rw [blocks, List.length_map, List.length_range]

/-- The remainder of a list is as long as the remainder of its length. -/
theorem remainder_length (n : ℕ) (xs : List α) : (remainder n xs).length = xs.length % n := by
  have h := Nat.div_add_mod xs.length n
  rw [Nat.mul_comm] at h
  rw [remainder, List.length_drop]
  omega

/-- Every block of a list has the full length of a block. -/
theorem length_of_mem_blocks {n : ℕ} {xs block : List α} (h : block ∈ blocks n xs) :
    block.length = n := by
  obtain ⟨k, hk, rfl⟩ := List.mem_map.mp h
  have hle : (k + 1) * n ≤ xs.length :=
    (Nat.mul_le_mul_right n (List.mem_range.mp hk)).trans (Nat.div_mul_le_self _ _)
  rw [Nat.add_mul, Nat.one_mul] at hle
  rw [List.length_take, List.length_drop]
  omega

/-- `blocks` finds none in a list of fewer items than a block has. -/
theorem blocks_of_lt {n : ℕ} {xs : List α} (h : xs.length < n) : blocks n xs = [] := by
  rw [blocks, Nat.div_eq_of_lt h]
  rfl

/-- A list of fewer items than a block is all remainder. -/
theorem remainder_of_lt {n : ℕ} {xs : List α} (h : xs.length < n) : remainder n xs = xs := by
  rw [remainder, Nat.div_eq_of_lt h, Nat.zero_mul, List.drop_zero]

/-- A full block in front of a list is the first of its blocks. -/
theorem blocks_append_left {n : ℕ} (hn : 0 < n) {block : List α} (h : block.length = n)
    (xs : List α) : blocks n (block ++ xs) = block :: blocks n xs := by
  have hcount : (block ++ xs).length / n = xs.length / n + 1 := by
    rw [List.length_append, h, Nat.add_comm, Nat.add_div_right _ hn]
  rw [blocks, hcount, List.range_succ_eq_map, List.map_cons, List.map_map, blocks]
  congr 1
  · rw [Nat.zero_mul, List.drop_zero, List.take_append_of_le_length h.ge, List.take_of_length_le h.le]
  · refine List.map_congr_left fun k _ => ?_
    have hdrop : (k + 1) * n = block.length + k * n := by rw [h, Nat.add_mul, Nat.one_mul, Nat.add_comm]
    change ((block ++ xs).drop ((k + 1) * n)).take n = _
    rw [hdrop, List.drop_length_add_append]

/-- A list that is one full block has itself as its only block. -/
theorem blocks_of_length_eq {n : ℕ} (hn : 0 < n) {block : List α} (h : block.length = n) :
    blocks n block = [block] := by
  have hnil : blocks n ([] : List α) = [] := blocks_of_lt hn
  have hblocks := blocks_append_left hn h []
  rwa [List.append_nil, hnil] at hblocks

/-- A leading full block does not change the remainder. -/
theorem remainder_append_left {n : ℕ} (hn : 0 < n) {block : List α} (h : block.length = n)
    (xs : List α) : remainder n (block ++ xs) = remainder n xs := by
  have hdrop : (block ++ xs).length / n * n = block.length + xs.length / n * n := by
    rw [List.length_append, h, Nat.add_comm n, Nat.add_div_right _ hn, Nat.succ_mul, Nat.add_comm]
  rw [remainder, hdrop, List.drop_length_add_append, remainder]

/-- Full blocks in front of any stream are exactly its first blocks. -/
theorem blocks_flatten_append {n : ℕ} (hn : 0 < n) (front : List (List α))
    (hfront : ∀ block ∈ front, block.length = n) (xs : List α) :
    blocks n (front.flatten ++ xs) = front ++ blocks n xs ∧
      remainder n (front.flatten ++ xs) = remainder n xs := by
  induction front with
  | nil => exact ⟨rfl, rfl⟩
  | cons block rest ih =>
    obtain ⟨hb, hr⟩ := ih fun b hb => hfront b (List.mem_cons_of_mem block hb)
    have hlen := hfront block List.mem_cons_self
    rw [List.flatten_cons, List.append_assoc, blocks_append_left hn hlen, remainder_append_left hn hlen,
      hb, hr]
    exact ⟨rfl, rfl⟩

/-- Full blocks in front of a stream are a prefix of its blocks. -/
theorem prefix_blocks {n : ℕ} (hn : 0 < n) {front : List (List α)} {rest stream : List α}
    (hstream : front.flatten ++ rest = stream) (hfront : ∀ block ∈ front, block.length = n) :
    front <+: blocks n stream :=
  ⟨blocks n rest, by rw [← hstream, (blocks_flatten_append hn front hfront rest).1]⟩

/-- The blocks and the remainder are the stream again. -/
theorem flatten_blocks_append_remainder (n : ℕ) (xs : List α) :
    (blocks n xs).flatten ++ remainder n xs = xs := by
  have hfront (count : ℕ) (hcount : count * n ≤ xs.length) :
      ((List.range count).map fun k => (xs.drop (k * n)).take n).flatten = xs.take (count * n) := by
    induction count with
    | zero => simp
    | succ count ih =>
      rw [Nat.add_mul, Nat.one_mul] at hcount ⊢
      rw [List.range_succ, List.map_append, List.flatten_append, ih (by omega), List.take_add]
      simp
  rw [blocks, hfront _ (Nat.div_mul_le_self _ _), remainder, List.take_append_drop]

/-- Blocks of a longer stream: those already complete, then those of the remainder and the rest. -/
theorem blocks_append {n : ℕ} (hn : 0 < n) (xs ys : List α) :
    blocks n (xs ++ ys) = blocks n xs ++ blocks n (remainder n xs ++ ys) := by
  have h := (blocks_flatten_append hn (blocks n xs) (fun _ => length_of_mem_blocks)
    (remainder n xs ++ ys)).1
  rwa [← List.append_assoc, flatten_blocks_append_remainder] at h

/-- Only the remainder of the front matters for the remainder of the whole. -/
theorem remainder_append {n : ℕ} (hn : 0 < n) (xs ys : List α) :
    remainder n (xs ++ ys) = remainder n (remainder n xs ++ ys) := by
  have h := (blocks_flatten_append hn (blocks n xs) (fun _ => length_of_mem_blocks)
    (remainder n xs ++ ys)).2
  rwa [← List.append_assoc, flatten_blocks_append_remainder] at h

/-- At most one block can be completed by a chunk no longer than a block. -/
theorem blocks_pending_append {n : ℕ} {pending chunk : List α} (hp : pending.length < n)
    (hc : chunk.length ≤ n) (h : n ≤ (pending ++ chunk).length) :
    blocks n (pending ++ chunk) = [(pending ++ chunk).take n] ∧
      remainder n (pending ++ chunk) = (pending ++ chunk).drop n := by
  have hn : 0 < n := by omega
  have htake : ((pending ++ chunk).take n).length = n := by rw [List.length_take]; omega
  have hdrop : ((pending ++ chunk).drop n).length < n := by
    rw [List.length_drop, List.length_append]
    omega
  have hb := blocks_append_left hn htake ((pending ++ chunk).drop n)
  have hr := remainder_append_left hn htake ((pending ++ chunk).drop n)
  rw [List.take_append_drop] at hb hr
  exact ⟨by rw [hb, blocks_of_lt hdrop], by rw [hr, remainder_of_lt hdrop]⟩

/-- What a receiver of blocks of `n` items must remember: fewer than `n` of them. -/
structure Reader (α : Type*) (n : ℕ) where
  pending : List α
  short : pending.length < n

namespace Reader

variable {n : ℕ}

/-- The blocks that a chunk completes, together with what the reader remembers. -/
def completed (reader : Reader α n) (chunk : List α) : List (List α) :=
  blocks n (reader.pending ++ chunk)

/-- The reader after a chunk remembers what the chunk leaves over. -/
def feed (reader : Reader α n) (chunk : List α) : Reader α n where
  pending := remainder n (reader.pending ++ chunk)
  short := by
    rw [remainder_length]
    exact Nat.mod_lt _ (Nat.zero_lt_of_lt reader.short)

/-- A chunk of no items completes no block. -/
theorem completed_nil (reader : Reader α n) : reader.completed [] = [] := by
  rw [completed, List.append_nil, blocks_of_lt reader.short]

/-- A chunk of no items leaves the reader as it is. -/
theorem feed_nil (reader : Reader α n) : reader.feed [] = reader := by
  obtain ⟨pending, hshort⟩ := reader
  have hpending : remainder n (pending ++ []) = pending := by
    rw [List.append_nil, remainder_of_lt hshort]
  simp only [feed, hpending]

/-- The reader after several chunks, one after another. -/
def feedAll (reader : Reader α n) (chunks : List (List α)) : Reader α n := chunks.foldl feed reader

/-- Feeding a chunk at a time or all at once completes the same blocks and leaves the same
items pending. -/
theorem feedAll_completed (reader : Reader α n) (chunks : List (List α)) (chunk : List α) :
    reader.completed (chunks.flatten ++ chunk) =
        reader.completed chunks.flatten ++ (reader.feedAll chunks).completed chunk ∧
      (reader.feedAll chunks).pending = remainder n (reader.pending ++ chunks.flatten) := by
  have hn := Nat.zero_lt_of_lt reader.short
  have hpending : (reader.feedAll chunks).pending = remainder n (reader.pending ++ chunks.flatten) := by
    induction chunks generalizing reader with
    | nil => simp [feedAll, remainder_of_lt reader.short]
    | cons first rest ih =>
      rw [List.flatten_cons, ← List.append_assoc, remainder_append hn]
      exact ih (reader.feed first)
  refine ⟨?_, hpending⟩
  rw [completed, ← List.append_assoc, blocks_append hn, ← hpending]
  rfl

/-- A chunk and what follows it complete the blocks that they complete one after the other. -/
theorem completed_append (reader : Reader α n) (chunk rest : List α) :
    reader.completed (chunk ++ rest) = reader.completed chunk ++ (reader.feed chunk).completed rest := by
  have h := (reader.feedAll_completed [chunk] rest).1
  rwa [List.flatten_singleton] at h

end Reader

end Blocks
