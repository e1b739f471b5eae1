import Mathlib.Data.List.Induction
import Mathlib.Data.List.Nodup
import Mathlib.Algebra.Order.Group.Nat

/-!
# Little-endian words and exclusive-or checksums

Both machines of the link store the low byte of a 32-bit word first. The checksum of a
byte string is the exclusive or of its bytes. It splits over concatenation and does not
depend on the order, and a pattern on each byte changes it by the sum of the patterns.
-/

namespace Bytes

/-- The 32-bit word whose bytes, lowest first, are given. -/
def word (b₀ b₁ b₂ b₃ : UInt8) : UInt32 :=
  UInt32.ofNat (b₀.toNat + 256 * b₁.toNat + 65536 * b₂.toNat + 16777216 * b₃.toNat)

/-- The four bytes of a word in memory, the lowest one first. -/
def wordBytes (w : UInt32) : List UInt8 :=
  [UInt8.ofNat w.toNat, UInt8.ofNat (w.toNat / 256), UInt8.ofNat (w.toNat / 65536),
    UInt8.ofNat (w.toNat / 16777216)]

/-- `wordBytes` gives four bytes, whatever the word is. -/
@[simp] theorem wordBytes_length (w : UInt32) : (wordBytes w).length = 4 := rfl

/-- A word that is read from its own four bytes is the word. -/
@[simp] theorem word_wordBytes (w : UInt32) :
    word (UInt8.ofNat w.toNat) (UInt8.ofNat (w.toNat / 256)) (UInt8.ofNat (w.toNat / 65536))
      (UInt8.ofNat (w.toNat / 16777216)) = w := by
  have hw := w.toNat_lt
  rw [word]
  apply UInt32.toNat_inj.mp
  simp only [UInt8.toNat_ofNat', UInt32.toNat_ofNat']
  omega

/-- The bytes of the word that four bytes form are those bytes. -/
theorem wordBytes_word (b₀ b₁ b₂ b₃ : UInt8) : wordBytes (word b₀ b₁ b₂ b₃) = [b₀, b₁, b₂, b₃] := by
  have h₀ := b₀.toNat_lt
  have h₁ := b₁.toNat_lt
  have h₂ := b₂.toNat_lt
  have h₃ := b₃.toNat_lt
  simp only [wordBytes, word, UInt32.toNat_ofNat', List.cons.injEq, and_true, ← UInt8.toNat_inj,
    UInt8.toNat_ofNat']
  omega

/-- Four bytes form a word exactly when they are its bytes. -/
theorem word_eq_iff (b₀ b₁ b₂ b₃ : UInt8) (w : UInt32) :
    word b₀ b₁ b₂ b₃ = w ↔ [b₀, b₁, b₂, b₃] = wordBytes w := by
  constructor
  · rintro rfl
    exact (wordBytes_word b₀ b₁ b₂ b₃).symm
  · intro h
    obtain ⟨rfl, rfl, rfl, rfl⟩ : b₀ = _ ∧ b₁ = _ ∧ b₂ = _ ∧ b₃ = _ := by
      simpa only [wordBytes, List.cons.injEq, and_true] using h
    exact word_wordBytes w

/-- The exclusive or of all bytes of a list, starting from zero. -/
def xorAll (bytes : List UInt8) : UInt8 := bytes.foldl (· ^^^ ·) 0

/-- The sum of a list with one more byte at its end. -/
theorem xorAll_concat (bytes : List UInt8) (b : UInt8) : xorAll (bytes ++ [b]) = xorAll bytes ^^^ b := by
  rw [xorAll, List.foldl_append]
  rfl

/-- The sum of a concatenation is the sum of the two sums. -/
theorem xorAll_append (xs ys : List UInt8) : xorAll (xs ++ ys) = xorAll xs ^^^ xorAll ys := by
  induction ys using List.reverseRecOn with
  | nil => rw [List.append_nil, show xorAll [] = 0 from rfl, UInt8.xor_zero]
  | append_singleton ys b ih => rw [← List.append_assoc, xorAll_concat, ih, xorAll_concat, UInt8.xor_assoc]

/-- The sum of a list with one more byte in front. -/
theorem xorAll_cons (b : UInt8) (bytes : List UInt8) : xorAll (b :: bytes) = b ^^^ xorAll bytes := by
  rw [← List.singleton_append, xorAll_append]
  exact congrArg (· ^^^ xorAll bytes) UInt8.zero_xor

/-- The order of the bytes does not matter to their sum. -/
theorem xorAll_perm {xs ys : List UInt8} (h : xs.Perm ys) : xorAll xs = xorAll ys := by
  induction h with
  | nil => rfl
  | cons b _ ih => rw [xorAll_cons, xorAll_cons, ih]
  | swap b c rest =>
    rw [xorAll_cons, xorAll_cons, xorAll_cons, xorAll_cons, ← UInt8.xor_assoc, UInt8.xor_comm c b,
      UInt8.xor_assoc]
  | trans _ _ ihxy ihyz => exact ihxy.trans ihyz

/-- The sums of two prefixes differ by what lies between their ends. -/
theorem xorAll_take_xor_take (bytes : List UInt8) (n m : ℕ) :
    xorAll (bytes.take n) ^^^ xorAll (bytes.take m) =
      xorAll ((bytes.drop (min n m)).take (max n m - min n m)) := by
  have hle (a b : ℕ) (h : a ≤ b) : xorAll (bytes.take b) =
      xorAll (bytes.take a) ^^^ xorAll ((bytes.drop a).take (b - a)) := by
    rw [← xorAll_append, ← List.take_add, Nat.add_sub_cancel' h]
  rcases Nat.le_total n m with h | h
  · rw [hle n m h, min_eq_left h, max_eq_right h, ← UInt8.xor_assoc, UInt8.xor_self, UInt8.zero_xor]
  · rw [hle m n h, min_eq_right h, max_eq_left h, UInt8.xor_comm (xorAll (bytes.take m)),
      UInt8.xor_assoc, UInt8.xor_self, UInt8.xor_zero]

/-- A byte stays as it is under the zero pattern and under no other. -/
theorem xor_eq_left_iff (b e : UInt8) : b ^^^ e = b ↔ e = 0 := by
  conv_lhs => rw [← UInt8.xor_zero (a := b), UInt8.xor_assoc, UInt8.zero_xor]
  exact UInt8.xor_right_inj b

section Patterns

variable {ι : Type*}

/-- The sum of bytes with a pattern on each is the sum of the bytes with the sum of the patterns. -/
theorem xorAll_map_xor (positions : List ι) (f g : ι → UInt8) :
    xorAll (positions.map fun i => f i ^^^ g i) = xorAll (positions.map f) ^^^ xorAll (positions.map g) := by
  induction positions with
  | nil => exact UInt8.xor_self.symm
  | cons i rest ih =>
    rw [List.map_cons, List.map_cons, List.map_cons, xorAll_cons, xorAll_cons, xorAll_cons, ih]
    ac_rfl

/-- A pattern that is zero at all positions has the sum zero. -/
theorem xorAll_map_of_zero {positions : List ι} {e : ι → UInt8} (h : ∀ i ∈ positions, e i = 0) :
    xorAll (positions.map e) = 0 := by
  induction positions with
  | nil => rfl
  | cons i rest ih =>
    rw [List.map_cons, xorAll_cons, h i List.mem_cons_self, UInt8.zero_xor]
    exact ih fun j hj => h j (List.mem_cons_of_mem i hj)

/-- The pattern at a position can be taken out of the sum over the positions. -/
theorem xorAll_map_erase [DecidableEq ι] {positions : List ι} {i : ι} (hi : i ∈ positions) (e : ι → UInt8) :
    xorAll (positions.map e) = e i ^^^ xorAll ((positions.erase i).map e) := by
  rw [← xorAll_cons, ← List.map_cons]
  exact xorAll_perm ((List.perm_cons_erase hi).map e)

/-- With one pattern that is not zero the sum is that pattern. -/
theorem xorAll_map_single {positions : List ι} (hnodup : positions.Nodup) {e : ι → UInt8} {i : ι}
    (hi : i ∈ positions) (hrest : ∀ j ∈ positions, j ≠ i → e j = 0) : xorAll (positions.map e) = e i := by
  classical
  have hzero : xorAll ((positions.erase i).map e) = 0 := by
    apply xorAll_map_of_zero
    intro j hj
    obtain ⟨hne, hj⟩ := hnodup.mem_erase_iff.mp hj
    exact hrest j hj hne
  rw [xorAll_map_erase hi, hzero, UInt8.xor_zero]

/-- With two patterns that are not zero the sum is theirs. -/
theorem xorAll_map_pair {positions : List ι} (hnodup : positions.Nodup) {e : ι → UInt8} {i j : ι}
    (hi : i ∈ positions) (hj : j ∈ positions) (hne : i ≠ j)
    (hrest : ∀ k ∈ positions, k ≠ i → k ≠ j → e k = 0) : xorAll (positions.map e) = e i ^^^ e j := by
  classical
  rw [xorAll_map_erase hi]
  refine congrArg (e i ^^^ ·) (xorAll_map_single (hnodup.erase i) ?_ ?_)
  · exact hnodup.mem_erase_iff.mpr ⟨hne.symm, hj⟩
  · intro k hk hkj
    obtain ⟨hki, hk⟩ := hnodup.mem_erase_iff.mp hk
    exact hrest k hk hki hkj

end Patterns

end Bytes
