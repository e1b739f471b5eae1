import Mathlib.Data.List.Basic
import Mathlib.Algebra.Order.Group.Nat

/-!
# Memory objects with an access trace

A program works on named objects. Each object is seen from its first cell, and the cells
past its declared size are whatever memory follows it, so an overrun has a meaning and is
visible in the trace. The copying loops are recursive, one cell per round; their effect on
the cells and on the trace is stated once here and cited by the programs that use them.
-/

namespace TracedMemory

variable {ι α : Type*}

/-- The two kinds of access: a cell is read or written. -/
inductive Kind
  | read
  | write
  deriving DecidableEq, Repr

/-- One access: which object, how, and at which index from its first cell. -/
structure Access (ι : Type*) where
  object : ι
  kind : Kind
  index : ℕ
  deriving DecidableEq, Repr

/-- The cells of all objects, and the accesses made so far. -/
structure Memory (ι α : Type*) where
  cells : ι → ℕ → α
  accesses : List (Access ι)

namespace Memory

/-- `n` consecutive cells of an object, from index `first` on. -/
def window (m : Memory ι α) (object : ι) (first n : ℕ) : List α :=
  (List.range n).map fun k => m.cells object (first + k)

/-- Every access made so far satisfies the predicate. -/
def Within (P : Access ι → Prop) (m : Memory ι α) : Prop := ∀ access ∈ m.accesses, P access

/-- Note in the trace that a cell of an object was read. -/
def read (m : Memory ι α) (object : ι) (index : ℕ) : Memory ι α :=
  { m with accesses := m.accesses ++ [⟨object, .read, index⟩] }

/-- Reading a cell changes no cell of any object. -/
@[simp] theorem cells_read (m : Memory ι α) (object : ι) (index : ℕ) :
    (m.read object index).cells = m.cells := rfl

/-- A read adds one access to the trace, to the cell that is read. -/
@[simp] theorem within_read (P : Access ι → Prop) (m : Memory ι α) (object : ι) (index : ℕ) :
    (m.read object index).Within P ↔ m.Within P ∧ P ⟨object, .read, index⟩ := by
  simp [Within, read, or_imp, forall_and]

/-- A window of `n` cells has the length `n`. -/
@[simp] theorem window_length (m : Memory ι α) (object : ι) (first n : ℕ) :
    (m.window object first n).length = n := by
  rw [window, List.length_map, List.length_range]

/-- The items of a window are the cells that it shows. -/
theorem window_getElem (m : Memory ι α) (object : ι) (first n k : ℕ)
    (hk : k < (m.window object first n).length) :
    (m.window object first n)[k] = m.cells object (first + k) := by
  simp [window]

/-- Two adjacent windows of an object join to one window. -/
theorem window_append (m : Memory ι α) (object : ι) (first a b : ℕ) :
    m.window object first a ++ m.window object (first + a) b = m.window object first (a + b) := by
  rw [window, window, window, List.range_add, List.map_append, List.map_map]
  simp only [Function.comp_def, Nat.add_assoc]

/-- Windows over cells that are equal one by one are equal. -/
theorem window_congr {m m' : Memory ι α} {object object' : ι} {first first' n : ℕ}
    (h : ∀ k < n, m.cells object (first + k) = m'.cells object' (first' + k)) :
    m.window object first n = m'.window object' first' n :=
  List.map_congr_left fun k hk => h k (List.mem_range.mp hk)

/-- The first cells of a window are a shorter window from the same index. -/
theorem take_window (m : Memory ι α) (object : ι) (first : ℕ) {k n : ℕ} (h : k ≤ n) :
    (m.window object first n).take k = m.window object first k := by
  rw [← Nat.add_sub_cancel' h, ← window_append, List.take_left' (window_length ..)]

/-- The rest of a window is a window that starts further on. -/
theorem drop_window (m : Memory ι α) (object : ι) (first : ℕ) {k n : ℕ} (h : k ≤ n) :
    (m.window object first n).drop k = m.window object (first + k) (n - k) := by
  conv_lhs => rw [← Nat.add_sub_cancel' h, ← window_append]
  exact List.drop_left' (window_length ..)

variable [DecidableEq ι]

/-- Store a value in one cell, and note the write in the trace. -/
def write (m : Memory ι α) (object : ι) (index : ℕ) (value : α) : Memory ι α where
  cells := fun o i => if o = object ∧ i = index then value else m.cells o i
  accesses := m.accesses ++ [⟨object, .write, index⟩]

/-- A write changes exactly the cell that it names. -/
@[simp] theorem cells_write (m : Memory ι α) (object o : ι) (index i : ℕ) (value : α) :
    (m.write object index value).cells o i =
      if o = object ∧ i = index then value else m.cells o i := rfl

/-- A write adds one access to the trace, to the cell that is written. -/
@[simp] theorem within_write (P : Access ι → Prop) (m : Memory ι α) (object : ι) (index : ℕ)
    (value : α) :
    (m.write object index value).Within P ↔ m.Within P ∧ P ⟨object, .write, index⟩ := by
  simp [Within, write, or_imp, forall_and]

/-- Store values in consecutive cells of an object, one after another. -/
def store (object : ι) : ℕ → List α → Memory ι α → Memory ι α
  | _, [], m => m
  | index, value :: rest, m => store object (index + 1) rest (m.write object index value)

/-- Storing values changes the cells they go to and no other. -/
theorem cells_store (object o : ι) (index i : ℕ) (values : List α) (m : Memory ι α) :
    (store object index values m).cells o i =
      if h : o = object ∧ index ≤ i ∧ i - index < values.length then values[i - index]
      else m.cells o i := by
  induction values generalizing index m with
  | nil => simp [store]
  | cons value rest ih =>
    rw [store, ih, cells_write]
    by_cases ho : o = object
    · rcases Nat.lt_trichotomy i index with hi | hi | hi
      · rw [dif_neg (by omega), if_neg (by omega), dif_neg (by omega)]
      · subst hi
        simp [ho]
      · obtain ⟨k, rfl⟩ : ∃ k, i = index + 1 + k := ⟨i - (index + 1), by omega⟩
        have hrest : index + 1 + k - (index + 1) = k := by omega
        have hall : index + 1 + k - index = k + 1 := by omega
        have hle : index ≤ index + 1 + k := by omega
        have hne : index + 1 + k ≠ index := by omega
        simp [ho, hrest, hall, hle, hne]
    · simp [ho]

/-- Storing values writes consecutive cells, in order. -/
theorem within_store (P : Access ι → Prop) (object : ι) (index : ℕ) (values : List α)
    (m : Memory ι α) :
    (store object index values m).Within P ↔
      m.Within P ∧ ∀ k < values.length, P ⟨object, .write, index + k⟩ := by
  induction values generalizing index m with
  | nil => simp [store]
  | cons value rest ih =>
    rw [store, ih, within_write, and_assoc, List.length_cons, Nat.forall_lt_succ_left]
    simp only [Nat.add_assoc, Nat.add_comm 1, Nat.add_zero]

/-- The values stored can be read back as a window. -/
theorem window_store (object : ι) (values : List α) (m : Memory ι α) :
    (store object 0 values m).window object 0 values.length = values := by
  refine List.ext_getElem (window_length ..) fun k _ hk => ?_
  rw [window_getElem, cells_store, dif_pos ⟨rfl, Nat.zero_le _, by simpa using hk⟩]
  simp

/-- `for (i = 0; i < n; i++) dst[d + i] = src[s + i];` -/
def copyLoop (dst : ι) (d : ℕ) (src : ι) (s : ℕ) : ℕ → Memory ι α → Memory ι α
  | 0, m => m
  | n + 1, m =>
    let m := copyLoop dst d src s n m
    (m.read src (s + n)).write dst (d + n) (m.cells src (s + n))

/-- Copying into one object leaves every other object alone. -/
theorem cells_copyLoop_of_ne {dst o : ι} (h : o ≠ dst) (d : ℕ) (src : ι) (s n : ℕ)
    (m : Memory ι α) : (copyLoop dst d src s n m).cells o = m.cells o := by
  induction n with
  | zero => rfl
  | succ n ih =>
    funext i
    simp only [copyLoop, cells_write, cells_read, h, false_and, if_false, ih]

/-- Copying between two objects replaces exactly the target range. -/
theorem cells_copyLoop {dst src : ι} (h : src ≠ dst) (d s n i : ℕ) (m : Memory ι α) :
    (copyLoop dst d src s n m).cells dst i =
      if d ≤ i ∧ i < d + n then m.cells src (s + (i - d)) else m.cells dst i := by
  induction n with
  | zero => rw [copyLoop, if_neg (by omega)]
  | succ n ih =>
    simp only [copyLoop, cells_write, cells_read, true_and, ih, cells_copyLoop_of_ne h]
    by_cases hi : i = d + n
    · rw [if_pos hi, if_pos (by omega), hi, Nat.add_sub_cancel_left]
    · rw [if_neg hi]
      exact if_congr (by omega) rfl rfl

/-- A copying loop reads and writes one cell per round. -/
theorem within_copyLoop (P : Access ι → Prop) (dst : ι) (d : ℕ) (src : ι) (s n : ℕ)
    (m : Memory ι α) :
    (copyLoop dst d src s n m).Within P ↔
      m.Within P ∧ ∀ k < n, P ⟨src, .read, s + k⟩ ∧ P ⟨dst, .write, d + k⟩ := by
  induction n with
  | zero => simp [copyLoop]
  | succ n ih =>
    simp only [copyLoop, within_write, within_read, ih, Nat.forall_lt_succ_right, and_assoc]

/-- The target range of a copy is a copy of the source range. -/
theorem window_copyLoop {dst src : ι} (h : src ≠ dst) (d s n : ℕ) (m : Memory ι α) :
    (copyLoop dst d src s n m).window dst d n = m.window src s n := by
  refine window_congr fun k hk => ?_
  rw [cells_copyLoop h, if_pos (by omega), Nat.add_sub_cancel_left]

/-- Copying behind the first cells of an object extends them. -/
theorem window_copyLoop_extend {dst src : ι} (h : src ≠ dst) (d s n : ℕ) (m : Memory ι α) :
    (copyLoop dst d src s n m).window dst 0 (d + n) = m.window dst 0 d ++ m.window src s n := by
  rw [← window_append, Nat.zero_add, window_copyLoop h]
  congr 1
  refine window_congr fun k hk => ?_
  rw [cells_copyLoop h, if_neg (by omega)]

/-- Copying into one object leaves the windows of every other object alone. -/
theorem window_copyLoop_of_ne {dst o : ι} (h : o ≠ dst) (d : ℕ) (src : ι) (s n first k : ℕ)
    (m : Memory ι α) : (copyLoop dst d src s n m).window o first k = m.window o first k :=
  window_congr fun _ _ => congrFun (cells_copyLoop_of_ne h ..) _

end Memory

end TracedMemory
