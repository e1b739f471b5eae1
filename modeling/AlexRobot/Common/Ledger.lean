import Mathlib.Data.List.Nodup
import Mathlib.Data.List.Perm.Basic
import Mathlib.Data.List.Range

/-!
# Where resources are

Resources are opened one after another, and numbered in that order. Each is held by somebody,
or was released, or was lost: nobody holds it any more, and nobody will release it. A ledger
says where each of them is, and carries that each is in one place and was not invented. So
no resource is released twice, and none that is held was released.
-/

/-- The resources opened so far, and where each of them is. -/
structure Ledger where
  opened : ℕ
  held : List ℕ
  released : List ℕ
  lost : List ℕ
  /-- Each resource that was opened is in exactly one place. -/
  balanced : (released ++ lost ++ held).Perm (List.range opened)

namespace Ledger

/-- `empty`: the ledger before any resource is opened. -/
def empty : Ledger := ⟨0, [], [], [], List.Perm.nil⟩

/-- One more resource is opened, and somebody holds it. -/
def acquire (l : Ledger) : Ledger where
  opened := l.opened + 1
  held := l.held ++ [l.opened]
  released := l.released
  lost := l.lost
  balanced := by
    rw [List.range_succ, ← List.append_assoc]
    exact l.balanced.append_right [l.opened]

variable (l : Ledger)

/-- No resource is held in two places at once. -/
theorem held_nodup : l.held.Nodup :=
  (List.nodup_append.mp (l.balanced.nodup_iff.mpr List.nodup_range)).2.1

/-- A resource that somebody holds was not released. -/
theorem notMem_released {i : ℕ} (h : i ∈ l.held) : i ∉ l.released := by
  intro hreleased
  have hall : (l.released ++ l.lost ++ l.held).Nodup := l.balanced.nodup_iff.mpr List.nodup_range
  exact (List.nodup_append.mp hall).2.2 i (List.mem_append_left _ hreleased) i h rfl

/-- A resource that somebody holds was opened before. -/
theorem lt_opened {i : ℕ} (h : i ∈ l.held) : i < l.opened :=
  List.mem_range.mp (l.balanced.mem_iff.mp (List.mem_append_right _ h))

/-- The holder of a resource gives it up, and the others keep theirs. -/
theorem held_perm {i : ℕ} (h : i ∈ l.held) : l.held.Perm (i :: l.held.filter (· ≠ i)) := by
  have hfilter : l.held.filter (· ≠ i) = l.held.erase i := by
    rw [l.held_nodup.erase_eq_filter]
    exact List.filter_congr fun j _ => by rw [Bool.eq_iff_iff, decide_eq_true_iff, bne_iff_ne]
  rw [hfilter]
  exact List.perm_cons_erase h

/-- The holder of a resource releases it, and keeps the others. -/
def release {i : ℕ} (h : i ∈ l.held) : Ledger where
  opened := l.opened
  held := l.held.filter (· ≠ i)
  released := l.released ++ [i]
  lost := l.lost
  balanced := by
    refine List.Perm.trans ?_ l.balanced
    rw [List.append_assoc, List.append_assoc, List.append_assoc, List.singleton_append]
    refine List.Perm.append_left l.released ?_
    exact List.perm_middle.symm.trans ((l.held_perm h).symm.append_left l.lost)

/-- The holder of a resource forgets it, so nobody will release it. -/
def lose {i : ℕ} (h : i ∈ l.held) : Ledger where
  opened := l.opened
  held := l.held.filter (· ≠ i)
  released := l.released
  lost := l.lost ++ [i]
  balanced := by
    refine List.Perm.trans ?_ l.balanced
    rw [List.append_assoc, List.append_assoc, List.append_assoc, List.singleton_append]
    exact ((l.held_perm h).symm.append_left l.lost).append_left l.released

/-- The resource that was opened last is held by somebody. -/
theorem opened_mem_acquire : l.opened ∈ l.acquire.held :=
  List.mem_append_right _ (List.mem_singleton_self l.opened)

/-- When it is given up, the others are held as before. -/
theorem acquire_held_filter : l.acquire.held.filter (· ≠ l.opened) = l.held := by
  have hlast : [l.opened].filter (· ≠ l.opened) = [] := List.filter_eq_nil_iff.mpr fun i hi => by
    simp [List.mem_singleton.mp hi]
  change (l.held ++ [l.opened]).filter (· ≠ l.opened) = l.held
  rw [List.filter_append, hlast, List.append_nil, List.filter_eq_self]
  exact fun i hi => decide_eq_true (l.lt_opened hi).ne

end Ledger
