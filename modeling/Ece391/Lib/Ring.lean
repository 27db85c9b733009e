/-
# Ece391.Lib.Ring — a ring buffer with one cell to spare.

`n` cells and two indices; the cells from `start` up to but not including `stop`, past the end and on
from the beginning, are in use.  The ring is empty if the indices are equal and full if `stop` is one
behind `start`, so at most `n - 1` cells are ever in use.

The indices are inside the ring by construction.  Everything else is said about the list `contents`:
`push` appends to it, `pop` takes its head, and the loops `fill` and `drain` split a list where the
ring is full, respectively empty.
-/
import Mathlib.Tactic.Common
import Mathlib.Logic.Function.Basic
import Mathlib.Data.List.Basic

namespace Ece391.Lib

/-- **`Ring α n`** — `n` cells and two indices into them. -/
structure Ring (α : Type*) (n : Nat) where
  buf : Nat → α
  start : Nat
  stop : Nat
  start_lt : start < n
  stop_lt : stop < n

namespace Ring

variable {α : Type*} {n : Nat}

/-- The number of cells in use. -/
def used (r : Ring α n) : Nat := if r.start ≤ r.stop then r.stop - r.start else n + r.stop - r.start

def Empty (r : Ring α n) : Prop := r.start = r.stop

def Full (r : Ring α n) : Prop := (r.stop + 1) % n = r.start

instance (r : Ring α n) : Decidable r.Empty := inferInstanceAs (Decidable (_ = _))
instance (r : Ring α n) : Decidable r.Full := inferInstanceAs (Decidable (_ = _))

/-- Store at `stop` and step. -/
def push (r : Ring α n) (a : α) : Ring α n where
  buf := Function.update r.buf r.stop a
  start := r.start
  stop := (r.stop + 1) % n
  start_lt := r.start_lt
  stop_lt := Nat.mod_lt _ (Nat.zero_lt_of_lt r.stop_lt)

/-- The cell at `start`. -/
def front (r : Ring α n) : α := r.buf r.start

/-- Step over the cell at `start`. -/
def pop (r : Ring α n) : Ring α n where
  buf := r.buf
  start := (r.start + 1) % n
  stop := r.stop
  start_lt := Nat.mod_lt _ (Nat.zero_lt_of_lt r.start_lt)
  stop_lt := r.stop_lt

/-- **`contents r`** — what is in the ring, the oldest first. -/
def contents (r : Ring α n) : List α := (List.range r.used).map fun i => r.buf ((r.start + i) % n)

@[simp] theorem length_contents (r : Ring α n) : r.contents.length = r.used := by simp [contents]

/-! ## Indices -/

/-- An index goes round at most once. -/
theorem add_mod_of_lt {a i : Nat} (ha : a < n) (hi : i < n) :
    (a + i) % n = if a + i < n then a + i else a + i - n := by
  split
  next h => exact Nat.mod_eq_of_lt h
  next h =>
    rw [Nat.mod_eq_sub_mod (by omega)]
    exact Nat.mod_eq_of_lt (by omega)

theorem succ_mod_of_lt {a : Nat} (ha : a < n) : (a + 1) % n = if a + 1 = n then 0 else a + 1 := by
  split
  next h => rw [h, Nat.mod_self]
  next h => exact Nat.mod_eq_of_lt (by omega)

theorem used_lt (r : Ring α n) : r.used < n := by
  have hstart := r.start_lt
  have hstop := r.stop_lt
  unfold used
  split <;> omega

theorem empty_iff {r : Ring α n} : r.Empty ↔ r.used = 0 := by
  have hstart := r.start_lt
  have hstop := r.stop_lt
  unfold Empty used
  split <;> omega

theorem full_iff {r : Ring α n} : r.Full ↔ r.used + 1 = n := by
  have hstart := r.start_lt
  have hstop := r.stop_lt
  unfold Full used
  rw [succ_mod_of_lt hstop]
  split <;> split <;> omega

theorem empty_iff_contents {r : Ring α n} : r.Empty ↔ r.contents = [] := by
  rw [empty_iff, ← length_contents, List.length_eq_zero_iff]

/-! ## One cell -/

theorem used_push {r : Ring α n} (h : ¬ r.Full) (a : α) : (r.push a).used = r.used + 1 := by
  have hstart := r.start_lt
  have hstop := r.stop_lt
  have hstart' : (r.push a).start = r.start := rfl
  have hstop' : (r.push a).stop = if r.stop + 1 = n then 0 else r.stop + 1 := succ_mod_of_lt hstop
  rw [full_iff] at h
  unfold used at h ⊢
  split at hstop' <;> split at h <;> split <;> omega

theorem contents_push {r : Ring α n} (h : ¬ r.Full) (a : α) :
    (r.push a).contents = r.contents ++ [a] := by
  have hstart := r.start_lt
  have hstop := r.stop_lt
  have hused := r.used_lt
  have hlast : (r.start + r.used) % n = r.stop := by
    rw [add_mod_of_lt hstart hused]
    unfold used
    split <;> split <;> omega
  have hother : ∀ i < r.used, (r.start + i) % n ≠ r.stop := by
    intro i hi
    rw [add_mod_of_lt hstart (by omega)]
    unfold used at hi
    split at hi <;> split <;> omega
  unfold contents
  rw [used_push h, List.range_succ, List.map_append]
  congr 1
  · apply List.map_congr_left
    intro i hi
    exact Function.update_of_ne (hother i (List.mem_range.mp hi)) _ _
  · show [Function.update r.buf r.stop a ((r.start + r.used) % n)] = [a]
    rw [hlast, Function.update_self]

theorem used_pop {r : Ring α n} (h : ¬ r.Empty) : r.used = r.pop.used + 1 := by
  have hstart := r.start_lt
  have hstop := r.stop_lt
  have hstart' : r.pop.start = if r.start + 1 = n then 0 else r.start + 1 := succ_mod_of_lt hstart
  have hstop' : r.pop.stop = r.stop := rfl
  rw [empty_iff] at h
  unfold used at h ⊢
  split at hstart' <;> split at h <;> split <;> split <;> omega

theorem contents_pop {r : Ring α n} (h : ¬ r.Empty) : r.contents = r.front :: r.pop.contents := by
  have hstart := r.start_lt
  have hused := r.used_lt
  have hpop := used_pop h
  have hshift : ∀ i < r.pop.used, (r.start + (i + 1)) % n = ((r.start + 1) % n + i) % n := by
    intro i hi
    rw [Nat.mod_add_mod]
    congr 1
    omega
  unfold contents
  rw [hpop, List.range_succ_eq_map, List.map_cons, List.map_map]
  congr 1
  · show r.buf ((r.start + 0) % n) = r.buf r.start
    rw [Nat.add_zero, Nat.mod_eq_of_lt hstart]
  · apply List.map_congr_left
    intro i hi
    show r.buf ((r.start + (i + 1)) % n) = r.buf (((r.start + 1) % n + i) % n)
    rw [hshift i (List.mem_range.mp hi)]

/-! ## Loops -/

/-- **`fill r as`** — push until the list is used up or the ring is full; with it, what is left over. -/
def fill (r : Ring α n) : List α → Ring α n × List α
  | [] => (r, [])
  | a :: as => if r.Full then (r, a :: as) else (r.push a).fill as

/-- **`drain r k`** — pop until `k` cells are out or the ring is empty. -/
def drain (r : Ring α n) : Nat → List α × Ring α n
  | 0 => ([], r)
  | k + 1 => if r.Empty then ([], r) else (r.front :: (r.pop.drain k).1, (r.pop.drain k).2)

theorem fill_spec (r : Ring α n) (as : List α) :
    (r.fill as).1.contents = r.contents ++ as.take (n - 1 - r.used) ∧
    (r.fill as).2 = as.drop (n - 1 - r.used) := by
  induction as generalizing r with
  | nil => simp [fill]
  | cons a as ih =>
      unfold fill
      split
      next hfull =>
        have hzero : n - 1 - r.used = 0 := by
          rw [full_iff] at hfull
          omega
        simp [hzero]
      next hfull =>
        have hroom : n - 1 - r.used = (n - 1 - (r.push a).used) + 1 := by
          have hlt := (r.push a).used_lt
          rw [used_push hfull] at hlt ⊢
          omega
        obtain ⟨hcontents, hleft⟩ := ih (r.push a)
        rw [hcontents, hleft, hroom, contents_push hfull, List.take_succ_cons, List.drop_succ_cons,
          List.append_assoc, List.singleton_append]
        exact ⟨rfl, rfl⟩

theorem drain_spec (r : Ring α n) (k : Nat) :
    (r.drain k).1 = r.contents.take k ∧ (r.drain k).2.contents = r.contents.drop k := by
  induction k generalizing r with
  | zero => simp [drain]
  | succ k ih =>
      unfold drain
      split
      next hempty => simp [empty_iff_contents.mp hempty]
      next hempty =>
        obtain ⟨hout, hrest⟩ := ih r.pop
        rw [contents_pop hempty, List.take_succ_cons, List.drop_succ_cons, hout, hrest]
        exact ⟨rfl, rfl⟩

end Ring

end Ece391.Lib
