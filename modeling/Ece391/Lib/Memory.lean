/-
# Ece391.Lib.Memory — loops of stores into a bounded memory.

A memory is a function on the integers together with the span of cells that may be accessed; `fetch`
and `store` fail outside it.  Two loops are specified here, each over a list of indices in the order in
which the loop takes them: `writeEach` stores values that do not depend on the memory, and `copyEach`
copies one range of a memory onto another that may overlap it.

`copyEach` is right as soon as no cell is read after it was overwritten (`copyEach_spec`).  Upwards that
holds if the target is not above the start, downwards if it is not below.

Nothing here names a program: the contents of a cell are of any type.
-/
import Mathlib.Logic.Function.Basic
import Mathlib.Data.List.Basic
import Mathlib.Tactic.Common

namespace Ece391.Lib

/-- The cells `lo ≤ a < hi`. -/
structure Span where
  lo : Int
  hi : Int

/-- The cell is one of the span. -/
def Span.Has (S : Span) (a : Int) : Prop := S.lo ≤ a ∧ a < S.hi

instance (S : Span) (a : Int) : Decidable (S.Has a) := by
  unfold Span.Has; infer_instance

section Loops

variable {ι V : Type*} (S : Span)

def fetch (m : Int → V) (a : Int) : Option V := if S.Has a then some (m a) else none

def store (m : Int → V) (a : Int) (v : V) : Option (Int → V) :=
  if S.Has a then some (Function.update m a v) else none

/-- **`writeEach S adr val is m`** — for each index in turn, `m[adr i] = val i`. -/
def writeEach (adr : ι → Int) (val : ι → Option V) : List ι → (Int → V) → Option (Int → V)
  | [], m => some m
  | i :: is, m => (val i).bind fun v => (store S m (adr i) v).bind (writeEach adr val is)

/-- **`copyEach S target start is m`** — for each index in turn, `target[i] = start[i]`. -/
def copyEach (target start : Int) : List Nat → (Int → V) → Option (Int → V)
  | [], m => some m
  | i :: is, m =>
      (fetch S m (start + i)).bind fun v =>
        (store S m (target + i) v).bind (copyEach target start is)

variable {S}

@[simp] theorem fetch_of_has {m : Int → V} {a : Int} (h : S.Has a) : fetch S m a = some (m a) :=
  if_pos h

@[simp] theorem store_of_has {m : Int → V} {a : Int} {v : V} (h : S.Has a) :
    store S m a v = some (Function.update m a v) := if_pos h

/-! ## What no loop can do -/

/-- A store reaches no cell outside the span. -/
theorem store_outside {m m' : Int → V} {a b : Int} {v : V} (h : store S m a v = some m')
    (hb : ¬S.Has b) : m' b = m b := by
  unfold store at h
  split at h
  case isTrue ha =>
      obtain rfl := Option.some.inj h
      have hne : b ≠ a := fun heq => hb (heq.symm ▸ ha)
      exact Function.update_of_ne hne _ _
  case isFalse => cases h

theorem writeEach_outside {adr : ι → Int} {val : ι → Option V} {is : List ι} {m m' : Int → V} {b : Int}
    (h : writeEach S adr val is m = some m') (hb : ¬S.Has b) : m' b = m b := by
  induction is generalizing m with
  | nil =>
      obtain rfl := Option.some.inj h
      rfl
  | cons i is ih =>
      obtain ⟨v, -, h⟩ := Option.bind_eq_some_iff.mp h
      obtain ⟨m1, hm1, h⟩ := Option.bind_eq_some_iff.mp h
      rw [ih h, store_outside hm1 hb]

theorem copyEach_outside {target start : Int} {is : List Nat} {m m' : Int → V} {b : Int}
    (h : copyEach S target start is m = some m') (hb : ¬S.Has b) : m' b = m b := by
  induction is generalizing m with
  | nil =>
      obtain rfl := Option.some.inj h
      rfl
  | cons i is ih =>
      obtain ⟨v, -, h⟩ := Option.bind_eq_some_iff.mp h
      obtain ⟨m1, hm1, h⟩ := Option.bind_eq_some_iff.mp h
      rw [ih h, store_outside hm1 hb]

/-! ## Stores of given values -/

/-- The loop ends, each cell holds its value and the others are as before. -/
theorem writeEach_spec (adr : ι → Int) {val : ι → Option V} (w : ι → V) (is : List ι) (m : Int → V)
    (hval : ∀ i ∈ is, val i = some (w i)) (hhas : ∀ i ∈ is, S.Has (adr i))
    (hinj : is.Pairwise fun i j => adr i ≠ adr j) :
    ∃ m', writeEach S adr val is m = some m' ∧ (∀ i ∈ is, m' (adr i) = w i) ∧
      ∀ a, (∀ i ∈ is, a ≠ adr i) → m' a = m a := by
  induction is generalizing m with
  | nil => exact ⟨m, rfl, nofun, fun _ _ => rfl⟩
  | cons i is ih =>
      rw [List.pairwise_cons] at hinj
      obtain ⟨m', hm', hcells, hframe⟩ := ih (Function.update m (adr i) (w i))
        (fun j hj => hval j (List.mem_cons_of_mem _ hj))
        (fun j hj => hhas j (List.mem_cons_of_mem _ hj)) hinj.2
      refine ⟨m', ?_, ?_, ?_⟩
      · rw [writeEach, hval i List.mem_cons_self, Option.bind_some,
          store_of_has (hhas i List.mem_cons_self), Option.bind_some, hm']
      · intro j hj
        rcases List.mem_cons.mp hj with rfl | hj
        · rw [hframe _ hinj.1, Function.update_self]
        · exact hcells j hj
      · intro a ha
        rw [hframe a fun j hj => ha j (List.mem_cons_of_mem _ hj),
          Function.update_of_ne (ha i List.mem_cons_self)]

/-! ## Copies within one memory -/

/-- The target holds what the start held before the loop. -/
theorem copyEach_spec (target start : Int) (is : List Nat) (m : Int → V)
    (hstart : ∀ i ∈ is, S.Has (start + i)) (htarget : ∀ i ∈ is, S.Has (target + i))
    (hfresh : is.Pairwise fun (i j : Nat) => target + i ≠ start + j) :
    ∃ m', copyEach S target start is m = some m' ∧
      (∀ i ∈ is, m' (target + i) = m (start + i)) ∧
      ∀ a, (∀ i ∈ is, a ≠ target + i) → m' a = m a := by
  induction is generalizing m with
  | nil => exact ⟨m, rfl, nofun, fun _ _ => rfl⟩
  | cons i is ih =>
      rw [List.pairwise_cons] at hfresh
      obtain ⟨m', hm', hcells, hframe⟩ := ih (Function.update m (target + i) (m (start + i)))
        (fun j hj => hstart j (List.mem_cons_of_mem _ hj))
        (fun j hj => htarget j (List.mem_cons_of_mem _ hj)) hfresh.2
      -- the cells still to be read were not touched by this store
      have hrest : ∀ j ∈ is, m' (target + j) = m (start + j) := fun j hj => by
        rw [hcells j hj, Function.update_of_ne (hfresh.1 j hj).symm]
      refine ⟨m', ?_, ?_, ?_⟩
      · rw [copyEach, fetch_of_has (hstart i List.mem_cons_self), Option.bind_some,
          store_of_has (htarget i List.mem_cons_self), Option.bind_some, hm']
      · intro j hj
        rcases List.mem_cons.mp hj with rfl | hj
        · by_cases hmem : j ∈ is
          · exact hrest j hmem
          · rw [hframe _ fun k hk heq => hmem ?_, Function.update_self]
            obtain rfl : j = k := by omega
            exact hk
        · exact hrest j hj
      · intro a ha
        rw [hframe a fun j hj => ha j (List.mem_cons_of_mem _ hj),
          Function.update_of_ne (ha i List.mem_cons_self)]

/-- Upwards no cell is read after it was overwritten if the target is not above the start. -/
theorem pairwise_fresh_up {target start : Int} (h : target ≤ start) (n : Nat) :
    (List.range n).Pairwise fun (i j : Nat) => target + i ≠ start + j := by
  refine List.pairwise_lt_range.imp fun {i j} hij => ?_
  omega

/-- Downwards it is the other way round. -/
theorem pairwise_fresh_down {target start : Int} (h : start ≤ target) (n : Nat) :
    (List.range n).reverse.Pairwise fun (i j : Nat) => target + i ≠ start + j := by
  rw [List.pairwise_reverse]
  refine List.pairwise_lt_range.imp fun {i j} hij => ?_
  omega

end Loops

end Ece391.Lib
