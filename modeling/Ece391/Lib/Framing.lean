/-
# Ece391.Lib.Framing — packets of three, found greedily in a stream.

A stream is read from left to right.  Three elements that pass a test are a packet and are stepped
over together; otherwise the first of them is dropped.  The last elements, two at most, are left over.

The one fact that matters is `frames_append`: what is left over is all a reader has to keep.  However
a stream is cut, reading each piece after the leftovers of the one before gives the same packets.
-/
import Mathlib.Tactic.Common

namespace Ece391.Lib

variable {α : Type*}

/-- **`frames test xs`** — the packets of a stream, and what is left over. -/
def frames (test : α → α → α → Bool) : List α → List (α × α × α) × List α
  | a :: b :: c :: rest =>
      if test a b c then ((a, b, c) :: (frames test rest).1, (frames test rest).2)
      else frames test (b :: c :: rest)
  | rest => ([], rest)

section Frames

variable {test : α → α → α → Bool}

theorem frames_of_length_le {xs : List α} (h : xs.length ≤ 2) : frames test xs = ([], xs) := by
  rcases xs with _ | ⟨a, _ | ⟨b, _ | ⟨c, xs⟩⟩⟩
  · rfl
  · rfl
  · rfl
  · simp only [List.length_cons] at h
    omega

theorem frames_packet {a b c : α} (h : test a b c) (xs : List α) :
    frames test (a :: b :: c :: xs) = ((a, b, c) :: (frames test xs).1, (frames test xs).2) := by
  rw [frames, if_pos h]

theorem frames_skip {a b c : α} (h : ¬ test a b c) (xs : List α) :
    frames test (a :: b :: c :: xs) = frames test (b :: c :: xs) := by
  rw [frames, if_neg h]

/-- At most two elements are left over. -/
theorem length_frames_le (xs : List α) : (frames test xs).2.length ≤ 2 := by
  fun_induction frames test xs with
  | case1 a b c rest h ih => exact ih
  | case2 a b c rest h ih => exact ih
  | case3 xs hxs =>
      rcases xs with _ | ⟨a, _ | ⟨b, _ | ⟨c, xs⟩⟩⟩
      · exact Nat.zero_le 2
      · exact Nat.le_succ 1
      · exact Nat.le_refl 2
      · exact absurd rfl (hxs a b c xs)

/-- They are the last ones. -/
theorem frames_suffix (xs : List α) : (frames test xs).2 <:+ xs := by
  fun_induction frames test xs with
  | case1 a b c rest h ih => exact ih.trans ⟨[a, b, c], rfl⟩
  | case2 a b c rest h ih => exact ih.trans ⟨[a], rfl⟩
  | case3 xs hxs => exact List.suffix_rfl

/-- **A stream may be cut anywhere.** -/
theorem frames_append (xs ys : List α) :
    frames test (xs ++ ys) =
      ((frames test xs).1 ++ (frames test ((frames test xs).2 ++ ys)).1,
        (frames test ((frames test xs).2 ++ ys)).2) := by
  fun_induction frames test xs with
  | case1 a b c rest h ih =>
      rw [List.cons_append, List.cons_append, List.cons_append, frames_packet h, ih]
      rfl
  | case2 a b c rest h ih =>
      rw [← ih, List.cons_append, List.cons_append, List.cons_append, frames_skip h]
  | case3 xs hxs => rfl

end Frames

end Ece391.Lib
