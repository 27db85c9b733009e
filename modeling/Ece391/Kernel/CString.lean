/-
# Ece391.Kernel.CString — C integer views and the string routines of `lib.c`.

Machine words are `Nat` (unsigned) or `Int` (signed) and the conversions between the two views are
written out where the code converts (`s32`, `s8`).  A C string argument is the list of its bytes; a
position past the list reads as the terminating NUL, and a NUL inside the list ends the string there,
exactly as the pointer arithmetic would.

`strncmp` returns the difference of the first pair of bytes that decides the comparison.  The callers
only test it against zero, and `strncmp_eq_zero_iff` says what that test means.
-/
import Mathlib.Algebra.Ring.Int.Defs
import Mathlib.Algebra.Ring.Nat
import Mathlib.Data.List.Basic
import Mathlib.Data.List.TakeWhile
import Mathlib.Tactic.Common

namespace Ece391

/-! ## Signed views -/

/-- A `uint32_t` read as an `int32_t`. -/
def s32 (n : Nat) : Int := if n < 2 ^ 31 then n else (n : Int) - 2 ^ 32

/-- A count kept in an `int8_t`, as the caller sees it after sign extension. -/
def s8 (n : Nat) : Int := if n % 256 < 128 then (n % 256 : Nat) else ((n % 256 : Nat) : Int) - 256

theorem s32_of_lt {n : Nat} (h : n < 2 ^ 31) : s32 n = n := if_pos h

/-! ## Strings -/

/-- `s[i]` for a C string given by its bytes. -/
def charAt (s : List UInt8) (i : Nat) : UInt8 := s.getD i 0

/-- The bytes before the first NUL. -/
def cstr (s : List UInt8) : List UInt8 := s.takeWhile (· != 0)

/-- `strlen`: the number of bytes before the first NUL. -/
def strlen (s : List UInt8) : Nat := (cstr s).length

/-- The loop of `strncmp`, `n` comparisons left, looking at index `i`. -/
def strncmpFrom (s1 s2 : Nat → UInt8) : Nat → Nat → Int
  | 0, _ => 0
  | n + 1, i =>
      if s1 i ≠ s2 i ∨ s1 i = 0 then s8 (s1 i).toNat - s8 (s2 i).toNat
      else strncmpFrom s1 s2 n (i + 1)

/-- `strncmp(s1, s2, n)`. -/
def strncmp (s1 s2 : Nat → UInt8) (n : Nat) : Int := strncmpFrom s1 s2 n 0

/-- The loop of `strcpy`: the stores into the destination, as `(index, byte)` pairs, from index `i`
on.  The fuel is the distance to a position known to hold the terminator. -/
def strcpyFrom (src : Nat → UInt8) : Nat → Nat → List (Nat × UInt8)
  | 0, i => [(i, 0)]
  | n + 1, i => if src i = 0 then [(i, 0)] else (i, src i) :: strcpyFrom src n (i + 1)

theorem s8_toNat_injective {a b : UInt8} (h : s8 a.toNat = s8 b.toNat) : a = b := by
  have ha := a.toNat_lt
  have hb := b.toNat_lt
  have hnat : a.toNat = b.toNat := by
    unfold s8 at h
    split at h <;> split at h <;> omega
  exact UInt8.toNat_inj.mp hnat

/-- A `char` is equal to a `uint8_t` if it is the same byte and not negative. -/
theorem s8_eq_toNat_iff (b c : UInt8) : s8 b.toNat = (c.toNat : Int) ↔ b.toNat < 128 ∧ c = b := by
  have hb := b.toNat_lt
  have hc := c.toNat_lt
  rw [← UInt8.toNat_inj, s8]
  split
  next => omega
  next => omega

theorem strncmpFrom_eq_zero_iff (s1 s2 : Nat → UInt8) (n i : Nat) :
    strncmpFrom s1 s2 n i = 0 ↔
      ∀ j < n, (∀ l < j, s1 (i + l) ≠ 0) → s1 (i + j) = s2 (i + j) := by
  induction n generalizing i with
  | zero => simp [strncmpFrom]
  | succ n ih =>
      unfold strncmpFrom
      split
      next hstop =>
        -- the loop returns here, so only index `i` is compared
        constructor
        · intro h
          have heq : s1 i = s2 i := s8_toNat_injective (by omega)
          have hz : s1 i = 0 := by
            rcases hstop with hne | hz
            · exact absurd heq hne
            · exact hz
          intro j hj hbefore
          cases j with
          | zero => simpa using heq
          | succ j => exact absurd hz (by simpa using hbefore 0 (by omega))
        · intro h
          have heq : s1 i = s2 i := by simpa using h 0 (by omega) (by simp)
          rw [heq, Int.sub_self]
      next hgo =>
        obtain ⟨heq, hne⟩ := not_or.mp hgo
        rw [ih (i + 1)]
        constructor
        · intro h j hj hbefore
          cases j with
          | zero => simpa using not_not.mp heq
          | succ j =>
              have := h j (by omega) (fun l hl => by
                simpa [Nat.add_assoc, Nat.add_comm 1 l] using hbefore (l + 1) (by omega))
              simpa [Nat.add_assoc, Nat.add_comm 1 j] using this
        · intro h j hj hbefore
          have := h (j + 1) (by omega) (fun l hl => by
            cases l with
            | zero => simpa using hne
            | succ l => simpa [Nat.add_assoc, Nat.add_comm 1 l] using hbefore l (by omega))
          simpa [Nat.add_assoc, Nat.add_comm 1 j] using this

/-- `strncmp` returns zero exactly when the strings agree up to the first NUL or the first `n`
bytes. -/
theorem strncmp_eq_zero_iff (s1 s2 : Nat → UInt8) (n : Nat) :
    strncmp s1 s2 n = 0 ↔ ∀ j < n, (∀ l < j, s1 l ≠ 0) → s1 j = s2 j := by
  simpa [strncmp] using strncmpFrom_eq_zero_iff s1 s2 n 0

/-! ## Strings as lists -/

/-- The characters of a leading part. -/
theorem charAt_of_lt_takeWhile {P : UInt8 → Bool} {s : List UInt8} {i : Nat}
    (h : i < (s.takeWhile P).length) :
    charAt s i = (s.takeWhile P)[i] ∧ P (charAt s i) = true := by
  have hlen : i < s.length := Nat.lt_of_lt_of_le h (List.takeWhile_prefix _).length_le
  have hget : (s.takeWhile P)[i] = s[i] := (List.takeWhile_prefix _).getElem h
  have hmem : (s.takeWhile P)[i] ∈ s.takeWhile P := List.getElem_mem h
  have hP := List.mem_takeWhile_imp hmem
  have hchar : charAt s i = (s.takeWhile P)[i] := by simp [hget, charAt, hlen]
  refine ⟨hchar, ?_⟩
  rw [hchar]
  exact hP

/-- ... and the one behind it. -/
theorem charAt_takeWhile_length {P : UInt8 → Bool} (h0 : P 0 = false) (s : List UInt8) :
    P (charAt s (s.takeWhile P).length) = false := by
  induction s with
  | nil => exact h0
  | cons c s ih =>
      cases hc : P c with
      | false => simp [charAt, hc]
      | true => simpa [charAt, hc] using ih

theorem charAt_of_lt_strlen {s : List UInt8} {i : Nat} (h : i < strlen s) :
    charAt s i = (cstr s)[i] ∧ charAt s i ≠ 0 := by
  obtain ⟨hchar, hne⟩ := charAt_of_lt_takeWhile h
  exact ⟨hchar, bne_iff_ne.mp hne⟩

theorem charAt_strlen (s : List UInt8) : charAt s (strlen s) = 0 := by
  have hstop := charAt_takeWhile_length (P := (· != 0)) rfl s
  exact bne_eq_false_iff_eq.mp hstop

/-- What is left of a string from the index `i` on. -/
theorem drop_cstr_cons {s : List UInt8} {i : Nat} {c : UInt8} {cs : List UInt8}
    (hdrop : (cstr s).drop i = c :: cs) :
    i < strlen s ∧ charAt s i = c ∧ c ≠ 0 ∧ (cstr s).drop (i + 1) = cs := by
  have hlt : i < strlen s := by
    by_contra hge
    rw [List.drop_eq_nil_of_le (Nat.le_of_not_lt hge)] at hdrop
    cases hdrop
  obtain ⟨hchar, hne⟩ := charAt_of_lt_strlen hlt
  rw [List.drop_eq_getElem_cons hlt, List.cons.injEq] at hdrop
  obtain ⟨hget, hrest⟩ := hdrop
  rw [hget] at hchar
  exact ⟨hlt, hchar, hchar ▸ hne, hrest⟩

theorem drop_cstr_nil {s : List UInt8} {i : Nat} (hdrop : (cstr s).drop i = [])
    (hle : i ≤ strlen s) : i = strlen s :=
  Nat.le_antisymm hle (List.drop_eq_nil_iff.mp hdrop)

theorem charAt_zero_eq_zero_iff (s : List UInt8) : charAt s 0 = 0 ↔ cstr s = [] := by
  constructor
  · intro hzero
    by_contra hne
    have hpos : 0 < strlen s := List.length_pos_iff.mpr hne
    exact (charAt_of_lt_strlen hpos).2 hzero
  · intro hnil
    have hlen : strlen s = 0 := congrArg List.length hnil
    rw [← hlen]
    exact charAt_strlen s

theorem strlen_le_length (s : List UInt8) : strlen s ≤ s.length :=
  (List.takeWhile_prefix _).length_le

/-- Two lists agree up to the first NUL exactly when they are the same C string. -/
theorem cstr_eq_iff {s t : List UInt8} {n : Nat} (hs : strlen s ≤ n) (ht : strlen t ≤ n) :
    (∀ j < n, (∀ l < j, charAt s l ≠ 0) → charAt s j = charAt t j) ↔ cstr s = cstr t := by
  constructor
  · intro h
    have hbefore : ∀ j ≤ strlen s, ∀ l < j, charAt s l ≠ 0 := fun j hj l hl =>
      (charAt_of_lt_strlen (by omega)).2
    have hlen : strlen s = strlen t := by
      rcases Nat.lt_trichotomy (strlen s) (strlen t) with hlt | heq | hgt
      · have heq := h (strlen s) (by omega) (hbefore _ (Nat.le_refl _))
        rw [charAt_strlen] at heq
        exact absurd heq.symm (charAt_of_lt_strlen hlt).2
      · exact heq
      · have heq := h (strlen t) (by omega) (hbefore _ (by omega))
        rw [charAt_strlen] at heq
        exact absurd heq (charAt_of_lt_strlen hgt).2
    refine List.ext_getElem hlen fun i hi hi' => ?_
    rw [← (charAt_of_lt_strlen hi).1, ← (charAt_of_lt_strlen hi').1]
    exact h i (Nat.lt_of_lt_of_le hi hs) (hbefore i (Nat.le_of_lt hi))
  · intro h j _ hbefore
    have hlen : strlen s = strlen t := congrArg List.length h
    rcases Nat.lt_trichotomy j (strlen s) with hlt | heq | hgt
    · rw [(charAt_of_lt_strlen hlt).1, (charAt_of_lt_strlen (hlen ▸ hlt)).1]
      exact List.getElem_of_eq h hlt
    · rw [heq, charAt_strlen, hlen, charAt_strlen]
    · exact absurd (charAt_strlen s) (hbefore _ hgt)

/-- The comparison of `open_handler`: over the length of its first argument, `strncmp` tests for a
prefix. -/
theorem strncmp_strlen_iff (s t : List UInt8) :
    strncmp (charAt s) (charAt t) (strlen s) = 0 ↔ cstr s <+: t := by
  rw [strncmp_eq_zero_iff, List.prefix_iff_getElem?]
  constructor
  · intro h i hi
    obtain ⟨hget, hne⟩ := charAt_of_lt_strlen hi
    have heq := h i hi fun l hl => (charAt_of_lt_strlen (Nat.lt_trans hl hi)).2
    rw [← hget]
    cases ht : t[i]? with
    | none => simp [charAt, ht] at heq hne; exact absurd heq hne
    | some b => simpa [charAt, ht] using heq.symm
  · intro h i hi _
    have heq := h i hi
    rw [(charAt_of_lt_strlen hi).1]
    simp [charAt, heq]

/-! ## Strings that end at a NUL -/

theorem cstr_dropWhile {P : UInt8 → Bool} (h0 : P 0 = false) (s : List UInt8) :
    cstr (s.dropWhile P) = (cstr s).dropWhile P := by
  induction s with
  | nil => rfl
  | cons c s ih =>
      by_cases hP : P c = true
      · have hc : c ≠ 0 := fun h => by simp [h, h0] at hP
        have hcons : cstr (c :: s) = c :: cstr s := by simp [cstr, hc]
        rw [hcons, List.dropWhile_cons_of_pos hP, List.dropWhile_cons_of_pos hP, ih]
      · by_cases hc : c = 0
        · simp [cstr, hc, h0]
        · have hcons : cstr (c :: s) = c :: cstr s := by simp [cstr, hc]
          rw [List.dropWhile_cons_of_neg hP, hcons, List.dropWhile_cons_of_neg hP]

theorem strlen_dropWhile {P : UInt8 → Bool} (h0 : P 0 = false) (s : List UInt8) :
    (s.takeWhile P).length + strlen (s.dropWhile P) = strlen s := by
  induction s with
  | nil => rfl
  | cons c s ih =>
      by_cases hP : P c = true
      · have hc : c ≠ 0 := fun h => by simp [h, h0] at hP
        have hlen : strlen (c :: s) = strlen s + 1 := by simp [strlen, cstr, hc]
        rw [List.takeWhile_cons_of_pos hP, List.dropWhile_cons_of_pos hP, hlen, List.length_cons]
        omega
      · rw [List.takeWhile_cons_of_neg hP, List.dropWhile_cons_of_neg hP, List.length_nil,
          Nat.zero_add]

theorem charAt_cstr {s : List UInt8} {i : Nat} (h : i < strlen s) : charAt (cstr s) i = charAt s i := by
  have hlen : i < (cstr s).length := h
  rw [(charAt_of_lt_strlen h).1]
  rw [charAt, List.getD_eq_getElem?_getD, List.getElem?_eq_getElem hlen, Option.getD_some]
  rfl

theorem charAt_of_length_le {s : List UInt8} {i : Nat} (h : s.length ≤ i) : charAt s i = 0 := by
  simp [charAt, h]

/-! ## `strcpy` -/

/-- `strcpy` copies a string of which the source holds the bytes. -/
theorem strcpyFrom_eq (src : Nat → UInt8) (a : List UInt8) (i n : Nat) (ha : ∀ b ∈ a, b ≠ 0)
    (hn : a.length ≤ n) (hsrc : ∀ j ≤ a.length, src (i + j) = charAt a j) :
    strcpyFrom src n i = (List.range (a.length + 1)).map fun j => (i + j, charAt a j) := by
  induction a generalizing i n with
  | nil =>
      have hzero : src i = 0 := hsrc 0 (Nat.le_refl 0)
      cases n with
      | zero => rfl
      | succ n => simp [strcpyFrom, hzero, charAt]
  | cons b a ih =>
      cases n with
      | zero => simp at hn
      | succ n =>
          have hhead : src i = b := hsrc 0 (Nat.zero_le _)
          have hne : src i ≠ 0 := by
            rw [hhead]
            exact ha b List.mem_cons_self
          have htail := ih (i + 1) n (fun c hc => ha c (List.mem_cons_of_mem _ hc))
            (by simpa using hn) fun j hj => by
              rw [Nat.add_assoc, Nat.add_comm 1 j, hsrc (j + 1) (Nat.succ_le_succ hj)]
              rfl
          rw [strcpyFrom, if_neg hne, hhead, List.length_cons, List.range_succ_eq_map (n := a.length + 1),
            List.map_cons, List.map_map, htail]
          refine congrArg _ (List.map_congr_left fun j _ => ?_)
          show (i + 1 + j, charAt a j) = (i + (j + 1), charAt a j)
          rw [Nat.add_assoc, Nat.add_comm 1 j]

end Ece391
