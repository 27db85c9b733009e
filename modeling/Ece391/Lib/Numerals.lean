/-
# Ece391.Lib.Numerals — numerals without leading zeros, as lists of digits.

`numeral b n` is written with Mathlib's `Nat.digits`, which has the lowest place first and nothing at all for
zero.  `isNumeral_iff` says that it is the only numeral of `n`: digits below `b`, highest place first, at least
one of them, of value `n`, and no zero in front of other digits.
-/
import Mathlib.Data.Nat.Digits.Lemmas

namespace Ece391.Lib

/-- **`IsNumeral b n ds`** — `ds` is a numeral of `n` in base `b` without leading zeros. -/
structure IsNumeral (b n : Nat) (ds : List Nat) : Prop where
  ne_nil : ds ≠ []
  digit : ∀ d ∈ ds, d < b
  value : Nat.ofDigits b ds.reverse = n
  leading : ds.head? = some 0 → ds = [0]

/-- The numeral of `n` in base `b`. -/
def numeral (b n : Nat) : List Nat := if n = 0 then [0] else (Nat.digits b n).reverse

variable {b n : Nat}

theorem numeral_zero : numeral b 0 = [0] := if_pos rfl

theorem numeral_of_ne_zero (hn : n ≠ 0) : numeral b n = (Nat.digits b n).reverse := if_neg hn

theorem digit_of_mem_numeral (hb : 1 < b) {d : Nat} (hd : d ∈ numeral b n) : d < b := by
  by_cases hn : n = 0
  · subst hn
    rw [numeral_zero, List.mem_singleton] at hd
    omega
  · rw [numeral_of_ne_zero hn, List.mem_reverse] at hd
    exact Nat.digits_lt_base hb hd

theorem numeral_ne_nil : numeral b n ≠ [] := by
  by_cases hn : n = 0
  · subst hn
    rw [numeral_zero]
    exact List.cons_ne_nil _ _
  · rw [numeral_of_ne_zero hn, ne_eq, List.reverse_eq_nil_iff]
    exact Nat.digits_ne_nil_iff_ne_zero.mpr hn

/-- A number has as many digits as it has places. -/
theorem numeral_length_le (hb : 1 < b) {k : Nat} (hk : 0 < k) (hn : n < b ^ k) : (numeral b n).length ≤ k := by
  by_cases hzero : n = 0
  · subst hzero
    rw [numeral_zero]
    exact hk
  · rw [numeral_of_ne_zero hzero, List.length_reverse]
    exact (Nat.digits_length_le_iff hb n).mpr hn

theorem isNumeral_numeral (hb : 1 < b) : IsNumeral b n (numeral b n) where
  ne_nil := numeral_ne_nil
  digit _ hd := digit_of_mem_numeral hb hd
  value := by
    by_cases hn : n = 0
    · subst hn
      rw [numeral_zero]
      rfl
    · rw [numeral_of_ne_zero hn, List.reverse_reverse, Nat.ofDigits_digits]
  leading hzero := by
    by_cases hn : n = 0
    · rw [hn, numeral_zero]
    · rw [numeral_of_ne_zero hn, List.head?_reverse, List.getLast?_eq_some_getLast
        (Nat.digits_ne_nil_iff_ne_zero.mpr hn), Option.some.injEq] at hzero
      exact absurd hzero (Nat.getLast_digit_ne_zero b hn)

/-- **Numerals are unique.** -/
theorem isNumeral_iff (hb : 1 < b) {ds : List Nat} : IsNumeral b n ds ↔ ds = numeral b n := by
  constructor
  · intro h
    by_cases hzero : ds = [0]
    · have hn : n = 0 := by
        rw [← h.value, hzero]
        rfl
      rw [hzero, hn, numeral_zero]
    · -- the first digit is the last of the digits that `Nat.digits` gives
      have hdigits : Nat.digits b n = ds.reverse := by
        rw [← h.value]
        refine Nat.digits_ofDigits b hb _ (fun d hd => h.digit d (List.mem_reverse.mp hd)) fun hne hlast => ?_
        apply hzero
        apply h.leading
        rw [← List.getLast?_reverse, List.getLast?_eq_some_getLast hne, hlast]
      have hn : n ≠ 0 := by
        rintro rfl
        rw [Nat.digits_zero] at hdigits
        exact h.ne_nil (List.reverse_eq_nil_iff.mp hdigits.symm)
      rw [numeral_of_ne_zero hn, hdigits, List.reverse_reverse]
  · rintro rfl
    exact isNumeral_numeral hb

end Ece391.Lib
