/-
# Ece391.Kernel.Itoa — `puts`, `strrev` and `itoa` of `lib.c`.

A pointer into a buffer is the list of the bytes from there to its end.  `itoa` writes the digits in the order
in which they come, the lowest place first, and has `strrev` turn them round; `itoa_eq` says that what is left
is the numeral with a NUL behind it, if the buffer has room for them.
-/
import Mathlib.Data.List.Induction
import Ece391.Kernel.CString
import Ece391.Lib.Numerals

open Ece391.Lib

namespace Ece391

/-! ## The routines -/

/-- `lookup`. -/
def lookup : List UInt8 :=
  [ '0', '1', '2', '3', '4', '5', '6', '7', '8', '9', 'A', 'B', 'C', 'D', 'E', 'F', 'G', 'H', 'I', 'J', 'K', 'L',
    'M', 'N', 'O', 'P', 'Q', 'R', 'S', 'T', 'U', 'V', 'W', 'X', 'Y', 'Z'].map Char.toUInt8

/-- `puts`: the bytes it passes to `putc`. -/
def puts : List UInt8 → List UInt8
  | [] => []
  | c :: s => if c = 0 then [] else c :: puts s

/-- The loop of `strrev`.  Of an empty string the source has the last index -1; it does not turn then either. -/
def strrevLoop (s : List UInt8) (beg last : Nat) : List UInt8 :=
  if beg < last then
    strrevLoop ((s.set last (charAt s beg)).set beg (charAt s last)) (beg + 1) (last - 1)
  else s
termination_by last - beg

/-- `strrev`. -/
def strrev (s : List UInt8) : List UInt8 := strrevLoop s 0 (strlen s - 1)

/-- The loop of `itoa`: `newbuf` after it, and the buffer. -/
def itoaLoop (radix : Nat) (hradix : 1 < radix) (newval newbuf : Nat) (buf : List UInt8) : Nat × List UInt8 :=
  if 0 < newval then
    itoaLoop radix hradix (newval / radix) (newbuf + 1) (buf.set newbuf (charAt lookup (newval % radix)))
  else (newbuf, buf)
termination_by newval
decreasing_by exact Nat.div_lt_self ‹_› hradix

/-- `itoa`; the value is a `uint32_t`. -/
def itoa (value : Nat) (buf : List UInt8) (radix : Nat) (hradix : 1 < radix) : List UInt8 :=
  if value = 0 then (buf.set 0 '0'.toUInt8).set 1 0
  else
    let (newbuf, buf) := itoaLoop radix hradix value 0 buf
    strrev (buf.set newbuf 0)

/-! ## Digits -/

/-- The character of a digit. -/
def digitChar (d : Nat) : UInt8 := if d < 10 then UInt8.ofNat (48 + d) else UInt8.ofNat (55 + d)

/-- The numeral of `n`, as text. -/
def numeralText (radix n : Nat) : List UInt8 := (numeral radix n).map digitChar

theorem lookup_eq {d : Nat} (hd : d < 36) : charAt lookup d = digitChar d := by
  have hall : ∀ d < 36, charAt lookup d = digitChar d := by decide
  exact hall d hd

theorem digitChar_ne_zero {d : Nat} (hd : d < 36) : digitChar d ≠ 0 := by
  have hall : ∀ d < 36, digitChar d ≠ 0 := by decide
  exact hall d hd

/-! ## Strings in buffers -/

theorem puts_eq (s : List UInt8) : puts s = cstr s := by
  induction s with
  | nil => rfl
  | cons c s ih =>
      rw [puts, cstr, List.takeWhile_cons, ih]
      by_cases hc : c = 0
      · simp [hc]
      · simp [hc, cstr]

theorem cstr_append_nul {s : List UInt8} (hs : 0 ∉ s) (rest : List UInt8) : cstr (s ++ 0 :: rest) = s := by
  rw [cstr, List.takeWhile_append_of_pos]
  · simp
  · intro c hc
    rw [bne_iff_ne]
    rintro rfl
    exact hs hc

theorem set_append_length (s t : List UInt8) (x y : UInt8) : (s ++ x :: t).set s.length y = s ++ y :: t := by
  simp

theorem charAt_append_length (s t : List UInt8) (x : UInt8) : charAt (s ++ x :: t) s.length = x := by
  simp [charAt]

/-- `strrev` swaps the ends and goes on with what is between them. -/
theorem strrevLoop_eq (s mid t : List UInt8) :
    strrevLoop (s ++ mid ++ t) s.length (s.length + mid.length - 1) = s ++ mid.reverse ++ t := by
  induction mid using List.bidirectionalRec generalizing s t with
  | nil =>
      rw [strrevLoop, if_neg (by simp)]
      rfl
  | singleton x =>
      rw [strrevLoop, if_neg (by simp)]
      rfl
  | cons_append x mid y ih =>
      have hlast : s.length + (x :: (mid ++ [y])).length - 1 = (s ++ x :: mid).length := by simp
      have hfirst : s ++ x :: (mid ++ [y]) ++ t = s ++ x :: (mid ++ y :: t) := by simp
      have hend : s ++ x :: (mid ++ y :: t) = (s ++ x :: mid) ++ y :: t := by simp
      have hset : ((s ++ x :: (mid ++ y :: t)).set (s ++ x :: mid).length x).set s.length y =
          s ++ [y] ++ mid ++ x :: t := by
        rw [hend, set_append_length, List.append_assoc, List.cons_append, set_append_length]
        simp
      have hnext := ih (s ++ [y]) (x :: t)
      rw [strrevLoop, hlast, if_pos (by simp), hfirst, charAt_append_length, hend, charAt_append_length, ← hend,
        hset]
      have hbeg : s.length + 1 = (s ++ [y]).length := by simp
      have hstop : (s ++ x :: mid).length - 1 = (s ++ [y]).length + mid.length - 1 := by simp
      rw [hbeg, hstop, hnext]
      simp

theorem strrev_append_nul {s : List UInt8} (hs : 0 ∉ s) (rest : List UInt8) :
    strrev (s ++ 0 :: rest) = s.reverse ++ 0 :: rest := by
  have hloop := strrevLoop_eq [] s (0 :: rest)
  rw [List.nil_append, List.length_nil, Nat.zero_add, List.nil_append] at hloop
  rw [strrev, strlen, cstr_append_nul hs, hloop]

/-! ## `itoa` -/

/-- The loop leaves the digits, the lowest place first, from `newbuf` on. -/
theorem itoaLoop_eq {radix : Nat} (hradix : 1 < radix) (hmax : radix ≤ 36) (newval : Nat) (s t : List UInt8)
    (hfit : (Nat.digits radix newval).length ≤ t.length) :
    itoaLoop radix hradix newval s.length (s ++ t) =
      (s.length + (Nat.digits radix newval).length,
        s ++ (Nat.digits radix newval).map digitChar ++ t.drop (Nat.digits radix newval).length) := by
  induction newval using Nat.strongRecOn generalizing s t with
  | ind newval ih =>
      rw [itoaLoop]
      by_cases hval : 0 < newval
      · rw [Nat.digits_def' hradix hval, List.length_cons] at hfit ⊢
        obtain ⟨x, t, rfl⟩ := List.exists_cons_of_length_pos (show 0 < t.length by omega)
        have hdigit : newval % radix < 36 := Nat.lt_of_lt_of_le (Nat.mod_lt _ (by omega)) hmax
        have hnext := ih (newval / radix) (Nat.div_lt_self hval hradix) (s ++ [digitChar (newval % radix)]) t
          (by simpa using hfit)
        rw [if_pos hval, lookup_eq hdigit, set_append_length]
        rw [List.append_assoc, List.singleton_append, List.length_append, List.length_singleton] at hnext
        rw [hnext]
        simp
        omega
      · obtain rfl : newval = 0 := by omega
        simp

/-- **`itoa` leaves the numeral and a NUL.** -/
theorem itoa_eq {radix value : Nat} (hradix : 1 < radix) (hmax : radix ≤ 36) {buf : List UInt8}
    (hfit : (numeral radix value).length < buf.length) :
    itoa value buf radix hradix =
      numeralText radix value ++ 0 :: buf.drop ((numeral radix value).length + 1) := by
  by_cases hvalue : value = 0
  · subst hvalue
    rw [numeral_zero, List.length_singleton] at hfit
    obtain ⟨x, y, rest, rfl⟩ : ∃ x y rest, buf = x :: y :: rest := by
      match buf, hfit with
      | x :: y :: rest, _ => exact ⟨x, y, rest, rfl⟩
    rw [itoa, if_pos rfl, numeralText, numeral_zero]
    rfl
  · rw [numeral_of_ne_zero hvalue, List.length_reverse] at hfit
    have hloop := itoaLoop_eq hradix hmax value [] buf hfit.le
    rw [List.nil_append, List.length_nil, Nat.zero_add, List.nil_append] at hloop
    have hnul : (0 : UInt8) ∉ (Nat.digits radix value).map digitChar := by
      intro hmem
      obtain ⟨d, hd, hzero⟩ := List.mem_map.mp hmem
      exact digitChar_ne_zero (Nat.lt_of_lt_of_le (Nat.digits_lt_base hradix hd) hmax) hzero
    have hset := set_append_length ((Nat.digits radix value).map digitChar)
      (buf.drop ((Nat.digits radix value).length + 1)) buf[(Nat.digits radix value).length] 0
    rw [List.length_map, ← List.drop_eq_getElem_cons hfit] at hset
    rw [itoa, if_neg hvalue, hloop]
    show strrev (List.set _ _ _) = _
    rw [hset, strrev_append_nul hnul, numeralText, numeral_of_ne_zero hvalue, List.length_reverse,
      List.map_reverse]

theorem nul_not_mem_numeralText {radix : Nat} (hradix : 1 < radix) (hmax : radix ≤ 36) (n : Nat) :
    (0 : UInt8) ∉ numeralText radix n := by
  intro hmem
  obtain ⟨d, hd, hzero⟩ := List.mem_map.mp hmem
  exact digitChar_ne_zero (Nat.lt_of_lt_of_le (digit_of_mem_numeral hradix hd) hmax) hzero

/-- **... and `puts` prints it.** -/
theorem puts_itoa {radix value : Nat} (hradix : 1 < radix) (hmax : radix ≤ 36) {buf : List UInt8}
    (hfit : (numeral radix value).length < buf.length) :
    puts (itoa value buf radix hradix) = numeralText radix value := by
  rw [itoa_eq hradix hmax hfit, puts_eq, cstr_append_nul (nul_not_mem_numeralText hradix hmax value)]

end Ece391
