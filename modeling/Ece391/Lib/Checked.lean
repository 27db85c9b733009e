/-
# Ece391.Lib.Checked — signed 32-bit arithmetic that reports what C leaves undefined.

Each operation computes over the integers and fails if the result is not an `int`, or on a division by
zero.  A computation that succeeds is therefore the one over the integers; `int32_of_range` and its kin are
the rules by which a proof gets through one operation after the other.

Nothing here names a program.
-/
import Mathlib.Algebra.Group.Int.Defs
import Mathlib.Algebra.Group.Nat.Defs
import Mathlib.Order.Basic
import Mathlib.Tactic.Common

namespace Ece391.Lib

/-- What can go wrong in an expression. -/
inductive Fault
  | overflow
  | divisionByZero
  deriving DecidableEq, Repr

/-- The integer is an `int`. -/
def IsInt32 (n : Int) : Prop := -2 ^ 31 ≤ n ∧ n < 2 ^ 31

instance (n : Int) : Decidable (IsInt32 n) := by
  unfold IsInt32; infer_instance

/-- A result that has to be an `int`. -/
def int32 (n : Int) : Except Fault Int := if IsInt32 n then .ok n else .error .overflow

def add32 (a b : Int) : Except Fault Int := int32 (a + b)
def sub32 (a b : Int) : Except Fault Int := int32 (a - b)
def mul32 (a b : Int) : Except Fault Int := int32 (a * b)

/-- `a << n`. -/
def shl32 (a : Int) (n : Nat) : Except Fault Int := int32 (a * 2 ^ n)

/-- `a / b`, rounded towards zero. -/
def div32 (a b : Int) : Except Fault Int :=
  if b = 0 then .error .divisionByZero else int32 (a.tdiv b)

/-! ## The rules -/

@[simp] theorem ok_bind {ε α β : Type} (a : α) (f : α → Except ε β) :
    (Except.ok a >>= f) = f a := rfl

theorem int32_of_range {n : Int} (h : IsInt32 n) : int32 n = .ok n := if_pos h

theorem add32_of_range {a b : Int} (h : IsInt32 (a + b)) : add32 a b = .ok (a + b) := if_pos h
theorem sub32_of_range {a b : Int} (h : IsInt32 (a - b)) : sub32 a b = .ok (a - b) := if_pos h
theorem mul32_of_range {a b : Int} (h : IsInt32 (a * b)) : mul32 a b = .ok (a * b) := if_pos h

theorem shl32_of_range {a : Int} {n : Nat} (h : IsInt32 (a * 2 ^ n)) : shl32 a n = .ok (a * 2 ^ n) :=
  if_pos h

/-- A quotient by a positive number is no larger than what is divided. -/
theorem div32_of_pos {a b : Int} (ha : -2 ^ 31 < a ∧ a < 2 ^ 31) (hb : 0 < b) :
    div32 a b = .ok (a.tdiv b) := by
  have habs : (a.tdiv b).natAbs ≤ a.natAbs := by
    rw [Int.natAbs_tdiv]
    exact Nat.div_le_self _ _
  rw [div32, if_neg (by omega), int32_of_range]
  unfold IsInt32
  omega

end Ece391.Lib
