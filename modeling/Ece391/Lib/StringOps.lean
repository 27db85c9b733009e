/-
# Ece391.Lib.StringOps — the string instructions of x86, and the blocks of memory they fill and copy.

`fill` and `copy` say what a block operation is to do, for all bytes at once: `copy` reads everything before it
writes anything, so that it has a meaning for blocks that overlap.  A block that is done in pieces is done
(`fill_fill`, `copy_up`, `copy_down`) if the pieces of a copy come in an order in which no byte is read after
it was overwritten.

The instructions work on `Regs`, with the direction flag; `rep` repeats one until ECX is zero.  The segments
are flat.
-/
import Ece391.Lib.X86

namespace Ece391.Lib.X86

/-! ## Blocks -/

/-- **`fill m d n b`** — the `n` bytes from `d` on are `b`. -/
def fill (m : Mem) (d : Word) (n : Nat) (b : BitVec 8) : Mem := fun a =>
  if (a - d).toNat < n then b else m a

/-- **`copy m d s n`** — the `n` bytes from `d` on are those that were at `s`. -/
def copy (m : Mem) (d s : Word) (n : Nat) : Mem := fun a =>
  if (a - d).toNat < n then m (s + (a - d)) else m a

variable {m : Mem} {d s : Word} {k n : Nat} {b : BitVec 8}

@[simp] theorem fill_zero (m : Mem) (d : Word) (b : BitVec 8) : fill m d 0 b = m := by
  funext a
  exact if_neg (Nat.not_lt_zero _)

@[simp] theorem copy_zero (m : Mem) (d s : Word) : copy m d s 0 = m := by
  funext a
  exact if_neg (Nat.not_lt_zero _)

theorem fill_one (m : Mem) (d : Word) (b : BitVec 8) : fill m d 1 b = Function.update m d b := by
  funext a
  have hone : (a - d).toNat < 1 ↔ a = d := by bv_omega
  simp only [fill, Function.update_apply, hone]

theorem copy_one (m : Mem) (d s : Word) : copy m d s 1 = Function.update m d (m s) := by
  funext a
  have hone : (a - d).toNat < 1 ↔ a = d := by bv_omega
  simp only [copy, Function.update_apply, hone]
  split
  next heq => rw [heq, BitVec.sub_self, BitVec.add_zero]
  next => rfl

/-- The rest of a block, from `k` on. -/
theorem rest_iff (h : k + n ≤ 2 ^ 32) (a : Word) :
    (a - (d + BitVec.ofNat 32 k)).toNat < n ↔ k ≤ (a - d).toNat ∧ (a - d).toNat < k + n := by
  have hsub : ∀ j : Word, a - (d + j) = a - d - j := fun j => by bv_omega
  rw [hsub]
  generalize a - d = i
  have hi := i.isLt
  rcases Nat.lt_or_ge k (2 ^ 32) with hk | hk
  · rw [BitVec.toNat_sub, BitVec.toNat_ofNat, Nat.mod_eq_of_lt hk]
    omega
  · omega

theorem source_eq (s d j a : Word) : s + j + (a - (d + j)) = s + (a - d) := by
  bv_omega

theorem fill_fill (h : k + n ≤ 2 ^ 32) :
    fill (fill m d k b) (d + BitVec.ofNat 32 k) n b = fill m d (k + n) b := by
  funext a
  simp only [fill, rest_iff h]
  generalize (a - d).toNat = i
  split_ifs
  all_goals first | rfl | omega

/-- **A copy upwards**: the first `k` bytes, then the others.  None of these was overwritten if the block read
does not come round to the block written. -/
theorem copy_up (h : (s - d).toNat + (k + n) ≤ 2 ^ 32) :
    copy (copy m d s k) (d + BitVec.ofNat 32 k) (s + BitVec.ofNat 32 k) n = copy m d s (k + n) := by
  have hfresh : ∀ i : Word, k ≤ i.toNat → i.toNat < k + n → k ≤ (s + i - d).toNat := by
    intro i hlow hhigh
    have hsource : s + i - d = s - d + i := by bv_omega
    rw [hsource, BitVec.toNat_add]
    omega
  funext a
  simp only [copy, rest_iff (show k + n ≤ 2 ^ 32 by omega), source_eq]
  by_cases hrest : k ≤ (a - d).toNat ∧ (a - d).toNat < k + n
  · rw [if_pos hrest, if_neg (Nat.not_lt_of_le (hfresh _ hrest.1 hrest.2)), if_pos hrest.2]
  · rw [if_neg hrest]
    generalize (a - d).toNat = i at hrest
    split_ifs
    all_goals first | rfl | omega

/-- **A copy downwards**: the last bytes, then the first `k`. -/
theorem copy_down (h : (d - s).toNat + (k + n) ≤ 2 ^ 32) :
    copy (copy m (d + BitVec.ofNat 32 k) (s + BitVec.ofNat 32 k) n) d s k = copy m d s (k + n) := by
  have hfresh : ∀ i : Word, i.toNat < k → ¬(k ≤ (s + i - d).toNat ∧ (s + i - d).toNat < k + n) := by
    intro i hi
    have hsource : s + i - d = i - (d - s) := by bv_omega
    rw [hsource, BitVec.toNat_sub]
    omega
  funext a
  simp only [copy, rest_iff (show k + n ≤ 2 ^ 32 by omega), source_eq]
  by_cases hfirst : (a - d).toNat < k
  · rw [if_pos hfirst, if_neg (hfresh _ hfirst), if_pos (Nat.lt_of_lt_of_le hfirst (Nat.le_add_right k n))]
  · rw [if_neg hfirst]
    generalize (a - d).toNat = i at hfirst
    split_ifs
    all_goals first | rfl | omega

/-! ## Double words -/

/-- The bytes of a double word. -/
theorem extract_append (x₃ x₂ x₁ x₀ : BitVec 8) :
    (x₃ ++ x₂ ++ x₁ ++ x₀).extractLsb' 0 8 = x₀ ∧ (x₃ ++ x₂ ++ x₁ ++ x₀).extractLsb' 8 8 = x₁ ∧
    (x₃ ++ x₂ ++ x₁ ++ x₀).extractLsb' 16 8 = x₂ ∧ (x₃ ++ x₂ ++ x₁ ++ x₀).extractLsb' 24 8 = x₃ := by
  refine ⟨?_, ?_, ?_, ?_⟩
  all_goals
    apply BitVec.eq_of_getLsbD_eq
    intro i hi
    simp only [BitVec.getLsbD_extractLsb', BitVec.getLsbD_append, hi, decide_true, Bool.true_and]
    grind

/-- A store of four bytes. -/
theorem store_eq (m : Mem) (d : Word) {v : Word} {f : Word → BitVec 8}
    (h₀ : v.extractLsb' 0 8 = f 0) (h₁ : v.extractLsb' 8 8 = f 1) (h₂ : v.extractLsb' 16 8 = f 2)
    (h₃ : v.extractLsb' 24 8 = f 3) :
    store m d v = fun a => if (a - d).toNat < 4 then f (a - d) else m a := by
  funext a
  simp only [store, h₀, h₁, h₂, h₃]
  have ha : a = d + (a - d) := by bv_omega
  generalize a - d = i at ha
  subst ha
  have hbyte : ∀ j : Word, d + i = d + j ↔ i = j := fun j => by bv_omega
  have hzero : d + i = d ↔ i = 0 := by bv_omega
  have hfour : i.toNat < 4 ↔ i = 0 ∨ i = 1 ∨ i = 2 ∨ i = 3 := by bv_omega
  simp only [hbyte, hzero, hfour]
  split_ifs with h0 h1 h2 h3
  all_goals simp_all

theorem store_load (m : Mem) (d s : Word) : store m d (load m s) = copy m d s 4 := by
  obtain ⟨h₀, h₁, h₂, h₃⟩ := extract_append (m (s + 3)) (m (s + 2)) (m (s + 1)) (m s)
  refine store_eq m d (f := fun i => m (s + i)) ?_ h₁ h₂ h₃
  have hzero : s + 0 = s := by bv_omega
  rw [hzero]
  exact h₀

theorem store_replicated (m : Mem) (d : Word) (b : BitVec 8) : store m d (b ++ b ++ b ++ b) = fill m d 4 b := by
  obtain ⟨h₀, h₁, h₂, h₃⟩ := extract_append b b b b
  exact store_eq m d (f := fun _ => b) h₀ h₁ h₂ h₃

/-! ## The string instructions -/

/-- The registers of the string instructions, the direction flag, and memory. -/
structure Regs where
  eax : Word
  ecx : Word
  edx : Word
  esi : Word
  edi : Word
  df : Bool
  mem : Mem

namespace Regs

def al (r : Regs) : BitVec 8 := r.eax.setWidth 8

/-- A byte goes into AL; the rest of EAX stays. -/
def setAl (r : Regs) (b : BitVec 8) : Regs := { r with eax := r.eax &&& 0xFFFFFF00 ||| b.setWidth 32 }

/-- The pointer after an element of `n` bytes. -/
def advance (r : Regs) (p n : Word) : Word := if r.df then p - n else p + n

def stosl (r : Regs) : Regs := { r with mem := store r.mem r.edi r.eax, edi := r.advance r.edi 4 }

def movsl (r : Regs) : Regs :=
  { r with mem := store r.mem r.edi (load r.mem r.esi), esi := r.advance r.esi 4, edi := r.advance r.edi 4 }

def movsb (r : Regs) : Regs :=
  { r with
    mem := Function.update r.mem r.edi (r.mem r.esi), esi := r.advance r.esi 1, edi := r.advance r.edi 1 }

/-- `n` turns of `rep`. -/
def turns (instr : Regs → Regs) : Nat → Regs → Regs
  | 0, r => r
  | n + 1, r => turns instr n { instr r with ecx := r.ecx - 1 }

/-- The prefix `rep`. -/
def rep (instr : Regs → Regs) (r : Regs) : Regs := turns instr r.ecx.toNat r

@[simp] theorem al_setAl (r : Regs) (b : BitVec 8) : (r.setAl b).al = b := by
  show (r.eax &&& 0xFFFFFF00 ||| b.setWidth 32).setWidth 8 = b
  apply BitVec.eq_of_getLsbD_eq
  intro i hi
  simp [hi]

section Turns

variable {r : Regs}

/-- Pointers after one more element. -/
theorem advance_succ (p : Word) (k n : Nat) :
    p + BitVec.ofNat 32 k + BitVec.ofNat 32 (k * n) = p + BitVec.ofNat 32 (k * (n + 1)) := by
  rw [Nat.mul_succ, Nat.add_comm, BitVec.ofNat_add, BitVec.add_assoc]

theorem count_succ (c : Word) (n : Nat) : c - 1 - BitVec.ofNat 32 n = c - BitVec.ofNat 32 (n + 1) := by
  rw [BitVec.ofNat_add]
  generalize BitVec.ofNat 32 n = i
  bv_omega

/-- **`rep stosl`** fills, with a byte that is in EAX four times. -/
theorem turns_stosl {b : BitVec 8} (hdf : r.df = false) (heax : r.eax = b ++ b ++ b ++ b) {n : Nat}
    (hn : 4 * n ≤ 2 ^ 32) :
    turns stosl n r =
      { r with
        mem := fill r.mem r.edi (4 * n) b, edi := r.edi + BitVec.ofNat 32 (4 * n)
        ecx := r.ecx - BitVec.ofNat 32 n } := by
  induction n generalizing r with
  | zero => simp [turns]
  | succ n ih =>
      have hmem : store r.mem r.edi r.eax = fill r.mem r.edi 4 b := by rw [heax, store_replicated]
      have hfill : fill (fill r.mem r.edi 4 b) (r.edi + BitVec.ofNat 32 4) (4 * n) b =
          fill r.mem r.edi (4 * (n + 1)) b := by
        rw [Nat.mul_succ, Nat.add_comm]
        exact fill_fill (by omega)
      have hturn : { stosl r with ecx := r.ecx - 1 } =
          { r with mem := fill r.mem r.edi 4 b, edi := r.edi + BitVec.ofNat 32 4, ecx := r.ecx - 1 } := by
        simp only [stosl, advance, hdf, hmem]
        rfl
      rw [turns, hturn, ih]
      · simp only [advance_succ, count_succ, hfill]
      · exact hdf
      · exact heax
      · omega

/-- **`rep movsl`** copies, upwards. -/
theorem turns_movsl (hdf : r.df = false) {n : Nat} (hn : (r.esi - r.edi).toNat + 4 * n ≤ 2 ^ 32) :
    turns movsl n r =
      { r with
        mem := copy r.mem r.edi r.esi (4 * n), esi := r.esi + BitVec.ofNat 32 (4 * n)
        edi := r.edi + BitVec.ofNat 32 (4 * n), ecx := r.ecx - BitVec.ofNat 32 n } := by
  induction n generalizing r with
  | zero => simp [turns]
  | succ n ih =>
      have hcopy : copy (copy r.mem r.edi r.esi 4) (r.edi + BitVec.ofNat 32 4) (r.esi + BitVec.ofNat 32 4) (4 * n) =
          copy r.mem r.edi r.esi (4 * (n + 1)) := by
        rw [Nat.mul_succ, Nat.add_comm]
        exact copy_up (by omega)
      have hturn : { movsl r with ecx := r.ecx - 1 } =
          { r with
            mem := copy r.mem r.edi r.esi 4, esi := r.esi + BitVec.ofNat 32 4
            edi := r.edi + BitVec.ofNat 32 4, ecx := r.ecx - 1 } := by
        simp only [movsl, advance, hdf, store_load]
        rfl
      have hdist : ∀ j : Word, r.esi + j - (r.edi + j) = r.esi - r.edi := fun j => by bv_omega
      rw [turns, hturn, ih]
      · simp only [advance_succ, count_succ, hcopy]
      · exact hdf
      · rw [hdist]
        omega

/-- **`rep movsb`** copies upwards with the direction flag clear ... -/
theorem turns_movsb_up (hdf : r.df = false) {n : Nat} (hn : (r.esi - r.edi).toNat + n ≤ 2 ^ 32) :
    (turns movsb n r).mem = copy r.mem r.edi r.esi n := by
  induction n generalizing r with
  | zero => simp [turns]
  | succ n ih =>
      have hcopy : copy (copy r.mem r.edi r.esi 1) (r.edi + BitVec.ofNat 32 1) (r.esi + BitVec.ofNat 32 1) n =
          copy r.mem r.edi r.esi (n + 1) := by
        rw [Nat.add_comm n 1]
        exact copy_up (by omega)
      have hturn : { movsb r with ecx := r.ecx - 1 } =
          { r with
            mem := copy r.mem r.edi r.esi 1, esi := r.esi + BitVec.ofNat 32 1
            edi := r.edi + BitVec.ofNat 32 1, ecx := r.ecx - 1 } := by
        simp only [movsb, advance, hdf, copy_one]
        rfl
      have hdist : ∀ j : Word, r.esi + j - (r.edi + j) = r.esi - r.edi := fun j => by bv_omega
      rw [turns, hturn, ih]
      · exact hcopy
      · exact hdf
      · rw [hdist]
        omega

/-- ... and downwards, from the last bytes of the blocks at `d` and `s`, with the flag set. -/
theorem turns_movsb_down {d s : Word} (hdf : r.df = true) {n : Nat} (hn : (d - s).toNat + n ≤ 2 ^ 32)
    (hedi : r.edi = d + BitVec.ofNat 32 n - 1) (hesi : r.esi = s + BitVec.ofNat 32 n - 1) :
    (turns movsb n r).mem = copy r.mem d s n := by
  induction n generalizing r with
  | zero => simp [turns]
  | succ n ih =>
      have hlast : ∀ p : Word, p + BitVec.ofNat 32 (n + 1) - 1 = p + BitVec.ofNat 32 n := by
        intro p
        rw [BitVec.ofNat_add]
        generalize BitVec.ofNat 32 n = i
        bv_omega
      rw [hlast] at hedi hesi
      have hturn : { movsb r with ecx := r.ecx - 1 } =
          { r with
            mem := copy r.mem (d + BitVec.ofNat 32 n) (s + BitVec.ofNat 32 n) 1
            esi := s + BitVec.ofNat 32 n - 1, edi := d + BitVec.ofNat 32 n - 1, ecx := r.ecx - 1 } := by
        simp only [movsb, advance, hdf, copy_one, hedi, hesi]
        rfl
      rw [turns, hturn, ih]
      · exact copy_down hn
      · exact hdf
      · omega
      · rfl
      · rfl

end Turns

end Regs

end Ece391.Lib.X86
