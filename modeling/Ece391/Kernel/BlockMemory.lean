/-
# Ece391.Kernel.BlockMemory — `memset`, `memcpy` and `memmove` of `lib.c`.

Each routine is a piece of inline assembly: one function for each label, on the registers of `Lib.StringOps`.
`memset` and `memcpy` go byte by byte until EDI is aligned, then by double words, then byte by byte again;
`memmove` is one `rep movsb`, downwards if the block is moved to a higher address.  The instructions that make
ES equal DS are left out, as all segments are flat, and so are the flags that the next instruction consumes.

The main result compares them with `fill` and `copy`, which treat all bytes at once.
-/
import Ece391.Lib.StringOps

open Ece391.Lib.X86

namespace Ece391

namespace BlockMemory

/-! ## The routines -/

/-- `.memset_bottom`. -/
def memsetBottom (r : Regs) : Regs :=
  if r.edx = 0 then r
  else
    memsetBottom
      { r with mem := Function.update r.mem r.edi r.al, edi := r.edi + 1, edx := r.edx - 1 }
termination_by r.edx.toNat
decreasing_by bv_omega

/-- `.memset_aligned`. -/
def memsetAligned (r : Regs) : Regs :=
  let r := { r with edx := r.ecx }
  let r := { r with ecx := r.ecx >>> 2 }
  let r := { r with edx := r.edx &&& 3 }
  memsetBottom (Regs.rep Regs.stosl { r with df := false })

/-- `.memset_top`. -/
def memsetTop (r : Regs) : Regs :=
  if r.ecx = 0 then r
  else if r.edi &&& 3 = 0 then memsetAligned r
  else
    memsetTop
      { r with mem := Function.update r.mem r.edi r.al, edi := r.edi + 1, ecx := r.ecx - 1 }
termination_by r.ecx.toNat
decreasing_by bv_omega

/-- `memset(s, c, n)`; `r` are the registers and the memory before it. -/
def memset (r : Regs) (s c n : Word) : Regs :=
  let c := c &&& 0xFF
  memsetTop { r with eax := c <<< 24 ||| c <<< 16 ||| c <<< 8 ||| c, edi := s, ecx := n }

/-- `movb (%esi), %al; movb %al, (%edi); addl $1, %edi; addl $1, %esi`. -/
def moveByte (r : Regs) : Regs :=
  let r := r.setAl (r.mem r.esi)
  { r with mem := Function.update r.mem r.edi r.al, edi := r.edi + 1, esi := r.esi + 1 }

/-- `.memcpy_bottom`. -/
def memcpyBottom (r : Regs) : Regs :=
  if r.edx = 0 then r
  else memcpyBottom { moveByte r with edx := r.edx - 1 }
termination_by r.edx.toNat
decreasing_by
  show (r.edx - 1).toNat < r.edx.toNat
  bv_omega

/-- `.memcpy_aligned`. -/
def memcpyAligned (r : Regs) : Regs :=
  let r := { r with edx := r.ecx }
  let r := { r with ecx := r.ecx >>> 2 }
  let r := { r with edx := r.edx &&& 3 }
  memcpyBottom (Regs.rep Regs.movsl { r with df := false })

/-- `.memcpy_top`. -/
def memcpyTop (r : Regs) : Regs :=
  if r.ecx = 0 then r
  else if r.edi &&& 3 = 0 then memcpyAligned r
  else memcpyTop { moveByte r with ecx := r.ecx - 1 }
termination_by r.ecx.toNat
decreasing_by
  show (r.ecx - 1).toNat < r.ecx.toNat
  bv_omega

/-- `memcpy(dest, src, n)`. -/
def memcpy (r : Regs) (dest src n : Word) : Regs := memcpyTop { r with esi := src, edi := dest, ecx := n }

/-- `memmove(dest, src, n)`. -/
def memmove (r : Regs) (dest src n : Word) : Regs :=
  let r := { r with edi := dest, esi := src, ecx := n, df := false }
  let r :=
    if r.edi ≤ r.esi then r
    else { r with esi := r.esi + r.ecx - 1, edi := r.edi + r.ecx - 1, df := true }
  Regs.rep Regs.movsb r

/-! ## `memset` -/

/-- The byte of `c`, four times. -/
theorem replicated_eq (c : Word) :
    (c &&& 0xFF) <<< 24 ||| (c &&& 0xFF) <<< 16 ||| (c &&& 0xFF) <<< 8 ||| (c &&& 0xFF) =
      c.setWidth 8 ++ c.setWidth 8 ++ c.setWidth 8 ++ c.setWidth 8 := by
  have hmask : c &&& 0xFF = (c.setWidth 8).setWidth 32 := by
    apply BitVec.eq_of_toNat_eq
    rw [BitVec.toNat_and, BitVec.toNat_setWidth, BitVec.toNat_setWidth]
    exact (Nat.and_two_pow_sub_one_eq_mod _ 8).trans (Nat.mod_eq_of_lt (by omega)).symm
  rw [hmask]
  generalize c.setWidth 8 = b
  apply BitVec.eq_of_getLsbD_eq
  intro i hi
  simp only [BitVec.getLsbD_or, BitVec.getLsbD_shiftLeft, BitVec.getLsbD_setWidth, BitVec.getLsbD_append]
  grind

theorem al_replicated {r : Regs} {b : BitVec 8} (heax : r.eax = b ++ b ++ b ++ b) : r.al = b := by
  rw [Regs.al, heax]
  apply BitVec.eq_of_getLsbD_eq
  intro i hi
  simp only [BitVec.getLsbD_setWidth, BitVec.getLsbD_append]
  grind

/-- The double words and the bytes left over are all of the block. -/
theorem quarters (n : Word) : (n >>> 2).toNat = n.toNat / 4 ∧ (n &&& 3).toNat = n.toNat % 4 := by
  constructor
  · rw [BitVec.toNat_ushiftRight, Nat.shiftRight_eq_div_pow]
  · rw [BitVec.toNat_and]
    exact Nat.and_two_pow_sub_one_eq_mod _ 2

theorem memsetBottom_mem (r : Regs) : (memsetBottom r).mem = fill r.mem r.edi r.edx.toNat r.al := by
  fun_induction memsetBottom r with
  | case1 r hzero =>
      rw [hzero]
      exact (fill_zero _ _ _).symm
  | case2 r hne ih =>
      have hcount : r.edx.toNat = 1 + (r.edx - 1).toNat := by bv_omega
      have hlt := r.edx.isLt
      rw [ih, ← fill_one, hcount]
      exact fill_fill (by omega)

theorem memsetAligned_mem {r : Regs} {b : BitVec 8} (heax : r.eax = b ++ b ++ b ++ b) :
    (memsetAligned r).mem = fill r.mem r.edi r.ecx.toNat b := by
  obtain ⟨hquot, hrem⟩ := quarters r.ecx
  have hlt := r.ecx.isLt
  have hwords := Regs.turns_stosl (r := { r with edx := r.ecx &&& 3, ecx := r.ecx >>> 2, df := false }) rfl heax
    (n := (r.ecx >>> 2).toNat) (by omega)
  have hbottom : memsetAligned r = memsetBottom _ := congrArg memsetBottom hwords
  have hall : r.ecx.toNat = 4 * (r.ecx >>> 2).toNat + (r.ecx &&& 3).toNat := by omega
  have hfit : 4 * (r.ecx >>> 2).toNat + (r.ecx &&& 3).toNat ≤ 2 ^ 32 := by omega
  rw [hbottom, memsetBottom_mem, al_replicated, hall]
  · exact fill_fill hfit
  · exact heax

/-- The whole of `memset`, from a register with the byte in all its quarters. -/
theorem memsetTop_mem {r : Regs} {b : BitVec 8} (heax : r.eax = b ++ b ++ b ++ b) :
    (memsetTop r).mem = fill r.mem r.edi r.ecx.toNat b := by
  fun_induction memsetTop r with
  | case1 r hzero =>
      rw [hzero]
      exact (fill_zero _ _ _).symm
  | case2 r hne haligned => exact memsetAligned_mem heax
  | case3 r hne hodd ih =>
      have hcount : r.ecx.toNat = 1 + (r.ecx - 1).toNat := by bv_omega
      have hlt := r.ecx.isLt
      rw [ih heax, al_replicated heax, ← fill_one, hcount]
      exact fill_fill (by omega)

/-! ## `memcpy` -/

theorem moveByte_mem (r : Regs) : (moveByte r).mem = copy r.mem r.edi r.esi 1 := by
  rw [copy_one]
  show Function.update r.mem r.edi (r.setAl (r.mem r.esi)).al = _
  rw [Regs.al_setAl]

/-- One byte, and then the others. -/
theorem moveByte_copy {r : Regs} {n : Nat} (hfit : (r.esi - r.edi).toNat + (1 + n) ≤ 2 ^ 32) :
    copy (moveByte r).mem (moveByte r).edi (moveByte r).esi n = copy r.mem r.edi r.esi (1 + n) := by
  rw [moveByte_mem]
  exact copy_up hfit

theorem moveByte_distance (r : Regs) : (moveByte r).esi - (moveByte r).edi = r.esi - r.edi := by
  show r.esi + 1 - (r.edi + 1) = _
  bv_omega

theorem memcpyBottom_mem {r : Regs} (hfit : (r.esi - r.edi).toNat + r.edx.toNat ≤ 2 ^ 32) :
    (memcpyBottom r).mem = copy r.mem r.edi r.esi r.edx.toNat := by
  fun_induction memcpyBottom r with
  | case1 r hzero =>
      rw [hzero]
      exact (copy_zero _ _ _).symm
  | case2 r hne ih =>
      have hcount : r.edx.toNat = 1 + (r.edx - 1).toNat := by bv_omega
      rw [hcount] at hfit ⊢
      rw [← moveByte_copy hfit]
      apply ih
      show ((moveByte r).esi - (moveByte r).edi).toNat + (r.edx - 1).toNat ≤ _
      rw [moveByte_distance]
      omega

theorem memcpyAligned_mem {r : Regs} (hfit : (r.esi - r.edi).toNat + r.ecx.toNat ≤ 2 ^ 32) :
    (memcpyAligned r).mem = copy r.mem r.edi r.esi r.ecx.toNat := by
  obtain ⟨hquot, hrem⟩ := quarters r.ecx
  have hwords := Regs.turns_movsl (r := { r with edx := r.ecx &&& 3, ecx := r.ecx >>> 2, df := false }) rfl
    (n := (r.ecx >>> 2).toNat) (by
      show (r.esi - r.edi).toNat + _ ≤ _
      omega)
  have hbottom : memcpyAligned r = memcpyBottom _ := congrArg memcpyBottom hwords
  have hall : r.ecx.toNat = 4 * (r.ecx >>> 2).toNat + (r.ecx &&& 3).toNat := by omega
  have hdist : ∀ j : Word, r.esi + j - (r.edi + j) = r.esi - r.edi := fun j => by bv_omega
  rw [hbottom, memcpyBottom_mem]
  · rw [hall] at hfit ⊢
    exact copy_up hfit
  · show (r.esi + _ - (r.edi + _)).toNat + (r.ecx &&& 3).toNat ≤ _
    rw [hdist]
    omega

/-- The whole of `memcpy`: upwards. -/
theorem memcpyTop_mem {r : Regs} (hfit : (r.esi - r.edi).toNat + r.ecx.toNat ≤ 2 ^ 32) :
    (memcpyTop r).mem = copy r.mem r.edi r.esi r.ecx.toNat := by
  fun_induction memcpyTop r with
  | case1 r hzero =>
      rw [hzero]
      exact (copy_zero _ _ _).symm
  | case2 r hne haligned => exact memcpyAligned_mem hfit
  | case3 r hne hodd ih =>
      have hcount : r.ecx.toNat = 1 + (r.ecx - 1).toNat := by bv_omega
      rw [hcount] at hfit ⊢
      rw [← moveByte_copy hfit]
      apply ih
      show ((moveByte r).esi - (moveByte r).edi).toNat + (r.ecx - 1).toNat ≤ _
      rw [moveByte_distance]
      omega

/-! ## The main result -/

/-- The block of `n` bytes does not wrap around. -/
def Fits (p n : Word) : Prop := p.toNat + n.toNat ≤ 2 ^ 32

/-- Its addresses are then those from `p` to `p + n`. -/
theorem Fits.mem_iff {p n : Word} (h : Fits p n) (a : Word) :
    (a - p).toNat < n.toNat ↔ p.toNat ≤ a.toNat ∧ a.toNat < p.toNat + n.toNat := by
  unfold Fits at h
  bv_omega

/-- Two blocks of `n` bytes have no address in common. -/
def Apart (dest src n : Word) : Prop :=
  dest.toNat + n.toNat ≤ src.toNat ∨ src.toNat + n.toNat ≤ dest.toNat

theorem memcpy_mem (r : Regs) {dest src n : Word} (hdest : Fits dest n) (hsrc : Fits src n)
    (hapart : Apart dest src n) : (memcpy r dest src n).mem = copy r.mem dest src n.toNat := by
  have hfit : (src - dest).toNat + n.toNat ≤ 2 ^ 32 := by
    unfold Fits at hdest hsrc
    rcases hapart with h | h
    all_goals bv_omega
  exact memcpyTop_mem hfit

theorem memmove_mem (r : Regs) {dest src n : Word} (hdest : Fits dest n) (hsrc : Fits src n) :
    (memmove r dest src n).mem = copy r.mem dest src n.toNat := by
  unfold Fits at hdest hsrc
  have hn : BitVec.ofNat 32 n.toNat = n := by simp
  by_cases hup : dest ≤ src
  · have hfit : (src - dest).toNat + n.toNat ≤ 2 ^ 32 := by bv_omega
    simp only [memmove, if_pos hup]
    exact Regs.turns_movsb_up rfl hfit
  · have hfit : (dest - src).toNat + n.toNat ≤ 2 ^ 32 := by bv_omega
    simp only [memmove, if_neg hup]
    exact Regs.turns_movsb_down rfl hfit (by rw [hn]) (by rw [hn])

/-- **The block routines are what they are byte by byte.**  For all registers and memory contents, every
alignment and every `n`: `memset` leaves a block filled with the low byte of `c`; and with blocks that do not wrap
around `memcpy` leaves one a copy of another, and `memmove` a copy of one that may overlap it.  All other memory is
unchanged. -/
theorem block_routines_bytewise (r : Regs) (dest src c n : Word) :
    (memset r dest c n).mem = fill r.mem dest n.toNat (c.setWidth 8) ∧
    (Fits dest n → Fits src n → Apart dest src n →
      (memcpy r dest src n).mem = copy r.mem dest src n.toNat) ∧
    (Fits dest n → Fits src n → (memmove r dest src n).mem = copy r.mem dest src n.toNat) :=
  ⟨memsetTop_mem (replicated_eq c), memcpy_mem r, memmove_mem r⟩

/-- A memory in which each byte is the low byte of its address. -/
def ramp : Regs := ⟨0, 0, 0, 0, 0, false, fun a => a.setWidth 8⟩

/-- Nine bytes from an odd address to another; the blocks of `memmove` overlap, and it copies from either end. -/
theorem nine_bytes_bytewise :
    (memset ramp 0x1003 0x141 9).mem = fill ramp.mem 0x1003 9 0x41 ∧
    (memcpy ramp 0x1003 0x2001 9).mem = copy ramp.mem 0x1003 0x2001 9 ∧
    (memmove ramp 0x1003 0x1005 9).mem = copy ramp.mem 0x1003 0x1005 9 ∧
    (memmove ramp 0x1005 0x1003 9).mem = copy ramp.mem 0x1005 0x1003 9 := by
  obtain ⟨hset, hcopy, -⟩ := block_routines_bytewise ramp 0x1003 0x2001 0x141 9
  obtain ⟨-, -, hup⟩ := block_routines_bytewise ramp 0x1003 0x1005 0 9
  obtain ⟨-, -, hdown⟩ := block_routines_bytewise ramp 0x1005 0x1003 0 9
  have hlow : Fits 0x1003 9 := by unfold Fits; decide
  have hmid : Fits 0x1005 9 := by unfold Fits; decide
  have hhigh : Fits 0x2001 9 := by unfold Fits; decide
  exact ⟨hset, hcopy hlow hhigh (by unfold Apart; decide), hup hlow hmid, hdown hmid hlow⟩

end BlockMemory

end Ece391
