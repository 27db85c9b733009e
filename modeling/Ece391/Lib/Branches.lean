/-
# Ece391.Lib.Branches — comparisons, jumps and calls through a table, on the machine of `Lib.X86`.

`Code` is a listing with forward jumps: the target of a jump stands in the jump.  A call through a table of
addresses is where the listing stops (`Stop.calls`); what follows the call is kept, so that a caller of
`Code.run` decides what the called code does.  The other place to stop is the `iret`.

Code is not part of the memory of the machine, and neither is a table that stands among the code: `text` is
the word at an address of the text segment.
-/
import Ece391.Lib.X86

namespace Ece391.Lib.X86

/-! ## Comparisons -/

/-- EFLAGS after `a - b`, as `cmp` sets them: CF, PF, AF, ZF, SF and OF are set, the others kept. -/
def subFlags (eflags a b : Word) : Word :=
  let difference := a - b
  (eflags &&& ~~~0x8D5) ||| flagBit 0 (a.usubOverflow b) |||
    flagBit 2 ((List.range 8).countP difference.getLsbD % 2 = 0) |||
    flagBit 4 (a.toNat % 16 < b.toNat % 16) ||| flagBit 6 (difference = 0) ||| flagBit 7 difference.msb |||
    flagBit 11 (a.ssubOverflow b)

def zf (eflags : Word) : Bool := eflags.getLsbD 6
def sf (eflags : Word) : Bool := eflags.getLsbD 7
def of (eflags : Word) : Bool := eflags.getLsbD 11

/-- The conditions of `jl` and `jg`. -/
def less (eflags : Word) : Bool := sf eflags != of eflags
def greater (eflags : Word) : Bool := !zf eflags && sf eflags == of eflags

theorem getElem_flagBit (i : Nat) (c : Bool) {j : Nat} (hj : j < 32) :
    (flagBit i c)[j] = (c && decide (i = j)) := by
  rw [← BitVec.getLsbD_eq_getElem]
  cases c with
  | false => simp [flagBit]
  | true =>
      rw [flagBit, if_pos rfl, Bool.true_and, BitVec.natCast_eq_ofNat, BitVec.getLsbD_ofNat, Nat.one_shiftLeft,
        Nat.testBit_two_pow, decide_eq_true hj, Bool.true_and]

theorem zf_subFlags (eflags a b : Word) : zf (subFlags eflags a b) = decide (a = b) := by
  have hzero : a - b = 0#32 ↔ a = b := by bv_omega
  simp [zf, subFlags, getElem_flagBit, hzero]

theorem sf_subFlags (eflags a b : Word) : sf (subFlags eflags a b) = (a - b).msb := by
  simp [sf, subFlags, getElem_flagBit]

theorem of_subFlags (eflags a b : Word) : of (subFlags eflags a b) = a.ssubOverflow b := by
  simp [of, subFlags, getElem_flagBit]

/-- The sign of a difference, corrected by the overflow, is the sign of the true difference. -/
theorem msb_sub_bne_ssubOverflow (a b : Word) :
    ((a - b).msb != a.ssubOverflow b) = decide (a.toInt < b.toInt) := by
  have ha := BitVec.toInt_lt (x := a)
  have ha' := BitVec.le_toInt (x := a)
  have hb := BitVec.toInt_lt (x := b)
  have hb' := BitVec.le_toInt (x := b)
  have hover : a.ssubOverflow b = decide (2 ^ 31 ≤ a.toInt - b.toInt ∨ a.toInt - b.toInt < -2 ^ 31) := by
    simp [BitVec.ssubOverflow]
  have hwrap : (a - b).toInt = if 2 ^ 31 ≤ a.toInt - b.toInt then a.toInt - b.toInt - 2 ^ 32
      else if a.toInt - b.toInt < -2 ^ 31 then a.toInt - b.toInt + 2 ^ 32 else a.toInt - b.toInt := by
    rw [BitVec.toInt_sub, Int.bmod_def]
    split_ifs
    all_goals omega
  rw [BitVec.msb_eq_toInt, hover, hwrap, Bool.eq_iff_iff, bne_iff_ne, ne_eq, decide_eq_decide,
    decide_eq_true_eq]
  split_ifs
  all_goals omega

/-- **`jl` after a comparison is taken exactly if the signed number is less.** -/
theorem less_subFlags (eflags a b : Word) : less (subFlags eflags a b) = true ↔ a.toInt < b.toInt := by
  rw [less, sf_subFlags, of_subFlags, msb_sub_bne_ssubOverflow, decide_eq_true_eq]

/-- **`jg` after a comparison is taken exactly if the signed number is greater.** -/
theorem greater_subFlags (eflags a b : Word) :
    greater (subFlags eflags a b) = true ↔ b.toInt < a.toInt := by
  have hless := less_subFlags eflags a b
  rw [less, bne_iff_ne] at hless
  have hequal : a = b ↔ a.toInt = b.toInt := ⟨congrArg _, BitVec.eq_of_toInt_eq⟩
  have hnotless : sf (subFlags eflags a b) = of (subFlags eflags a b) ↔ ¬a.toInt < b.toInt := by
    rw [← hless, not_ne_iff]
  rw [greater, Bool.and_eq_true, beq_iff_eq, zf_subFlags, Bool.not_eq_true', decide_eq_false_iff_not, hequal,
    hnotless]
  omega

/-- EFLAGS after a `test` of two bytes: CF and OF are cleared, PF, ZF and SF set; AF is undefined. -/
def testFlags (eflags : Word) (a b : BitVec 8) : Word :=
  let bits := a &&& b
  (eflags &&& ~~~0x8C5) ||| flagBit 2 ((List.range 8).countP bits.getLsbD % 2 = 0) |||
    flagBit 6 (bits = 0) ||| flagBit 7 bits.msb

/-- **After a `test` "less" is the sign of the bits that are in both bytes**: there is no overflow. -/
theorem less_testFlags (eflags : Word) (a b : BitVec 8) : less (testFlags eflags a b) = (a &&& b).msb := by
  have hsf : sf (testFlags eflags a b) = (a &&& b).msb := by
    simp [sf, testFlags, getElem_flagBit]
  have hof : of (testFlags eflags a b) = false := by
    simp [of, testFlags, getElem_flagBit]
  rw [less, hsf, hof, Bool.bne_false]

/-! ## Listings with forward jumps -/

inductive Code
  | line (is : List (Instr Empty)) (rest : Code)
  | cmpl (v : Word) (r : Reg) (rest : Code)
  | movl (v : Word) (r : Reg) (rest : Code)
  | jl (target rest : Code)
  | jg (target rest : Code)
  /-- `call *disp(, r, 4)`; `ret` is the address of the instruction after it. -/
  | callTable (disp : Word) (r : Reg) (ret : Word) (rest : Code)
  | iret

/-- Where a listing stops: at a call, at the first instruction of the called code, or at the `iret`. -/
inductive Stop
  | calls (target : Word) (s : Cpu) (rest : Code)
  | irets (s : Cpu)

/-- A straight line calls no procedure by name. -/
def noProcs (f : Empty) (_ : Cpu) : Cpu := nomatch f

def Code.run (text : Word → Word) : Code → Cpu → Stop
  | .line is rest, s => rest.run text (X86.run noProcs is s)
  | .cmpl v r rest, s => rest.run text { s with eflags := subFlags s.eflags (s.gpr r) v }
  | .movl v r rest, s => rest.run text (s.set r v)
  | .jl target rest, s => if less s.eflags then target.run text s else rest.run text s
  | .jg target rest, s => if greater s.eflags then target.run text s else rest.run text s
  | .callTable disp r ret rest, s => .calls (text (disp + 4 * s.gpr r)) (s.push ret) rest
  | .iret, s => .irets s

section Jumps

variable (text : Word → Word) (v : Word) (r : Reg) (target rest : Code) (s : Cpu)

/-- The state after a comparison. -/
def Cpu.compare (s : Cpu) (r : Reg) (v : Word) : Cpu := { s with eflags := subFlags s.eflags (s.gpr r) v }

theorem Code.run_cmpl_jl : (Code.cmpl v r (.jl target rest)).run text s =
    if (s.gpr r).toInt < v.toInt then target.run text (s.compare r v) else rest.run text (s.compare r v) := by
  rw [run, run]
  simp only [less_subFlags]
  rfl

theorem Code.run_cmpl_jg : (Code.cmpl v r (.jg target rest)).run text s =
    if v.toInt < (s.gpr r).toInt then target.run text (s.compare r v) else rest.run text (s.compare r v) := by
  rw [run, run]
  simp only [greater_subFlags]
  rfl

end Jumps

/-! ## Trap gates -/

/-- What an interrupt clears in EFLAGS when it goes through a trap gate: TF, NT, RF, VM. -/
def trapMask : Word := 0x34100

/-- **`trap`** — an interrupt through a trap gate: other interrupts stay enabled. -/
def Cpu.trap (gateCs ss0 : BitVec 16) (esp0 : Word) (s : Cpu) : Cpu :=
  { s.interrupt gateCs ss0 esp0 with eflags := s.eflags &&& ~~~trapMask }

theorem Cpu.trap_holds (gateCs ss0 : BitVec 16) (esp0 : Word) (s : Cpu) :
    (s.trap gateCs ss0 esp0).Holds (s.frame gateCs) := s.interrupt_holds gateCs ss0 esp0

theorem Cpu.trap_gpr (gateCs ss0 : BitVec 16) (esp0 : Word) (s : Cpu) {r : Reg} (hr : r ≠ .esp) :
    (s.trap gateCs ss0 esp0).gpr r = s.gpr r := s.interrupt_gpr gateCs ss0 esp0 hr

/-! ## Calls with parameters -/

/-- **`CdeclArgs k n s s'`** — `Cdecl`, but the `k` words above the return address are parameters: they are
variables of the function. -/
structure CdeclArgs (k n : Nat) (s s' : Cpu) : Prop where
  saved : ∀ r ∈ calleeSaved, s'.gpr r = s.gpr r
  esp : s'.gpr .esp = s.gpr .esp + 4
  cs : s'.cs = s.cs
  ss : s'.ss = s.ss
  caller : ∀ w args ws, args.length = k → ws.length ≤ n → s.Holds (w :: (args ++ ws)) →
    ∃ args', args'.length = k ∧ s'.Holds (args' ++ ws)

end Ece391.Lib.X86
