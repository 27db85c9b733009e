/-
# Ece391.Lib.X86 — registers, a byte memory and the stack of a 32-bit x86.

The part of the machine that a piece of linkage code uses: `push`, `pop`, the arrival of an interrupt
and `iret`, with and without a change of privilege.  Addresses wrap around at 2^32, so there is no
side condition on the stack pointer; what is needed instead is that a stack is shorter than the
address space.

`Cpu.Holds s ws` says that `ws` are the top words of the stack, the last one pushed first.  Code that
only pushes and pops is verified on that list: `Holds.push`, `Holds.pop`, `Holds.drop`.
-/
import Mathlib.Algebra.Group.Nat.Defs
import Mathlib.Tactic.Common
import Mathlib.Logic.Function.Basic

namespace Ece391.Lib.X86

abbrev Word := BitVec 32

/-! ## Memory -/

abbrev Mem := Word → BitVec 8

/-- The little-endian word at `a`. -/
def load (m : Mem) (a : Word) : Word := m (a + 3) ++ m (a + 2) ++ m (a + 1) ++ m a

def store (m : Mem) (a v : Word) : Mem := fun b =>
  if b = a then v.extractLsb' 0 8
  else if b = a + 1 then v.extractLsb' 8 8
  else if b = a + 2 then v.extractLsb' 16 8
  else if b = a + 3 then v.extractLsb' 24 8
  else m b

theorem load_store_self (m : Mem) (a v : Word) : load (store m a v) a = v := by
  have h1 : a + 1 ≠ a := by bv_omega
  have h2 : a + 2 ≠ a ∧ a + 2 ≠ a + 1 := by bv_omega
  have h3 : a + 3 ≠ a ∧ a + 3 ≠ a + 1 ∧ a + 3 ≠ a + 2 := by bv_omega
  simp only [load, store, h1, h2, h3, if_true, if_false]
  rw [BitVec.extractLsb'_append_extractLsb'_eq_extractLsb' (by decide),
    BitVec.extractLsb'_append_extractLsb'_eq_extractLsb' (by decide),
    BitVec.extractLsb'_append_extractLsb'_eq_extractLsb' (by decide)]
  exact BitVec.extractLsb'_eq_self

theorem load_store_of_disjoint (m : Mem) {a b : Word} (v : Word) (hab : 4 ≤ (b - a).toNat)
    (hba : 4 ≤ (a - b).toNat) : load (store m a v) b = load m b := by
  have hbyte : ∀ i : Word, i.toNat < 4 → store m a v (b + i) = m (b + i) := by
    intro i hi
    have h0 : b + i ≠ a := by bv_omega
    have h1 : b + i ≠ a + 1 := by bv_omega
    have h2 : b + i ≠ a + 2 := by bv_omega
    have h3 : b + i ≠ a + 3 := by bv_omega
    simp only [store, h0, h1, h2, h3, if_false]
  have h0 : store m a v b = m b := by simpa using hbyte 0 (by decide)
  rw [load, hbyte 3 (by decide), hbyte 2 (by decide), hbyte 1 (by decide), h0, load]

/-- **`Stacked m a ws`** — the words `ws` stand in memory from `a` upwards. -/
def Stacked (m : Mem) (a : Word) : List Word → Prop
  | [] => True
  | w :: ws => load m a = w ∧ Stacked m (a + 4) ws

/-- A store below the words leaves them alone. -/
theorem Stacked.store {m : Mem} {a b : Word} {ws : List Word} (h : Stacked m b ws) (v : Word)
    (hdist : 4 ≤ (b - a).toNat) (hfit : (b - a).toNat + 4 * ws.length ≤ 2 ^ 32) :
    Stacked (store m a v) b ws := by
  induction ws generalizing b with
  | nil => trivial
  | cons w ws ih =>
      rw [List.length_cons] at hfit
      obtain ⟨hload, hrest⟩ := h
      refine ⟨?_, ?_⟩
      · rw [load_store_of_disjoint m v hdist (by bv_omega), hload]
      · cases ws with
        | nil => trivial
        | cons w' ws =>
            rw [List.length_cons] at hfit
            have hnext : (b + 4 - a).toNat = (b - a).toNat + 4 := by bv_omega
            exact ih hrest (by omega) (by rw [List.length_cons]; omega)

/-! ## The processor -/

inductive Reg
  | eax | ebx | ecx | edx | esi | edi | ebp | esp
  deriving DecidableEq

structure Cpu where
  gpr : Reg → Word
  eip : Word
  cs : BitVec 16
  ss : BitVec 16
  eflags : Word
  mem : Mem

namespace Cpu

def set (s : Cpu) (r : Reg) (v : Word) : Cpu := { s with gpr := Function.update s.gpr r v }

/-- The stack pointer moves up by `n` bytes. -/
def skip (s : Cpu) (n : Word) : Cpu := s.set .esp (s.gpr .esp + n)

def push (s : Cpu) (v : Word) : Cpu :=
  { s.set .esp (s.gpr .esp - 4) with mem := store s.mem (s.gpr .esp - 4) v }

/-- The `i`-th word of the stack. -/
def word (s : Cpu) (i : Nat) : Word := load s.mem (s.gpr .esp + BitVec.ofNat 32 (4 * i))

def pop (s : Cpu) (r : Reg) : Cpu := (s.skip 4).set r (s.word 0)

@[simp] theorem set_gpr (s : Cpu) (r : Reg) (v : Word) :
    (s.set r v).gpr = Function.update s.gpr r v := rfl

@[simp] theorem push_gpr (s : Cpu) (v : Word) :
    (s.push v).gpr = Function.update s.gpr .esp (s.gpr .esp - 4) := rfl

@[simp] theorem pop_gpr (s : Cpu) (r : Reg) :
    (s.pop r).gpr = Function.update (Function.update s.gpr .esp (s.gpr .esp + 4)) r (s.word 0) := rfl

/-- **`s.Holds ws`** — the top of the stack is `ws`. -/
def Holds (s : Cpu) (ws : List Word) : Prop := Stacked s.mem (s.gpr .esp) ws

namespace Holds

variable {s : Cpu} {w : Word} {ws : List Word}

theorem nil (s : Cpu) : s.Holds [] := trivial

theorem push (h : s.Holds ws) (v : Word) (hfit : 4 * ws.length + 4 ≤ 2 ^ 32) :
    (s.push v).Holds (v :: ws) := by
  have hesp : (s.push v).gpr .esp = s.gpr .esp - 4 := by simp
  have hback : s.gpr .esp - 4 + 4 = s.gpr .esp := by bv_omega
  rw [Holds, hesp]
  refine ⟨load_store_self _ _ _, ?_⟩
  rw [hback]
  have hdist : (s.gpr .esp - (s.gpr .esp - 4)).toNat = 4 := by bv_omega
  exact Stacked.store h v (by omega) (by omega)

theorem word (h : s.Holds ws) {i : Nat} (hi : i < ws.length) : s.word i = ws[i] := by
  suffices hstacked : ∀ {ws : List Word} {a : Word} {i : Nat} (hi : i < ws.length),
      Stacked s.mem a ws → load s.mem (a + BitVec.ofNat 32 (4 * i)) = ws[i] from hstacked hi h
  intro ws
  induction ws with
  | nil => intro a i hi; simp at hi
  | cons w ws ih =>
      intro a i hi hws
      cases i with
      | zero => simpa using hws.1
      | succ i =>
          have hnext := ih (Nat.lt_of_succ_lt_succ hi) hws.2
          have haddr : a + BitVec.ofNat 32 (4 * (i + 1)) = a + 4 + BitVec.ofNat 32 (4 * i) := by
            rw [Nat.mul_succ, BitVec.ofNat_add]
            bv_omega
          rw [haddr, hnext, List.getElem_cons_succ]

theorem skip (h : s.Holds (w :: ws)) : (s.skip 4).Holds ws := by
  have hesp : (s.skip 4).gpr .esp = s.gpr .esp + 4 := by simp [Cpu.skip]
  rw [Holds, hesp]
  exact h.2

theorem pop (h : s.Holds (w :: ws)) {r : Reg} (hr : r ≠ .esp) : (s.pop r).Holds ws := by
  have hesp : (s.pop r).gpr .esp = s.gpr .esp + 4 := by simp [hr.symm]
  rw [Holds, hesp]
  exact h.2

end Holds

/-! ## Interrupts -/

/-- The privilege level in a selector. -/
def rpl (sel : BitVec 16) : Nat := sel.toNat % 4

/-- What an interrupt clears in EFLAGS when it goes through an interrupt gate: IF, TF, NT, RF, VM. -/
def gateMask : Word := 0x34300

/-- **`interrupt`** — an interrupt arrives, through an interrupt gate for the code segment `gateCs`.
Code of a lower privilege is left for the stack `ss0:esp0`. -/
def interrupt (gateCs ss0 : BitVec 16) (esp0 : Word) (s : Cpu) : Cpu :=
  let s' := if rpl gateCs < rpl s.cs then
      (({ s with ss := ss0 }.set .esp esp0).push (s.ss.setWidth 32)).push (s.gpr .esp)
    else s
  let s' := ((s'.push s.eflags).push (s.cs.setWidth 32)).push s.eip
  { s' with cs := gateCs, eflags := s.eflags &&& ~~~gateMask }

/-- The words `interrupt` leaves on the stack. -/
def frame (gateCs : BitVec 16) (s : Cpu) : List Word :=
  [s.eip, s.cs.setWidth 32, s.eflags] ++
    if rpl gateCs < rpl s.cs then [s.gpr .esp, s.ss.setWidth 32] else []

def iret (s : Cpu) : Cpu :=
  let s' := { s.skip 12 with
    eip := s.word 0, cs := (s.word 1).setWidth 16, eflags := s.word 2 }
  if rpl s.cs < rpl s'.cs then
    { s'.set .esp (s.word 3) with ss := (s.word 4).setWidth 16 }
  else s'

theorem interrupt_holds (gateCs ss0 : BitVec 16) (esp0 : Word) (s : Cpu) :
    (interrupt gateCs ss0 esp0 s).Holds (frame gateCs s) := by
  unfold interrupt frame
  by_cases hrpl : rpl gateCs < rpl s.cs
  · rw [if_pos hrpl, if_pos hrpl]
    have hstack := Holds.nil ({ s with ss := ss0 }.set .esp esp0)
    have hold := (hstack.push (s.ss.setWidth 32) (by simp)).push (s.gpr .esp) (by simp)
    exact ((hold.push s.eflags (by simp)).push (s.cs.setWidth 32) (by simp)).push s.eip
      (by simp)
  · rw [if_neg hrpl, if_neg hrpl]
    exact (((Holds.nil s).push s.eflags (by simp)).push (s.cs.setWidth 32) (by simp)).push s.eip
      (by simp)

/-- An interrupt changes no register but the stack pointer. -/
theorem interrupt_gpr (gateCs ss0 : BitVec 16) (esp0 : Word) (s : Cpu) {r : Reg} (hr : r ≠ .esp) :
    (interrupt gateCs ss0 esp0 s).gpr r = s.gpr r := by
  unfold interrupt
  split
  · simp [hr]
  · simp [hr]

theorem frame_length_le (gateCs : BitVec 16) (s : Cpu) : (frame gateCs s).length ≤ 5 := by
  unfold frame
  split
  · simp
  · simp

/-- **`iret` undoes `interrupt`**: with the frame back on top of the stack and the stack pointer where
the interrupt had left it, the interrupted code goes on. -/
theorem iret_of_frame {gateCs ss0 : BitVec 16} {esp0 : Word} {s s' : Cpu}
    (h : s'.Holds (frame gateCs s)) (hcs : s'.cs = gateCs)
    (hss : s'.ss = (interrupt gateCs ss0 esp0 s).ss)
    (hesp : s'.gpr .esp = (interrupt gateCs ss0 esp0 s).gpr .esp) :
    iret s' = { s with gpr := Function.update s'.gpr .esp (s.gpr .esp), mem := s'.mem } := by
  have hselector : ∀ sel : BitVec 16, (sel.setWidth 32).setWidth 16 = sel := fun sel => by simp
  have hlen : 3 ≤ (frame gateCs s).length := by simp [frame]
  have heip : s'.word 0 = s.eip := h.word (by omega)
  have hcsw : s'.word 1 = s.cs.setWidth 32 := h.word (by omega)
  have hfl : s'.word 2 = s.eflags := h.word (by omega)
  unfold iret
  simp only [heip, hcsw, hfl, hselector, hcs]
  by_cases hrpl : rpl gateCs < rpl s.cs
  · have hframe : frame gateCs s =
        [s.eip, s.cs.setWidth 32, s.eflags, s.gpr .esp, s.ss.setWidth 32] := by
      simp [frame, hrpl]
    rw [hframe] at h
    have hespw : s'.word 3 = s.gpr .esp := h.word (by simp)
    have hssw : s'.word 4 = s.ss.setWidth 32 := h.word (by simp)
    rw [if_pos hrpl, hespw, hssw, hselector]
    simp [skip, set]
  · rw [if_neg hrpl]
    have hss' : s'.ss = s.ss := by
      rw [hss]
      simp [interrupt, hrpl, push, set]
    have hesp' : s'.gpr .esp + 12 = s.gpr .esp := by
      rw [hesp]
      simp only [interrupt, hrpl, if_false, push_gpr, Function.update_self]
      bv_omega
    simp only [skip, set, hesp', hss']

end Cpu

/-! ## Straight-line code -/

/-- Bit `i` of EFLAGS, if `c` holds. -/
def flagBit (i : Nat) (c : Bool) : Word := if c then 1 <<< i else 0

/-- EFLAGS after `a + b`: CF, PF, AF, ZF, SF and OF are set, the others kept. -/
def addFlags (eflags a b : Word) : Word :=
  let sum := a + b
  (eflags &&& ~~~0x8D5) ||| flagBit 0 (a.uaddOverflow b) |||
    flagBit 2 ((List.range 8).countP sum.getLsbD % 2 = 0) |||
    flagBit 4 (16 ≤ a.toNat % 16 + b.toNat % 16) ||| flagBit 6 (sum = 0) ||| flagBit 7 sum.msb |||
    flagBit 11 (a.saddOverflow b)

/-- The instructions; `φ` are the names of the procedures that can be called. -/
inductive Instr (φ : Type*)
  | cli
  | sti
  | push (r : Reg)
  | pushImm (v : Word)
  | pop (r : Reg)
  | addl (v : Word) (r : Reg)
  | call (f : φ) (ret : Word)
  | iret

section Code

variable {φ : Type*} (procs : φ → Cpu → Cpu)

/-- One instruction.  A procedure takes the state at its first instruction, with the return address on
the stack, to the state after its `ret`. -/
def Instr.exec : Instr φ → Cpu → Cpu
  | .cli, s => { s with eflags := s.eflags &&& ~~~0x200 }
  | .sti, s => { s with eflags := s.eflags ||| 0x200 }
  | .push r, s => s.push (s.gpr r)
  | .pushImm v, s => s.push v
  | .pop r, s => s.pop r
  | .addl v r, s => { s.set r (s.gpr r + v) with eflags := addFlags s.eflags (s.gpr r) v }
  | .call f ret, s => procs f (s.push ret)
  | .iret, s => s.iret

def run (code : List (Instr φ)) (s : Cpu) : Cpu := code.foldl (fun s i => i.exec procs s) s

@[simp] theorem run_nil (s : Cpu) : run procs [] s = s := rfl

@[simp] theorem run_cons (i : Instr φ) (code : List (Instr φ)) (s : Cpu) :
    run procs (i :: code) s = run procs code (i.exec procs s) := rfl

theorem run_append (code code' : List (Instr φ)) (s : Cpu) :
    run procs (code ++ code') s = run procs code' (run procs code s) := List.foldl_append ..

/-- **Saving registers** puts them on the stack, the last one on top, and changes no register. -/
theorem run_pushes {rs : List Reg} {s : Cpu} {ws : List Word} (hrs : Reg.esp ∉ rs)
    (h : s.Holds ws) (hfit : 4 * (rs.length + ws.length) ≤ 2 ^ 32) :
    (run procs (rs.map .push) s).Holds ((rs.map s.gpr).reverse ++ ws) ∧
    ∃ m, run procs (rs.map .push) s =
      { s with
        gpr := Function.update s.gpr .esp (s.gpr .esp - BitVec.ofNat 32 (4 * rs.length)), mem := m } := by
  induction rs generalizing s ws with
  | nil => exact ⟨h, s.mem, by simp⟩
  | cons r rs ih =>
      rw [List.mem_cons, not_or] at hrs
      rw [List.length_cons] at hfit
      have hpush := h.push (s.gpr r) (by omega)
      obtain ⟨hrest, m, hm⟩ := ih hrs.2 hpush (by rw [List.length_cons]; omega)
      have hgpr : rs.map (s.push (s.gpr r)).gpr = rs.map s.gpr := by
        refine List.map_congr_left fun q hq => ?_
        have hq : q ≠ .esp := fun heq => hrs.2 (heq ▸ hq)
        simp [hq]
      rw [hgpr] at hrest
      refine ⟨by simpa [Instr.exec] using hrest, m, ?_⟩
      rw [List.map_cons, run_cons]
      refine hm.trans ?_
      have hesp : s.gpr .esp - 4 - BitVec.ofNat 32 (4 * rs.length) =
          s.gpr .esp - BitVec.ofNat 32 (4 * (rs.length + 1)) := by
        rw [Nat.mul_succ, BitVec.ofNat_add]
        bv_omega
      simp only [Cpu.push, Cpu.set, Function.update_self, Function.update_idem, List.length_cons, hesp]

/-- **Restoring registers**: if the stack holds the values `v` of the registers `rs`, popping them
gives each its value. -/
theorem run_pops {rs : List Reg} {v : Reg → Word} {s : Cpu} {ws : List Word} (hrs : Reg.esp ∉ rs)
    (h : s.Holds (rs.map v ++ ws)) :
    (run procs (rs.map .pop) s).Holds ws ∧
    run procs (rs.map .pop) s =
      { s with
        gpr := fun r => if r ∈ rs then v r else
          if r = .esp then s.gpr .esp + BitVec.ofNat 32 (4 * rs.length) else s.gpr r } := by
  induction rs generalizing s with
  | nil =>
      refine ⟨h, ?_⟩
      have hgpr : ∀ r, (if r = .esp then s.gpr .esp else s.gpr r) = s.gpr r := by
        intro r
        split
        next heq => rw [heq]
        next => rfl
      simp [hgpr]
  | cons r rs ih =>
      rw [List.mem_cons, not_or] at hrs
      have hr : r ≠ .esp := Ne.symm hrs.1
      have hw : s.word 0 = v r := h.word (by simp)
      obtain ⟨hrest, heq⟩ := ih hrs.2 (h.pop hr)
      refine ⟨hrest, heq.trans ?_⟩
      have hesp : s.gpr .esp + 4 + BitVec.ofNat 32 (4 * rs.length) =
          s.gpr .esp + BitVec.ofNat 32 (4 * (rs.length + 1)) := by
        rw [Nat.mul_succ, BitVec.ofNat_add]
        bv_omega
      have hgpr : ∀ q, (if q ∈ rs then v q else
          if q = .esp then (s.pop r).gpr .esp + BitVec.ofNat 32 (4 * rs.length) else (s.pop r).gpr q) =
          if q ∈ r :: rs then v q else
            if q = .esp then s.gpr .esp + BitVec.ofNat 32 (4 * (rs.length + 1)) else s.gpr q := by
        intro q
        by_cases hq : q = r
        · subst hq
          simp [hr, hw]
        · by_cases hqe : q = .esp
          · subst hqe
            simp only [List.mem_cons, hrs.1, hrs.2, Cpu.pop_gpr, Function.update_of_ne hrs.1,
              Function.update_self, hesp, or_self, if_true, if_false]
          · simp [hq, hqe]
      simp only [hgpr, List.length_cons]
      rfl

end Code

/-! ## Words on another stack -/

/-- **`s.Clear d a ws`** — the words `ws` stand at `a`, out of reach of the next `d` pushes. -/
structure Cpu.Clear (s : Cpu) (d : Nat) (a : Word) (ws : List Word) : Prop where
  stacked : Stacked s.mem a ws
  apart : (a - s.gpr .esp).toNat + 4 * d + 4 * ws.length ≤ 2 ^ 32

namespace Cpu.Clear

variable {s : Cpu} {d : Nat} {a : Word} {ws : List Word}

theorem push (h : s.Clear (d + 1) a ws) (v : Word) : (s.push v).Clear d a ws := by
  have hapart := h.apart
  have hesp : (s.push v).gpr .esp = s.gpr .esp - 4 := by simp
  cases ws with
  | nil =>
      refine ⟨trivial, ?_⟩
      rw [hesp, List.length_nil] at *
      bv_omega
  | cons w ws =>
      rw [List.length_cons] at hapart
      have hdist : (a - (s.gpr .esp - 4)).toNat = (a - s.gpr .esp).toNat + 4 := by bv_omega
      refine ⟨h.stacked.store v (by omega) (by rw [List.length_cons]; omega), ?_⟩
      rw [hesp, hdist, List.length_cons]
      omega

theorem pushes {φ : Type*} (procs : φ → Cpu → Cpu) {rs : List Reg} (h : s.Clear (rs.length + d) a ws) :
    (run procs (rs.map .push) s).Clear d a ws := by
  induction rs generalizing s with
  | nil => simpa using h
  | cons r rs ih =>
      have hnext : s.Clear (rs.length + d + 1) a ws := by
        rwa [List.length_cons, Nat.add_right_comm] at h
      exact ih (hnext.push (s.gpr r))

/-- An interrupt that changes the stack pushes five words on the new one. -/
theorem interrupt {gateCs ss0 : BitVec 16} {esp0 : Word} (hrpl : rpl gateCs < rpl s.cs)
    (h : Stacked s.mem a ws) (hapart : (a - esp0).toNat + 4 * (d + 5) + 4 * ws.length ≤ 2 ^ 32) :
    (s.interrupt gateCs ss0 esp0).Clear d a ws := by
  have hstart : (({ s with ss := ss0 } : Cpu).set .esp esp0).Clear (d + 5) a ws := by
    refine ⟨h, ?_⟩
    rwa [set_gpr, Function.update_self]
  have hpushed := ((((hstart.push (s.ss.setWidth 32)).push (s.gpr .esp)).push s.eflags).push
    (s.cs.setWidth 32)).push s.eip
  unfold Cpu.interrupt
  rw [if_pos hrpl]
  exact ⟨hpushed.stacked, hpushed.apart⟩

end Cpu.Clear

/-- `ret`. -/
def Cpu.ret (s : Cpu) : Cpu := { s.skip 4 with eip := s.word 0 }

/-! ## Calls -/

/-- The registers a C function has to preserve, besides ESP. -/
def calleeSaved : List Reg := [.ebx, .esi, .edi, .ebp]

/-- **`Cdecl n s s'`** — a C function that was entered in `s`, with the return address on the stack and
`n` words of its caller above it, has returned in `s'`.  EAX, ECX, EDX, EFLAGS and all other memory
are at its disposal. -/
structure Cdecl (n : Nat) (s s' : Cpu) : Prop where
  saved : ∀ r ∈ calleeSaved, s'.gpr r = s.gpr r
  esp : s'.gpr .esp = s.gpr .esp + 4
  cs : s'.cs = s.cs
  ss : s'.ss = s.ss
  caller : ∀ w ws, ws.length ≤ n → s.Holds (w :: ws) → s'.Holds ws

end Ece391.Lib.X86
