/-
# Ece391.Interrupt.Dispatch — the system call linkage of `link.S`.

`sysc` compares EAX with 1 and with 10, saves six registers and calls through `sys_jump_table`, of which the
first three saved words are the parameters of the handler.  The table has eight entries.  A number 9 or 10
passes the comparison and is looked up in the words behind the table, which are the code of `irq_0`.
`dispatched_iff` says that these two numbers are the only ones: for all others the dispatch is confined to
the table.

The listing runs on the machine of `Lib.Branches`, with interrupts that do not arrive: `int $0x80` goes
through a trap gate, so they are enabled, and each of them is the subject of `Interrupt.Link`.
-/
import Mathlib.Data.List.Basic
import Ece391.Interrupt.Link
import Ece391.Lib.Branches

open Ece391.Lib.X86

namespace Ece391

/-- The procedures in `sys_jump_table`. -/
inductive SysHandler
  | halt | execute | read | write | open | close | getargs | vidmap
  deriving DecidableEq

/-- `sys_jump_table`. -/
def sysJumpTable : List SysHandler :=
  [.halt, .execute, .read, .write, .open, .close, .getargs, .vidmap]

/-- The handler of a system call number: the entries of the table are numbered from 1. -/
def handlerOf (eax : Word) : Option SysHandler :=
  if eax = 0 then none else sysJumpTable[eax.toNat - 1]?

/-- The linked kernel, as far as a system call meets it: the stack in the TSS, the return address of the
`call`, the text segment, and in it the table with the address of each handler. -/
structure SysLinkage where
  ss0 : BitVec 16
  esp0 : Word
  ret : Word
  text : Word → Word
  table : Word
  address : SysHandler → Word
  entries : ∀ i h, sysJumpTable[i]? = some h → text (table + BitVec.ofNat 32 (4 * i)) = address h

namespace SysLinkage

/-- `bad_call`. -/
def badCall : Code := .movl (-1) .eax .iret

/-- popping all registers, return back -/
def leave : Code := .line [.pop .ebx, .pop .ecx, .pop .edx, .pop .esi, .pop .edi, .pop .ebp] .iret

/-- **`sysc`** — check bounds for syscall, pushing all the registers, call the function. -/
def sysc (l : SysLinkage) : Code :=
  .cmpl 1 .eax <| .jl badCall <|
  .cmpl 10 .eax <| .jg badCall <|
  .line [.push .ebp, .push .edi, .push .esi, .push .edx, .push .ecx, .push .ebx] <|
  .callTable (l.table - 4) .eax l.ret leave

def arrive (l : SysLinkage) (s : Cpu) : Cpu := s.trap Linkage.kernelCs l.ss0 l.esp0

/-- **`dispatch`** — `int $0x80` in the state `s`, up to the call of a handler or the `iret`. -/
def dispatch (l : SysLinkage) (s : Cpu) : Stop := l.sysc.run l.text (l.arrive s)

/-- **`Resumes l s s'`** — at the `iret` the stack is balanced, and the code that made the system call goes
on, with all registers as they were but for those in `rs`. -/
def Resumes (l : SysLinkage) (rs : List Reg) (s s' : Cpu) : Prop :=
  s'.gpr .esp = (l.arrive s).gpr .esp ∧
  ∃ gpr mem, s'.iret = { s with gpr := gpr, mem := mem } ∧ ∀ r ∉ rs, gpr r = s.gpr r

/-- **`Dispatched l s`** — the number of an entry calls that handler, with EBX, ECX and EDX on top of the
stack, and if the handler returns, nothing else is called and the stack is balanced at the `iret`; every other
number calls nothing and returns -1, with all other registers unchanged. -/
def Dispatched (l : SysLinkage) (s : Cpu) : Prop :=
  match handlerOf (s.gpr .eax) with
  | some h => ∃ s', l.dispatch s = .calls (l.address h) s' leave ∧ s'.word 0 = l.ret ∧
      s'.word 1 = s.gpr .ebx ∧ s'.word 2 = s.gpr .ecx ∧ s'.word 3 = s.gpr .edx ∧
      ∀ s'', CdeclArgs 3 (3 + (s.frame Linkage.kernelCs).length) s' s'' →
        ∃ s3, leave.run l.text s'' = .irets s3 ∧ l.Resumes [.eax, .ebx, .ecx, .edx] s s3 ∧
          s3.iret.gpr .eax = s''.gpr .eax
  | none => ∃ s', l.dispatch s = .irets s' ∧ l.Resumes [.eax] s s' ∧ s'.iret.gpr .eax = -1

/-! ## The bounds test -/

section Spec

variable (l : SysLinkage) (s : Cpu)

/-- The state after the comparisons. -/
def compared (l : SysLinkage) (s : Cpu) (eflags : Word) : Cpu := { l.arrive s with eflags := eflags }

theorem compared_gpr (eflags : Word) {r : Reg} (hr : r ≠ .esp) :
    (l.compared s eflags).gpr r = s.gpr r := by
  show (l.arrive s).gpr r = s.gpr r
  exact s.trap_gpr Linkage.kernelCs l.ss0 l.esp0 hr

theorem compared_holds (eflags : Word) : (l.compared s eflags).Holds (s.frame Linkage.kernelCs) :=
  s.trap_holds Linkage.kernelCs l.ss0 l.esp0

/-- The state at the first instruction of what is called. -/
def called (l : SysLinkage) (s : Cpu) (eflags : Word) : Cpu :=
  (Lib.X86.run noProcs ([.ebp, .edi, .esi, .edx, .ecx, .ebx].map .push) (l.compared s eflags)).push l.ret

/-- Saving the registers changes none of them. -/
theorem saved_gpr (eflags : Word) {r : Reg} (hr : r ≠ .esp) :
    (Lib.X86.run noProcs ([.ebp, .edi, .esi, .edx, .ecx, .ebx].map .push) (l.compared s eflags)).gpr r =
      s.gpr r := by
  obtain ⟨-, m, hm⟩ := run_pushes noProcs (show Reg.esp ∉ [.ebp, .edi, .esi, .edx, .ecx, .ebx] by decide)
    (Cpu.Holds.nil (l.compared s eflags)) (by decide)
  rw [hm]
  exact (Function.update_of_ne hr _ _).trans (l.compared_gpr s eflags hr)

/-- **The bounds test**: numbers below 1 and above 10, as signed numbers, are refused, and the others looked
up. -/
theorem dispatch_eq : ∃ eflags, l.dispatch s =
    if (s.gpr .eax).toInt < 1 ∨ 10 < (s.gpr .eax).toInt then
      .irets ((l.compared s eflags).set .eax (-1))
    else .calls (l.text (l.table - 4 + 4 * s.gpr .eax)) (l.called s eflags) leave := by
  have heax : (l.arrive s).gpr .eax = s.gpr .eax := s.trap_gpr Linkage.kernelCs l.ss0 l.esp0 (by decide)
  have heax' : ((l.arrive s).compare .eax 1).gpr .eax = s.gpr .eax := heax
  have hone : (1 : Word).toInt = 1 := by decide
  have hten : (10 : Word).toInt = 10 := by decide
  rw [dispatch, sysc, Code.run_cmpl_jl, heax, hone]
  by_cases hlow : (s.gpr .eax).toInt < 1
  · refine ⟨((l.arrive s).compare .eax 1).eflags, ?_⟩
    rw [if_pos hlow, if_pos (Or.inl hlow)]
    rfl
  · rw [if_neg hlow, Code.run_cmpl_jg, heax', hten]
    refine ⟨(((l.arrive s).compare .eax 1).compare .eax 10).eflags, ?_⟩
    by_cases hhigh : 10 < (s.gpr .eax).toInt
    · rw [if_pos hhigh, if_pos (Or.inr hhigh)]
      rfl
    · rw [if_neg hhigh, if_neg (not_or.mpr ⟨hlow, hhigh⟩), Code.run, Code.run]
      rw [← l.saved_gpr s (((l.arrive s).compare .eax 1).compare .eax 10).eflags (show Reg.eax ≠ .esp by decide)]
      rfl

/-- **What the handler finds**: the return address, the saved registers, the frame of the interrupted code. -/
theorem called_spec (eflags : Word) :
    (l.called s eflags).Holds (l.ret :: ([.ebx, .ecx, .edx].map s.gpr ++ ([.esi, .edi, .ebp].map s.gpr ++
      s.frame Linkage.kernelCs))) ∧
    (∀ r ≠ .esp, (l.called s eflags).gpr r = s.gpr r) ∧
    (l.called s eflags).gpr .esp = (l.arrive s).gpr .esp - 28 ∧
    (l.called s eflags).cs = Linkage.kernelCs ∧ (l.called s eflags).ss = (l.arrive s).ss := by
  have hlen := s.frame_length_le Linkage.kernelCs
  have hsaved : ∀ r ≠ .esp, (l.called s eflags).gpr r = s.gpr r := fun r hr =>
    (Function.update_of_ne hr _ _).trans (l.saved_gpr s eflags hr)
  obtain ⟨hstack, m, hm⟩ := run_pushes noProcs (show Reg.esp ∉ [.ebp, .edi, .esi, .edx, .ecx, .ebx] by decide)
    (l.compared_holds s eflags) (by simp; omega)
  have hwords : ([.ebp, .edi, .esi, .edx, .ecx, .ebx] : List Reg).map (l.compared s eflags).gpr =
      [.ebp, .edi, .esi, .edx, .ecx, .ebx].map s.gpr := by
    apply List.map_congr_left
    intro r hr
    apply l.compared_gpr
    rintro rfl
    exact absurd hr (by decide)
  rw [hwords] at hstack
  refine ⟨?_, hsaved, ?_, ?_, ?_⟩
  · exact hstack.push l.ret (by simp; omega)
  · rw [called, hm]
    simp [compared]
    bv_omega
  · rw [called, hm]
    rfl
  · rw [called, hm]
    rfl

/-- **The way back** from a handler that keeps to the calling convention. -/
theorem leave_spec {eflags : Word} {s'' : Cpu}
    (hc : CdeclArgs 3 (3 + (s.frame Linkage.kernelCs).length) (l.called s eflags) s'') :
    ∃ s3, leave.run l.text s'' = .irets s3 ∧ l.Resumes [.eax, .ebx, .ecx, .edx] s s3 ∧
      s3.iret.gpr .eax = s''.gpr .eax := by
  obtain ⟨hstack, hgpr, hesp, hcs, hss⟩ := l.called_spec s eflags
  obtain ⟨args, hargs, hback⟩ := hc.caller _ _ _ rfl (by simp; omega) hstack
  obtain ⟨x, y, z, rfl⟩ := List.length_eq_three.mp hargs
  -- the values that the pops will give the registers
  let v : Reg → Word := fun r => match r with
    | .ebx => x
    | .ecx => y
    | .edx => z
    | r => s.gpr r
  have hwords : ([x, y, z] ++ ([.esi, .edi, .ebp].map s.gpr ++ s.frame Linkage.kernelCs)) =
      [.ebx, .ecx, .edx, .esi, .edi, .ebp].map v ++ s.frame Linkage.kernelCs := rfl
  rw [hwords] at hback
  obtain ⟨hframe, hpops⟩ := run_pops noProcs (show Reg.esp ∉ [.ebx, .ecx, .edx, .esi, .edi, .ebp] by decide) hback
  generalize hs3 : Lib.X86.run noProcs ([.ebx, .ecx, .edx, .esi, .edi, .ebp].map .pop) s'' = s3 at hframe hpops
  have hrun : leave.run l.text s'' = .irets s3 := by
    rw [← hs3]
    rfl
  have hcs3 : s3.cs = Linkage.kernelCs := by
    rw [hpops]
    exact hc.cs.trans hcs
  have hss3 : s3.ss = (s.interrupt Linkage.kernelCs l.ss0 l.esp0).ss := by
    rw [hpops]
    exact hc.ss.trans hss
  have hesp3 : s3.gpr .esp = (s.interrupt Linkage.kernelCs l.ss0 l.esp0).gpr .esp := by
    rw [hpops]
    simp [hc.esp, hesp]
    show (l.arrive s).gpr .esp - 28 + 4 + 24 = (l.arrive s).gpr .esp
    bv_omega
  have hiret := Cpu.iret_of_frame hframe hcs3 hss3 hesp3
  refine ⟨s3, hrun, ⟨hesp3, _, _, hiret, ?_⟩, ?_⟩
  · intro r hr
    rw [hpops]
    cases r
    case eax | ebx | ecx | edx => exact absurd (by decide) hr
    case esi | edi | ebp | esp => rfl
  · rw [hiret, hpops]
    simp

end Spec

section Dispatching

variable (l : SysLinkage) (s : Cpu)

/-- A refused number: nothing is called. -/
theorem resumes_refused (eflags : Word) :
    l.Resumes [.eax] s ((l.compared s eflags).set .eax (-1)) ∧
      ((l.compared s eflags).set .eax (-1)).iret.gpr .eax = -1 := by
  have hesp : ((l.compared s eflags).set .eax (-1)).gpr .esp = (l.arrive s).gpr .esp := by simp [compared]
  have hframe : ((l.compared s eflags).set .eax (-1)).Holds (s.frame Linkage.kernelCs) := by
    rw [Cpu.Holds, hesp]
    exact l.compared_holds s eflags
  have hss : ((l.compared s eflags).set .eax (-1)).ss = (s.interrupt Linkage.kernelCs l.ss0 l.esp0).ss := rfl
  have hiret := Cpu.iret_of_frame hframe rfl hss hesp
  refine ⟨⟨hesp, _, _, hiret, fun r hr => ?_⟩, ?_⟩
  · have hne : r ≠ .eax := fun heq => hr (heq ▸ List.mem_singleton_self _)
    by_cases hr : r = .esp
    · rw [hr, Function.update_self]
    · rw [Function.update_of_ne hr, Cpu.set_gpr, Function.update_of_ne hne, l.compared_gpr s eflags hr]
  · rw [hiret]
    simp

/-- The numbers of the entries, and where the listing looks for them. -/
theorem handlerOf_eq_some {eax : Word} {h : SysHandler} (hh : handlerOf eax = some h) :
    (1 ≤ eax.toInt ∧ eax.toInt ≤ 8) ∧ l.text (l.table - 4 + 4 * eax) = l.address h := by
  rw [handlerOf] at hh
  split at hh
  case isTrue => cases hh
  case isFalse hne =>
    have hpos : eax.toNat ≠ 0 := fun heq => hne (BitVec.eq_of_toNat_eq heq)
    have hlen : eax.toNat - 1 < 8 := (List.getElem?_eq_some_iff.mp hh).1
    have hsigned : eax.toInt = eax.toNat := by
      rw [BitVec.toInt_eq_toNat_of_lt]
      omega
    have haddr : l.table - 4 + 4 * eax = l.table + BitVec.ofNat 32 (4 * (eax.toNat - 1)) := by bv_omega
    exact ⟨by omega, haddr ▸ l.entries _ h hh⟩

/-- No entry has another number. -/
theorem handlerOf_eq_none {eax : Word} (hh : handlerOf eax = none) :
    (eax.toInt < 1 ∨ 10 < eax.toInt) ∨ eax = 9 ∨ eax = 10 := by
  rw [handlerOf] at hh
  split at hh
  case isTrue hzero =>
    left; left
    rw [hzero]
    decide
  case isFalse hne =>
    have hpos : eax.toNat ≠ 0 := fun heq => hne (BitVec.eq_of_toNat_eq heq)
    have hlen : 8 ≤ eax.toNat - 1 := List.getElem?_eq_none_iff.mp hh
    have hsigned := BitVec.toInt_eq_toNat_cond (x := eax)
    have hnine : eax = 9 ↔ eax.toNat = 9 := ⟨fun heq => heq ▸ rfl, fun heq => BitVec.eq_of_toNat_eq heq⟩
    have hten : eax = 10 ↔ eax.toNat = 10 := ⟨fun heq => heq ▸ rfl, fun heq => BitVec.eq_of_toNat_eq heq⟩
    rw [hnine, hten]
    have hlt := eax.isLt
    split at hsigned
    all_goals omega

end Dispatching

end SysLinkage

/-! ## The main result -/

/-- **The dispatch is confined to the table, but for two numbers.**  For every state of the processor, every
value of EAX included: the system call is dispatched as its number says exactly if the number is neither 9
nor 10. -/
theorem dispatched_iff (l : SysLinkage) (s : Cpu) :
    l.Dispatched s ↔ s.gpr .eax ≠ 9 ∧ s.gpr .eax ≠ 10 := by
  obtain ⟨eflags, hdispatch⟩ := l.dispatch_eq s
  unfold SysLinkage.Dispatched
  split
  case h_1 h hh =>
    obtain ⟨hrange, haddr⟩ := l.handlerOf_eq_some hh
    have hinside : ¬((s.gpr .eax).toInt < 1 ∨ 10 < (s.gpr .eax).toInt) := by omega
    rw [if_neg hinside, haddr] at hdispatch
    obtain ⟨hstack, -⟩ := l.called_spec s eflags
    constructor
    · intro _
      constructor
      all_goals
        intro heq
        rw [heq] at hrange
        exact absurd hrange.2 (by decide)
    · intro _
      refine ⟨_, hdispatch, hstack.word (by simp), hstack.word (by simp), hstack.word (by simp),
        hstack.word (by simp), fun s'' hc => l.leave_spec s hc⟩
  case h_2 hh =>
    by_cases houtside : (s.gpr .eax).toInt < 1 ∨ 10 < (s.gpr .eax).toInt
    · rw [if_pos houtside] at hdispatch
      obtain ⟨hresumes, heax⟩ := l.resumes_refused s eflags
      constructor
      · intro _
        constructor
        all_goals
          intro heq
          rw [heq] at houtside
          exact absurd houtside (by decide)
      · exact fun _ => ⟨_, hdispatch, hresumes, heax⟩
    · rw [if_neg houtside] at hdispatch
      have hnumber := (SysLinkage.handlerOf_eq_none hh).resolve_left houtside
      constructor
      · rintro ⟨s', hstop, -⟩
        -- what is behind the table is called
        rw [hdispatch] at hstop
        cases hstop
      · rintro ⟨hnine, hten⟩
        rcases hnumber with heq | heq
        · exact absurd heq hnine
        · exact absurd heq hten

/-- No handler is in the table twice. -/
theorem idxOf_sysJumpTable {i : Nat} {h : SysHandler} (hi : sysJumpTable[i]? = some h) :
    sysJumpTable.idxOf h = i := by
  obtain ⟨hlt, rfl⟩ := List.getElem?_eq_some_iff.mp hi
  exact List.Nodup.idxOf_getElem (by decide) i hlt

/-- A kernel: the handlers 256 bytes apart, and behind the table `pushl $0; jmp; pushl $1`. -/
def linkedKernel : SysLinkage where
  ss0 := 0x0018
  esp0 := 0x7FFFFC
  ret := 0x400122
  text a :=
    if (a - 0x40013F).toNat < 32 then 0x401000 + 64 * (a - 0x40013F)
    else if a = 0x40015F then 0x9AE9006A
    else 0x6AFFFFFF
  table := 0x40013F
  address h := 0x401000 + 0x100 * BitVec.ofNat 32 (sysJumpTable.idxOf h)
  entries i h hi := by
    have hlt : i < 8 := (List.getElem?_eq_some_iff.mp hi).1
    have hoffset : 0x40013F + BitVec.ofNat 32 (4 * i) - 0x40013F = BitVec.ofNat 32 (4 * i) := by bv_omega
    have hinside : (BitVec.ofNat 32 (4 * i)).toNat < 32 := by
      rw [BitVec.toNat_ofNat]
      omega
    rw [idxOf_sysJumpTable hi, hoffset, if_pos hinside]
    bv_omega

/-- System call 9 calls code at 0x9AE9006A. -/
theorem ninth_call_leaves_table :
    ¬(∀ l s, SysLinkage.Dispatched l s) ∧
      ∃ s', linkedKernel.dispatch (userCode.set .eax 9) = .calls 0x9AE9006A s' SysLinkage.leave := by
  constructor
  · intro hall
    have hdispatched := hall linkedKernel (userCode.set .eax 9)
    obtain ⟨eflags, hdispatch⟩ := linkedKernel.dispatch_eq (userCode.set .eax 9)
    obtain ⟨s', hstop, -⟩ := hdispatched
    rw [hdispatch] at hstop
    cases hstop
  · obtain ⟨eflags, hdispatch⟩ := linkedKernel.dispatch_eq (userCode.set .eax 9)
    exact ⟨_, hdispatch⟩

end Ece391
