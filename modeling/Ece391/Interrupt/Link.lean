/-
# Ece391.Interrupt.Link — the interrupt linkage of `link.S`.

The stubs `keyboard`, `rtc` and `pit` push their vector and jump to `common_interrupt`, which pushes
seven registers, calls `do_irq` and pops them again.  What a stub does to the interrupted code is
decided by that one listing, on the machine of `Lib.X86`: everything but EAX comes back
(`service_eq`).  The word that holds EAX is skipped by an `addl $4, %esp` instead of being popped, so
the interrupted code continues with the EAX that `do_irq` happened to return with.
-/
import Ece391.Lib.X86

open Ece391.Lib.X86

namespace Ece391

/-- The procedures called in `link.S`. -/
inductive LinkProc
  | doIrq

/-- **`commonInterrupt`** — `common_interrupt`; `ret` is the address of the instruction after the
`call`. -/
def commonInterrupt (ret : Word) : List (Instr LinkProc) :=
  [.cli,
   -- pushing all the registers
   .push .eax, .push .ebp, .push .edi, .push .esi, .push .edx, .push .ecx, .push .ebx,
   .call .doIrq ret,
   -- popping all registers
   .pop .ebx, .pop .ecx, .pop .edx, .pop .esi, .pop .edi, .pop .ebp,
   -- popping eax of the stack, popping the vector number off the stack
   .addl 4 .esp, .addl 4 .esp,
   .sti, .iret]

/-- The hardware interrupts. -/
inductive Irq
  | keyboard | rtc | pit

def Irq.vector : Irq → Word
  | .keyboard => 0x21
  | .rtc => 0x28
  | .pit => 0x20

/-- The stubs: `pushl $vector; jmp common_interrupt`. -/
def Irq.stub (irq : Irq) (ret : Word) : List (Instr LinkProc) :=
  .pushImm irq.vector :: commonInterrupt ret

/-- **`doIrq`** — `do_irq`: the eighth parameter selects the handler.  `handlerTable v` stands for the
call of `handler_table[v]` together with the code `do_irq` is compiled to. -/
def doIrq (handlerTable : Word → Cpu → Cpu) (s : Cpu) : Cpu := handlerTable (s.word 8) s

/-- Where the processor goes on an interrupt: the stack in the TSS, and a return address for the
`call`. -/
structure Linkage where
  ss0 : BitVec 16
  esp0 : Word
  ret : Word
  handlerTable : Word → Cpu → Cpu

namespace Linkage

/-- `KERNEL_CS`. -/
def kernelCs : BitVec 16 := 0x0010

def procs (l : Linkage) : LinkProc → Cpu → Cpu
  | .doIrq => doIrq l.handlerTable

def arrive (l : Linkage) (s : Cpu) : Cpu := s.interrupt kernelCs l.ss0 l.esp0

/-- **`service`** — an interrupt arrives in `s` and is served, up to its `iret`. -/
def service (l : Linkage) (irq : Irq) (s : Cpu) : Cpu := run l.procs (irq.stub l.ret) (l.arrive s)

/-- The registers in the order in which they are pushed. -/
def saved : List Reg := [.eax, .ebp, .edi, .esi, .edx, .ecx, .ebx]

/-- The registers in the order in which they are popped. -/
def restored : List Reg := [.ebx, .ecx, .edx, .esi, .edi, .ebp]

/-- The state in which `do_irq` is entered. -/
def entry (l : Linkage) (irq : Irq) (s : Cpu) : Cpu :=
  (run l.procs (.pushImm irq.vector :: .cli :: saved.map .push) (l.arrive s)).push l.ret

theorem stub_eq (irq : Irq) (ret : Word) :
    irq.stub ret = (.pushImm irq.vector :: .cli :: saved.map .push) ++
      (.call .doIrq ret :: (restored.map .pop ++ [.addl 4 .esp, .addl 4 .esp, .sti, .iret])) := rfl

/-- The stub is `entry`, `do_irq`, and the code after the call. -/
theorem service_split (l : Linkage) (irq : Irq) (s : Cpu) :
    l.service irq s =
      run l.procs (restored.map .pop ++ [.addl 4 .esp, .addl 4 .esp, .sti, .iret])
        (doIrq l.handlerTable (l.entry irq s)) := by
  rw [service, stub_eq, run_append, run_cons]
  rfl

/-- What `do_irq` finds: its eight parameters on the stack, the frame of the interrupted code above
them, and the registers as they were. -/
theorem entry_spec (l : Linkage) (irq : Irq) (s : Cpu) :
    (l.entry irq s).Holds
      (l.ret :: (restored.map s.gpr ++ s.gpr .eax :: irq.vector :: s.frame kernelCs)) ∧
    (∀ r ≠ .esp, (l.entry irq s).gpr r = s.gpr r) ∧
    (l.entry irq s).gpr .esp = (l.arrive s).gpr .esp - 36 ∧
    (l.entry irq s).cs = kernelCs ∧ (l.entry irq s).ss = (l.arrive s).ss := by
  have hlen := s.frame_length_le kernelCs
  have hgpr : ∀ r ≠ .esp, (l.arrive s).gpr r = s.gpr r := fun r hr => s.interrupt_gpr kernelCs l.ss0 l.esp0 hr
  -- the state after `pushl $vector; cli`
  generalize hs' : ({ (l.arrive s).push irq.vector with
    eflags := (l.arrive s).eflags &&& ~~~0x200 } : Cpu) = s'
  have hentry : l.entry irq s = (run l.procs (saved.map .push) s').push l.ret := by
    rw [entry, run_cons, run_cons, ← hs']
    rfl
  have hvector : s'.Holds (irq.vector :: s.frame kernelCs) := by
    rw [← hs']
    exact (Cpu.interrupt_holds kernelCs l.ss0 l.esp0 s).push irq.vector (by omega)
  have hesp : s'.gpr .esp = (l.arrive s).gpr .esp - 4 := by
    rw [← hs']
    simp
  have hsaved : ∀ r ≠ .esp, s'.gpr r = s.gpr r := by
    intro r hr
    rw [← hs', ← hgpr r hr]
    simp [hr]
  have hsegments : s'.cs = kernelCs ∧ s'.ss = (l.arrive s).ss := by
    rw [← hs']
    exact ⟨rfl, rfl⟩
  obtain ⟨hstack, m, hm⟩ := run_pushes l.procs (show Reg.esp ∉ saved by decide) hvector (by
    rw [List.length_cons, show saved.length = 7 from rfl]
    omega)
  have hwords : saved.map s'.gpr = saved.map s.gpr := by
    apply List.map_congr_left
    intro r hr
    apply hsaved
    rintro rfl
    exact absurd hr (by decide)
  rw [hwords] at hstack
  rw [hentry]
  refine ⟨hstack.push l.ret ?_, ?_, ?_, ?_, ?_⟩
  · simp [saved]
    omega
  · intro r hr
    rw [hm, ← hsaved r hr]
    simp [hr]
  · rw [hm]
    simp [saved, hesp]
    bv_omega
  · rw [hm]
    exact hsegments.1
  · rw [hm]
    exact hsegments.2

/-- **What a served interrupt does**: every register, segment and flag is as before, except that EAX is
what `do_irq` returned with. -/
theorem service_eq (l : Linkage) (irq : Irq) (s : Cpu)
    (hc : Cdecl (8 + (s.frame kernelCs).length) (l.entry irq s)
      (l.handlerTable irq.vector (l.entry irq s))) :
    ∃ m, l.service irq s =
      { s.set .eax ((l.handlerTable irq.vector (l.entry irq s)).gpr .eax) with mem := m } := by
  obtain ⟨hstack, hgpr, hesp, hcs, hss⟩ := entry_spec l irq s
  have hvector : (l.entry irq s).word 8 = irq.vector :=
    hstack.word (show 8 < _ by simp [restored])
  rw [service_split, doIrq, hvector]
  generalize l.handlerTable irq.vector (l.entry irq s) = s' at hc
  have hback := hc.caller l.ret _ (by simp [restored]; omega) hstack
  obtain ⟨hrest, hpops⟩ := run_pops l.procs (show Reg.esp ∉ restored by decide) hback
  generalize hs2 : run l.procs (restored.map .pop) s' = s2 at hrest hpops
  -- the state in front of the `iret`
  generalize hs3 : run l.procs [.addl 4 .esp, .addl 4 .esp, .sti] s2 = s3
  have hcode : run l.procs (restored.map .pop ++ [.addl 4 .esp, .addl 4 .esp, .sti, .iret]) s' =
      s3.iret := by
    rw [run_append, hs2, ← hs3]
    rfl
  have hframe : s3.Holds (s.frame kernelCs) := by
    -- `sti` and the flags of `addl` are no part of the stack
    have hskipped : ((s2.skip 4).skip 4).Holds (s.frame kernelCs) := hrest.skip.skip
    have hmem : s3.mem = ((s2.skip 4).skip 4).mem := by
      rw [← hs3]
      rfl
    have hesp : s3.gpr .esp = ((s2.skip 4).skip 4).gpr .esp := by
      rw [← hs3]
      rfl
    rwa [Cpu.Holds, hmem, hesp]
  have hgpr3 : ∀ r, s3.gpr r = if r = .esp then s2.gpr .esp + 8 else s2.gpr r := by
    intro r
    rw [← hs3]
    cases r
    case esp =>
      simp [Instr.exec]
      bv_omega
    all_goals rfl
  have hsegments : s3.cs = s'.cs ∧ s3.ss = s'.ss ∧ s3.mem = s'.mem := by
    rw [← hs3, hpops]
    exact ⟨rfl, rfl, rfl⟩
  have hesp3 : s3.gpr .esp = (l.arrive s).gpr .esp := by
    rw [hgpr3, if_pos rfl, hpops]
    simp [restored, hc.esp, hesp]
    bv_omega
  have hiret := Cpu.iret_of_frame hframe (hsegments.1.trans (hc.cs.trans hcs))
    (hsegments.2.1.trans (hc.ss.trans hss)) hesp3
  refine ⟨s'.mem, ?_⟩
  rw [hcode, hiret, hsegments.2.2]
  have hregs : Function.update s3.gpr .esp (s.gpr .esp) = Function.update s.gpr .eax (s'.gpr .eax) := by
    funext r
    cases r
    all_goals simp [hgpr3, hpops, restored]
  rw [hregs]
  rfl

end Linkage

/-! ## Transparency -/

/-- **An interrupt is transparent exactly if the handler leaves EAX as it found it.**  For every state
of the interrupted code, privileged or not, every hardware interrupt and every handler that obeys the
calling convention. -/
theorem interrupt_transparent_iff (l : Linkage) (irq : Irq) (s : Cpu)
    (hc : Cdecl (8 + (s.frame Linkage.kernelCs).length) (l.entry irq s)
      (l.handlerTable irq.vector (l.entry irq s))) :
    ((∀ r, (l.service irq s).gpr r = s.gpr r) ∧ (l.service irq s).eip = s.eip) ↔
    (l.handlerTable irq.vector (l.entry irq s)).gpr .eax = (l.entry irq s).gpr .eax := by
  obtain ⟨m, hm⟩ := Linkage.service_eq l irq s hc
  obtain ⟨-, hgpr, -⟩ := Linkage.entry_spec l irq s
  rw [hm, hgpr .eax (by decide)]
  constructor
  · rintro ⟨hregs, -⟩
    have heax := hregs .eax
    simpa using heax
  · intro heax
    refine ⟨?_, rfl⟩
    intro r
    rw [heax]
    by_cases hr : r = .eax
    · subst hr
      simp
    · simp [hr]

/-- A function that returns at once. -/
theorem cdecl_ret (n : Nat) (s : Cpu) : Cdecl n s (s.skip 4) where
  saved r hr := by
    have hne : r ≠ .esp := fun heq => absurd (heq ▸ hr) (by decide)
    simp [Cpu.skip, hne]
  esp := by simp [Cpu.skip]
  cs := rfl
  ss := rfl
  caller _ _ _ h := h.skip

/-- A function that returns zero in EAX. -/
theorem cdecl_return_zero (n : Nat) (s : Cpu) : Cdecl n s ((s.skip 4).set .eax 0) where
  saved r hr := by
    have hne : r ≠ .esp := fun heq => absurd (heq ▸ hr) (by decide)
    have hne' : r ≠ .eax := fun heq => absurd (heq ▸ hr) (by decide)
    simp [Cpu.skip, hne, hne']
  esp := by simp [Cpu.skip]
  cs := rfl
  ss := rfl
  caller _ _ _ h := h.skip

/-- User code with EAX = 1. -/
def userCode : Cpu where
  gpr r := if r = .eax then 1 else 0
  eip := 0x08048000
  cs := 0x0023
  ss := 0x002B
  eflags := 0x202
  mem _ := 0

/-- A keyboard handler that keeps EAX. -/
theorem keyboard_transparent :
    let l : Linkage := ⟨0x0018, 0x7FFFFC, 0x400000, fun _ s => s.skip 4⟩
    (∀ r, (l.service .keyboard userCode).gpr r = userCode.gpr r) ∧
    (l.service .keyboard userCode).eip = userCode.eip := by
  intro l
  refine (interrupt_transparent_iff l .keyboard userCode (cdecl_ret _ _)).mpr ?_
  show (Cpu.skip _ _).gpr .eax = _
  simp [Cpu.skip]

/-- A keyboard handler that returns with EAX = 0: so does the interrupted code continue, although it
had EAX = 1. -/
theorem keyboard_loses_eax :
    let l : Linkage := ⟨0x0018, 0x7FFFFC, 0x400000, fun _ s => (s.skip 4).set .eax 0⟩
    Cdecl (8 + (userCode.frame Linkage.kernelCs).length) (l.entry .keyboard userCode)
      (l.handlerTable 0x21 (l.entry .keyboard userCode)) ∧
    userCode.gpr .eax = 1 ∧ (l.service .keyboard userCode).gpr .eax = 0 := by
  intro l
  refine ⟨cdecl_return_zero _ _, rfl, ?_⟩
  obtain ⟨m, hm⟩ := l.service_eq .keyboard userCode (cdecl_return_zero _ _)
  rw [hm]
  show Function.update userCode.gpr .eax
    ((((l.entry .keyboard userCode).skip 4).set .eax 0).gpr .eax) .eax = 0
  simp

end Ece391
