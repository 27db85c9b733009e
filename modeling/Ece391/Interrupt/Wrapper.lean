/-
# Ece391.Interrupt.Wrapper — the system call library of the user programs.

`DO_CALL` of `ece391syscall.S` makes a C function of a system call number: it saves EBX, loads the number
and the three parameters into registers and executes `int $0x80`.  The kernel's half is
`Interrupt.Dispatch`, which gives EBX, ECX and EDX back as the handler left its parameters.  The two
halves fit: `wrapper_call` follows a call through both of them and back, and what the caller sees is a C
function whose parameters are those of the handler and whose value is the handler's.

The two stacks are one memory here.  That the kernel's one does not reach the user's is `Cpu.Clear`.
-/
import Ece391.Interrupt.Dispatch

open Ece391.Lib.X86

namespace Ece391

/-! ## The library -/

/-- The functions that `DO_CALL` makes, with the numbers of `ece391sysnum.h`. -/
inductive Wrapper
  | halt | execute | read | write | open | close | getargs | vidmap | setHandler | sigreturn
  deriving DecidableEq

namespace Wrapper

def number : Wrapper → Word
  | .halt => 1
  | .execute => 2
  | .read => 3
  | .write => 4
  | .open => 5
  | .close => 6
  | .getargs => 7
  | .vidmap => 8
  | .setHandler => 9
  | .sigreturn => 10

/-- **`enter`** — `DO_CALL` up to the `int`; `resume` is the address of the instruction behind it. -/
def enter (w : Wrapper) (resume : Word) (s : Cpu) : Cpu :=
  let s := s.push (s.gpr .ebx)
  let s := s.set .eax w.number
  let s := s.set .ebx (s.word 2)
  let s := s.set .ecx (s.word 3)
  let s := s.set .edx (s.word 4)
  { s with eip := resume }

/-- `popl %ebx; ret`. -/
def exit (s : Cpu) : Cpu := (s.pop .ebx).ret

/-- What the kernel finds in the registers. -/
theorem enter_spec (w : Wrapper) (resume : Word) {s : Cpu} {ret a b c : Word} {ws : List Word}
    (h : s.Holds (ret :: a :: b :: c :: ws)) (hfit : 4 * ws.length + 20 ≤ 2 ^ 32) :
    ∃ gpr mem, w.enter resume s = { s with gpr := gpr, eip := resume, mem := mem } ∧
      Stacked mem (s.gpr .esp - 4) (s.gpr .ebx :: ret :: a :: b :: c :: ws) ∧
      gpr .eax = w.number ∧ gpr .ebx = a ∧ gpr .ecx = b ∧ gpr .edx = c ∧ gpr .esp = s.gpr .esp - 4 ∧
      gpr .esi = s.gpr .esi ∧ gpr .edi = s.gpr .edi ∧ gpr .ebp = s.gpr .ebp := by
  have hpush : (s.push (s.gpr .ebx)).Holds (s.gpr .ebx :: ret :: a :: b :: c :: ws) :=
    h.push _ (by simp only [List.length_cons]; omega)
  have hesp : (s.push (s.gpr .ebx)).gpr .esp = s.gpr .esp - 4 := by simp
  have ha : (s.push (s.gpr .ebx)).word 2 = a := hpush.word (by simp)
  have hb : (s.push (s.gpr .ebx)).word 3 = b := hpush.word (by simp)
  have hc : (s.push (s.gpr .ebx)).word 4 = c := hpush.word (by simp)
  -- none of the loads changes the stack pointer
  have hword : ∀ (m : Cpu) (r : Reg) (v : Word) (i : Nat), r ≠ .esp → (m.set r v).word i = m.word i := by
    intro m r v i hr
    simp [Cpu.word, Cpu.set, hr.symm]
  rw [Cpu.Holds, hesp] at hpush
  refine ⟨_, _, rfl, hpush, ?_⟩
  simp [hword, ha, hb, hc]

/-- What the caller gets back. -/
theorem exit_spec {s : Cpu} {v ret : Word} (h : Stacked s.mem (s.gpr .esp) [v, ret]) :
    exit s = { s with
      gpr := Function.update (Function.update s.gpr .ebx v) .esp (s.gpr .esp + 8), eip := ret } := by
  have hholds : s.Holds [v, ret] := h
  have hv : s.word 0 = v := hholds.word (by simp)
  have hret : (s.pop .ebx).word 0 = ret := (hholds.pop (by decide)).word (by simp)
  have hesp : s.gpr .esp + 4 + 4 = s.gpr .esp + 8 := by bv_omega
  unfold exit Cpu.ret
  rw [hret]
  simp only [Cpu.skip, Cpu.pop, Cpu.set, hv, Cpu.mk.injEq, and_self, and_true]
  funext r
  cases r with
  | esp => simpa using hesp
  | _ => simp

end Wrapper

/-! ## The kernel's half, seen from the user's stack -/

namespace SysLinkage

variable (l : SysLinkage)

/-- The kernel's stack does not reach the `n` words at `a`: it takes twelve words below `esp0` for the frame,
the six registers and the return address. -/
def StackApart (a : Word) (n : Nat) : Prop := (a - l.esp0).toNat + 4 * 12 + 4 * n ≤ 2 ^ 32

instance (a : Word) (n : Nat) : Decidable (l.StackApart a n) := by unfold StackApart; infer_instance

/-- Up to the call of the handler the kernel writes to its own stack only. -/
theorem called_clear {s : Cpu} (eflags : Word) (huser : Cpu.rpl s.cs = 3) {a : Word} {ws : List Word}
    (h : Stacked s.mem a ws) (hapart : l.StackApart a ws.length) :
    Stacked (l.called s eflags).mem a ws := by
  have hrpl : Cpu.rpl Linkage.kernelCs < Cpu.rpl s.cs := by
    rw [huser]
    decide
  have harrive : (l.compared s eflags).Clear (6 + 1) a ws := by
    have hframe : (s.interrupt Linkage.kernelCs l.ss0 l.esp0).Clear 7 a ws := .interrupt hrpl h hapart
    exact ⟨hframe.stacked, hframe.apart⟩
  have hsaved : (Lib.X86.run noProcs ([.ebp, .edi, .esi, .edx, .ecx, .ebx].map .push)
      (l.compared s eflags)).Clear 1 a ws := harrive.pushes noProcs
  exact (hsaved.push l.ret).stacked

/-- Nothing is stored on the way back. -/
theorem leave_mem {s s' : Cpu} (h : leave.run l.text s = .irets s') : s'.mem = s.mem := by
  obtain rfl := Stop.irets.inj h
  rfl

theorem iret_mem (s : Cpu) : s.iret.mem = s.mem := by
  unfold Cpu.iret
  dsimp only
  split <;> rfl

end SysLinkage

/-! ## The whole call -/

section Calling

open Wrapper SysLinkage

variable (l : SysLinkage) {w : Wrapper} {h : SysHandler} (resume : Word) {s : Cpu} {ret a b c : Word}
  {ws : List Word}

/-- The way in: `s1` is the state at the `int`. -/
theorem enter_calls (hw : handlerOf w.number = some h) (huser : Cpu.rpl s.cs = 3)
    (hstack : s.Holds (ret :: a :: b :: c :: ws)) (hapart : l.StackApart (s.gpr .esp - 4) (ws.length + 5)) :
    ∃ eflags, l.dispatch (w.enter resume s) =
        .calls (l.address h) (l.called (w.enter resume s) eflags) leave ∧
      (l.called (w.enter resume s) eflags).word 1 = a ∧ (l.called (w.enter resume s) eflags).word 2 = b ∧
      (l.called (w.enter resume s) eflags).word 3 = c ∧
      Stacked (l.called (w.enter resume s) eflags).mem (s.gpr .esp - 4)
        (s.gpr .ebx :: ret :: a :: b :: c :: ws) := by
  have hfit : 4 * ws.length + 20 ≤ 2 ^ 32 := by
    unfold StackApart at hapart
    omega
  obtain ⟨gpr, mem, henter, hmem, heax, hebx, hecx, hedx, -⟩ := w.enter_spec resume hstack hfit
  generalize w.enter resume s = s1 at henter
  have hgpr1 : s1.gpr = gpr := by rw [henter]
  have hmem1 : s1.mem = mem := by rw [henter]
  have huser1 : Cpu.rpl s1.cs = 3 := by rw [henter]; exact huser
  -- the number is that of an entry
  rw [← heax, ← hgpr1] at hw
  obtain ⟨hrange, haddr⟩ := l.handlerOf_eq_some hw
  have hinside : ¬((s1.gpr .eax).toInt < 1 ∨ 10 < (s1.gpr .eax).toInt) := by omega
  obtain ⟨eflags, hdispatch⟩ := l.dispatch_eq s1
  rw [if_neg hinside, haddr] at hdispatch
  obtain ⟨hcalled, -⟩ := l.called_spec s1 eflags
  have ha : (l.called s1 eflags).word 1 = s1.gpr .ebx := hcalled.word (by simp)
  have hb : (l.called s1 eflags).word 2 = s1.gpr .ecx := hcalled.word (by simp)
  have hc : (l.called s1 eflags).word 3 = s1.gpr .edx := hcalled.word (by simp)
  refine ⟨eflags, hdispatch, ?_, ?_, ?_, l.called_clear eflags huser1 (hmem1 ▸ hmem) hapart⟩
  · rw [ha, hgpr1, hebx]
  · rw [hb, hgpr1, hecx]
  · rw [hc, hgpr1, hedx]

/-- The way back, from a handler that has kept the two words the wrapper needs. -/
theorem leave_exits (huser : Cpu.rpl s.cs = 3) (hstack : s.Holds (ret :: a :: b :: c :: ws))
    (hfit : 4 * ws.length + 20 ≤ 2 ^ 32) {eflags : Word} {s'' : Cpu}
    (hcdecl : CdeclArgs 3 8 (l.called (w.enter resume s) eflags) s'')
    (hkept : Stacked s''.mem (s.gpr .esp - 4) [s.gpr .ebx, ret]) :
    ∃ s3 gpr, leave.run l.text s'' = .irets s3 ∧
      exit s3.iret = { s with gpr := gpr, eip := ret, mem := s''.mem } ∧
      gpr .eax = s''.gpr .eax ∧ gpr .esp = s.gpr .esp + 4 ∧ ∀ r ∈ calleeSaved, gpr r = s.gpr r := by
  obtain ⟨gpr, mem, henter, -, -, -, -, -, hesp, hesi, hedi, hebp⟩ := w.enter_spec resume hstack hfit
  generalize w.enter resume s = s1 at henter hcdecl
  have hgpr1 : s1.gpr = gpr := by rw [henter]
  have huser1 : Cpu.rpl s1.cs = 3 := by rw [henter]; exact huser
  have hlen : (s1.frame Linkage.kernelCs).length = 5 := by
    rw [Cpu.frame, huser1]
    rfl
  have hcdecl' : CdeclArgs 3 (3 + (s1.frame Linkage.kernelCs).length) (l.called s1 eflags) s'' := by
    rw [hlen]
    exact hcdecl
  obtain ⟨s3, hrun, ⟨-, gpr3, mem3, hiret, hrest⟩, heax3⟩ := l.leave_spec s1 hcdecl'
  have hmem3 : mem3 = s''.mem := by
    rw [← l.leave_mem hrun, ← iret_mem s3, hiret]
  -- the wrapper goes on with what it had saved on the user's stack
  have hesp3 : s3.iret.gpr .esp = s.gpr .esp - 4 := by
    rw [hiret]
    exact (hrest .esp (by decide)).trans (by rw [hgpr1, hesp])
  have hback : Stacked s3.iret.mem (s3.iret.gpr .esp) [s.gpr .ebx, ret] := by
    rw [iret_mem, l.leave_mem hrun, hesp3]
    exact hkept
  have hpops : s3.iret.gpr .esp + 8 = s.gpr .esp + 4 := by
    rw [hesp3]
    bv_omega
  refine ⟨s3, Function.update (Function.update gpr3 .ebx (s.gpr .ebx)) .esp (s.gpr .esp + 4), hrun, ?_, ?_,
    Function.update_self .., ?_⟩
  · rw [exit_spec hback, hpops, hiret, henter, hmem3]
  · rw [hiret] at heax3
    simpa using heax3
  · intro r hr
    have hsaved : ∀ q ∈ [Reg.esi, .edi, .ebp], gpr3 q = s.gpr q := by
      intro q hq
      simp only [List.mem_cons, List.not_mem_nil, or_false] at hq
      rcases hq with rfl | rfl | rfl
      · exact (hrest .esi (by decide)).trans (by rw [hgpr1, hesi])
      · exact (hrest .edi (by decide)).trans (by rw [hgpr1, hedi])
      · exact (hrest .ebp (by decide)).trans (by rw [hgpr1, hebp])
    simp only [calleeSaved, List.mem_cons, List.not_mem_nil, or_false] at hr
    rcases hr with rfl | rfl | rfl | rfl
    · simp
    all_goals simpa using hsaved _ (by decide)

/-- **A system call is a call of a C function.**  For every wrapper whose number has a handler, every linkage
and every state of a user program at the first instruction of the wrapper: the handler is called with the
wrapper's first three parameters, and the words on the user's stack are still there.  If the handler keeps to
the calling convention and does not overwrite the two words the wrapper needs, the wrapper returns to its
caller, with the handler's value in EAX, EBX, ESI, EDI, EBP, the segments and EFLAGS as they were, the stack
pointer behind the return address, and the memory as the handler left it. -/
theorem wrapper_call (hw : handlerOf w.number = some h) (huser : Cpu.rpl s.cs = 3)
    (hstack : s.Holds (ret :: a :: b :: c :: ws)) (hapart : l.StackApart (s.gpr .esp - 4) (ws.length + 5)) :
    ∃ s', l.dispatch (w.enter resume s) = .calls (l.address h) s' leave ∧
      s'.word 1 = a ∧ s'.word 2 = b ∧ s'.word 3 = c ∧
      Stacked s'.mem (s.gpr .esp - 4) (s.gpr .ebx :: ret :: a :: b :: c :: ws) ∧
      ∀ s'', CdeclArgs 3 8 s' s'' → Stacked s''.mem (s.gpr .esp - 4) [s.gpr .ebx, ret] →
        ∃ s3 gpr, leave.run l.text s'' = .irets s3 ∧
          exit s3.iret = { s with gpr := gpr, eip := ret, mem := s''.mem } ∧
          gpr .eax = s''.gpr .eax ∧ gpr .esp = s.gpr .esp + 4 ∧ ∀ r ∈ calleeSaved, gpr r = s.gpr r := by
  have hfit : 4 * ws.length + 20 ≤ 2 ^ 32 := by
    unfold StackApart at hapart
    omega
  obtain ⟨eflags, hdispatch, ha, hb, hc, huserStack⟩ := enter_calls l resume hw huser hstack hapart
  exact ⟨_, hdispatch, ha, hb, hc, huserStack, fun s'' hcdecl hkept =>
    leave_exits l resume huser hstack hfit hcdecl hkept⟩

end Calling

/-- A user program that has just called a wrapper with the parameters 0, 0x8048200 and 32. -/
def callingCode : Cpu := (((userCode.push 32).push 0x8048200).push 0).push 0x8048100

/-- `ece391_read` of `callingCode`: the handler is `read`, with these parameters. -/
theorem wrapper_call_read :
    ∃ s', linkedKernel.dispatch (Wrapper.read.enter 0x8048F00 callingCode) =
        .calls (linkedKernel.address .read) s' SysLinkage.leave ∧
      s'.word 1 = 0 ∧ s'.word 2 = 0x8048200 ∧ s'.word 3 = 32 := by
  have hstack : callingCode.Holds [0x8048100, 0, 0x8048200, 32] :=
    ((((Cpu.Holds.nil userCode).push 32 (by decide)).push 0x8048200 (by decide)).push 0 (by decide)).push
      0x8048100 (by decide)
  obtain ⟨s', hdispatch, ha, hb, hc, -⟩ :=
    wrapper_call linkedKernel 0x8048F00 (w := .read) (h := .read) rfl (by decide) hstack (by decide)
  exact ⟨s', hdispatch, ha, hb, hc⟩

/-! ## The end of a program -/

/-- `_start` once `main` has returned: `pushl $0; pushl $0; pushl %eax; call ece391_halt`. -/
def startExit (ret : Word) (s : Cpu) : Cpu := (((s.push 0).push 0).push (s.gpr .eax)).push ret

/-- **What `main` returns is the status the program halts with.** -/
theorem start_halts (l : SysLinkage) (resume ret : Word) {s : Cpu} (huser : Cpu.rpl s.cs = 3)
    (hapart : l.StackApart (s.gpr .esp - 20) 5) :
    ∃ s', l.dispatch (Wrapper.halt.enter resume (startExit ret s)) =
        .calls (l.address .halt) s' SysLinkage.leave ∧ s'.word 1 = s.gpr .eax := by
  have hstack : (startExit ret s).Holds [ret, s.gpr .eax, 0, 0] :=
    ((((Cpu.Holds.nil s).push 0 (by decide)).push 0 (by decide)).push (s.gpr .eax) (by decide)).push ret
      (by simp)
  have hesp : (startExit ret s).gpr .esp - 4 = s.gpr .esp - 20 := by
    have hpushed : (startExit ret s).gpr .esp = s.gpr .esp - 4 - 4 - 4 - 4 := by simp [startExit]
    rw [hpushed]
    bv_omega
  have hapart' : l.StackApart ((startExit ret s).gpr .esp - 4) 5 := by
    rw [hesp]
    exact hapart
  have huser' : Cpu.rpl (startExit ret s).cs = 3 := huser
  generalize startExit ret s = s1 at hstack hapart' huser'
  obtain ⟨eflags, hdispatch, hstatus, -⟩ :=
    enter_calls l resume (w := .halt) (h := .halt) rfl huser' hstack hapart'
  exact ⟨_, hdispatch, hstatus⟩

end Ece391
