/-
# Ece391.Process.KernelStacks — `tss.esp0` over the events of the process table.

The processor takes the kernel stack of a process from `tss.esp0`.  `execute_handler` and `scheduler` set it
to the top of the stack of the process they go to; `halt_handler` sets it to the `esp` saved in the PCB of the
parent, which is where the parent was when it was last preempted, or where its own creator stood.

* `coherent_step_iff` — one event, with every execute counted, also one that fails;
* `esp0_coherent_iff` — runs: the pointer is right in every state exactly if no halt goes to a parent that
  was saved elsewhere than at the top of its stack;
* `esp0_coherent_iff_no_exit` — and with stack registers that are inside the stack of whoever runs, no parent
  was ever saved there: the pointer is right until the first program exits.
-/
import Ece391.Process.FailedExecute
import Ece391.Process.Resume

open Ece391.Lib

namespace Ece391

/-! ## The property -/

/-- The top of the kernel stack of process `pid`. -/
def stackTop (pid : Nat) : Nat := 0x800000 - (pid - 1) * 0x2000 - 4

/-- **`Coherent p`** — `tss.esp0` is the top of the kernel stack of the process that runs. -/
def Coherent (p : Proc) : Prop := p.tssEsp0 = stackTop p.current.pid

/-- The events, with an execute that fails: it returns to its caller. -/
def ControlStep (img : Image) (k : Kernel) : Act → Kernel → Prop
  | .execute fr command, k' => k' = (executeHandler img fr (some command) k).1
  | a, k' => Step img k a k'

/-- **`KeepsStack k a`** — the event is no halt that returns to a parent; or the parent was saved at the top
of its stack. -/
def KeepsStack (k : Kernel) : Act → Prop
  | .halt _ => 3 < k.proc.current.pid →
      (k.proc.pcb k.proc.current.parentPcb).esp = stackTop k.proc.current.parentPid
  | _ => True

theorem stackTop_eq (pid : Nat) : stackTop pid = bottomKernal - kernalStackSize * (pid - 1) - 4 := by
  rw [stackTop, bottomKernal, kernalStackSize, Nat.mul_comm]

theorem ControlStep.total (img : Image) (k : Kernel) (a : Act) : ∃ k', ControlStep img k a k' := by
  cases a with
  | tick fr => exact ⟨_, rfl⟩
  | terminalSwitch i => exact ⟨_, rfl⟩
  | execute fr command => exact ⟨_, rfl⟩
  | halt status => exact ⟨_, rfl⟩

/-! ## One event -/

section Step

variable {img : Image} {k k' : Kernel} {a : Act}

/-- The process table after one event: the five cases. -/
theorem controlStep_proc (h : k.proc.Tabled) (hok : Displayed k a) (hs : ControlStep img k a k') :
    (∃ fr, a = .tick fr ∧ k'.proc = k.proc.ticked fr) ∨
    (∃ fr command, a = .execute fr command ∧ k.proc.programCount < programMax ∧
      k'.proc = k.proc.launched k.proc.currProcess fr (k.proc.slot fr) (parseArgs command)) ∨
    (∃ status, a = .halt status ∧ 3 < k.proc.current.pid ∧ k'.proc = k.proc.halted) ∨
    (KeepsStack k a ∧ ∃ argsFlag userPage flag,
      k'.proc = { k.proc with argsFlag := argsFlag, userPage := userPage, intFlag := flag }) := by
  cases a with
  | tick fr =>
      obtain rfl := hs
      exact Or.inl ⟨fr, rfl, tick_proc h.scheduled_ne_zero⟩
  | terminalSwitch i =>
      obtain rfl := hs
      exact Or.inr (Or.inr (Or.inr ⟨trivial, _, _, _, rfl⟩))
  | execute fr command =>
      obtain rfl := hs
      obtain ⟨page, hwf⟩ := h
      have hforest : Forest k.proc _ := hwf.toForest.congr rfl rfl fun _ => rfl
      have hok : k.proc.currProcess = k.con.currTerminal := hok
      cases hres : executeHandler img fr (some command) k with
      | mk k1 eip =>
          cases eip with
          | none => exact Or.inr (Or.inr (Or.inr ⟨trivial, executeHandler_none hres⟩))
          | some eip =>
              obtain ⟨hmax, hp, -⟩ := hforest.execute hwf.current (hwf.scheduled _) hres
              exact Or.inr (Or.inl ⟨fr, command, rfl, hmax, hok ▸ hp⟩)
  | halt status =>
      obtain rfl := hs
      by_cases hbase : k.proc.current.pid ≤ 3
      · refine Or.inr (Or.inr (Or.inr ⟨fun h3 => absurd hbase (by omega), ?_⟩))
        exact ⟨k.proc.argsFlag, k.proc.userPage, false, haltHandler_base status hbase⟩
      · refine Or.inr (Or.inr (Or.inl ⟨status, rfl, by omega, ?_⟩))
        rw [haltHandler_proc status h.pcbCurrent_ne_zero (by omega)]

theorem Proc.Tabled.controlStep (h : k.proc.Tabled) (hok : Displayed k a) (hs : ControlStep img k a k') :
    k'.proc.Tabled := by
  rcases controlStep_proc h hok hs with ⟨fr, rfl, hp⟩ | ⟨fr, command, rfl, hmax, hp⟩ |
    ⟨status, rfl, hbase, hp⟩ | ⟨-, argsFlag, userPage, flag, hp⟩
  · exact hp ▸ (h.ticked fr).tabled
  · obtain ⟨hslot, hfree⟩ := h.slot fr hmax
    exact hp ▸ (h.launched fr _ hslot hfree).tabled
  · exact hp ▸ (h.halted hbase).tabled
  · exact hp ▸ h.of_flags argsFlag userPage flag

/-- A tick sets the pointer to the stack of the process it goes to. -/
theorem coherent_ticked {p : Proc} (h : p.Tabled) (fr : Frame) : Coherent (p.ticked fr) := by
  rw [Coherent, (h.ticked fr).current_pid, ticked_tssEsp0, stackTop_eq]
  rfl

/-- So does an execute. -/
theorem coherent_launched {p : Proc} (term : Fin 3) (fr : Frame) (slot : Nat) (args : ArgBuf) :
    Coherent (p.launched term fr slot args) := by
  rw [Coherent, launched_current, (launched_pcbOf_self p term fr slot args).1, stackTop_eq]
  rfl

/-- A halt sets it to what was saved for the parent. -/
theorem coherent_halted_iff {p : Proc} (h : p.Tabled) (hbase : 3 < p.current.pid) :
    Coherent p.halted ↔ (p.pcb p.current.parentPcb).esp = stackTop p.current.parentPid := by
  have hparent : p.halted.current.pid = p.current.parentPid := by
    rw [(h.halted hbase).current_pid, halted_schedPid, halted_currProcess, Function.update_self]
  rw [Coherent, hparent]
  rfl

/-- **What one event does to the pointer.** -/
theorem coherent_step_iff (h : k.proc.Tabled) (hcoherent : Coherent k.proc) (hok : Displayed k a)
    (hs : ControlStep img k a k') : Coherent k'.proc ↔ KeepsStack k a := by
  rcases controlStep_proc h hok hs with ⟨fr, rfl, hp⟩ | ⟨fr, command, rfl, hmax, hp⟩ |
    ⟨status, rfl, hbase, hp⟩ | ⟨hkeeps, argsFlag, userPage, flag, hp⟩
  · exact iff_of_true (hp ▸ coherent_ticked h fr) trivial
  · exact iff_of_true (hp ▸ coherent_launched _ _ _ _) trivial
  · rw [hp, coherent_halted_iff h hbase]
    exact ⟨fun hsaved _ => hsaved, fun hkeeps => hkeeps hbase⟩
  · refine iff_of_true ?_ hkeeps
    rw [hp]
    exact hcoherent

end Step

/-! ## Runs -/

/-- **The kernel stack pointer, exactly.**  Along every run from the booted state whose executes are issued
from the displayed terminal, failed ones included: `tss.esp0` is the top of the stack of the running process in
every state if and only if it is so at the start and every halt that returns to a parent finds the parent
saved at the top of its stack. -/
theorem esp0_coherent_iff (img : Image) {k : Kernel} {as : List Act} (hboot : Booted k)
    (hdisplayed : AllSteps (ControlStep img) Displayed k as) :
    AllStates (ControlStep img) (fun k => Coherent k.proc) k as ↔
      Coherent k.proc ∧ AllSteps (ControlStep img) KeepsStack k as := by
  have htabled : k.proc.Tabled := (WF.of_booted hboot).tabled
  have hrule : Coherent k.proc → (AllStates (ControlStep img) (fun k => Coherent k.proc) k as ↔
      AllSteps (ControlStep img) KeepsStack k as) := fun hstart =>
    allStates_iff_allSteps (I := fun k => k.proc.Tabled) (ControlStep.total img)
      (fun _ _ _ h _ hok hs _ => h.controlStep hok hs)
      (fun _ _ _ h hcoherent hok hs => coherent_step_iff h hcoherent hok hs) htabled hstart hdisplayed
  constructor
  · intro hall
    have hstart : Coherent k.proc := hall [] as k rfl rfl
    exact ⟨hstart, (hrule hstart).mp hall⟩
  · rintro ⟨hstart, hsteps⟩
    exact (hrule hstart).mpr hsteps

/-- One program is started; the pointer follows. -/
theorem program_has_own_stack :
    AllStates (ControlStep shellImage) (fun k => Coherent k.proc) bootedKernel
      [.execute (.at 0x7FFF60 0x7FFFA0) shellName] := by
  have hdisplayed : Displayed bootedKernel (.execute (.at 0x7FFF60 0x7FFFA0) shellName) := rfl
  exact (esp0_coherent_iff shellImage booted_bootedKernel (.cons hdisplayed fun _ _ => allSteps_nil)).mpr
    ⟨rfl, .cons trivial fun _ _ => allSteps_nil⟩

/-- The first shell is preempted once, starts a program later, and the program exits: the shell goes on with
the stack pointer of its preemption. -/
theorem shell_keeps_lower_stack : (Booted bootedKernel ∧ Coherent bootedKernel.proc) ∧
    ∃ k', Run (restrict Displayed (ControlStep shellImage)) bootedKernel
        [.tick (.at 0x7FFF80 0x7FFFA0), .tick (.at 0x7FDF80 0x7FDFA0), .tick (.at 0x7FBF80 0x7FBFA0),
          .execute (.at 0x7FFF60 0x7FFFA0) shellName, .halt 0] k' ∧
      k'.proc.current.pid = 1 ∧ k'.proc.tssEsp0 = 0x7FFF80 ∧ ¬Coherent k'.proc := by
  obtain ⟨k1, k2, k3, h1, h2, h3, -, hp3, hterm⟩ := three_ticks shellImage
    (WF.of_booted booted_bootedKernel) (.at 0x7FFF80 0x7FFFA0) (.at 0x7FDF80 0x7FDFA0) (.at 0x7FBF80 0x7FBFA0)
  have hwf3 : WF k3.proc := ((WF.of_booted booted_bootedKernel).step h1).step h2 |>.step h3
  obtain ⟨k4, eip, hexec⟩ := shellImage_execute (k := k3) (.at 0x7FFF60 0x7FFFA0) (by rw [hp3]; decide)
  have hshown : Displayed k3 (.execute (.at 0x7FFF60 0x7FFFA0) shellName) := by
    show k3.proc.currProcess = k3.con.currTerminal
    rw [hterm, hp3]
    decide
  have hp4 := (execute_proc hwf3 ⟨eip, hexec⟩).2.1
  rw [hterm, hp3] at hp4
  have hbase : 3 < k4.proc.current.pid := by
    rw [hp4, launched_current, (launched_pcbOf_self _ _ _ _ _).1]
    decide
  have hcur : k4.proc.pcbCurrent ≠ 0 := by
    rw [hp4]
    decide
  have hp5 : (haltHandler 0 k4).1.proc = k4.proc.halted := by rw [haltHandler_proc 0 hcur hbase]
  have hpid : k4.proc.halted.current.pid = 1 := by
    rw [hp4]
    decide
  have hesp0 : k4.proc.halted.tssEsp0 = 0x7FFF80 := by
    rw [hp4]
    decide
  refine ⟨⟨booted_bootedKernel, rfl⟩, _, ⟨k1, h1, k2, h2, k3, h3, k4, ⟨hshown, (congrArg Prod.fst hexec).symm⟩, _, ⟨trivial, rfl⟩, rfl⟩, ?_⟩
  rw [hp5, Coherent, hpid, hesp0]
  decide

/-! ## Stack registers that are inside a stack -/

/-- Strictly inside the 8 KB stack of process `pid`. -/
def InStack (esp pid : Nat) : Prop := stackTop pid < esp + 0x2000 ∧ esp < stackTop pid

/-- **`OnOwnStack k a`** — if the pointer is right, the handler runs on the stack of the process it
interrupted. -/
def OnOwnStack (k : Kernel) : Act → Prop
  | .tick fr => Coherent k.proc → InStack fr.esp k.proc.current.pid
  | .execute fr _ => Coherent k.proc → InStack fr.esp k.proc.current.pid
  | _ => True

/-- No live process was saved at the top of its stack. -/
def SavedBelowTop (p : Proc) : Prop := ∀ n, p.Live n → (p.pcbOf n).esp ≠ stackTop n

/-- The event is no halt that returns to a parent. -/
def NoExit (k : Kernel) : Act → Prop
  | .halt _ => k.proc.current.pid ≤ 3
  | _ => True

/-- The stacks do not meet: no stack contains the top of another one. -/
theorem InStack.ne_stackTop {esp m n : Nat} (h : InStack esp m) (hn : 1 ≤ n ∧ n ≤ programMax) :
    esp ≠ stackTop n := by
  unfold InStack stackTop at *
  unfold programMax at hn
  omega

section Stacks

variable {img : Image} {k k' : Kernel} {a : Act}

theorem SavedBelowTop.step (hsaved : SavedBelowTop k.proc) (h : k.proc.Tabled) (hcoherent : Coherent k.proc)
    (hok : Displayed k a) (hstack : OnOwnStack k a) (hs : ControlStep img k a k') :
    SavedBelowTop k'.proc := by
  obtain ⟨page, hwf⟩ := id h
  have hlive : ∀ t, k.proc.Live (k.proc.schedPid t) := hwf.scheduled
  rcases controlStep_proc h hok hs with ⟨fr, rfl, hp⟩ | ⟨fr, command, rfl, hmax, hp⟩ |
    ⟨status, rfl, hbase, hp⟩ | ⟨-, argsFlag, userPage, flag, hp⟩
  · rw [hp]
    intro n hn
    have hn : k.proc.Live n := hn
    by_cases hcur : n = k.proc.schedPid k.proc.currProcess
    · have hesp := congrArg Prod.fst (ticked_saved_self k.proc fr)
      subst hcur
      rw [show ((k.proc.ticked fr).pcbOf _).esp = fr.esp from hesp]
      have hin : InStack fr.esp k.proc.current.pid := hstack hcoherent
      rw [h.current_pid] at hin
      exact hin.ne_stackTop ⟨hn.1, hn.2.1⟩
    · rw [ticked_pcbOf_of_ne fr hn.2.1 (hlive _).2.1 hcur]
      exact hsaved n hn
  · obtain ⟨hslot, hfree, -⟩ := hwf.slot fr hmax
    have hslot : k.proc.slot fr < programMax := hslot
    rw [hp]
    intro n hn
    rcases (live_launched hslot).mp hn with rfl | hn
    · -- the child was saved on the stack of its creator
      have hin : InStack fr.esp k.proc.current.pid := hstack hcoherent
      rw [h.current_pid] at hin
      have hesp : ((k.proc.launched k.proc.currProcess fr (k.proc.slot fr)
          (parseArgs command)).pcbOf (k.proc.slot fr + 1)).esp = fr.esp := by
        simp [Proc.launched, Proc.pcbOf]
      rw [hesp]
      exact hin.ne_stackTop ⟨by omega, hslot⟩
    · rw [launched_pcbOf_of_ne hslot hn.2.1 fun heq => not_live_slot hfree (heq ▸ hn)]
      exact hsaved n hn
  · rw [hp]
    intro n hn
    have hn := ((live_halted (by omega)).mp hn).1
    have hesp := congrArg Prod.fst (halted_saved k.proc n)
    exact (show (k.proc.halted.pcbOf n).esp = (k.proc.pcbOf n).esp from hesp) ▸ hsaved n hn
  · rw [hp]
    exact hsaved

/-- A parent that was not saved at the top makes every exit a wrong one. -/
theorem keepsStack_iff_noExit (h : k.proc.Tabled) (hsaved : SavedBelowTop k.proc) :
    KeepsStack k a ↔ NoExit k a := by
  cases a with
  | halt status =>
      obtain ⟨page, hwf⟩ := id h
      constructor
      · intro hkeeps
        by_contra hbase
        have hbase : ¬k.proc.current.pid ≤ 3 := hbase
        have hlive : k.proc.Live k.proc.current.pid := hwf.current_live
        have hcur : k.proc.current = k.proc.pcbOf k.proc.current.pid := hwf.current_pcbOf
        have hparent : k.proc.Live (k.proc.pcbOf k.proc.current.pid).parentPid :=
          (hwf.parentLive _ hlive (by omega)).1
        have hpcb : (k.proc.pcbOf k.proc.current.pid).parentPcb =
            pcbAddr (k.proc.pcbOf k.proc.current.pid).parentPid := hwf.parentPcb _ hlive (by omega)
        rw [← hcur] at hparent hpcb
        have hesp := hkeeps (by omega)
        rw [hpcb] at hesp
        exact hsaved _ hparent hesp
      · intro hbase h3
        have hbase : k.proc.current.pid ≤ 3 := hbase
        omega
  | tick fr => exact Iff.rfl
  | terminalSwitch i => exact Iff.rfl
  | execute fr command => exact Iff.rfl

end Stacks

/-- **The pointer is right until the first program exits.**  As `esp0_coherent_iff`, for handlers that run on
the stack of the process they interrupted, from a start at which no process was saved at the top of its stack:
the pointer is right in every state exactly if no process but the base shells halts. -/
theorem esp0_coherent_iff_no_exit (img : Image) {k : Kernel} {as : List Act} (hboot : Booted k)
    (hsaved : SavedBelowTop k.proc) (hstart : Coherent k.proc)
    (hrun : AllSteps (ControlStep img) (fun k a => Displayed k a ∧ OnOwnStack k a) k as) :
    AllStates (ControlStep img) (fun k => Coherent k.proc) k as ↔ AllSteps (ControlStep img) NoExit k as :=
  allStates_iff_allSteps (I := fun k => k.proc.Tabled ∧ SavedBelowTop k.proc) (ControlStep.total img)
    (fun _ _ _ h hcoherent hok hs _ =>
      ⟨h.1.controlStep hok.1 hs, h.2.step h.1 hcoherent hok.1 hok.2 hs⟩)
    (fun _ _ _ h hcoherent hok hs =>
      (coherent_step_iff h.1 hcoherent hok.1 hs).trans (keepsStack_iff_noExit h.1 h.2))
    ⟨(WF.of_booted hboot).tabled, hsaved⟩ hstart hrun

end Ece391
