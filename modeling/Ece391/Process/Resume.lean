/-
# Ece391.Process.Resume — which stack registers a process gets back.

`pcb->esp` and `pcb->ebp` are written by two functions: the tick saves the registers of the process it
preempts in that process's own PCB, and `execute_handler` stores the registers of the CALLER in the
PCB of the child.  They are read by two functions: the tick loads them from the PCB it switches to,
`halt_handler` from the PCB of the parent.

* `step_saved` — one step writes the saved pair of no live process other than the one it preempts;
* `suspended_run` — a slot that is not running keeps its process and that process's saved pair;
* the two results about whole runs: what a tick loads, and what a halt loads.
-/
import Ece391.Process.Table
import Mathlib.Data.List.Induction

open Ece391.Lib

namespace Ece391

/-- The steps of the kernel whose executes are issued from the displayed terminal. -/
def DisplayedStep (img : Image) : Kernel → Act → Kernel → Prop := restrict Displayed (Step img)

theorem DisplayedStep.unique {img : Image} (k : Kernel) (a : Act) (k₁ k₂ : Kernel)
    (h₁ : DisplayedStep img k a k₁) (h₂ : DisplayedStep img k a k₂) : k₁ = k₂ :=
  Step.unique h₁.2 h₂.2

theorem DisplayedStep.wf_run {img : Image} {k k' : Kernel} {as : List Act} (h : WF k.proc)
    (hrun : Run (DisplayedStep img) k as k') : WF k'.proc :=
  hrun.invariant (I := fun k => WF k.proc) h fun _ _ _ h hs => h.step hs

/-! ## The saved pair -/

/-- The saved pair `(esp, ebp)` of a PCB. -/
def Pcb.saved (b : Pcb) : Nat × Nat := (b.esp, b.ebp)

theorem ticked_saved_self (p : Proc) (fr : Frame) :
    ((p.ticked fr).pcbOf (p.schedPid p.currProcess)).saved = (fr.esp, fr.ebp) := by
  obtain ⟨kesp, hpcb⟩ := ticked_pcb p fr (pcbAddr (p.schedPid p.currProcess))
  rw [Proc.pcbOf, hpcb, if_pos rfl, Pcb.saved]

theorem ticked_pcbOf_of_ne {p : Proc} (fr : Frame) {n : Nat} (hn : n ≤ programMax)
    (hcur : p.schedPid p.currProcess ≤ programMax) (hne : n ≠ p.schedPid p.currProcess) :
    (p.ticked fr).pcbOf n = p.pcbOf n := by
  obtain ⟨kesp, hpcb⟩ := ticked_pcb p fr (pcbAddr n)
  rw [Proc.pcbOf, hpcb, if_neg fun heq => hne (pcbAddr_injective hn hcur heq), Proc.pcbOf]

theorem halted_saved (p : Proc) (n : Nat) : (p.halted.pcbOf n).saved = (p.pcbOf n).saved := by
  rw [Proc.pcbOf, halted_pcb]
  split
  next h =>
    rw [Proc.pcbOf, h]
    rfl
  next => rfl

section Step

variable {img : Image} {k k' : Kernel} {a : Act}

/-- **A step writes the saved pair of no live process but the one it preempts.** -/
theorem step_saved (h : WF k.proc) (hs : Step img k a k') {n : Nat} (hn : k.proc.Live n)
    (hne : ∀ fr, a = .tick fr → n ≠ k.proc.schedPid k.proc.currProcess) :
    (k'.proc.pcbOf n).saved = (k.proc.pcbOf n).saved := by
  rcases step_proc h hs with ⟨fr, rfl, hp, -⟩ | ⟨i, rfl, hp⟩ | ⟨fr, command, rfl, hmax, hp⟩ |
    ⟨status, rfl, -, hp⟩ | ⟨status, rfl, -, hp⟩
  · rw [hp, ticked_pcbOf_of_ne fr hn.2.1 (h.scheduled _).2.1 (hne fr rfl)]
  · rw [hp]
  · obtain ⟨hslot, hfree, -⟩ := h.slot fr hmax
    rw [hp, launched_pcbOf_of_ne hslot hn.2.1 fun heq => not_live_slot hfree (heq ▸ hn)]
  · rw [hp]
    rfl
  · rw [hp, halted_saved]

/-- A step leaves the identity and the parent of every live process alone. -/
theorem step_lineage (h : WF k.proc) (hs : Step img k a k') {n : Nat} (hn : k.proc.Live n) :
    (k'.proc.pcbOf n).lineage = (k.proc.pcbOf n).lineage := by
  rcases step_proc h hs with ⟨fr, rfl, hp, -⟩ | ⟨i, rfl, hp⟩ | ⟨fr, command, rfl, hmax, hp⟩ |
    ⟨status, rfl, -, hp⟩ | ⟨status, rfl, -, hp⟩
  · rw [hp]
    exact ticked_lineage _ _ _
  · rw [hp]
  · obtain ⟨hslot, hfree, -⟩ := h.slot fr hmax
    rw [hp, launched_pcbOf_of_ne hslot hn.2.1 fun heq => not_live_slot hfree (heq ▸ hn)]
  · rw [hp]
    rfl
  · rw [hp]
    exact halted_lineage _ _

/-- The process a step brings to life is the child of an execute, and it is the current one. -/
theorem step_creates (h : WF k.proc) (hs : Step img k a k') {n : Nat} (hn : k'.proc.Live n)
    (hdead : ¬ k.proc.Live n) : ∃ fr command, a = .execute fr command ∧ k'.proc.current.pid = n := by
  rcases step_proc h hs with ⟨fr, rfl, hp, -⟩ | ⟨i, rfl, hp⟩ | ⟨fr, command, rfl, hmax, hp⟩ |
    ⟨status, rfl, -, hp⟩ | ⟨status, rfl, hbase, hp⟩
  · rw [hp] at hn
    exact absurd hn hdead
  · rw [hp] at hn
    exact absurd hn hdead
  · rw [hp] at hn
    rcases (live_launched (h.slot fr hmax).1).mp hn with rfl | hn
    · refine ⟨fr, command, rfl, ?_⟩
      rw [hp, launched_current]
      exact (launched_pcbOf_self _ _ _ _ _).1
    · exact absurd hn hdead
  · rw [hp] at hn
    exact absurd hn hdead
  · rw [hp] at hn
    exact absurd ((live_halted (by omega)).mp hn).1 hdead

/-- A displayed execute makes the caller the parent of the child and leaves its PCB alone. -/
theorem step_execute (h : WF k.proc) {fr : Frame} {command : List UInt8}
    (hs : Step img k (.execute fr command) k') :
    (k'.proc.pcbOf k'.proc.current.pid).parentPid = k.proc.current.pid ∧
    k'.proc.pcbOf k.proc.current.pid = k.proc.current ∧
    3 < k'.proc.current.pid ∧ k'.proc.Live k'.proc.current.pid := by
  obtain ⟨hmax, hp, -⟩ := execute_proc h hs
  obtain ⟨hslot, hfree, h3⟩ := h.slot fr hmax
  have hpid : k'.proc.current.pid = k.proc.slot fr + 1 := by
    rw [hp, launched_current]
    exact (launched_pcbOf_self _ _ _ _ _).1
  have hcaller := h.scheduled k.proc.currProcess
  rw [hpid, hp, h.current_pid]
  refine ⟨(launched_pcbOf_self _ _ _ _ _).2.1.trans h.current_pid, ?_, by omega,
    (live_launched hslot).mpr (Or.inl rfl)⟩
  rw [launched_pcbOf_of_ne hslot hcaller.2.1 fun heq => not_live_slot hfree (heq ▸ hcaller),
    h.current_eq]

/-- Only a tick moves the processor to another terminal. -/
theorem step_currProcess (h : WF k.proc) (hs : Step img k a k') (hne : ∀ fr, a ≠ .tick fr) :
    k'.proc.currProcess = k.proc.currProcess := by
  rcases step_proc h hs with ⟨fr, rfl, hp, -⟩ | ⟨i, rfl, hp⟩ | ⟨fr, command, rfl, hmax, hp⟩ |
    ⟨status, rfl, -, hp⟩ | ⟨status, rfl, -, hp⟩
  · exact absurd rfl (hne fr)
  · rw [hp]
  · rw [hp, launched_currProcess]
  · rw [hp]
    rfl
  · rw [hp, halted_currProcess]

/-- A step changes the slot of the running terminal only. -/
theorem step_schedPid (h : WF k.proc) (hs : DisplayedStep img k a k') {t : Fin 3}
    (ht : k.proc.currProcess ≠ t) : k'.proc.schedPid t = k.proc.schedPid t := by
  obtain ⟨hok, hs⟩ := hs
  rcases step_proc h hs with ⟨fr, rfl, hp, -⟩ | ⟨i, rfl, hp⟩ | ⟨fr, command, rfl, hmax, hp⟩ |
    ⟨status, rfl, -, hp⟩ | ⟨status, rfl, -, hp⟩
  · rw [hp, ticked_schedPid]
  · rw [hp]
  · have hok : k.proc.currProcess = k.con.currTerminal := hok
    rw [hp, launched_schedPid, ← hok, Function.update_of_ne ht.symm]
  · rw [hp]
    rfl
  · rw [hp, halted_schedPid, Function.update_of_ne ht.symm]

end Step

/-! ## What a tick loads -/

/-- The condition on an event that it does not preempt terminal `t`. -/
def NotPreempting (t : Fin 3) (k : Kernel) (a : Act) : Prop :=
  ∀ fr, a = .tick fr → k.proc.currProcess ≠ t

/-- **`Denotes p q`** — the current PCB, the user page and the kernel stack are those of process
`q`. -/
structure Denotes (p : Proc) (q : Nat) : Prop where
  pcbCurrent : p.pcbCurrent = pcbAddr q
  pid : p.current.pid = q
  frame : p.userPage.frame = 1 + q
  tssEsp0 : p.tssEsp0 = bottomKernal - kernalStackSize * (q - 1) - 4

/-- A tick leaves the slot that was running. -/
theorem tick_moves {img : Image} {k k' : Kernel} {fr : Frame} (h : WF k.proc)
    (hs : Step img k (.tick fr) k') {t : Fin 3} (ht : k'.proc.currProcess = t) :
    k.proc.currProcess ≠ t := by
  obtain rfl := hs
  rw [tick_proc h.scheduled_ne_zero, ticked_currProcess] at ht
  rw [← ht]
  generalize k.proc.currProcess = s
  revert s
  decide

/-- What a tick that switches to slot `t` loads: the pair in the PCB of the process there. -/
theorem tick_loads {img : Image} {k k' : Kernel} {fr : Frame} (h : WF k.proc)
    (hs : Step img k (.tick fr) k') {t : Fin 3} (ht : k'.proc.currProcess = t) :
    (k'.proc.esp, k'.proc.ebp) = (k.proc.pcbOf (k.proc.schedPid t)).saved ∧
      Denotes k'.proc (k.proc.schedPid t) := by
  have hp : k'.proc = k.proc.ticked fr := by
    obtain rfl := hs
    exact tick_proc h.scheduled_ne_zero
  have hnext : k.proc.currProcess + 1 = t := by rw [← ht, hp, ticked_currProcess]
  have hwf := h.ticked fr
  have hne : k.proc.currProcess ≠ t := tick_moves h hs ht
  have hpcb : (k.proc.ticked fr).pcbOf (k.proc.schedPid t) = k.proc.pcbOf (k.proc.schedPid t) :=
    ticked_pcbOf_of_ne fr (h.scheduled t).2.1 (h.scheduled _).2.1 fun heq => hne (h.distinct heq).symm
  have hload := ticked_registers k.proc fr
  rw [hnext] at hload
  have hcur : (k.proc.ticked fr).pcbCurrent = pcbAddr (k.proc.schedPid t) := by
    rw [ticked_pcbCurrent, hnext]
  rw [hp]
  refine ⟨?_, ⟨hcur, ?_, ?_, ?_⟩⟩
  · rw [← hpcb, hload.1, hload.2]
    rfl
  · rw [hwf.current_pid, ticked_currProcess, ticked_schedPid, hnext]
  · rw [hwf.frame, ticked_currProcess, ticked_schedPid, hnext]
  · rw [ticked_tssEsp0, hnext]

/-- **A suspended slot keeps its process and the process keeps its saved pair**, until a step makes
the slot the running one. -/
theorem suspended_run {img : Image} {k k' : Kernel} {as : List Act} {t : Fin 3} (h : WF k.proc)
    (hrun : Run (DisplayedStep img) k as k')
    (hnot : AllSteps (DisplayedStep img) (NotPreempting t) k as) :
    k'.proc.currProcess = t ∨
      (k'.proc.schedPid t = k.proc.schedPid t ∧
        (k'.proc.pcbOf (k.proc.schedPid t)).saved = (k.proc.pcbOf (k.proc.schedPid t)).saved) := by
  refine ((hrun.restrict_of_allSteps hnot).invariant
    (I := fun m => WF m.proc ∧ (m.proc.currProcess = t ∨
      m.proc.schedPid t = k.proc.schedPid t ∧
        (m.proc.pcbOf (k.proc.schedPid t)).saved = (k.proc.pcbOf (k.proc.schedPid t)).saved))
    ⟨h, Or.inr ⟨rfl, rfl⟩⟩ ?_).2
  rintro m a m' ⟨hwf, hm⟩ ⟨hpre, hs⟩
  refine ⟨hwf.step hs, ?_⟩
  by_cases hcur : m.proc.currProcess = t
  · -- the slot is running, and only the excluded tick could stop it
    left
    rw [step_currProcess hwf hs.2 fun fr hfr => hpre fr hfr hcur, hcur]
  · right
    obtain ⟨hsched, hsaved⟩ := hm.resolve_left hcur
    refine ⟨(step_schedPid hwf hs hcur).trans hsched, ?_⟩
    have hlive : m.proc.Live (k.proc.schedPid t) := hsched ▸ hwf.scheduled t
    rw [← hsaved]
    refine step_saved hwf hs.2 hlive fun fr _ heq => hcur ?_
    exact hwf.distinct (heq.symm.trans hsched.symm)

/-- **Preempted processes resume where they stopped.** Along every run from the booted state whose
executes are issued from the displayed terminal:

* a tick that switches back to a slot loads the pair saved when the slot was last preempted, and the
  current PCB, the user page and the kernel stack are those of the process that was running then;
* the first tick that switches to a slot loads the pair the booted PCB holds;
* no step overwrites the saved pair of a live process other than the one it preempts. -/
theorem preempted_process_resumes (img : Image) {k : Kernel} (hboot : Booted k) :
    (∀ before k1 f1 k2 mid k3 f2 k4,
      Run (DisplayedStep img) k before k1 → DisplayedStep img k1 (.tick f1) k2 →
      Run (DisplayedStep img) k2 mid k3 → DisplayedStep img k3 (.tick f2) k4 →
      AllSteps (DisplayedStep img) (NotPreempting k1.proc.currProcess) k2 mid →
      k4.proc.currProcess = k1.proc.currProcess →
      k4.proc.esp = f1.esp ∧ k4.proc.ebp = f1.ebp ∧ k4.proc.pcbCurrent = k1.proc.pcbCurrent ∧
        Denotes k4.proc k1.proc.current.pid) ∧
    (∀ as k3 f k4, Run (DisplayedStep img) k as k3 → DisplayedStep img k3 (.tick f) k4 →
      AllSteps (DisplayedStep img) (NotPreempting k4.proc.currProcess) k as →
      (k4.proc.esp, k4.proc.ebp) =
          (k.proc.pcbOf (k.proc.schedPid k4.proc.currProcess)).saved ∧
        Denotes k4.proc (k.proc.schedPid k4.proc.currProcess)) ∧
    (∀ as m a m' n, Run (DisplayedStep img) k as m → DisplayedStep img m a m' → m.proc.Live n →
      (∀ fr, a = .tick fr → n ≠ m.proc.current.pid) →
      (m'.proc.pcbOf n).saved = (m.proc.pcbOf n).saved) := by
  have hwf := WF.of_booted hboot
  refine ⟨?_, ?_, ?_⟩
  · intro before k1 f1 k2 mid k3 f2 k4 hrun1 hs1 hrun2 hs2 hnot hback
    have hwf1 := DisplayedStep.wf_run hwf hrun1
    have hwf2 : WF k2.proc := hwf1.step hs1
    have hp : k2.proc = k1.proc.ticked f1 := by
      obtain rfl := hs1.2
      exact tick_proc hwf1.scheduled_ne_zero
    have hwf3 := DisplayedStep.wf_run hwf2 hrun2
    obtain ⟨hload, hden⟩ := tick_loads hwf3 hs2.2 hback
    have hsched2 : k2.proc.schedPid k1.proc.currProcess = k1.proc.current.pid := by
      rw [hp, ticked_schedPid, hwf1.current_pid]
    obtain ⟨hsched, hsaved⟩ := (suspended_run hwf2 hrun2 hnot).resolve_left
      (tick_moves hwf3 hs2.2 hback)
    rw [hsched, hsched2] at hload hden
    rw [hsched2] at hsaved
    rw [hsaved, hp, hwf1.current_pid, ticked_saved_self] at hload
    refine ⟨congrArg Prod.fst hload, congrArg Prod.snd hload, ?_, hden⟩
    rw [hden.pcbCurrent, hwf1.current, hwf1.current_pid]
  · intro as k3 f k4 hrun hs hnot
    have hwf3 := DisplayedStep.wf_run hwf hrun
    obtain ⟨hload, hden⟩ := tick_loads hwf3 hs.2 rfl
    obtain ⟨hsched, hsaved⟩ := (suspended_run hwf hrun hnot).resolve_left
      (tick_moves hwf3 hs.2 rfl)
    rw [hsched] at hload hden
    exact ⟨hload.trans hsaved, hden⟩
  · intro as m a m' n hrun hs hn hne
    have hwfm := DisplayedStep.wf_run hwf hrun
    refine step_saved hwfm hs.2 hn fun fr hfr => ?_
    rw [← hwfm.current_pid]
    exact hne fr hfr

/-- Three ticks in a row, as steps. -/
theorem three_ticks (img : Image) {k : Kernel} (h : WF k.proc) (f1 f2 f3 : Frame) :
    ∃ k1 k2 k3, DisplayedStep img k (.tick f1) k1 ∧ DisplayedStep img k1 (.tick f2) k2 ∧
      DisplayedStep img k2 (.tick f3) k3 ∧ k1.proc = k.proc.ticked f1 ∧
      k3.proc = ((k.proc.ticked f1).ticked f2).ticked f3 ∧
      k3.con.currTerminal = k.con.currTerminal := by
  have hs : ∀ k fr, DisplayedStep img k (.tick fr) (pitInterruptHandler img fr k) :=
    fun _ _ => ⟨trivial, rfl⟩
  have h1 : WF (pitInterruptHandler img f1 k).proc := h.step (hs k f1)
  have h2 : WF (pitInterruptHandler img f2 (pitInterruptHandler img f1 k)).proc :=
    h1.step (hs _ f2)
  refine ⟨_, _, _, hs _ f1, hs _ f2, hs _ f3, tick_proc h.scheduled_ne_zero, ?_, ?_⟩
  · rw [tick_proc h2.scheduled_ne_zero, tick_proc h1.scheduled_ne_zero,
      tick_proc h.scheduled_ne_zero]
  · rw [tick_currTerminal h2.scheduled_ne_zero, tick_currTerminal h1.scheduled_ne_zero,
      tick_currTerminal h.scheduled_ne_zero]

/-- Three ticks after boot the shell of terminal 0 is back with the registers the first one saved. -/
theorem first_shell_resumes :
    ∃ k1 k2 k3, DisplayedStep shellImage bootedKernel (.tick (.at 8 9)) k1 ∧
      DisplayedStep shellImage k1 (.tick (.at 6 7)) k2 ∧
      DisplayedStep shellImage k2 (.tick (.at 4 5)) k3 ∧
      k3.proc.esp = 8 ∧ k3.proc.ebp = 9 ∧ k3.proc.pcbCurrent = pcbAddr 1 ∧ Denotes k3.proc 1 := by
  obtain ⟨k1, k2, k3, h1, h2, h3, hp1, hp3, -⟩ := three_ticks shellImage
    (WF.of_booted booted_bootedKernel) (.at 8 9) (.at 6 7) (.at 4 5)
  refine ⟨k1, k2, k3, h1, h2, h3, ?_⟩
  refine (preempted_process_resumes shellImage booted_bootedKernel).1 [] bootedKernel (.at 8 9) k1
    [.tick (.at 6 7)] k2 (.at 4 5) k3 rfl h1 ⟨k2, h2, rfl⟩ h3 ?_ ?_
  · refine .cons (fun fr _ => ?_) fun _ _ => allSteps_nil
    rw [hp1, ticked_currProcess]
    decide
  · rw [hp3]
    rfl

/-! ## What a halt loads -/

/-- A halt of a process other than the base shells loads the pair saved in its parent's PCB. -/
theorem halt_loads {img : Image} {k k' : Kernel} {status : UInt8} (h : WF k.proc)
    (hs : Step img k (.halt status) k') (hbase : 3 < k.proc.current.pid) :
    (k'.proc.esp, k'.proc.ebp) = (k.proc.pcbOf k.proc.current.parentPid).saved := by
  obtain rfl := hs
  have hpid := h.current_pid
  have hparent : k.proc.current.parentPcb = pcbAddr k.proc.current.parentPid := by
    rw [h.current_eq]
    exact h.parentPcb _ (h.scheduled _) (hpid ▸ hbase)
  rw [haltHandler_proc status h.pcbCurrent_ne_zero hbase, Proc.pcbOf, ← hparent]
  rfl

/-- While `c` lives, its parent stays its parent and keeps its saved pair: the parent waits in
`execute_handler`, so no tick preempts it. -/
theorem waiting_parent_run {img : Image} {k k' : Kernel} {as : List Act} {c : Nat} (h : WF k.proc)
    (hc : k.proc.Live c) (hbase : 3 < c) (hrun : Run (DisplayedStep img) k as k')
    (hlive : AllStates (DisplayedStep img) (fun m => m.proc.Live c) k as) :
    (k'.proc.pcbOf c).parentPid = (k.proc.pcbOf c).parentPid ∧
    (k'.proc.pcbOf (k.proc.pcbOf c).parentPid).saved =
      (k.proc.pcbOf (k.proc.pcbOf c).parentPid).saved := by
  refine (hrun.invariant_of_allStates hlive
    (I := fun m => (WF m.proc ∧ m.proc.Live c) ∧
      (m.proc.pcbOf c).parentPid = (k.proc.pcbOf c).parentPid ∧
      (m.proc.pcbOf (k.proc.pcbOf c).parentPid).saved =
        (k.proc.pcbOf (k.proc.pcbOf c).parentPid).saved)
    ⟨⟨h, hc⟩, rfl, rfl⟩ ?_).2
  rintro m a m' ⟨⟨hwf, hm⟩, hpar, hsaved⟩ hs hm'
  refine ⟨⟨hwf.step hs, hm'⟩, ?_, ?_⟩
  · have := step_lineage hwf hs.2 hm
    simp only [Pcb.lineage, Prod.mk.injEq] at this
    rw [this.2.1, hpar]
  · rw [← hsaved]
    refine step_saved hwf hs.2 (hpar ▸ (hwf.parentLive c hm hbase).1) fun fr _ heq => ?_
    exact hwf.parentUnscheduled hm hbase _ (heq.symm.trans hpar.symm)

/-- A live process other than the base shells was started by an execute of the run, and has lived
since. -/
theorem exists_creator {img : Image} {k k' : Kernel} {as : List Act} {c : Nat} (hboot : Booted k)
    (hrun : Run (DisplayedStep img) k as k') (hc : k'.proc.Live c) (hbase : 3 < c) :
    ∃ before fr command mid k1 k2, as = before ++ .execute fr command :: mid ∧
      Run (DisplayedStep img) k before k1 ∧ DisplayedStep img k1 (.execute fr command) k2 ∧
      Run (DisplayedStep img) k2 mid k' ∧ k2.proc.current.pid = c ∧
      AllStates (DisplayedStep img) (fun m => m.proc.Live c) k2 mid := by
  -- induction on the last step of the run: either it brought `c` to life or `c` was live before
  induction as using List.reverseRecOn generalizing k' with
  | nil =>
      obtain rfl := hrun
      have := (Forest.live_booted hboot hc).2
      omega
  | append_singleton as a ih =>
      obtain ⟨m, hm, hs⟩ := run_snoc.mp hrun
      have hwf := DisplayedStep.wf_run (WF.of_booted hboot) hm
      by_cases hlive : m.proc.Live c
      · obtain ⟨before, fr, command, mid, k1, k2, rfl, h1, h2, h3, hpid, hall⟩ := ih hm hlive
        have hrun2 : Run (DisplayedStep img) k2 (mid ++ [a]) k' := run_snoc.mpr ⟨m, h3, hs⟩
        refine ⟨before, fr, command, mid ++ [a], k1, k2, by simp, h1, h2, hrun2, hpid,
          hall.snoc fun k'' hk'' => ?_⟩
        obtain rfl := Run.unique DisplayedStep.unique hrun2 hk''
        exact hc
      · obtain ⟨fr, command, rfl, hpid⟩ := step_creates hwf hs.2 hc hlive
        exact ⟨as, fr, command, [], m, k', rfl, hm, hs, rfl, hpid, allStates_nil hc⟩

/-- **What a halt returns to, exactly.** Take a run from the booted state whose executes are issued
from the displayed terminal, and let the current process `c > 3` halt at its end.  The run contains
the execute that created `c`; and the pair the halt loads is the pair that execute captured if and
only if that pair was already the one saved in its caller's PCB. -/
theorem halt_resumes_execute_iff (img : Image) {k k3 k4 : Kernel} {as : List Act} {status : UInt8}
    (hboot : Booted k) (hrun : Run (DisplayedStep img) k as k3) (hbase : 3 < k3.proc.current.pid)
    (hhalt : Step img k3 (.halt status) k4) :
    (∃ before fr command mid k1 k2, as = before ++ .execute fr command :: mid ∧
      Run (DisplayedStep img) k before k1 ∧ DisplayedStep img k1 (.execute fr command) k2 ∧
      Run (DisplayedStep img) k2 mid k3 ∧ k2.proc.current.pid = k3.proc.current.pid ∧
      AllStates (DisplayedStep img) (fun m => m.proc.Live k3.proc.current.pid) k2 mid) ∧
    (∀ before fr command mid k1 k2, as = before ++ .execute fr command :: mid →
      Run (DisplayedStep img) k before k1 → DisplayedStep img k1 (.execute fr command) k2 →
      Run (DisplayedStep img) k2 mid k3 → k2.proc.current.pid = k3.proc.current.pid →
      AllStates (DisplayedStep img) (fun m => m.proc.Live k3.proc.current.pid) k2 mid →
      ((k4.proc.esp, k4.proc.ebp) = (fr.esp, fr.ebp) ↔
        k1.proc.current.saved = (fr.esp, fr.ebp))) := by
  have hwf := WF.of_booted hboot
  have hwf3 := DisplayedStep.wf_run hwf hrun
  have hlive3 : k3.proc.Live k3.proc.current.pid := hwf3.current_pid ▸ hwf3.scheduled _
  refine ⟨exists_creator hboot hrun hlive3 hbase, ?_⟩
  intro before fr command mid k1 k2 _ hrun1 hexec hrun2 hcreated hlive
  have hwf1 := DisplayedStep.wf_run hwf hrun1
  have hwf2 : WF k2.proc := hwf1.step hexec
  obtain ⟨hparent, hcaller, hchild, hlive2⟩ := step_execute hwf1 hexec.2
  rw [hcreated] at hparent hchild hlive2
  obtain ⟨hpar, hsaved⟩ := waiting_parent_run hwf2 hlive2 hchild hrun2 hlive
  have hload := halt_loads hwf3 hhalt hbase
  have hpar3 : k3.proc.current.parentPid = k1.proc.current.pid := by
    rw [← hparent, ← hpar, hwf3.current_pid, hwf3.current_eq]
  rw [hparent, hcaller] at hsaved
  rw [hload, hpar3, hsaved]

/-- After three ticks the shell of terminal 0 runs again, with the pair of its preemption still saved
in its PCB. -/
theorem shell_preempted_once (img : Image) :
    ∃ k3, Run (DisplayedStep img) bootedKernel
        [.tick (.at 4 5), .tick (.at 2 3), .tick (.at 2 3)] k3 ∧
      k3.proc.programCount = 3 ∧ k3.proc.current.saved = (4, 5) ∧
      k3.proc.currProcess = k3.con.currTerminal := by
  obtain ⟨k1, k2, k3, h1, h2, h3, -, hp3, hterm⟩ := three_ticks img
    (WF.of_booted booted_bootedKernel) (.at 4 5) (.at 2 3) (.at 2 3)
  refine ⟨k3, ⟨k1, h1, k2, h2, k3, h3, rfl⟩, ?_, ?_, ?_⟩
  · rw [hp3]
    rfl
  · rw [hp3]
    rfl
  · rw [hp3, hterm]
    rfl

/-- The halt does not return to the execute: the program was started with the registers (8, 9), and
its halt loads (4, 5), the registers of the shell when it was last preempted. -/
theorem halt_misses_execute :
    Booted bootedKernel ∧
    ∃ k3 k4 k5, Run (DisplayedStep shellImage) bootedKernel
        [.tick (.at 4 5), .tick (.at 2 3), .tick (.at 2 3)] k3 ∧
      DisplayedStep shellImage k3 (.execute (.at 8 9) shellName) k4 ∧ 3 < k4.proc.current.pid ∧
      Step shellImage k4 (.halt 0) k5 ∧
      (k5.proc.esp, k5.proc.ebp) = (4, 5) ∧ (k5.proc.esp, k5.proc.ebp) ≠ (8, 9) := by
  refine ⟨booted_bootedKernel, ?_⟩
  obtain ⟨k3, hrun, hcount, hsaved, hdisp⟩ := shell_preempted_once shellImage
  obtain ⟨k4, hexec⟩ := shellImage_execute (k := k3) (.at 8 9) (by rw [hcount]; decide)
  have hwf3 := DisplayedStep.wf_run (WF.of_booted booted_bootedKernel) hrun
  have hs : DisplayedStep shellImage k3 (.execute (.at 8 9) shellName) k4 := ⟨hdisp, hexec⟩
  have hwf4 : WF k4.proc := hwf3.step hs
  have hhalt : Step shellImage k4 (.halt 0) (haltHandler 0 k4).1 := rfl
  obtain ⟨hparent, hcaller, hbase, -⟩ := step_execute hwf3 hexec
  have hload := halt_loads hwf4 hhalt hbase
  have hpar : k4.proc.current.parentPid = k3.proc.current.pid := by
    rw [← hparent, hwf4.current_pid, hwf4.current_eq]
  rw [hpar, hcaller, hsaved] at hload
  refine ⟨k3, k4, _, hrun, hs, hbase, hhalt, hload, ?_⟩
  rw [hload]
  decide

/-- An execute whose registers are the ones already saved in the shell's PCB is the one its child
returns to. -/
theorem halt_meets_execute :
    ∃ k3 k4, Run (DisplayedStep shellImage) bootedKernel
        [.tick (.at 4 5), .tick (.at 2 3), .tick (.at 2 3), .execute (.at 4 5) shellName] k3 ∧
      Step shellImage k3 (.halt 0) k4 ∧ (k4.proc.esp, k4.proc.ebp) = (4, 5) := by
  obtain ⟨k2, hrun, hcount, hsaved, hdisp⟩ := shell_preempted_once shellImage
  obtain ⟨k3, hexec⟩ := shellImage_execute (k := k2) (.at 4 5) (by rw [hcount]; decide)
  have hwf2 := DisplayedStep.wf_run (WF.of_booted booted_bootedKernel) hrun
  obtain ⟨-, -, hbase, hlive⟩ := step_execute hwf2 hexec
  have hs : DisplayedStep shellImage k2 (.execute (.at 4 5) shellName) k3 := ⟨hdisp, hexec⟩
  have hrun3 := run_snoc.mpr ⟨k2, hrun, hs⟩
  refine ⟨k3, (haltHandler 0 k3).1, hrun3, rfl, ?_⟩
  refine ((halt_resumes_execute_iff shellImage booted_bootedKernel hrun3 hbase rfl).2 _ (.at 4 5)
    shellName [] k2 k3 rfl hrun hs rfl rfl (allStates_nil hlive)).mpr hsaved

end Ece391
