/-
# Ece391.Process.Nesting — nested execute and halt on one terminal.

A well-nested sequence is a bracket sequence of executes and halts with ticks anywhere in between.
`execute_handler` takes a slot of `pid_arr`, raises the counter, overwrites `sched_pid[curr_terminal]`
and maps a new frame; `halt_handler` undoes each of these from a different source: the slot from
`pcb_current->pid`, the entry and the frame from `parent_pid`.

`Restored` is what a bracket leaves behind.  It also keeps the lineage of every process that was live
before: that is what lets the halt of an outer bracket find the parent its execute wrote.
-/
import Ece391.Process.Resume

open Ece391.Lib

namespace Ece391

/-! ## Bracket sequences -/

/-- **`WellNested as`** — every execute in `as` is matched by a later halt; ticks stand anywhere. -/
inductive WellNested : List Act → Prop
  | nil : WellNested []
  | tick (fr : Frame) {as : List Act} : WellNested as → WellNested (.tick fr :: as)
  | call (fr : Frame) (command : List UInt8) (status : UInt8) {body as : List Act} :
      WellNested body → WellNested as →
      WellNested (.execute fr command :: (body ++ .halt status :: as))

/-- The condition on an event that it is a tick, or a call made by a process of terminal `t`. -/
def OnTerminal (t : Fin 3) (k : Kernel) : Act → Prop
  | .tick _ => True
  | .terminalSwitch _ => False
  | .execute _ _ => k.proc.currProcess = t
  | .halt _ => k.proc.currProcess = t

/-! ## What a bracket leaves behind -/

/-- **`Restored p p'`** — slots, counter and slot table of `p'` are those of `p`, and so is the
lineage of every process of `p`. -/
structure Restored (p p' : Proc) : Prop where
  pidArr : p'.pidArr = p.pidArr
  programCount : p'.programCount = p.programCount
  schedPid : p'.schedPid = p.schedPid
  lineage : ∀ n, p.Live n → (p'.pcbOf n).lineage = (p.pcbOf n).lineage

namespace Restored

variable {p p' p'' : Proc}

theorem refl (p : Proc) : Restored p p := ⟨rfl, rfl, rfl, fun _ _ => rfl⟩

theorem live (h : Restored p p') {n : Nat} (hn : p.Live n) : p'.Live n := by
  unfold Proc.Live at hn ⊢
  rwa [h.pidArr]

theorem trans (h : Restored p p') (h' : Restored p' p'') : Restored p p'' where
  pidArr := h'.pidArr.trans h.pidArr
  programCount := h'.programCount.trans h.programCount
  schedPid := h'.schedPid.trans h.schedPid
  lineage := fun n hn => (h'.lineage n (h.live hn)).trans (h.lineage n hn)

theorem ticked (p : Proc) (fr : Frame) : Restored p (p.ticked fr) where
  pidArr := rfl
  programCount := rfl
  schedPid := rfl
  lineage := fun _ _ => ticked_lineage p fr _

end Restored

/-- **One bracket**: an execute, a body that restores, and the halt of the child. -/
theorem restored_bracket {p p2 : Proc} {fr : Frame} {args : ArgBuf} {slot : Nat} (h : WF p)
    (hslot : slot < programMax) (hfree : p.pidArr slot = 0) (h3 : 3 ≤ slot)
    (hbody : Restored (p.launched p.currProcess fr slot args) p2) (h2 : WF p2)
    (hback : p2.currProcess = p.currProcess) :
    3 < p2.current.pid ∧ Restored p p2.halted := by
  have hwf1 := h.launched fr args hslot hfree
  have hdead := not_live_slot hfree
  obtain ⟨hpid1, hparent1, -⟩ := launched_pcbOf_self p p.currProcess fr slot args
  -- the process that halts is the child, and its parent is the caller
  have hsched2 : p2.schedPid p2.currProcess = slot + 1 := by
    rw [hback, hbody.schedPid, launched_schedPid, Function.update_self]
  have hpid2 : p2.current.pid = slot + 1 := by rw [h2.current_pid, hsched2]
  have hlin := hbody.lineage (slot + 1) ((live_launched hslot).mpr (Or.inl rfl))
  simp only [Pcb.lineage, Prod.mk.injEq] at hlin
  have hparent2 : p2.current.parentPid = p.schedPid p.currProcess := by
    rw [h2.current_eq, hsched2, hlin.2.1, hparent1, h.current_pid]
  have hbase : 3 < p2.current.pid := by omega
  have hpidArr : p2.halted.pidArr = p.pidArr := by
    rw [halted_pidArr, hpid2, Nat.add_sub_cancel, hbody.pidArr, launched_pidArr,
      Function.update_idem, ← hfree, Function.update_eq_self]
  refine ⟨hbase, hpidArr, ?_, ?_, ?_⟩
  · have hwf3 := h2.halted hbase
    rw [hwf3.count, h.count, Proc.liveCount, Proc.liveCount, hpidArr]
  · rw [halted_schedPid, hback, hparent2, hbody.schedPid, launched_schedPid, Function.update_idem,
      Function.update_eq_self]
  · intro n hn
    rw [Proc.pcbOf, halted_lineage]
    exact (hbody.lineage n ((live_launched hslot).mpr (Or.inr hn))).trans
      (by rw [launched_pcbOf_of_ne hslot hn.2.1 fun heq => hdead (heq ▸ hn)])

/-! ## Whole sequences -/

/-- **A well-nested sequence restores the table**, wherever the ticks leave the processor. -/
theorem wellNested_restored {img : Image} {t : Fin 3} {as : List Act} (has : WellNested as)
    {k k' : Kernel} (h : WF k.proc) (hterm : k.con.currTerminal = t)
    (hrun : Run (Step img) k as k') (hon : AllSteps (Step img) (OnTerminal t) k as) :
    WF k'.proc ∧ k'.con.currTerminal = t ∧ Restored k.proc k'.proc := by
  induction has generalizing k k' with
  | nil =>
      obtain rfl := hrun
      exact ⟨h, hterm, .refl _⟩
  | tick fr _ ih =>
      obtain ⟨k1, hs, hrest⟩ := hrun
      have hon1 := hon.tail hs
      obtain rfl := hs
      have hp : (pitInterruptHandler img fr k).proc = k.proc.ticked fr :=
        tick_proc h.scheduled_ne_zero
      obtain ⟨hwf, hterm', hres⟩ := ih (hp ▸ h.ticked fr)
        ((tick_currTerminal h.scheduled_ne_zero).trans hterm) hrest hon1
      rw [hp] at hres
      exact ⟨hwf, hterm', (Restored.ticked _ fr).trans hres⟩
  | call fr command status _ _ ihbody ihrest =>
      obtain ⟨k1, hexec, hrun1⟩ := hrun
      have hcur : k.proc.currProcess = t := hon [] _ _ k rfl rfl
      have hon1 := hon.tail hexec
      obtain ⟨k2, hbody, k3, hhalt, hrest⟩ := run_append.mp hrun1
      -- the execute, issued from the displayed terminal
      obtain ⟨hmax, hp1, hterm1⟩ := execute_proc h hexec
      obtain ⟨hslot, hfree, h3⟩ := h.slot fr hmax
      rw [hterm, ← hcur] at hp1
      -- the body
      obtain ⟨hwf2, hterm2, hres2⟩ := ihbody (hp1 ▸ h.launched fr _ hslot hfree)
        (hterm1.trans hterm) hbody hon1.of_append
      -- the halt of the child
      have hon2 := hon1.after hbody
      have hback : k2.proc.currProcess = t := hon2 [] _ _ k2 rfl rfl
      rw [hp1] at hres2
      obtain ⟨hbase, hres3⟩ := restored_bracket h hslot hfree h3 hres2 hwf2 (hback.trans hcur.symm)
      have hk3 : k3 = { k2 with proc := k2.proc.halted } := by
        rw [← haltHandler_proc status hwf2.pcbCurrent_ne_zero hbase]
        exact hhalt
      -- what follows the bracket
      obtain ⟨hwf', hterm', hres'⟩ := ihrest (hk3 ▸ hwf2.halted hbase) (hk3 ▸ hterm2) hrest
        (hon2.tail hhalt)
      rw [hk3] at hres'
      exact ⟨hwf', hterm', hres3.trans hres'⟩

/-- **Nested execute and halt restore the process state.** From any state that a run with displayed
executes reaches from the booted state, a well-nested sequence of executes and halts of the displayed
terminal, with ticks anywhere in between, that ends with the terminal running that ran at its start
leaves `pid_arr`, `program_count`, `sched_pid`, `pcb_current` and the mapped frame as they were. -/
theorem nested_execute_halt_restores (img : Image) {k0 k k' : Kernel} {history as : List Act}
    (hboot : Booted k0) (hreach : Run (DisplayedStep img) k0 history k)
    (has : WellNested as) (hrun : Run (Step img) k as k')
    (hon : AllSteps (Step img) (OnTerminal k.con.currTerminal) k as)
    (hback : k'.proc.currProcess = k.proc.currProcess) :
    k'.proc.pidArr = k.proc.pidArr ∧ k'.proc.programCount = k.proc.programCount ∧
    k'.proc.schedPid = k.proc.schedPid ∧ k'.proc.pcbCurrent = k.proc.pcbCurrent ∧
    k'.proc.userPage.frame = k.proc.userPage.frame := by
  have hwf := DisplayedStep.wf_run (WF.of_booted hboot) hreach
  obtain ⟨hwf', -, hres⟩ := wellNested_restored has hwf rfl hrun hon
  refine ⟨hres.pidArr, hres.programCount, hres.schedPid, ?_, ?_⟩
  · rw [hwf'.current, hwf.current, hback, hres.schedPid]
  · rw [hwf'.frame, hwf.frame, hback, hres.schedPid]

/-- A program of terminal 0 runs through three ticks and halts. -/
theorem shell_program_restores :
    ∃ k', Run (Step shellImage) bootedKernel
        [.execute (.at 8 9) shellName, .tick (.at 6 7), .tick (.at 6 7), .tick (.at 6 7),
          .halt 0] k' ∧
      k'.proc.pidArr = bootedKernel.proc.pidArr ∧
      k'.proc.programCount = bootedKernel.proc.programCount ∧
      k'.proc.schedPid = bootedKernel.proc.schedPid ∧
      k'.proc.pcbCurrent = bootedKernel.proc.pcbCurrent ∧
      k'.proc.userPage.frame = bootedKernel.proc.userPage.frame := by
  have hwf := WF.of_booted booted_bootedKernel
  obtain ⟨k1, hexec⟩ := shellImage_execute (k := bootedKernel) (.at 8 9) (by decide)
  have hs1 : DisplayedStep shellImage bootedKernel (.execute (.at 8 9) shellName) k1 :=
    ⟨rfl, hexec⟩
  have hwf1 : WF k1.proc := hwf.step hs1
  obtain ⟨k2, k3, k4, h2, h3, h4, -, hp4, -⟩ :=
    three_ticks shellImage hwf1 (.at 6 7) (.at 6 7) (.at 6 7)
  have hwf4 : WF k4.proc := ((hwf1.step h2).step h3).step h4
  have hcur : k4.proc.currProcess = 0 := by
    rw [hp4, ticked_currProcess, ticked_currProcess, ticked_currProcess,
      (execute_proc hwf hexec).2.1]
    decide
  have hhalt : Step shellImage k4 (.halt 0) (haltHandler 0 k4).1 := rfl
  have hrun : Run (Step shellImage) bootedKernel [.execute (.at 8 9) shellName, .tick (.at 6 7),
      .tick (.at 6 7), .tick (.at 6 7), .halt 0] (haltHandler 0 k4).1 :=
    ⟨k1, hexec, k2, h2.2, k3, h3.2, k4, h4.2, _, hhalt, rfl⟩
  refine ⟨_, hrun, nested_execute_halt_restores shellImage booted_bootedKernel (run_nil.mpr rfl)
    (.call _ _ 0 (.tick _ (.tick _ (.tick _ .nil))) .nil) hrun ?_ ?_⟩
  · refine .cons rfl fun m1 hm1 => .cons trivial fun m2 hm2 => .cons trivial fun m3 hm3 =>
      .cons trivial fun m4 hm4 => .cons ?_ fun _ _ => allSteps_nil
    obtain rfl := Step.unique hexec hm1
    obtain rfl := Step.unique h2.2 hm2
    obtain rfl := Step.unique h3.2 hm3
    obtain rfl := Step.unique h4.2 hm4
    exact hcur
  · rw [step_currProcess hwf4 hhalt (by simp), hcur]
    rfl

end Ece391
