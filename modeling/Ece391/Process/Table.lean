/-
# Ece391.Process.Table — the invariant of the process table and the scheduler.

`WF` is what ties `pid_arr`, `sched_pid`, the PCBs and `page_dir[32]` together once the three shells
run: the processes are a forest whose running ones are those in the three slots.

* `WF.launched` / `WF.halted` / `WF.ticked` — one lemma per event of `Process.Events`;
* `WF.step` — the three of them as one step of the kernel, for executes issued from the displayed
  terminal;
* `Agreement` — what the other modules of the source read off the table.

`execute_handler` records the child under `curr_terminal`, `halt_handler` and `scheduler` read
`curr_process`.  `Agreement.displayed` is the converse of the invariant: the first execute issued from
a background terminal already breaks the agreement.
-/
import Ece391.Process.Forest

open Ece391.Lib

namespace Ece391

/-! ## The invariant -/

/-- The processes in the slots of the scheduler. -/
def Proc.Scheduled (p : Proc) (n : Nat) : Prop := ∃ t, p.schedPid t = n

/-- **`WF p`** — the process table is well formed. -/
structure WF (p : Proc) : Prop extends Forest p p.Scheduled where
  scheduled : ∀ t, p.Live (p.schedPid t)
  distinct : Function.Injective p.schedPid
  current : p.pcbCurrent = pcbAddr (p.schedPid p.currProcess)
  frame : p.userPage.frame = 1 + p.schedPid p.currProcess

namespace WF

variable {p : Proc}

theorem scheduled_ne_zero (h : WF p) (t : Fin 3) : p.schedPid t ≠ 0 := by
  have := (h.scheduled t).1
  omega

theorem current_pid (h : WF p) : p.current.pid = p.schedPid p.currProcess :=
  h.toForest.current_pid (h.scheduled _) h.current

theorem pcbCurrent_ne_zero (h : WF p) : p.pcbCurrent ≠ 0 := by
  rw [h.current]
  exact pcbAddr_ne_zero (h.scheduled _).2.1

/-- The current PCB, reached by its number. -/
theorem current_eq (h : WF p) : p.current = p.pcbOf (p.schedPid p.currProcess) := by
  rw [Proc.current, h.current, Proc.pcbOf]

theorem current_live (h : WF p) : p.Live p.current.pid := by
  rw [h.current_pid]
  exact h.scheduled p.currProcess

theorem current_pcbOf (h : WF p) : p.current = p.pcbOf p.current.pid := by
  rw [h.current_pid, ← h.current_eq]

theorem parentUnscheduled (h : WF p) {n : Nat} (hn : p.Live n) (h3 : 3 < n) (t : Fin 3) :
    p.schedPid t ≠ (p.pcbOf n).parentPid := fun heq => h.parentWaits n hn h3 ⟨t, heq⟩

/-- **A successful execute from the displayed terminal keeps the table well formed.** -/
theorem launched (h : WF p) (fr : Frame) (args : ArgBuf) {slot : Nat} (hslot : slot < programMax)
    (hfree : p.pidArr slot = 0) : WF (p.launched p.currProcess fr slot args) := by
  have hdead := not_live_slot hfree
  refine { toForest := ?_, scheduled := ?_, distinct := ?_, current := ?_, frame := ?_ }
  · refine (h.toForest.launched p.currProcess fr args h.current (h.scheduled _) ⟨_, rfl⟩ hslot
      hfree).mono ?_
    rintro n ⟨t, rfl⟩
    rw [launched_schedPid, Function.update_apply]
    split
    next => exact Or.inl rfl
    next ht => exact Or.inr ⟨⟨t, rfl⟩, fun heq => ht (h.distinct heq)⟩
  · intro t
    rw [launched_schedPid, Function.update_apply, live_launched hslot]
    split
    · exact Or.inl rfl
    · exact Or.inr (h.scheduled t)
  · intro s t hst
    rw [launched_schedPid, Function.update_apply, Function.update_apply] at hst
    split at hst <;> split at hst
    next hs ht => rw [hs, ht]
    next => exact absurd (hst ▸ h.scheduled t) hdead
    next => exact absurd (hst ▸ h.scheduled s) hdead
    next => exact h.distinct hst
  · simp
  · have hpage : bottomKernal + pageSize * slot
        = bottomKernal + pageSize * (slot + 1) - pageSize := by
      unfold pageSize
      omega
    rw [launched_userPage, hpage, userPageEntry_frame hslot (by omega)]
    simp

/-- **A halt of a process other than the base shells keeps the table well formed.** -/
theorem halted (h : WF p) (hbase : 3 < p.current.pid) : WF p.halted := by
  have hpid := h.current_pid
  have hcur := h.scheduled p.currProcess
  rw [hpid] at hbase
  obtain ⟨hparLive, hparNe⟩ := h.parentLive _ hcur hbase
  have hparOf : p.current.parentPid = (p.pcbOf (p.schedPid p.currProcess)).parentPid := by
    rw [h.current_eq]
  have hlive : ∀ n, p.halted.Live n ↔ p.Live n ∧ n ≠ p.schedPid p.currProcess := by
    intro n
    rw [live_halted (by omega), hpid]
  refine { toForest := ?_, scheduled := ?_, distinct := ?_, current := ?_, frame := ?_ }
  · refine (h.toForest.halted h.current hcur hbase ⟨_, rfl⟩).mono ?_
    rintro n ⟨t, rfl⟩
    rw [halted_schedPid, Function.update_apply, hparOf]
    split
    next => exact Or.inl rfl
    next ht => exact Or.inr ⟨⟨t, rfl⟩, fun heq => ht (h.distinct heq)⟩
  · intro t
    rw [halted_schedPid, Function.update_apply, hparOf]
    split
    next => exact (hlive _).mpr ⟨hparLive, hparNe⟩
    next ht => exact (hlive _).mpr ⟨h.scheduled t, fun heq => ht (h.distinct heq)⟩
  · intro s t hst
    rw [halted_schedPid, Function.update_apply, Function.update_apply, hparOf] at hst
    split at hst <;> split at hst
    next hs ht => rw [hs, ht]
    next => exact absurd hst.symm (h.parentUnscheduled hcur hbase t)
    next => exact absurd hst (h.parentUnscheduled hcur hbase s)
    next => exact h.distinct hst
  · rw [halted_pcbCurrent, halted_schedPid, halted_currProcess, Function.update_self, hparOf,
      h.current_eq]
    exact h.parentPcb _ hcur hbase
  · rw [halted_userPage, halted_schedPid, halted_currProcess, Function.update_self, hparOf]
    exact userPageEntry_frame hparLive.2.1 hparLive.1

/-- **A tick keeps the table well formed.** -/
theorem ticked (h : WF p) (fr : Frame) : WF (p.ticked fr) := by
  have hforest : Forest (p.ticked fr) (p.ticked fr).Scheduled := h.toForest.ticked fr
  have hnext := h.scheduled (p.currProcess + 1)
  refine { toForest := hforest, scheduled := h.scheduled, distinct := h.distinct, current := rfl
           frame := ?_ }
  rw [ticked_userPage]
  have hpid : ((p.ticked fr).pcb (pcbAddr (p.schedPid (p.currProcess + 1)))).pid
      = p.schedPid (p.currProcess + 1) := hforest.pid _ hnext
  rw [hpid]
  exact userPageEntry_frame hnext.2.1 hnext.1

/-- What leaves the slots, the counter, the slot table, the lineages, the current PCB and the user page
alone keeps the table well formed. -/
theorem congr {p' : Proc} (h : WF p) (hpidArr : p'.pidArr = p.pidArr)
    (hcount : p'.programCount = p.programCount) (hsched : p'.schedPid = p.schedPid)
    (hcur : p'.currProcess = p.currProcess) (hpcb : p'.pcbCurrent = p.pcbCurrent)
    (hpage : p'.userPage = p.userPage)
    (hlin : ∀ n, (p'.pcbOf n).lineage = (p.pcbOf n).lineage) : WF p' := by
  refine { toForest := ?_, scheduled := ?_, distinct := ?_, current := ?_, frame := ?_ }
  · refine (h.toForest.congr hpidArr hcount hlin).mono ?_
    rintro n ⟨t, rfl⟩
    exact ⟨t, by rw [hsched]⟩
  · intro t
    have := h.scheduled t
    rw [hsched]
    simpa only [Proc.Live, hpidArr] using this
  · rw [hsched]
    exact h.distinct
  · rw [hpcb, hsched, hcur]
    exact h.current
  · rw [hpage, hsched, hcur]
    exact h.frame

/-- A cleared interrupt flag is no part of the table. -/
theorem cli (h : WF p) : WF p.cli := h.congr rfl rfl rfl rfl rfl rfl fun _ => rfl

/-- **The booted table is well formed.** -/
theorem of_booted {k : Kernel} (h : Booted k) : WF k.proc := by
  have hforest := Forest.of_booted h k.proc.Scheduled
  refine { toForest := hforest, scheduled := ?_, distinct := ?_, current := h.pcbCurrent
           frame := h.userPage }
  · intro t
    have := t.isLt
    rw [h.schedPid t]
    exact hforest.shells _ (by omega) (by omega)
  · intro s t hst
    rw [h.schedPid, h.schedPid] at hst
    exact Fin.ext (by omega)

end WF

/-! ## The table up to the user page -/

/-- **`p.Tabled`** — the table is well formed once the user page is put right: an execute may fail after it has
remapped the page. -/
def Proc.Tabled (p : Proc) : Prop := ∃ page, WF { p with userPage := page }

theorem WF.tabled {p : Proc} (h : WF p) : p.Tabled := ⟨p.userPage, h⟩

namespace Proc.Tabled

variable {p : Proc}

theorem scheduled (h : p.Tabled) (t : Fin 3) : p.Live (p.schedPid t) := by
  obtain ⟨page, hwf⟩ := h
  exact hwf.scheduled t

theorem scheduled_ne_zero (h : p.Tabled) (t : Fin 3) : p.schedPid t ≠ 0 := by
  obtain ⟨page, hwf⟩ := h
  exact hwf.scheduled_ne_zero t

theorem pcbCurrent_ne_zero (h : p.Tabled) : p.pcbCurrent ≠ 0 := by
  obtain ⟨page, hwf⟩ := h
  exact hwf.pcbCurrent_ne_zero

theorem current_pid (h : p.Tabled) : p.current.pid = p.schedPid p.currProcess := by
  obtain ⟨page, hwf⟩ := h
  exact hwf.current_pid

theorem current_pcbOf (h : p.Tabled) : p.current = p.pcbOf p.current.pid := by
  obtain ⟨page, hwf⟩ := h
  exact hwf.current_pcbOf

theorem pcbCurrent (h : p.Tabled) : p.pcbCurrent = pcbAddr p.current.pid := by
  obtain ⟨page, hwf⟩ := h
  rw [show p.current.pid = p.schedPid p.currProcess from hwf.current_pid]
  exact hwf.current

theorem slot (h : p.Tabled) (fr : Frame) (hcount : p.programCount < programMax) :
    p.slot fr < programMax ∧ p.pidArr (p.slot fr) = 0 := by
  obtain ⟨page, hwf⟩ := h
  obtain ⟨hslot, hfree, -⟩ := hwf.toForest.slot fr hcount
  exact ⟨hslot, hfree⟩

/-- The three events that move processes set the user page themselves. -/
theorem ticked (h : p.Tabled) (fr : Frame) : WF (p.ticked fr) := by
  obtain ⟨page, hwf⟩ := h
  exact hwf.ticked fr

theorem launched (h : p.Tabled) (fr : Frame) (args : ArgBuf) {slot : Nat} (hslot : slot < programMax)
    (hfree : p.pidArr slot = 0) : WF (p.launched p.currProcess fr slot args) := by
  obtain ⟨page, hwf⟩ := h
  exact hwf.launched fr args hslot hfree

theorem halted (h : p.Tabled) (hbase : 3 < p.current.pid) : WF p.halted := by
  obtain ⟨page, hwf⟩ := h
  exact hwf.halted hbase

/-- The flags and the user page are no part of the table. -/
theorem of_flags (h : p.Tabled) (argsFlag : Nat) (page : PageEntry) (flag : Bool) :
    { p with argsFlag := argsFlag, userPage := page, intFlag := flag : Proc }.Tabled := by
  obtain ⟨page', hwf⟩ := h
  exact ⟨page', hwf.congr rfl rfl rfl rfl rfl rfl fun _ => rfl⟩

end Proc.Tabled

/-! ## One step of the kernel -/

/-- An execute from a well-formed state. -/
theorem execute_proc {img : Image} {k k' : Kernel} {fr : Frame} {command : List UInt8}
    (h : WF k.proc) (hs : Step img k (.execute fr command) k') :
    k.proc.programCount < programMax ∧
    k'.proc = k.proc.launched k.con.currTerminal fr (k.proc.slot fr) (parseArgs command) ∧
    k'.con.currTerminal = k.con.currTerminal := by
  obtain ⟨eip, heip⟩ := hs
  exact h.toForest.execute h.current (h.scheduled _) heip

/-- The process table after one step from a well-formed state: the four cases of `Step`. -/
theorem step_proc {img : Image} {k k' : Kernel} {a : Act} (h : WF k.proc) (hs : Step img k a k') :
    (∃ fr, a = .tick fr ∧ k'.proc = k.proc.ticked fr ∧ k'.con.currTerminal = k.con.currTerminal) ∨
    (∃ i, a = .terminalSwitch i ∧ k'.proc = k.proc) ∨
    (∃ fr command, a = .execute fr command ∧ k.proc.programCount < programMax ∧
      k'.proc = k.proc.launched k.con.currTerminal fr (k.proc.slot fr) (parseArgs command)) ∨
    (∃ status, a = .halt status ∧ k.proc.current.pid ≤ 3 ∧ k'.proc = k.proc.cli) ∨
    (∃ status, a = .halt status ∧ 3 < k.proc.current.pid ∧ k'.proc = k.proc.halted) := by
  cases a with
  | tick fr =>
      obtain rfl := hs
      exact Or.inl ⟨fr, rfl, tick_proc h.scheduled_ne_zero, tick_currTerminal h.scheduled_ne_zero⟩
  | terminalSwitch i =>
      obtain rfl := hs
      exact Or.inr (Or.inl ⟨i, rfl, rfl⟩)
  | execute fr command =>
      obtain ⟨hmax, hp, -⟩ := execute_proc h hs
      exact Or.inr (Or.inr (Or.inl ⟨fr, command, rfl, hmax, hp⟩))
  | halt status =>
      obtain rfl := hs
      by_cases hbase : k.proc.current.pid ≤ 3
      · exact Or.inr (Or.inr (Or.inr (Or.inl ⟨status, rfl, hbase, haltHandler_base status hbase⟩)))
      · refine Or.inr (Or.inr (Or.inr (Or.inr ⟨status, rfl, by omega, ?_⟩)))
        rw [haltHandler_proc status h.pcbCurrent_ne_zero (by omega)]

/-- **The step lemma of the process table.** -/
theorem WF.step {img : Image} {k k' : Kernel} {a : Act} (h : WF k.proc)
    (hs : restrict Displayed (Step img) k a k') : WF k'.proc := by
  obtain ⟨hok, hs⟩ := hs
  rcases step_proc h hs with ⟨fr, rfl, hp, -⟩ | ⟨i, rfl, hp⟩ | ⟨fr, command, rfl, hmax, hp⟩ |
    ⟨status, rfl, -, hp⟩ | ⟨status, rfl, hbase, hp⟩
  · rw [hp]
    exact h.ticked fr
  · rw [hp]
    exact h
  · obtain ⟨hslot, hfree, -⟩ := h.slot fr hmax
    have hok : k.proc.currProcess = k.con.currTerminal := hok
    rw [hp, ← hok]
    exact h.launched fr _ hslot hfree
  · rw [hp]
    exact h.cli
  · rw [hp]
    exact h.halted hbase

/-! ## Agreement of the table with the scheduler -/

/-- **`Agreement p`** — the slot of the running terminal names the current process, the three slots
name three live processes, and `program_count` is the number of ones in `pid_arr`. -/
structure Agreement (p : Proc) : Prop where
  current : p.schedPid p.currProcess = p.current.pid
  distinct : ∀ s t, s ≠ t → p.schedPid s ≠ p.schedPid t
  live : ∀ t, p.Live (p.schedPid t)
  count : p.programCount = p.liveCount

theorem WF.agreement {p : Proc} (h : WF p) : Agreement p where
  current := h.current_pid.symm
  distinct := fun _ _ hne heq => hne (h.distinct heq)
  live := h.scheduled
  count := h.count

/-- Agreement after a step from a well-formed state tells which terminal the step was issued from. -/
theorem Agreement.displayed {img : Image} {k k' : Kernel} {a : Act} (h : WF k.proc)
    (hs : Step img k a k') (hagree : Agreement k'.proc) : Displayed k a := by
  rcases step_proc h hs with ⟨fr, rfl, -, -⟩ | ⟨i, rfl, -⟩ | ⟨fr, command, rfl, hmax, hp⟩ |
    ⟨status, rfl, -, -⟩ | ⟨status, rfl, -, -⟩
  case inr.inr.inl =>
    obtain ⟨hslot, hfree, -⟩ := h.slot fr hmax
    by_contra hne
    have hcur := hagree.current
    -- the child is current, and the slot of the running terminal still names its caller
    have hpid := (launched_pcbOf_self k.proc k.con.currTerminal fr (k.proc.slot fr)
      (parseArgs command)).1
    rw [hp, Proc.current, launched_schedPid, launched_currProcess, launched_pcbCurrent,
      Function.update_of_ne hne] at hcur
    rw [Proc.pcbOf, ← hcur] at hpid
    exact not_live_slot hfree (hpid ▸ h.scheduled k.proc.currProcess)
  all_goals trivial

/-- **Agreement of the process table with the scheduler, exactly.** Along any run from the booted
state the agreement holds in every state if and only if every execute of the run is issued while the
running terminal is the displayed one. -/
theorem agreement_iff_displayed (img : Image) {k k' : Kernel} {as : List Act} (hboot : Booted k)
    (hrun : Run (Step img) k as k') :
    AllStates (Step img) (fun k => Agreement k.proc) k as ↔ AllSteps (Step img) Displayed k as := by
  have hwf := WF.of_booted hboot
  constructor
  · intro hall before a after m has hm
    subst has
    obtain ⟨m', hm', k1, h1, -⟩ := run_append.mp hrun
    obtain rfl := Run.unique (R := Step img) (fun _ _ _ _ => Step.unique) hm hm'
    -- up to here the table is well formed, since every earlier execute was a displayed one
    have hwfm : WF m.proc := hm.invariant_of_allStates hall.of_append (I := fun k => WF k.proc) hwf
      (fun s a s' h hs hagree => h.step ⟨hagree.displayed h hs, hs⟩)
    exact (hall (before ++ [a]) after k1 (by simp) (run_snoc.mpr ⟨m, hm, h1⟩)).displayed hwfm h1
  · intro hall before after m has hm
    subst has
    exact ((hm.restrict_of_allSteps hall.of_append).invariant (I := fun k => WF k.proc) hwf
      (fun _ _ _ h hs => h.step hs)).agreement

theorem shellImage_execute {k : Kernel} (fr : Frame) (h : k.proc.programCount < programMax) :
    ∃ k', Step shellImage k (.execute fr shellName) k' := by
  have hname : readDentryByName shellImage (parseName shellName).1 =
      some (shellImage.dentry 0) := by decide
  obtain ⟨k', eip, hk'⟩ := executeHandler_succeeds fr h hname (by decide) (by decide)
  exact ⟨k', eip, hk'⟩

/-- The first tick after boot moves the processor to terminal 1 and leaves terminal 0 displayed. -/
theorem bootedKernel_tick (img : Image) (fr : Frame) :
    (pitInterruptHandler img fr bootedKernel).proc = bootedKernel.proc.ticked fr ∧
    (pitInterruptHandler img fr bootedKernel).con.currTerminal = 0 :=
  ⟨tick_proc (WF.of_booted booted_bootedKernel).scheduled_ne_zero,
    tick_currTerminal (WF.of_booted booted_bootedKernel).scheduled_ne_zero⟩

/-- The agreement fails after one tick and one execute: the shell of terminal 1 runs a program while
terminal 0 is displayed, `sched_pid[1]` is still 2, and the current process is number 4. -/
theorem agreement_fails_in_background :
    Booted bootedKernel ∧
    ∃ k', Run (Step shellImage) bootedKernel
        [.tick (.at 8 9), .execute (.at 8 9) shellName] k' ∧
      k'.proc.schedPid k'.proc.currProcess = 2 ∧ k'.proc.current.pid = 4 ∧
      ¬ Agreement k'.proc := by
  refine ⟨booted_bootedKernel, ?_⟩
  obtain ⟨htick, hterm⟩ := bootedKernel_tick shellImage (.at 8 9)
  have hwf : WF (pitInterruptHandler shellImage (.at 8 9) bootedKernel).proc := by
    rw [htick]
    exact (WF.of_booted booted_bootedKernel).ticked _
  obtain ⟨k', hexec⟩ := shellImage_execute (k := pitInterruptHandler shellImage (.at 8 9)
    bootedKernel) (.at 8 9) (by rw [htick]; decide)
  have hproc : k'.proc =
      (bootedKernel.proc.ticked (.at 8 9)).launched 0 (.at 8 9) 3 (parseArgs shellName) := by
    have hslot : (bootedKernel.proc.ticked (.at 8 9)).slot (.at 8 9) = 3 := by decide
    rw [(execute_proc hwf hexec).2.1, hterm, htick, hslot]
  have hsched : k'.proc.schedPid k'.proc.currProcess = 2 := by rw [hproc]; decide
  have hpid : k'.proc.current.pid = 4 := by
    rw [hproc, launched_current]
    exact (launched_pcbOf_self _ _ _ _ _).1
  refine ⟨k', ⟨_, rfl, k', hexec, rfl⟩, hsched, hpid, ?_⟩
  intro h
  have := h.current
  omega

/-- With terminal 0 running and displayed the same execute keeps the agreement. -/
theorem agreement_holds_displayed :
    ∃ k', Run (Step shellImage) bootedKernel [.execute (.at 8 9) shellName] k' ∧
      AllStates (Step shellImage) (fun k => Agreement k.proc) bootedKernel
        [.execute (.at 8 9) shellName] := by
  obtain ⟨k', hexec⟩ := shellImage_execute (k := bootedKernel) (.at 8 9) (by decide)
  have hrun : Run (Step shellImage) bootedKernel [.execute (.at 8 9) shellName] k' :=
    ⟨k', hexec, rfl⟩
  exact ⟨k', hrun, (agreement_iff_displayed shellImage booted_bootedKernel hrun).mpr
    (.cons rfl fun _ _ => allSteps_nil)⟩

end Ece391
