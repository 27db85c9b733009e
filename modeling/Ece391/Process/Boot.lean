/-
# Ece391.Process.Boot — from power-on to the three shells.

`entry` of `kernel.c` starts no process: it initialises the devices, the pages and the terminals and
goes idle with interrupts enabled.  The scheduler does the rest.  Its first tick starts a shell in slot
0, the next two save a process that is already there and start one in the slot behind it.

`Started n` is the process table after `n` ticks, for every `n`: the first `min n 3` slots are in use,
each by a shell that is its own parent, and the scheduler has gone round `n` times.  The table is
reached whatever else happens between the ticks, as long as no program is started before the third of
them: an earlier one would be taken for a base shell, since `execute_handler` tells them apart by
`program_count`.

* `Started.tick` — one tick, from any of these tables to the next;
* `boot_reaches_shells` — the booted state is reached, exactly if the file system has a shell.
-/
import Ece391.Process.Calls

open Ece391.Lib

namespace Ece391

/-! ## `entry` -/

/-- `reset`, before paging is enabled: `video_mem` is a physical address. -/
def Console.resetUnpaged (c : Console) : Console :=
  let c := c.loadCursor c.currTerminal
  let c := { c with
    phys := (List.range (numRows * numCols)).foldl (fun phys i =>
      Function.update (Function.update phys (c.videoMem + 2 * i) space) (c.videoMem + 2 * i + 1)
        attrib) c.phys
    screenX := 0, screenY := 0 }
  c.setTerm c.currTerminal fun term => { term with screenX := 0, screenY := 0 }

/-- `rtc_initialize`, the two variables. -/
def rtcInitialize (r : Rtc) : Rtc := { r with tick := 0, status := 0 }

/-- **`entry`** — from the construction of the TSS to the idle loop. -/
def entry (k : Kernel) : Kernel where
  proc := { k.proc with tssSs0 := kernelDs, tssEsp0 := bottomKernal, intFlag := true }
  con := k.con.resetUnpaged.pagingInitialize.initTerminal
  rtc := rtcInitialize k.rtc

/-- The kernel's zeroed data, as far as the process table is concerned.  The PCBs are not part of it:
they lie in memory nothing has initialised. -/
structure Zeroed (k : Kernel) : Prop where
  programCount : k.proc.programCount = 0
  pidArr : ∀ i < programMax, k.proc.pidArr i = 0
  schedPid : ∀ t, k.proc.schedPid t = 0
  currProcess : k.proc.currProcess = 0

/-- **`ShellLoads img`** — an execute of "shell" gets past its checks, and the file is read to its
end. -/
def ShellLoads (img : Image) : Prop :=
  ∃ dentry stores, readDentryByName img (parseName shellName).1 = some dentry ∧
    isExecutable img (parseName shellName).1 dentry.inodeNum = true ∧
    loadProgram img dentry.inodeNum = some stores

/-! ## Starting a base shell -/

/-- A shell starts exactly if it loads, as long as a slot is free. -/
theorem shell_starts_iff {img : Image} {k : Kernel} (fr : Frame)
    (hcount : k.proc.programCount < programMax) :
    (∃ k' eip, executeHandler img fr (some shellName) k = (k', some eip)) ↔ ShellLoads img := by
  constructor
  · rintro ⟨k', eip, h⟩
    obtain ⟨-, dentry, stores, hname, hexec, hload, -⟩ := executeHandler_some h
    exact ⟨dentry, stores, hname, hexec, hload⟩
  · rintro ⟨dentry, stores, hname, hexec, hload⟩
    have hmax : ¬ k.proc.programCount ≥ programMax := by omega
    simp only [executeHandler, if_neg hmax, hname, hexec, if_true, Kernel.launch, hload]
    exact ⟨_, _, rfl⟩

/-- **`BaseLaunch n slot p p'`** — shell number `n + 1` has been started in page slot `slot`. -/
structure BaseLaunch (n slot : Nat) (p p' : Proc) : Prop where
  programCount : p'.programCount = n + 1
  pidArr : p'.pidArr = Function.update p.pidArr n 1
  schedPid : p'.schedPid = Function.update p.schedPid (Fin.ofNat 3 n) (n + 1)
  currProcess : p'.currProcess = p.currProcess
  pcbCurrent : p'.pcbCurrent = pcbAddr (n + 1)
  lineage : (p'.pcb (pcbAddr (n + 1))).lineage = (n + 1, n + 1, pcbAddr (n + 1))
  others : ∀ a ≠ pcbAddr (n + 1), p'.pcb a = p.pcb a
  userPage : p'.userPage = userPageEntry (bottomKernal + pageSize * slot)

/-- The branch `program_count < 3` of `execute_handler`. -/
theorem executeHandler_base {img : Image} {fr : Frame} {command : List UInt8} {k k' : Kernel}
    {eip : Nat} (h : executeHandler img fr (some command) k = (k', some eip))
    (hcount : k.proc.programCount < 3) :
    BaseLaunch k.proc.programCount (k.proc.slot fr) k.proc k'.proc := by
  obtain ⟨-, dentry, stores, -, -, -, rfl⟩ := executeHandler_some h
  have hsmall : (k.proc.programCount + 1) % 256 = k.proc.programCount + 1 :=
    Nat.mod_eq_of_lt (by omega)
  have hbranch : (((k.cli.noteArgs (parseArgs command)).mapUserPage (k.proc.slot fr)).storeProgram
      stores).proc.programCount < 3 := hcount
  constructor
  all_goals simp only [Kernel.startProgram, if_pos hbranch, openHandler_stdin, openHandler_stdout]
  case others =>
    intro a ha
    simp [Kernel.storeProgram, Kernel.mapUserPage, Kernel.noteArgs, Kernel.cli, Proc.cli, Proc.sti,
      Proc.enterProgram, Proc.openTerminal, Proc.bootPcb, Proc.setPcb, ha]
  case userPage => rfl
  all_goals simp [Kernel.storeProgram, Kernel.mapUserPage, Kernel.noteArgs, Kernel.cli, Proc.cli,
    Proc.sti, Proc.enterProgram, Proc.openTerminal, Proc.bootPcb, Proc.setPcb, hsmall, Pcb.lineage]

/-! ## The table after some ticks -/

/-- **`Started n p`** — the process table after `n` ticks. -/
structure Started (n : Nat) (p : Proc) : Prop where
  programCount : p.programCount = min n 3
  pidArr : ∀ i < programMax, p.pidArr i = if i < min n 3 then 1 else 0
  schedPid : ∀ t : Fin 3, p.schedPid t = if t.val < n then t.val + 1 else 0
  lineage : ∀ m, 1 ≤ m → m ≤ min n 3 → (p.pcbOf m).lineage = (m, m, pcbAddr m)
  currProcess : p.currProcess.val = (n - 1) % 3
  pcbCurrent : 0 < n → p.pcbCurrent = pcbAddr (p.schedPid p.currProcess)
  frame : 0 < n → p.userPage.frame = 1 + p.schedPid p.currProcess

theorem Started.of_zeroed {k : Kernel} (h : Zeroed k) : Started 0 (entry k).proc where
  programCount := h.programCount
  pidArr := h.pidArr
  schedPid := h.schedPid
  lineage m h1 hm := by omega
  currProcess := congrArg Fin.val h.currProcess
  pcbCurrent h0 := absurd h0 (Nat.lt_irrefl 0)
  frame h0 := absurd h0 (Nat.lt_irrefl 0)

/-- From the third tick on the state is the booted one. -/
theorem Started.booted {n : Nat} {k : Kernel} (h : Started n k.proc) (hn : 3 ≤ n) : Booted k := by
  have hmin : min n 3 = 3 := by omega
  have hlineage : ∀ m, 1 ≤ m → m ≤ 3 → (k.proc.pcbOf m).lineage = (m, m, pcbAddr m) :=
    fun m h1 h3 => h.lineage m h1 (by omega)
  refine { pidArr := ?_, programCount := ?_, schedPid := ?_, pcbCurrent := h.pcbCurrent (by omega)
           pid := ?_, parentPid := ?_, parentPcb := ?_, userPage := h.frame (by omega) }
  · intro i hi
    rw [h.pidArr i hi, hmin]
  · rw [h.programCount, hmin]
  · intro t
    rw [h.schedPid t, if_pos (by have := t.isLt; omega)]
  · exact fun m h1 h3 => congrArg Prod.fst (hlineage m h1 h3)
  · exact fun m h1 h3 => congrArg (fun l => l.2.1) (hlineage m h1 h3)
  · exact fun m h1 h3 => congrArg (fun l => l.2.2) (hlineage m h1 h3)

/-- The first free slot is the one behind the shells. -/
theorem Started.slot {n : Nat} {p : Proc} (h : Started n p) (hn : n < 3) (fr : Frame) :
    p.slot fr = n := by
  have hused : ∀ i < programMax, (p.pidArr i == 0) = decide (n ≤ i) := by
    intro i hi
    rw [h.pidArr i hi, Nat.min_eq_left (by omega)]
    by_cases hin : i < n
    · simp [hin]
    · simp [hin, Nat.le_of_not_lt hin]
  have hmax : n < programMax := Nat.lt_trans hn (by decide)
  have hfree : freeSlot p.pidArr = some n := by
    refine List.find?_range_eq_some.mpr ⟨?_, List.mem_range.mpr hmax, fun j hj => ?_⟩
    · rw [hused n hmax]
      exact decide_eq_true (Nat.le_refl n)
    · rw [hused j (Nat.lt_trans hj hmax), decide_eq_false (Nat.not_le_of_lt hj)]
      rfl
  rw [Proc.slot, hfree]
  rfl

/-- What the table says does not depend on the descriptors of the current process, its RTC flag and the
interrupt flag. -/
theorem Started.retabled {n : Nat} {p p' : Proc} (h : Started n p) {arr : Nat → FileDescriptor}
    (hr : p.Retabled arr p') : Started n p' := by
  have hlin : ∀ a, (p'.pcb a).lineage = (p.pcb a).lineage := hr.lineage
  obtain ⟨rtcFlag, flag, rfl⟩ := hr
  exact ⟨h.programCount, h.pidArr, h.schedPid, fun m h1 hm => (hlin _).trans (h.lineage m h1 hm),
    h.currProcess, h.pcbCurrent, h.frame⟩

theorem Started.cli {n : Nat} {p : Proc} (h : Started n p) : Started n p.cli :=
  h.retabled (.of_flag p false)

/-! ## A tick -/

/-- A shell is started in the slot behind the others. -/
theorem Started.launch {n : Nat} {p p' : Proc} (hl : BaseLaunch n n p p') (hn : n < 3)
    (hpidArr : ∀ i < programMax, p.pidArr i = if i < n then 1 else 0)
    (hsched : ∀ t : Fin 3, t.val ≠ n → p.schedPid t = if t.val < n then t.val + 1 else 0)
    (hlineage : ∀ m, 1 ≤ m → m ≤ n → (p.pcbOf m).lineage = (m, m, pcbAddr m))
    (hcurr : p.currProcess.val = n) : Started (n + 1) p' := by
  have hterm : (Fin.ofNat 3 n).val = n := Nat.mod_eq_of_lt hn
  have hself : p.currProcess = Fin.ofNat 3 n := Fin.ext (hcurr.trans hterm.symm)
  have hmin : min (n + 1) 3 = n + 1 := by omega
  refine { programCount := ?_, pidArr := ?_, schedPid := ?_, lineage := ?_, currProcess := ?_
           pcbCurrent := fun _ => ?_, frame := fun _ => ?_ }
  · rw [hl.programCount, hmin]
  · intro i hi
    rw [hl.pidArr, hmin, Function.update_apply]
    by_cases hin : i = n
    · rw [if_pos hin, if_pos (by omega)]
    · rw [if_neg hin, hpidArr i hi]
      by_cases hlt : i < n
      · rw [if_pos hlt, if_pos (by omega)]
      · rw [if_neg hlt, if_neg (by omega)]
  · intro t
    rw [hl.schedPid, Function.update_apply]
    by_cases ht : t = Fin.ofNat 3 n
    · have hval : t.val = n := (congrArg Fin.val ht).trans hterm
      rw [if_pos ht, if_pos (by omega), hval]
    · have hval : t.val ≠ n := fun heq => ht (Fin.ext (heq.trans hterm.symm))
      rw [if_neg ht, hsched t hval]
      by_cases hlt : t.val < n
      · rw [if_pos hlt, if_pos (by omega)]
      · rw [if_neg hlt, if_neg (by omega)]
  · intro m h1 hm
    by_cases hmn : m = n + 1
    · subst hmn
      exact hl.lineage
    · have haddr : pcbAddr m ≠ pcbAddr (n + 1) := fun heq =>
        hmn (pcbAddr_injective (by unfold programMax; omega) (by unfold programMax; omega) heq)
      rw [Proc.pcbOf, hl.others _ haddr]
      exact hlineage m h1 (by omega)
  · rw [hl.currProcess, hcurr, Nat.add_sub_cancel, Nat.mod_eq_of_lt hn]
  · rw [hl.pcbCurrent, hl.schedPid, hl.currProcess, hself, Function.update_self]
  · have hpage : bottomKernal + pageSize * n = bottomKernal + pageSize * (n + 1) - pageSize := by
      unfold pageSize
      omega
    rw [hl.userPage, hpage, userPageEntry_frame (by unfold programMax; omega) (by omega), hl.schedPid,
      hl.currProcess, hself, Function.update_self]

/-- Saving a context changes no lineage. -/
theorem saveContext_lineage (p : Proc) (fr : Frame) (a : Nat) :
    ((p.saveContext fr).pcb a).lineage = (p.pcb a).lineage := by
  unfold Proc.saveContext Proc.setPcb
  by_cases ha : a = pcbAddr (p.schedPid p.currProcess)
  · subst ha
    simp [Pcb.lineage]
  · simp [ha]

/-- The tick that starts shell number `n + 1`. -/
theorem Started.tick_boot {img : Image} {fr : Frame} {n : Nat} {k : Kernel} (h : Started n k.proc)
    (hn : n < 3) (hload : ShellLoads img) : Started (n + 1) (pitInterruptHandler img fr k).proc := by
  have hcount : k.proc.programCount = n := by rw [h.programCount, Nat.min_eq_left (by omega)]
  have hpidArr : ∀ i < programMax, k.proc.pidArr i = if i < n then 1 else 0 := by
    intro i hi
    rw [h.pidArr i hi, Nat.min_eq_left (by omega)]
  have hlineage : ∀ m, 1 ≤ m → m ≤ n → (k.proc.pcbOf m).lineage = (m, m, pcbAddr m) :=
    fun m h1 hm => h.lineage m h1 (by omega)
  -- the shell started on any stack, from any table that still has the slots and the counter
  have hshell : ∀ (k1 : Kernel) (stack : Nat), k1.proc.programCount = n →
      k1.proc.pidArr = k.proc.pidArr → BaseLaunch n n k1.proc (bootShell img fr stack k1).proc := by
    intro k1 stack h1 hpid
    obtain ⟨k', eip, hexec⟩ := (shell_starts_iff fr
      (k := { k1 with proc := { k1.proc with esp := stack, ebp := stack } })
      (h1.trans_lt (Nat.lt_trans hn (by decide)))).mpr hload
    have hslot : k1.proc.slot fr = n := by
      rw [Proc.slot, hpid]
      exact h.slot hn fr
    have hl := executeHandler_base hexec (h1.trans_lt hn)
    have hk' : bootShell img fr stack k1 = k' := congrArg Prod.fst hexec
    rw [hk', ← h1]
    rw [← h1] at hslot
    have hpage : k'.proc.userPage = userPageEntry (bottomKernal + pageSize * k1.proc.programCount) := by
      rw [← hslot]
      exact hl.userPage
    exact ⟨hl.programCount, hl.pidArr, hl.schedPid, hl.currProcess, hl.pcbCurrent, hl.lineage, hl.others,
      hpage⟩
  unfold pitInterruptHandler
  refine Started.retabled ?_ (.of_flag _ true)
  unfold scheduler
  by_cases h0 : n = 0
  · subst h0
    have hzero : k.cli.proc.schedPid 0 = 0 := h.schedPid 0
    rw [if_pos hzero]
    refine Started.launch (hshell _ _ ?_ ?_) hn hpidArr ?_ hlineage h.currProcess
    · exact hcount
    · rfl
    intro t ht
    have hne : t ≠ 0 := fun heq => ht (congrArg Fin.val heq)
    show Function.update k.proc.schedPid 0 1 t = _
    rw [Function.update_of_ne hne, h.schedPid t]
  · have hpos : ((0 : Fin 3) : Nat) < n := Nat.pos_of_ne_zero h0
    have hne : ¬ k.cli.proc.schedPid 0 = 0 := by
      show ¬ k.proc.schedPid 0 = 0
      rw [h.schedPid 0, if_pos hpos]
      exact Nat.one_ne_zero
    have hcurr : k.proc.currProcess.val = n - 1 := by
      rw [h.currProcess, Nat.mod_eq_of_lt (by omega)]
    have hnext : (k.proc.currProcess + 1).val = n := by
      rw [Fin.val_add, hcurr]
      show (n - 1 + 1) % 3 = n
      rw [Nat.sub_add_cancel (Nat.pos_of_ne_zero h0), Nat.mod_eq_of_lt hn]
    have hfree : (k.cli.proc.saveContext fr).schedPid ((k.cli.proc.saveContext fr).currProcess + 1) = 0 := by
      show k.proc.schedPid (k.proc.currProcess + 1) = 0
      rw [h.schedPid, hnext, if_neg (Nat.lt_irrefl n)]
    rw [if_neg hne]
    dsimp only
    rw [if_pos hfree]
    refine Started.launch (hshell _ _ ?_ ?_) hn hpidArr ?_ ?_ hnext
    · exact hcount
    · rfl
    · intro t ht
      have hother : t ≠ k.proc.currProcess + 1 := fun heq => ht (heq ▸ hnext)
      show Function.update k.proc.schedPid (k.proc.currProcess + 1) _ t = _
      rw [Function.update_of_ne hother, h.schedPid t]
    · intro m h1 hm
      exact (saveContext_lineage k.cli.proc fr (pcbAddr m)).trans (hlineage m h1 hm)

/-- A tick once the three shells run. -/
theorem Started.tick_next {img : Image} {fr : Frame} {n : Nat} {k : Kernel} (h : Started n k.proc)
    (hn : 3 ≤ n) : Started (n + 1) (pitInterruptHandler img fr k).proc := by
  have hwf := WF.of_booted (h.booted hn)
  have hsched : ∀ t : Fin 3, k.proc.schedPid t = t.val + 1 := by
    intro t
    rw [h.schedPid t, if_pos (by have := t.isLt; omega)]
  have hnext := hwf.ticked fr
  rw [tick_proc hwf.scheduled_ne_zero]
  refine { programCount := ?_, pidArr := ?_, schedPid := ?_, lineage := ?_, currProcess := ?_
           pcbCurrent := fun _ => hnext.current, frame := fun _ => hnext.frame }
  · rw [ticked_programCount, h.programCount]
    omega
  · intro i hi
    rw [ticked_pidArr, h.pidArr i hi, Nat.min_eq_right hn, Nat.min_eq_right (by omega)]
  · intro t
    rw [ticked_schedPid, hsched t, if_pos (by have := t.isLt; omega)]
  · intro m h1 hm
    exact (ticked_lineage k.proc fr _).trans (h.lineage m h1 (by omega))
  · rw [ticked_currProcess, Fin.val_add, h.currProcess]
    show ((n - 1) % 3 + 1) % 3 = (n + 1 - 1) % 3
    omega

/-- **One tick**: the next shell is started, or the next of the three goes on. -/
theorem Started.tick {img : Image} {fr : Frame} {n : Nat} {k : Kernel} (h : Started n k.proc)
    (hload : ShellLoads img) : Started (n + 1) (pitInterruptHandler img fr k).proc := by
  by_cases hn : n < 3
  · exact h.tick_boot hn hload
  · exact h.tick_next (Nat.le_of_not_lt hn)

/-! ## Runs -/

/-- The timer ticks among some events. -/
def tickCount (es : List Event) : Nat :=
  (es.filter fun e => match e with
    | .act (.tick _) => true
    | _ => false).length

/-- Nothing disturbs the boot: no program is started, and no process asks to be halted before there is
one. -/
def Undisturbed (k : Kernel) : Event → Prop
  | .act (.execute _ _) => False
  | .act (.halt _) => 0 < k.proc.programCount
  | _ => True

/-- A base shell is not halted, so the table stays. -/
theorem Started.halt {n : Nat} {k : Kernel} (h : Started n k.proc) (status : UInt8)
    (hpos : 0 < k.proc.programCount) : Started n (haltHandler status k).1.proc := by
  have hn : 0 < n := by
    rw [h.programCount] at hpos
    omega
  have hval := k.proc.currProcess.isLt
  have hcurr := h.currProcess
  have hsched : k.proc.schedPid k.proc.currProcess = k.proc.currProcess.val + 1 := by
    rw [h.schedPid, if_pos (by omega)]
  have hlin := h.lineage (k.proc.currProcess.val + 1) (by omega) (by omega)
  have hpid : k.proc.current.pid = k.proc.currProcess.val + 1 := by
    rw [Proc.current, h.pcbCurrent hn, hsched]
    exact congrArg Prod.fst hlin
  rw [haltHandler_base status (by omega)]
  exact h.cli

/-- **The run lemma of the boot.** -/
theorem Started.run {img : Image} (hload : ShellLoads img) {n : Nat} {k k' : Kernel} {es : List Event}
    (h : Started n k.proc) (hrun : Run (EventStep img) k es k')
    (hquiet : AllSteps (EventStep img) Undisturbed k es) : Started (n + tickCount es) k'.proc := by
  induction es generalizing n k with
  | nil =>
      obtain rfl := hrun
      exact h
  | cons e es ih =>
      obtain ⟨m, hm, hrest⟩ := hrun
      have hok : Undisturbed k e := hquiet [] e es k rfl rfl
      have hquiet' := hquiet.tail hm
      cases e with
      | call c =>
          obtain ⟨arr, harr⟩ := CallStep.retabled hm
          exact ih (h.retabled harr) hrest hquiet'
      | act a =>
          obtain ⟨-, hs⟩ := hm
          cases a with
          | tick fr =>
              obtain rfl := hs
              have hcount : n + tickCount (.act (.tick fr) :: es) = n + 1 + tickCount es := by
                show n + (tickCount es + 1) = n + 1 + tickCount es
                omega
              rw [hcount]
              exact ih (h.tick hload) hrest hquiet'
          | terminalSwitch i =>
              obtain rfl := hs
              have hsame : Started n ({ k with con := (k.con.terminalSwitch i).1 } : Kernel).proc := h
              exact ih hsame hrest hquiet'
          | execute fr command => exact hok.elim
          | halt status =>
              obtain rfl := hs
              exact ih (h.halt status hok) hrest hquiet'

/-- Without a shell that loads no tick starts a process. -/
theorem tick_programCount {img : Image} (hload : ¬ ShellLoads img) (fr : Frame) {k : Kernel}
    (hcount : k.proc.programCount = 0) : (pitInterruptHandler img fr k).proc.programCount = 0 := by
  have hshell : ∀ k1 : Kernel, k1.proc.programCount = 0 →
      (executeHandler img fr (some shellName) k1).1.proc.programCount = 0 := by
    intro k1 h1
    cases hexec : executeHandler img fr (some shellName) k1 with
    | mk k' res =>
        cases res with
        | some eip =>
            exact absurd ((shell_starts_iff fr (by rw [h1]; decide)).mp ⟨k', eip, hexec⟩) hload
        | none =>
            obtain ⟨argsFlag, userPage, flag, heq⟩ := executeHandler_none hexec
            rw [heq]
            exact h1
  show (scheduler img fr k.cli).proc.programCount = 0
  unfold scheduler
  split
  · exact hshell _ hcount
  · dsimp only
    split
    · exact hshell _ hcount
    · exact hcount

/-- Nothing but an execute moves the counter, while no process runs. -/
theorem run_programCount {img : Image} (hload : ¬ ShellLoads img) {k k' : Kernel} {es : List Event}
    (hcount : k.proc.programCount = 0) (hrun : Run (EventStep img) k es k')
    (hquiet : AllSteps (EventStep img) Undisturbed k es) : k'.proc.programCount = 0 := by
  apply (hrun.restrict_of_allSteps hquiet).invariant (I := fun k => k.proc.programCount = 0) hcount
  rintro k e k' hcount ⟨hok, hs⟩
  cases e with
  | call c =>
      obtain ⟨arr, rtcFlag, flag, harr⟩ := CallStep.retabled hs
      rw [harr]
      exact hcount
  | act a =>
      obtain ⟨-, hs⟩ := hs
      cases a with
      | tick fr =>
          obtain rfl := hs
          exact tick_programCount hload fr hcount
      | terminalSwitch i =>
          obtain rfl := hs
          exact hcount
      | execute fr command => exact hok.elim
      | halt status => exact absurd hok (by show ¬ 0 < k.proc.programCount; omega)

/-- **The boot.**  From the zeroed kernel, after `entry` and any run with at least three ticks (in any
order with terminal switches, system calls of the shells, refused halts and device activity), with no
program started: the three shells are up exactly if the file system has a "shell" that loads. -/
theorem boot_reaches_shells {img : Image} {k k' : Kernel} {es : List Event} (hzero : Zeroed k)
    (hrun : Run (EventStep img) (entry k) es k')
    (hquiet : AllSteps (EventStep img) Undisturbed (entry k) es) (hticks : 3 ≤ tickCount es) :
    Booted k' ↔ ShellLoads img := by
  constructor
  · intro hboot
    by_contra hload
    have hcount := run_programCount hload (k := entry k) hzero.programCount hrun hquiet
    rw [hboot.programCount] at hcount
    cases hcount
  · intro hload
    exact ((Started.of_zeroed hzero).run hload hrun hquiet).booted (by omega)

/-- A kernel that has just been loaded: its data zero, and the PCBs as well. -/
def loadedKernel : Kernel :=
  { bootedKernel with
    proc :=
      { programCount := 0, argsFlag := 0, pidArr := fun _ => 0, pcbCurrent := 0, pcb := fun _ => .zero
        schedPid := fun _ => 0, currProcess := 0, userPage := .zero, tssSs0 := 0, tssEsp0 := 0, esp := 0
        ebp := 0, intFlag := false } }

theorem zeroed_loadedKernel : Zeroed loadedKernel := ⟨rfl, fun _ _ => rfl, fun _ => rfl, rfl⟩

theorem shellLoads_shellImage : ShellLoads shellImage := by
  obtain ⟨k', eip, h⟩ := shellImage_execute (k := loadedKernel) (.at 0 0) (by decide)
  exact (shell_starts_iff (.at 0 0) (by decide)).mp ⟨k', eip, h⟩

/-- Three ticks, with a switch to terminal 1 after the first. -/
theorem boot_reaches_shells_switched :
    ∃ k', Run (EventStep shellImage) (entry loadedKernel)
        [.act (.tick (.at 0 0)), .act (.terminalSwitch 1), .act (.tick (.at 0 0)),
          .act (.tick (.at 0 0))] k' ∧ Booted k' := by
  have hrun : Run (EventStep shellImage) (entry loadedKernel)
      [.act (.tick (.at 0 0)), .act (.terminalSwitch 1), .act (.tick (.at 0 0)),
        .act (.tick (.at 0 0))] _ :=
    ⟨_, ⟨trivial, rfl⟩, _, ⟨trivial, rfl⟩, _, ⟨trivial, rfl⟩, _, ⟨trivial, rfl⟩, rfl⟩
  refine ⟨_, hrun, (boot_reaches_shells zeroed_loadedKernel hrun ?_ (by decide)).mpr
    shellLoads_shellImage⟩
  refine .cons trivial fun _ _ => .cons trivial fun _ _ => .cons trivial fun _ _ =>
    .cons trivial fun _ _ => allSteps_nil

end Ece391
