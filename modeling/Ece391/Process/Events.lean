/-
# Ece391.Process.Events — what each event does to the process table.

One equation per handler, stated on the fields of `Proc`.  Everything later reads these equations and
never unfolds a handler again:

* `closeHandler_eq` / `closeAll_eq` — a close touches one descriptor of the current PCB and the flag;
* `haltHandler_proc` — what a halt of a non-base process leaves behind;
* `executeHandler_proc` — a successful execute is `launched` at the free slot;
* `tick_proc` — a tick of a booted kernel is `saveContext` followed by `switchTo`.
-/
import Ece391.Kernel.Scheduler

namespace Ece391

/-! ## Page entries and addresses -/

theorem userPageEntry_frame {n : Nat} (hn : n ≤ programMax) (h1 : 1 ≤ n) :
    (userPageEntry (bottomKernal + pageSize * n - pageSize)).frame = 1 + n := by
  unfold userPageEntry PageEntry.frame PageEntry.grant PageEntry.setBaseEntry PageEntry.zero
    bottomKernal pageSize
  unfold programMax at hn
  simp only
  omega

theorem pcbAddr_ne_zero {n : Nat} (hn : n ≤ programMax) : pcbAddr n ≠ 0 := by
  unfold pcbAddr bottomKernal kernalStackSize
  unfold programMax at hn
  omega

/-! ## `closeHandler` -/

/-- The current process's descriptor table. -/
def Proc.table (p : Proc) : Nat → FileDescriptor := p.current.pcbArr

/-- The process table with the current descriptor table and the interrupt flag replaced. -/
def Proc.withTable (p : Proc) (arr : Nat → FileDescriptor) (flag : Bool) : Proc :=
  { p with
    pcb := Function.update p.pcb p.pcbCurrent { p.current with pcbArr := arr }
    intFlag := flag }

@[simp] theorem Proc.withTable_table (p : Proc) (arr : Nat → FileDescriptor) (flag : Bool) :
    (p.withTable arr flag).table = arr := by
  simp [Proc.withTable, Proc.table, Proc.current]

@[simp] theorem Proc.withTable_pcbCurrent (p : Proc) (arr : Nat → FileDescriptor) (flag : Bool) :
    (p.withTable arr flag).pcbCurrent = p.pcbCurrent := rfl

@[simp] theorem Proc.withTable_withTable (p : Proc) (arr arr' : Nat → FileDescriptor)
    (flag flag' : Bool) : (p.withTable arr flag).withTable arr' flag' = p.withTable arr' flag' := by
  simp [Proc.withTable, Proc.current]

theorem Proc.withTable_self (p : Proc) (flag : Bool) :
    p.withTable p.table flag = { p with intFlag := flag } := by
  have hcur : { p.current with pcbArr := p.table } = p.pcb p.pcbCurrent := rfl
  rw [Proc.withTable, hcur, Function.update_eq_self]

/-- Clear the use flag of descriptor `fd`. -/
def clearFlag (arr : Nat → FileDescriptor) (fd : Nat) : Nat → FileDescriptor :=
  Function.update arr fd { arr fd with flags := 0 }

/-- Closing a descriptor that is not in use changes no descriptor. -/
theorem clearFlag_of_closed {arr : Nat → FileDescriptor} {fd : Nat} (h : (arr fd).flags = 0) :
    clearFlag arr fd = arr := by
  have hd : { arr fd with flags := 0 } = arr fd := by rw [← h]
  rw [clearFlag, hd, Function.update_eq_self]

/-- **`closeHandler` in closed form**, for a descriptor in 2..7: the use flag is cleared, and the
interrupt flag afterwards says whether it had been set. -/
theorem closeHandler_eq {fd : Nat} (h2 : 2 ≤ fd) (h7 : fd ≤ 7) {p : Proc} (hcur : p.pcbCurrent ≠ 0) :
    (closeHandler fd p).1 = p.withTable (clearFlag p.table fd) (decide ((p.table fd).flags ≠ 0)) := by
  have hrange : ¬ ((fd : Int) < fdMin + 2 ∨ (fd : Int) > fdMax) := by
    unfold fdMin fdMax
    omega
  have hcli : p.cli.pcbCurrent ≠ 0 := hcur
  by_cases hflag : (p.table fd).flags = 0
  · have hflag' : (p.cli.current.pcbArr (fd : Int).toNat).flags = 0 := hflag
    rw [clearFlag_of_closed hflag, Proc.withTable_self]
    simp only [closeHandler, if_neg hcli, if_neg hrange, if_pos hflag']
    simp [Proc.cli, hflag]
  · have hflag' : ¬ (p.cli.current.pcbArr (fd : Int).toNat).flags = 0 := hflag
    simp only [closeHandler, if_neg hcli, if_neg hrange, if_neg hflag']
    simp only [ne_eq, hflag, not_false_eq_true, decide_true]
    rfl

/-- Closing a list of descriptors clears exactly their use flags. -/
theorem clearFlag_foldl (fds : List Nat) (arr : Nat → FileDescriptor) (i : Nat) :
    fds.foldl clearFlag arr i = if i ∈ fds then { arr i with flags := 0 } else arr i := by
  induction fds generalizing arr with
  | nil => simp
  | cons fd fds ih =>
      rw [List.foldl_cons, ih]
      by_cases hi : i = fd
      · subst hi
        simp [clearFlag]
      · simp [clearFlag, hi]

/-- A run of closes in closed form, up to the interrupt flag. -/
theorem closeFold_eq (fds : List Nat) (hfds : ∀ fd ∈ fds, 2 ≤ fd ∧ fd ≤ 7) (p : Proc)
    (hcur : p.pcbCurrent ≠ 0) :
    ∃ flag, fds.foldl (fun p (fd : Nat) => (closeHandler fd p).1) p =
      p.withTable (fds.foldl clearFlag p.table) flag := by
  induction fds generalizing p with
  | nil => exact ⟨p.intFlag, (Proc.withTable_self p p.intFlag).symm⟩
  | cons fd fds ih =>
      obtain ⟨h2, h7⟩ := hfds fd (by simp)
      have hrest : ∀ fd ∈ fds, 2 ≤ fd ∧ fd ≤ 7 := fun fd hfd => hfds fd (by simp [hfd])
      rw [List.foldl_cons, closeHandler_eq h2 h7 hcur]
      obtain ⟨flag, hflag⟩ := ih hrest
        (p.withTable (clearFlag p.table fd) (decide ((p.table fd).flags ≠ 0))) hcur
      exact ⟨flag, by rw [hflag]; simp⟩

/-- The descriptor table `halt_handler` leaves behind: 2..7 closed. -/
def clearFlags (arr : Nat → FileDescriptor) : Nat → FileDescriptor :=
  haltDescriptors.foldl clearFlag arr

theorem mem_haltDescriptors {i : Nat} : i ∈ haltDescriptors ↔ 2 ≤ i ∧ i ≤ 7 := by
  simp only [haltDescriptors, List.mem_cons, List.not_mem_nil, or_false]
  omega

theorem clearFlags_apply (arr : Nat → FileDescriptor) (i : Nat) :
    clearFlags arr i = if 2 ≤ i ∧ i ≤ 7 then { arr i with flags := 0 } else arr i := by
  rw [clearFlags, clearFlag_foldl]
  simp only [mem_haltDescriptors]

/-! ## `haltHandler` -/

/-- The process table after a halt of a process other than a base shell. -/
def Proc.halted (p : Proc) : Proc :=
  { p with
    programCount := (p.programCount + 255) % 256
    pidArr := Function.update p.pidArr (p.current.pid - 1) 0
    schedPid := Function.update p.schedPid p.currProcess p.current.parentPid
    userPage := userPageEntry (bottomKernal + pageSize * p.current.parentPid - pageSize)
    tssSs0 := kernelDs
    tssEsp0 := (p.pcb p.current.parentPcb).esp
    pcb := Function.update p.pcb p.pcbCurrent
      { p.current with argbuf := .zero, argsflag := 0, pcbArr := clearFlags p.table }
    pcbCurrent := p.current.parentPcb
    esp := (p.pcb p.current.parentPcb).esp
    ebp := (p.pcb p.current.parentPcb).ebp
    intFlag := true }

section Halted

variable (p : Proc)

@[simp] theorem halted_programCount :
    p.halted.programCount = (p.programCount + 255) % 256 := rfl

@[simp] theorem halted_pidArr :
    p.halted.pidArr = Function.update p.pidArr (p.current.pid - 1) 0 := rfl

@[simp] theorem halted_schedPid :
    p.halted.schedPid = Function.update p.schedPid p.currProcess p.current.parentPid := rfl

@[simp] theorem halted_currProcess : p.halted.currProcess = p.currProcess := rfl

@[simp] theorem halted_pcbCurrent : p.halted.pcbCurrent = p.current.parentPcb := rfl

@[simp] theorem halted_intFlag : p.halted.intFlag = true := rfl

theorem halted_userPage : p.halted.userPage =
    userPageEntry (bottomKernal + pageSize * p.current.parentPid - pageSize) := rfl

theorem halted_pcb (a : Nat) :
    p.halted.pcb a =
      if a = p.pcbCurrent then
        { p.current with argbuf := .zero, argsflag := 0, pcbArr := clearFlags p.table }
      else p.pcb a := by
  simp only [Proc.halted, Function.update_apply]

end Halted

theorem haltProcess_eq {p : Proc} (hcur : p.pcbCurrent ≠ 0) : p.haltProcess = p.halted := by
  obtain ⟨flag, hflag⟩ := closeFold_eq haltDescriptors (fun fd h => mem_haltDescriptors.mp h)
    p.haltEnter hcur
  have htable : p.haltEnter.table = p.table := by
    simp [Proc.haltEnter, Proc.table, Proc.current, Proc.setPcb]
  rw [Proc.haltProcess, hflag, htable]
  simp [Proc.haltEnter, Proc.withTable, Proc.haltParent, Proc.haltLeave, Proc.halted, Proc.sti,
    Proc.current, Proc.setPcb, clearFlags]

/-- **A halt on the process table.** -/
theorem haltHandler_proc {k : Kernel} (status : UInt8) (hcur : k.proc.pcbCurrent ≠ 0)
    (hpid : 3 < k.proc.current.pid) :
    (haltHandler status k).1 = { k with proc := k.proc.halted } := by
  have hpid' : ¬ k.cli.proc.current.pid ≤ 3 := by
    have : k.cli.proc.current.pid = k.proc.current.pid := rfl
    omega
  simp only [haltHandler, if_neg hpid']
  rw [haltProcess_eq (p := k.cli.proc) hcur]
  rfl

/-- A base shell cannot be halted: only the console and the interrupt flag change. -/
theorem haltHandler_base {k : Kernel} (status : UInt8) (hpid : k.proc.current.pid ≤ 3) :
    (haltHandler status k).1.proc = k.proc.cli := by
  have hpid' : k.cli.proc.current.pid ≤ 3 := hpid
  simp only [haltHandler, if_pos hpid']
  rfl

/-! ## `executeHandler` -/

theorem openHandler_stdin (img : Image) (k : Kernel) :
    openHandler img stdinName k = ({ k with proc := k.proc.cli.openTerminal 0 }, 0) := by
  have hfirst : ¬ charAt stdinName 0 = 0 := by decide
  have hcmp : strncmp (charAt stdinName) (charAt stdinName) (strlen stdinName) = 0 := by decide
  simp only [openHandler, if_neg hfirst, if_pos hcmp]
  rfl

theorem openHandler_stdout (img : Image) (k : Kernel) :
    openHandler img stdoutName k = ({ k with proc := k.proc.cli.openTerminal 1 }, 1) := by
  have hfirst : ¬ charAt stdoutName 0 = 0 := by decide
  have hin : ¬ strncmp (charAt stdoutName) (charAt stdinName) (strlen stdoutName) = 0 := by decide
  have hout : strncmp (charAt stdoutName) (charAt stdoutName) (strlen stdoutName) = 0 := by decide
  simp only [openHandler, if_neg hfirst, if_neg hin, if_pos hout]
  rfl

/-- The descriptor table a program starts with: 0 and 1 are the terminal, the rest is what the PCB
memory held. -/
def startTable (arr : Nat → FileDescriptor) : Nat → FileDescriptor :=
  Function.update (Function.update arr 0 ⟨.terminal, 0, 0, 1⟩) 1 ⟨.terminal, 0, 0, 1⟩

/-- The process table after a successful execute into slot `slot`, recorded under terminal `term`. -/
def Proc.launched (p : Proc) (term : Fin 3) (fr : Frame) (slot : Nat) (args : ArgBuf) : Proc :=
  { p with
    programCount := (p.programCount + 1) % 256
    argsFlag := argsFlagAfter args p.argsFlag
    pidArr := Function.update p.pidArr slot 1
    pcbCurrent := pcbAddr (slot + 1)
    pcb := Function.update p.pcb (pcbAddr (slot + 1))
      { p.pcb (pcbAddr (slot + 1)) with
        pcbArr := startTable (p.pcb (pcbAddr (slot + 1))).pcbArr
        pid := slot + 1
        parentPid := p.current.pid
        esp := fr.esp
        kesp := bottomKernal - kernalStackSize * slot - 4
        ebp := fr.ebp
        ss0 := p.tssSs0
        esp0 := p.tssEsp0
        argbuf := args
        argsflag := argsFlagAfter args p.argsFlag
        parentPcb := p.pcbCurrent }
    schedPid := Function.update p.schedPid term (slot + 1)
    userPage := userPageEntry (bottomKernal + pageSize * slot)
    tssSs0 := kernelDs
    tssEsp0 := bottomKernal - kernalStackSize * slot - 4
    intFlag := true }

section Launched

variable (p : Proc) (term : Fin 3) (fr : Frame) (slot : Nat) (args : ArgBuf)

@[simp] theorem launched_programCount :
    (p.launched term fr slot args).programCount = (p.programCount + 1) % 256 := rfl

@[simp] theorem launched_pidArr :
    (p.launched term fr slot args).pidArr = Function.update p.pidArr slot 1 := rfl

@[simp] theorem launched_schedPid :
    (p.launched term fr slot args).schedPid = Function.update p.schedPid term (slot + 1) := rfl

@[simp] theorem launched_currProcess :
    (p.launched term fr slot args).currProcess = p.currProcess := rfl

@[simp] theorem launched_pcbCurrent :
    (p.launched term fr slot args).pcbCurrent = pcbAddr (slot + 1) := rfl

@[simp] theorem launched_intFlag : (p.launched term fr slot args).intFlag = true := rfl

theorem launched_userPage : (p.launched term fr slot args).userPage =
    userPageEntry (bottomKernal + pageSize * slot) := rfl

theorem launched_pcbArr :
    ((p.launched term fr slot args).pcb (pcbAddr (slot + 1))).pcbArr =
      startTable (p.pcb (pcbAddr (slot + 1))).pcbArr := by
  simp only [Proc.launched, Function.update_self]

theorem launched_pcb_of_ne {a : Nat} (h : a ≠ pcbAddr (slot + 1)) :
    (p.launched term fr slot args).pcb a = p.pcb a := by
  simp [Proc.launched, Function.update_of_ne h]

end Launched

theorem storeUser_foldl_currTerminal (page : PageEntry) (stores : List (Nat × UInt8)) (c : Console) :
    (stores.foldl (Console.storeUser page) c).currTerminal = c.currTerminal := by
  induction stores generalizing c with
  | nil => rfl
  | cons s stores ih =>
      rw [List.foldl_cons, ih]
      unfold Console.storeUser
      split <;> rfl

theorem startProgram_proc {k : Kernel} (img : Image) (fr : Frame) (slot : Nat) (args : ArgBuf)
    (hcount : 3 ≤ k.proc.programCount) :
    (k.startProgram img fr slot args).proc =
      (((k.proc.childPcb k.con.currTerminal fr slot args).cli.openTerminal 0).cli.openTerminal
        1 |>.enterProgram slot).sti := by
  have hbranch : ¬ k.proc.programCount < 3 := by omega
  simp only [Kernel.startProgram, if_neg hbranch, openHandler_stdin, openHandler_stdout]

theorem startProgram_currTerminal {k : Kernel} (img : Image) (fr : Frame) (slot : Nat)
    (args : ArgBuf) : (k.startProgram img fr slot args).con.currTerminal = k.con.currTerminal := by
  simp only [Kernel.startProgram, openHandler_stdin, openHandler_stdout]

/-- **The inversion of a successful execute**: the checks it passed and the launch it made. -/
theorem executeHandler_some {img : Image} {fr : Frame} {command : List UInt8} {k k' : Kernel}
    {eip : Nat} (h : executeHandler img fr (some command) k = (k', some eip)) :
    k.proc.programCount < programMax ∧
    ∃ dentry stores, readDentryByName img (parseName command).1 = some dentry ∧
      isExecutable img (parseName command).1 dentry.inodeNum = true ∧
      loadProgram img dentry.inodeNum = some stores ∧
      k' = (((k.cli.noteArgs (parseArgs command)).mapUserPage (k.proc.slot fr)).storeProgram
        stores).startProgram img fr (k.proc.slot fr) (parseArgs command) := by
  unfold executeHandler at h
  split at h
  · cases h
  next hmax =>
    refine ⟨Nat.lt_of_not_le hmax, ?_⟩
    dsimp only at h
    split at h
    · cases h
    next dentry hd =>
      split at h
      next hx =>
        unfold Kernel.launch at h
        split at h
        · cases h
        next stores hl =>
          cases h
          exact ⟨dentry, stores, hd, hx, hl, rfl⟩
      · cases h

/-- A failed execute changes at most `args_flag`, the user page and the interrupt flag. -/
theorem executeHandler_none {img : Image} {fr : Frame} {command : Option (List UInt8)}
    {k k' : Kernel} (h : executeHandler img fr command k = (k', none)) :
    ∃ argsFlag userPage flag,
      k'.proc = { k.proc with argsFlag := argsFlag, userPage := userPage, intFlag := flag } := by
  unfold executeHandler at h
  split at h
  · cases h
    exact ⟨_, _, _, rfl⟩
  split at h
  · cases h
    exact ⟨_, _, _, rfl⟩
  split at h
  · cases h
    exact ⟨_, _, _, rfl⟩
  split at h
  · unfold Kernel.launch at h
    split at h
    · cases h
      exact ⟨_, _, _, rfl⟩
    · cases h
  · cases h
    exact ⟨_, _, _, rfl⟩

/-- The copy loop of `execute_handler` never fails on an inode number the file system accepts. -/
theorem loadLoop_some (img : Image) {inode : Nat} (hinode : inode ≤ img.inodeCount)
    (fuel count : Nat) : ∃ stores, loadLoop img inode fuel count = some stores := by
  induction fuel generalizing count with
  | zero => exact ⟨[], rfl⟩
  | succ fuel ih =>
      unfold loadLoop
      split
      next hlt =>
        have hret := (readData_eq img inode count (virtualAddr + count) (pageSize - count) hinode
          (by unfold virtualAddr; omega) (by unfold pageSize at *; omega)).1
        obtain ⟨rest, hrest⟩ := ih (count + (readData img inode count (virtualAddr + count)
          (pageSize - count)).ret.toNat)
        simp only [hrest, Option.map_some]
        split
        · exact ⟨[], rfl⟩
        · rw [if_pos (by omega)]
          exact ⟨_, rfl⟩
      next => exact ⟨[], rfl⟩

/-- **When execute succeeds**: the table is not full and the name is that of an executable whose inode
number the file system accepts. -/
theorem executeHandler_succeeds {img : Image} {k : Kernel} {command : List UInt8} {dentry : Dentry}
    (fr : Frame) (hcount : k.proc.programCount < programMax)
    (hname : readDentryByName img (parseName command).1 = some dentry)
    (hexec : isExecutable img (parseName command).1 dentry.inodeNum = true)
    (hinode : dentry.inodeNum ≤ img.inodeCount) :
    ∃ k' eip, executeHandler img fr (some command) k = (k', some eip) := by
  obtain ⟨stores, hload⟩ := loadLoop_some img hinode pageSize 0
  have hmax : ¬ k.proc.programCount ≥ programMax := by omega
  simp only [executeHandler, if_neg hmax, hname, hexec, if_true, Kernel.launch, loadProgram, hload]
  exact ⟨_, _, rfl⟩

/-- **A successful execute on the process table**, once the three base shells run.  The new PCB must
not be the caller's own, which holds as long as the caller's slot is in use. -/
theorem executeHandler_proc {img : Image} {fr : Frame} {command : List UInt8} {k k' : Kernel}
    {eip : Nat} (h : executeHandler img fr (some command) k = (k', some eip))
    (hcount : 3 ≤ k.proc.programCount) (hcur : k.proc.pcbCurrent ≠ pcbAddr (k.proc.slot fr + 1)) :
    k'.proc = k.proc.launched k.con.currTerminal fr (k.proc.slot fr) (parseArgs command) := by
  obtain ⟨-, dentry, stores, -, -, -, rfl⟩ := executeHandler_some h
  rw [startProgram_proc]
  · simp [Proc.launched, Proc.enterProgram, Proc.openTerminal, Proc.childPcb, Proc.sti,
      Kernel.cli, Proc.cli, Proc.setPcb, Proc.current, startTable, Kernel.noteArgs,
      Kernel.mapUserPage, Kernel.storeProgram, storeUser_foldl_currTerminal,
      Function.update_of_ne hcur]
  · exact hcount

theorem executeHandler_currTerminal {img : Image} {fr : Frame} {command : List UInt8}
    {k k' : Kernel} {eip : Nat} (h : executeHandler img fr (some command) k = (k', some eip)) :
    k'.con.currTerminal = k.con.currTerminal := by
  obtain ⟨-, dentry, stores, -, -, -, rfl⟩ := executeHandler_some h
  rw [startProgram_currTerminal]
  exact storeUser_foldl_currTerminal _ _ _

/-! ## Ticks -/

/-- The process table after a tick of a kernel whose slots all hold a process. -/
def Proc.ticked (p : Proc) (fr : Frame) : Proc := (p.saveContext fr).switchTo (p.currProcess + 1)

/-- **A tick on the process table.** -/
theorem tick_proc {img : Image} {fr : Frame} {k : Kernel} (hsched : ∀ t, k.proc.schedPid t ≠ 0) :
    (pitInterruptHandler img fr k).proc = k.proc.ticked fr := by
  have h0 : ¬ k.cli.proc.schedPid 0 = 0 := hsched 0
  have hnext : ¬ (k.cli.proc.saveContext fr).schedPid
      ((k.cli.proc.saveContext fr).currProcess + 1) = 0 := hsched _
  simp only [pitInterruptHandler, scheduler, if_neg h0, if_neg hnext, Kernel.sti]
  rfl

/-- A tick leaves the displayed terminal alone. -/
theorem tick_currTerminal {img : Image} {fr : Frame} {k : Kernel}
    (hsched : ∀ t, k.proc.schedPid t ≠ 0) :
    (pitInterruptHandler img fr k).con.currTerminal = k.con.currTerminal := by
  have h0 : ¬ k.cli.proc.schedPid 0 = 0 := hsched 0
  have hnext : ¬ (k.cli.proc.saveContext fr).schedPid
      ((k.cli.proc.saveContext fr).currProcess + 1) = 0 := hsched _
  simp only [pitInterruptHandler, scheduler, if_neg h0, if_neg hnext]
  rfl

section Ticked

variable (p : Proc) (fr : Frame)

@[simp] theorem ticked_programCount : (p.ticked fr).programCount = p.programCount := rfl

@[simp] theorem ticked_pidArr : (p.ticked fr).pidArr = p.pidArr := rfl

@[simp] theorem ticked_schedPid : (p.ticked fr).schedPid = p.schedPid := rfl

@[simp] theorem ticked_currProcess : (p.ticked fr).currProcess = p.currProcess + 1 := rfl

@[simp] theorem ticked_pcbCurrent :
    (p.ticked fr).pcbCurrent = pcbAddr (p.schedPid (p.currProcess + 1)) := rfl

@[simp] theorem ticked_intFlag : (p.ticked fr).intFlag = true := rfl

@[simp] theorem ticked_tssEsp0 : (p.ticked fr).tssEsp0 =
    bottomKernal - kernalStackSize * (p.schedPid (p.currProcess + 1) - 1) - 4 := rfl

/-- The PCBs after a tick: the registers of the interrupted slot's PCB are saved, its `kesp` may be
cleared, and every other PCB is untouched. -/
theorem ticked_pcb (a : Nat) :
    ∃ kesp, (p.ticked fr).pcb a =
      if a = pcbAddr (p.schedPid p.currProcess) then
        { p.pcb a with esp := fr.esp, ebp := fr.ebp, kesp := kesp }
      else p.pcb a := by
  by_cases ha : a = pcbAddr (p.schedPid p.currProcess)
  · subst ha
    simp only [Proc.ticked, Proc.switchTo, Proc.saveContext, Proc.setPcb, Proc.sti,
      Function.update_self, if_true]
    exact ⟨_, rfl⟩
  · exact ⟨0, by simp [Proc.ticked, Proc.switchTo, Proc.saveContext, Proc.setPcb, Proc.sti, ha]⟩

theorem ticked_pcbArr (a : Nat) : ((p.ticked fr).pcb a).pcbArr = (p.pcb a).pcbArr := by
  obtain ⟨kesp, hpcb⟩ := ticked_pcb p fr a
  rw [hpcb]
  split <;> rfl

/-- What a tick loads is what the PCB of the next slot holds once the current one is saved. -/
theorem ticked_registers :
    (p.ticked fr).esp = ((p.ticked fr).pcb (pcbAddr (p.schedPid (p.currProcess + 1)))).esp ∧
    (p.ticked fr).ebp = ((p.ticked fr).pcb (pcbAddr (p.schedPid (p.currProcess + 1)))).ebp :=
  ⟨rfl, rfl⟩

theorem ticked_userPage : (p.ticked fr).userPage =
    userPageEntry (bottomKernal
      + pageSize * ((p.ticked fr).pcb (pcbAddr (p.schedPid (p.currProcess + 1)))).pid - pageSize) :=
  rfl

end Ticked

end Ece391
