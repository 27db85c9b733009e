/-
# Ece391.Kernel.Scheduler — `scheduler.c` and the kernel as a transition system.

A PIT tick saves the stack registers of the interrupted handler in the PCB named by
`sched_pid[curr_process]`, moves to the next of the three slots and loads the registers found in the
PCB of that slot.  A slot whose entry is still 0 is booted instead: the scheduler executes "shell" on
a fresh stack.

`Act` / `Step` are the events that move the process table from outside a handler: ticks, Alt-Fn
terminal switches, successful `execute` calls and `halt` calls of the current process.  The frame of a
handler (the registers it captures, its uninitialised locals) is part of the event.
-/
import Ece391.Kernel.Syscall
import Ece391.Lib.Transition

namespace Ece391

/-! ## The scheduler -/

/-- `cur_pcb->esp = cur_kesp; cur_pcb->ebp = cur_kebp;` -/
def Proc.saveContext (p : Proc) (fr : Frame) : Proc :=
  p.setPcb (pcbAddr (p.schedPid p.currProcess)) fun b => { b with esp := fr.esp, ebp := fr.ebp }

/-- The last part of `scheduler`, once both slots are known to hold a process: make the next slot
current and load its stack registers. -/
def Proc.switchTo (p : Proc) (next : Fin 3) : Proc :=
  let curPcb := pcbAddr (p.schedPid p.currProcess)
  let nextPcb := pcbAddr (p.schedPid next)
  let p := { p with
    currProcess := next
    pcbCurrent := nextPcb
    tssSs0 := kernelDs
    tssEsp0 := bottomKernal - kernalStackSize * (p.schedPid next - 1) - 4 }
  let p := p.setPcb curPcb fun b =>
    { b with kesp := if p.schedPid 0 = 4 ∧ b.kesp ≤ 0x7f8f00 then 0 else b.kesp }
  { p with
    userPage := userPageEntry (bottomKernal + pageSize * (p.pcb nextPcb).pid - pageSize)
    esp := (p.pcb nextPcb).esp
    ebp := (p.pcb nextPcb).ebp }.sti

/-- `execute("shell")` on the stack at `stack`, for a slot that has no process yet. -/
def bootShell (img : Image) (fr : Frame) (stack : Nat) (k : Kernel) : Kernel :=
  let k := { k with proc := { k.proc with esp := stack, ebp := stack } }
  (executeHandler img fr (some shellName) k).1

/-- **`scheduler`** — `scheduler()`, entered with the stack registers of `fr`. -/
def scheduler (img : Image) (fr : Frame) (k : Kernel) : Kernel :=
  if k.proc.schedPid 0 = 0 then
    let k := { k with
      proc := { k.proc with schedPid := Function.update k.proc.schedPid 0 1 }
      con := { k.con with videoMem := videoAddr 0 } }
    bootShell img fr (bottomKernal - 4) k
  else
    let p := k.proc.saveContext fr
    let next := p.currProcess + 1
    let con := { k.con with videoMem := videoAddr next }
    if p.schedPid next = 0 then
      let pid := p.schedPid p.currProcess + 1
      let p := { p with schedPid := Function.update p.schedPid next pid, currProcess := next }
      bootShell img fr (bottomKernal - kernalStackSize * pid - 4)
        { k with proc := p, con := con.schedulerRemapVideo next }
    else { k with proc := p.switchTo next, con := con.schedulerRemapVideo next }

/-- **`pitInterruptHandler`** — a timer tick. -/
def pitInterruptHandler (img : Image) (fr : Frame) (k : Kernel) : Kernel :=
  (scheduler img fr k.cli).sti

/-! ## The kernel as a transition system -/

/-- The events of the process table. -/
inductive Act
  | tick (fr : Frame)
  | terminalSwitch (i : Fin 3)
  | execute (fr : Frame) (command : List UInt8)
  | halt (status : UInt8)

/-- **`Step img k a k'`** — event `a` takes the kernel from `k` to `k'`.  `execute` is a step only
when it succeeds. -/
def Step (img : Image) (k : Kernel) : Act → Kernel → Prop
  | .tick fr, k' => k' = pitInterruptHandler img fr k
  | .terminalSwitch i, k' => k' = { k with con := (k.con.terminalSwitch i).1 }
  | .execute fr command, k' => ∃ eip, executeHandler img fr (some command) k = (k', some eip)
  | .halt status, k' => k' = (haltHandler status k).1

/-- The events are deterministic. -/
theorem Step.unique {img : Image} {k k₁ k₂ : Kernel} {a : Act} (h₁ : Step img k a k₁)
    (h₂ : Step img k a k₂) : k₁ = k₂ := by
  cases a with
  | tick fr => exact h₁.trans h₂.symm
  | terminalSwitch i => exact h₁.trans h₂.symm
  | execute fr command =>
      obtain ⟨eip₁, h₁⟩ := h₁
      obtain ⟨eip₂, h₂⟩ := h₂
      exact congrArg Prod.fst (h₁.symm.trans h₂)
  | halt status => exact h₁.trans h₂.symm

/-- The condition on an event that every `execute` is issued by a process of the displayed
terminal. -/
def Displayed (k : Kernel) : Act → Prop
  | .execute _ _ => k.proc.currProcess = k.con.currTerminal
  | _ => True

/-! ## The booted state -/

/-- **`Booted k`** — three shells have been started and nothing else: `pid_arr = [1,1,1,0,0,0]`,
`program_count = 3`, `sched_pid = [1,2,3]`, each shell its own parent, the current PCB and the user
page those of `sched_pid[curr_process]`. -/
structure Booted (k : Kernel) : Prop where
  pidArr : ∀ i < programMax, k.proc.pidArr i = if i < 3 then 1 else 0
  programCount : k.proc.programCount = 3
  schedPid : ∀ t : Fin 3, k.proc.schedPid t = t.val + 1
  pcbCurrent : k.proc.pcbCurrent = pcbAddr (k.proc.schedPid k.proc.currProcess)
  pid : ∀ n, 1 ≤ n → n ≤ 3 → (k.proc.pcbOf n).pid = n
  parentPid : ∀ n, 1 ≤ n → n ≤ 3 → (k.proc.pcbOf n).parentPid = n
  parentPcb : ∀ n, 1 ≤ n → n ≤ 3 → (k.proc.pcbOf n).parentPcb = pcbAddr n
  userPage : k.proc.userPage.frame = 1 + k.proc.schedPid k.proc.currProcess

/-- The PCB of base shell `n`, as `execute_handler` leaves it in zeroed memory. -/
def shellPcb (n : Nat) : Pcb :=
  { Pcb.zero with
    pcbArr := fun fd => if fd ≤ 1 then ⟨.terminal, 0, 0, 1⟩ else .zero
    pid := n, parentPid := n, parentPcb := pcbAddr n
    kesp := bottomKernal - kernalStackSize * (n - 1) - 4 }

/-- A booted kernel: terminal 0 is displayed and running, nothing has been typed or printed. -/
def bootedKernel : Kernel where
  proc :=
    { programCount := 3, argsFlag := 0
      pidArr := fun i => if i < 3 then 1 else 0
      pcbCurrent := pcbAddr 1
      pcb := fun a =>
        if a = pcbAddr 1 then shellPcb 1
        else if a = pcbAddr 2 then shellPcb 2
        else if a = pcbAddr 3 then shellPcb 3
        else .zero
      schedPid := fun t => t.val + 1, currProcess := 0
      userPage := userPageEntry bottomKernal
      tssSs0 := kernelDs, tssEsp0 := bottomKernal - 4, esp := 0, ebp := 0, intFlag := true }
  con :=
    let c : Console :=
      { currTerminal := 0, termArr := fun _ => ⟨0, 0, fun _ => 0, 0, 0, 0, 0⟩
        screenX := 0, screenY := 0, scrollFlag := 0, videoMem := videoMemAddr, vgaCursor := 0
        keyBuffer := fun _ => 0, keyBufferIndex := 0, pageTable := fun _ => .zero
        pageVirtualMem := .zero, phys := fun _ => 0, fault := false }
    let c := c.initTerminal.pagingInitialize
    ((c.schedulerRemapVideo 1).schedulerRemapVideo 2).schedulerRemapVideo 0
  rtc := ⟨0, 0⟩

theorem bootedKernel_pcbOf {n : Nat} (h1 : 1 ≤ n) (h3 : n ≤ 3) :
    bootedKernel.proc.pcbOf n = shellPcb n := by
  obtain rfl | rfl | rfl : n = 1 ∨ n = 2 ∨ n = 3 := by omega
  all_goals rfl

theorem booted_bootedKernel : Booted bootedKernel where
  pidArr := by decide
  programCount := rfl
  schedPid := by decide
  pcbCurrent := rfl
  pid := fun n h1 h3 => by rw [bootedKernel_pcbOf h1 h3]; rfl
  parentPid := fun n h1 h3 => by rw [bootedKernel_pcbOf h1 h3]; rfl
  parentPcb := fun n h1 h3 => by rw [bootedKernel_pcbOf h1 h3]; rfl
  userPage := by decide

/-- A file system with one file, the four-byte executable "shell": `(distance, byte)` pairs, every
other byte being zero. -/
def shellImage : Image := fun n =>
  ([(0, 1), (4, 1), (8, 1), (64, 115), (65, 104), (66, 101), (67, 108), (68, 108), (96, 2),
    (4096, 4), (8192, 0x7F), (8193, 0x45), (8194, 0x4C), (8195, 0x46)].lookup n).getD 0

/-- A frame whose locals are zero. -/
def Frame.at (esp ebp : Nat) : Frame := ⟨esp, ebp, 0, fun _ => 0⟩

end Ece391
