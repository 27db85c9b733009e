/-
# Ece391.Kernel.Syscall — the system-call handlers of `syscall.c`.

Handlers are functions on `Kernel`.  Early returns are kept where the source has them, the interrupt
flag included: several failure paths leave it cleared, and `close_handler` sets it on success even
when its caller had cleared it.

A read that spins (`terminal_read` before a line is complete, `rtc_read` before an interrupt) or that
jumps through a NULL operations pointer does not return in the given state; `readHandler` is `none`
there.  `execute_handler` either returns -1 (`none`) or enters the program at an address (`some`).
-/
import Ece391.Kernel.Console

namespace Ece391

/-! ## Names and messages -/

/-- The string "stdin". -/
def stdinName : List UInt8 := [115, 116, 100, 105, 110]
/-- The string "stdout". -/
def stdoutName : List UInt8 := [115, 116, 100, 111, 117, 116]
/-- The string "shell". -/
def shellName : List UInt8 := [115, 104, 101, 108, 108]
/-- The string "Can't exit base shell!". -/
def baseShellMessage : List UInt8 :=
  [67, 97, 110, 39, 116, 32, 101, 120, 105, 116, 32, 98, 97, 115, 101, 32, 115, 104, 101, 108, 108, 33]

/-! ## The real-time clock (`rtc.c`) -/

/-- `set_frequency`: resets the tick counter, accepts the powers of two from 2 to 1024. -/
def setFrequency (r : Rtc) (freq : Int) : Rtc × Int :=
  ({ r with tick := 0 }, if freq ∈ [1024, 512, 256, 128, 64, 32, 16, 8, 4, 2] then 0 else -1)

/-- `rtc_open`. -/
def rtcOpen (r : Rtc) : Rtc := (setFrequency { r with tick := 0, status := 0 } 2).1

/-! ## `open_handler` and `close_handler` -/

/-- The stdin and stdout branches of `open_handler`: descriptor `fd` becomes the terminal. -/
def Proc.openTerminal (p : Proc) (fd : Nat) : Proc :=
  p.setPcb p.pcbCurrent fun b =>
    { b with pcbArr := Function.update b.pcbArr fd ⟨.terminal, 0, 0, 1⟩ }

/-- The search loop of `open_handler`: the first of descriptors 2..7 that is not in use. -/
def freeDescriptor (arr : Nat → FileDescriptor) : Option Nat :=
  [2, 3, 4, 5, 6, 7].find? fun i => (arr i).flags == 0

/-- **`freeDescriptor` finds the smallest closed descriptor in 2..7.** -/
theorem freeDescriptor_eq_some {arr : Nat → FileDescriptor} {fd : Nat} (h : freeDescriptor arr = some fd) :
    2 ≤ fd ∧ fd ≤ 7 ∧ (arr fd).flags = 0 ∧ ∀ e, 2 ≤ e → e < fd → (arr e).flags ≠ 0 := by
  have hmem := List.mem_of_find?_eq_some h
  have hflag := List.find?_some h
  have hrange : freeDescriptor arr = (List.range' 2 6).find? fun i => (arr i).flags == 0 := rfl
  rw [hrange, List.find?_range'_eq_some] at h
  simp only [List.mem_cons, List.not_mem_nil, or_false] at hmem
  refine ⟨by omega, by omega, by simpa using hflag, fun e he2 he => ?_⟩
  simpa using h.2.2 e he2 he

/-- What `open_handler` stores into the free descriptor `fd`, with the operations table and the inode
chosen by the file type. -/
def Proc.openDescriptor (p : Proc) (fd : Nat) (d : FileDescriptor) : Proc :=
  p.setPcb p.pcbCurrent fun b => { b with pcbArr := Function.update b.pcbArr fd d }

/-- **`openHandler`** — `open_handler(filename)`. -/
def openHandler (img : Image) (filename : List UInt8) (k : Kernel) : Kernel × Int :=
  let k := k.cli
  if charAt filename 0 = 0 then (k, -1)
  else if strncmp (charAt filename) (charAt stdinName) (strlen filename) = 0 then
    ({ k with proc := k.proc.openTerminal 0 }, 0)
  else if strncmp (charAt filename) (charAt stdoutName) (strlen filename) = 0 then
    ({ k with proc := k.proc.openTerminal 1 }, 1)
  else
    match readDentryByName img filename with
    | none => (k, -1)
    | some dentry =>
      match freeDescriptor k.proc.current.pcbArr with
      | none => (k, -1)
      | some fd =>
        if dentry.filetype = 0 then
          let p := k.proc.openDescriptor fd ⟨.rtc, 0, 0, 1⟩
          let p := p.setPcb p.pcbCurrent fun b => { b with rtcFlag := 1 }
          ({ k with proc := p.sti, rtc := rtcOpen k.rtc }, fd)
        else if dentry.filetype = 1 then
          ({ k with proc := (k.proc.openDescriptor fd ⟨.directory, 0, 0, 1⟩).sti }, fd)
        else if dentry.filetype = 2 then
          ({ k with proc := (k.proc.openDescriptor fd ⟨.filesystem, dentry.inodeNum, 0, 1⟩).sti }, fd)
        else
          -- the descriptor is already marked in use and keeps the operations it had
          let ops := (k.proc.current.pcbArr fd).operations
          ({ k with proc := k.proc.openDescriptor fd ⟨ops, 0, 0, 1⟩ }, -1)

/-- **`closeHandler`** — `close_handler(fd)`; only the process table is involved. -/
def closeHandler (fd : Int) (p : Proc) : Proc × Int :=
  let p := p.cli
  if p.pcbCurrent = 0 then (p, -1)
  else if fd < fdMin + 2 ∨ fd > fdMax then (p, -1)
  else if (p.current.pcbArr fd.toNat).flags = 0 then (p, -1)
  else
    let p := p.setPcb p.pcbCurrent fun b =>
      { b with pcbArr := Function.update b.pcbArr fd.toNat { b.pcbArr fd.toNat with flags := 0 } }
    (p.sti, 0)

/-! ## `read_handler` and `write_handler` -/

/-- The call through `operations_pointer.read_ptr`. -/
def readPtr (img : Image) (ops : FileOps) (inode offset buf length : Nat) (k : Kernel) :
    Option (Kernel × Copy) :=
  match ops with
  | .null => none
  | .terminal =>
      (k.con.terminalRead k.proc.currProcess length).map fun r =>
        ({ k with con := r.1, proc := k.proc.sti }, r.2)
  | .rtc =>
      if k.rtc.status ≠ 0 then some ({ k with rtc := { k.rtc with status := 0 } }, ⟨0, [], []⟩)
      else none
  | .directory => some (k, directoryRead img offset length)
  | .filesystem => some (k, readData img inode offset buf length)

/-- `pcb_arr[fd].file_position += ret`. -/
def Proc.advance (p : Proc) (fd : Nat) (ret : Int) : Proc :=
  p.setPcb p.pcbCurrent fun b =>
    let pos := (((b.pcbArr fd).filePosition + ret) % 2 ^ 32).toNat
    { b with pcbArr := Function.update b.pcbArr fd { b.pcbArr fd with filePosition := pos } }

/-- **`readHandler`** — `read_handler(fd, buf, nbytes)`. -/
def readHandler (img : Image) (fd : Int) (buf : Nat) (nbytes : Int) (k : Kernel) :
    Option (Kernel × Copy) :=
  let length := (nbytes % 2 ^ 32).toNat
  if buf = 0 ∨ fd < fdMin ∨ fd > fdMax then some (k, ⟨-1, [], []⟩)
  else if fd = fdMin + 1 then some (k, ⟨-1, [], []⟩)
  else
    let d := k.proc.current.pcbArr fd.toNat
    if d.flags = 1 then
      if fd = 0 then readPtr img d.operations 0 0 buf length k
      else
        (readPtr img d.operations d.inode d.filePosition buf length k).map fun r =>
          ({ r.1 with proc := r.1.proc.advance fd.toNat r.2.ret }, r.2)
    else some (k, ⟨-1, [], []⟩)

/-- The call through `operations_pointer.write_ptr`; `none` is the jump through NULL. -/
def writePtr (ops : FileOps) (data : Nat → UInt8) (nbytes : Int) (k : Kernel) :
    Option (Kernel × Int) :=
  match ops with
  | .null => none
  | .terminal =>
      let r := k.con.terminalWrite k.proc.currProcess ((List.range nbytes.toNat).map data)
      some ({ k with con := r.1, proc := k.proc.sti }, r.2)
  | .rtc =>
      if nbytes ≠ 4 then some (k, -1)
      else
        let freq := s32 ((data 0).toNat + 2 ^ 8 * (data 1).toNat + 2 ^ 16 * (data 2).toNat
          + 2 ^ 24 * (data 3).toNat)
        let r := setFrequency k.rtc freq
        some ({ k with rtc := r.1 }, r.2)
  | .directory => some (k, -1)
  | .filesystem => some (k, -1)

/-- **`writeHandler`** — `write_handler(fd, buf, nbytes)`, `data i` the byte `buf[i]`. -/
def writeHandler (fd : Int) (buf : Nat) (data : Nat → UInt8) (nbytes : Int) (k : Kernel) :
    Option (Kernel × Int) :=
  if buf = 0 ∨ fd ≤ fdMin ∨ fd > fdMax then some (k, -1)
  else
    let d := k.proc.current.pcbArr fd.toNat
    if d.flags = 1 then writePtr d.operations data nbytes k else some (k, -1)

/-! ## `getargs_handler` -/

/-- **`getargsHandler`** — `getargs_handler(buf, nbytes)`; the copy is a plain `strcpy`. -/
def getargsHandler (buf : Nat) (nbytes : Int) (k : Kernel) : Kernel × Copy :=
  let k := k.cli
  let b := k.proc.current
  if buf = 0 ∨ nbytes < 0 ∨ b.argsflag = 0 then (k, ⟨-1, [], []⟩)
  else if b.argbuf.byte 0 ≠ 0 then
    (k.sti, ⟨0, strcpyFrom b.argbuf.byte (keyBufferSize - 1) 0, []⟩)
  else (k, ⟨-1, [], []⟩)

/-! ## `vidmap_handler` -/

/-- `KERNEL_MEM`. -/
def kernelMem : Nat := 0x400000
/-- `GB_1`, where the user's video page appears. -/
def gb1 : Nat := 0x40000000

/-- **`vidmapHandler`** — `vidmap_handler(screen_start)`: the value returned and the pointer stored
through `screen_start`.  The directory entry of the page at `GB_1` is constant and not modelled. -/
def vidmapHandler (screenStart : Nat) (k : Kernel) : Kernel × Int × Option Nat :=
  let k := k.cli
  if screenStart = 0 ∨ screenStart = kernelMem then (k, -1, none)
  else ({ k with con := k.con.mapUserVideo videoMemAddr, proc := k.proc.sti }, 0, some gb1)

/-! ## `execute_handler`: parsing the command -/

/-- The first loop: the executable's name, and the command from the stopping character on. -/
def parseName : List UInt8 → List UInt8 × List UInt8
  | [] => ([], [])
  | c :: cs =>
      if c = 0 ∨ c = space ∨ c = newLine then ([], c :: cs)
      else ((c :: (parseName cs).1), (parseName cs).2)

/-- The second loop, `while (command[i] == ' ') i++`, with the index it has reached. -/
def skipSpaces : List UInt8 → Nat → List UInt8 × Nat
  | [], i => ([], i)
  | c :: cs, i => if c = space then skipSpaces cs (i + 1) else (c :: cs, i)

/-- The third loop: `args[j] = command[i]` until NUL or `i = maxInputLength`. -/
def copyArgs : List UInt8 → Nat → Nat → (Nat → UInt8) → Nat → UInt8
  | [], _, _, args => args
  | c :: cs, i, j, args =>
      if c ≠ 0 ∧ i < maxInputLength then copyArgs cs (i + 1) (j + 1) (Function.update args j c)
      else args

/-- The third loop never reaches the last byte of `args`: its index is at most that of `command`. -/
theorem copyArgs_last (cs : List UInt8) (i j : Nat) (args : Nat → UInt8) (hji : j ≤ i)
    (h : args (keyBufferSize - 1) = 0) : copyArgs cs i j args (keyBufferSize - 1) = 0 := by
  induction cs generalizing i j args with
  | nil => exact h
  | cons c cs ih =>
      unfold copyArgs
      split
      next hgo =>
        apply ih (i + 1) (j + 1) _ (by omega)
        have hj : keyBufferSize - 1 ≠ j := by
          have := hgo.2
          unfold maxInputLength at this
          unfold keyBufferSize
          omega
        rw [Function.update_of_ne hj, h]
      next => exact h

/-- `args` after parsing. -/
def parseArgs (command : List UInt8) : ArgBuf :=
  let name := parseName command
  let rest := skipSpaces name.2 name.1.length
  ⟨copyArgs rest.1 rest.2 0 (fun _ => 0), copyArgs_last _ _ _ _ (Nat.zero_le _) rfl⟩

/-- The global `args_flag` after parsing: raised by a non-empty argument, cleared only if the last
byte of `args` was written. -/
def argsFlagAfter (args : ArgBuf) (argsFlag : Nat) : Nat :=
  let flag := if (List.range keyBufferSize).any fun i => args.byte i != 0 then 1 else argsFlag
  if args.byte (keyBufferSize - 1) ≠ 0 then 0 else flag

/-! ## `execute_handler`: loading the program -/

/-- The buffer `b` after the stores of a copy. -/
def overlay (b : Nat → UInt8) (stores : List (Nat × UInt8)) : Nat → UInt8 :=
  stores.foldl (fun b s => Function.update b s.1 s.2) b

/-- The stores of cells `0 .. n` overlay the buffer with them. -/
theorem overlay_range (buf f : Nat → UInt8) (n i : Nat) :
    overlay buf ((List.range n).map fun j => (j, f j)) i = if i < n then f i else buf i := by
  induction n with
  | zero => rfl
  | succ n ih =>
      unfold overlay at ih ⊢
      rw [List.range_succ, List.map_append, List.foldl_append, List.map_singleton, List.foldl_cons,
        List.foldl_nil, Function.update_apply, ih]
      split
      next heq => rw [if_pos (by omega), heq]
      next hne =>
        split
        · rw [if_pos (by omega)]
        · rw [if_neg (by omega)]

/-- A kernel buffer handed to `read_data`; only its not being NULL matters. -/
def localBuf : Nat := 1

/-- The check of the first four bytes, read over the name in `exec`. -/
def isExecutable (img : Image) (name : List UInt8) (inode : Nat) : Bool :=
  let exec := overlay (charAt name) (readData img inode 0 localBuf 4).stores
  exec 0 == 0x7F && exec 1 == 0x45 && exec 2 == 0x4C && exec 3 == 0x46

/-- `EIP`, from bytes 24..27 of the file. -/
def entryPoint (img : Image) (entryBuf : Nat → UInt8) (inode : Nat) : Nat :=
  let e := overlay entryBuf (readData img inode 24 localBuf 4).stores
  (e 0).toNat + 2 ^ 8 * (e 1).toNat + 2 ^ 16 * (e 2).toNat + 2 ^ 24 * (e 3).toNat

/-- The copy loop, `count` bytes done: the stores to virtual addresses, or `none` for `return -1`.
Every turn that goes on adds at least one byte to `count`, so `pageSize` turns are enough. -/
def loadLoop (img : Image) (inode : Nat) : Nat → Nat → Option (List (Nat × UInt8))
  | 0, _ => some []
  | fuel + 1, count =>
      if count < pageSize then
        let r := readData img inode count (virtualAddr + count) (pageSize - count)
        if r.ret = 0 then some []
        else if r.ret ≠ -1 then
          (loadLoop img inode fuel (count + r.ret.toNat)).map fun rest =>
            r.stores.map (fun s => (virtualAddr + count + s.1, s.2)) ++ rest
        else none
      else some []

/-- The whole copy loop. -/
def loadProgram (img : Image) (inode : Nat) : Option (List (Nat × UInt8)) :=
  loadLoop img inode pageSize 0

/-- A byte stored through the 4 MB user page; outside that page nothing is mapped. -/
def Console.storeUser (page : PageEntry) (c : Console) (s : Nat × UInt8) : Console :=
  if s.1 / pageSize = 32 then
    { c with phys := Function.update c.phys (pageSize * page.frame + s.1 % pageSize) s.2 }
  else { c with fault := true }

/-- The five assignments to `page_dir[pageDirIndex]` that map the user page to the frame at a physical
address. -/
def userPageEntry (addr : Nat) : PageEntry :=
  { (PageEntry.zero.setBaseEntry (addr / 2 ^ 22)).grant with ps := true }

/-- The search for a free slot, `for (temp = 0; temp < programMax; temp++) if (pid_arr[temp] == 0)`. -/
def freeSlot (pidArr : Nat → Nat) : Option Nat :=
  (List.range programMax).find? fun i => pidArr i == 0

/-! ## `execute_handler`: the PCB -/

/-- The branch `program_count < 3`: one of the three base shells. -/
def Proc.bootPcb (p : Proc) (fr : Frame) (args : ArgBuf) : Proc :=
  let child := pcbAddr (p.programCount + 1)
  let n := (p.programCount + 1) % 256
  let p := { p with programCount := n }
  let p := p.setPcb child fun b =>
    { b with
      pid := n, parentPid := n
      kesp := bottomKernal - kernalStackSize * (n - 1) - 4
      parentPcb := child, esp := fr.esp, ebp := fr.ebp, argsflag := 0 }
  let p := { p with
    pidArr := Function.update p.pidArr (n - 1) 1
    schedPid := Function.update p.schedPid (Fin.ofNat 3 (n - 1)) n }
  let p := p.setPcb child fun b => { b with argbuf := args }
  { p with pcbCurrent := child }

/-- The other branch: a child of the current process in slot `slot`, recorded in the slot table under
the terminal `term` (the source passes `curr_terminal`). -/
def Proc.childPcb (p : Proc) (term : Fin 3) (fr : Frame) (slot : Nat) (args : ArgBuf) : Proc :=
  let child := pcbAddr (slot + 1)
  let p := p.setPcb child fun b => { b with pid := slot + 1 }
  let p := { p with programCount := (p.programCount + 1) % 256 }
  let p := p.setPcb child fun b =>
    { b with
      parentPid := p.current.pid
      kesp := bottomKernal - kernalStackSize * slot - 4
      parentPcb := p.pcbCurrent, esp := fr.esp, ebp := fr.ebp, argsflag := p.argsFlag }
  let p := { p with
    pidArr := Function.update p.pidArr slot 1
    schedPid := Function.update p.schedPid term (slot + 1) }
  let p := p.setPcb child fun b => { b with argbuf := args }
  { p with pcbCurrent := child }

/-- The switch to the program: save the TSS fields in the PCB and point them at the slot's stack. -/
def Proc.enterProgram (p : Proc) (slot : Nat) : Proc :=
  let p := p.setPcb p.pcbCurrent fun b => { b with ss0 := p.tssSs0, esp0 := p.tssEsp0 }
  { p with tssSs0 := kernelDs, tssEsp0 := bottomKernal - kernalStackSize * slot - 4 }

/-- From the PCB set-up to the end of the critical section: the PCB, stdin and stdout, the TSS. -/
def Kernel.startProgram (k : Kernel) (img : Image) (fr : Frame) (slot : Nat) (args : ArgBuf) :
    Kernel :=
  let k := { k with
    proc :=
      if k.proc.programCount < 3 then k.proc.bootPcb fr args
      else k.proc.childPcb k.con.currTerminal fr slot args }
  let k := (openHandler img stdinName k).1
  let k := (openHandler img stdoutName k).1
  { k with proc := (k.proc.enterProgram slot).sti }

/-- The global `args_flag` after the command has been parsed. -/
def Kernel.noteArgs (k : Kernel) (args : ArgBuf) : Kernel :=
  { k with proc := { k.proc with argsFlag := argsFlagAfter args k.proc.argsFlag } }

/-- The user page mapped to the frame of a slot, before anything is loaded there. -/
def Kernel.mapUserPage (k : Kernel) (slot : Nat) : Kernel :=
  { k with proc := { k.proc with userPage := userPageEntry (bottomKernal + pageSize * slot) } }

/-- The program's bytes, stored through the user page. -/
def Kernel.storeProgram (k : Kernel) (stores : List (Nat × UInt8)) : Kernel :=
  { k with con := stores.foldl (Console.storeUser k.proc.userPage) k.con }

/-- `slot` when the page is set up; uninitialised if every slot is taken. -/
def Proc.slot (p : Proc) (fr : Frame) : Nat := (freeSlot p.pidArr).getD fr.slot

/-- The second half of `execute_handler`, for a file that passed the checks: map the page, copy the
program, start it. -/
def Kernel.launch (k : Kernel) (img : Image) (fr : Frame) (slot inode : Nat) (args : ArgBuf) :
    Kernel × Option Nat :=
  match loadProgram img inode with
  | none => (k.mapUserPage slot, none)
  | some stores =>
      (((k.mapUserPage slot).storeProgram stores).startProgram img fr slot args,
        some (entryPoint img fr.entryBuf inode))

/-- **`executeHandler`** — `execute_handler(command)`; `none` for the NULL command. -/
def executeHandler (img : Image) (fr : Frame) (command : Option (List UInt8)) (k : Kernel) :
    Kernel × Option Nat :=
  if k.proc.programCount ≥ programMax then (k.cli, none)
  else
    match command with
    | none => (k.cli, none)
    | some command =>
      match readDentryByName img (parseName command).1 with
      | none => (k.cli.noteArgs (parseArgs command), none)
      | some dentry =>
        if isExecutable img (parseName command).1 dentry.inodeNum then
          (k.cli.noteArgs (parseArgs command)).launch img fr (k.proc.slot fr) dentry.inodeNum
            (parseArgs command)
        else (k.cli.noteArgs (parseArgs command), none)

/-! ## `halt_handler` -/

/-- From `cli` to the last assignment before the descriptors are closed. -/
def Proc.haltEnter (p : Proc) : Proc :=
  let b := p.current
  let parent := p.pcb b.parentPcb
  let p := { p with
    pidArr := Function.update p.pidArr (b.pid - 1) 0
    schedPid := Function.update p.schedPid p.currProcess b.parentPid
    programCount := (p.programCount + 255) % 256
    userPage := userPageEntry (bottomKernal + pageSize * b.parentPid - pageSize)
    tssSs0 := kernelDs
    tssEsp0 := parent.esp }
  p.setPcb p.pcbCurrent fun b => { b with argbuf := .zero, argsflag := 0 }

/-- The descriptors `halt_handler` closes, in order. -/
def haltDescriptors : List Nat := [2, 3, 4, 5, 6, 7]

/-- `pcb_current = pcb_current->parent_pcb`. -/
def Proc.haltParent (p : Proc) : Proc := { p with pcbCurrent := p.current.parentPcb }

/-- The final assembly: load the parent's stack registers, `sti`, `leave`, `ret`. -/
def Proc.haltLeave (p : Proc) (esp ebp : Nat) : Proc := { p with esp := esp, ebp := ebp }.sti

/-- The branch of `halt_handler` for a process other than the base shells. -/
def Proc.haltProcess (p : Proc) : Proc :=
  let parent := p.pcb p.current.parentPcb
  let p := haltDescriptors.foldl (fun p (fd : Nat) => (closeHandler fd p).1) p.haltEnter
  p.haltParent.haltLeave parent.esp parent.ebp

/-- **`haltHandler`** — `halt_handler(status)`: the kernel afterwards and the value left in EAX. -/
def haltHandler (status : UInt8) (k : Kernel) : Kernel × Nat :=
  let k := k.cli
  if k.proc.current.pid ≤ 3 then
    ({ k with con := k.con.printText k.proc.currProcess baseShellMessage }, 0)
  else ({ k with proc := k.proc.haltProcess }, status.toNat)

end Ece391
