/-
# Ece391.Kernel.State — the globals of the kernel, as records.

Three groups, one per part of the source that writes them:

* `Proc` — the process table of `syscall.c` and the scheduling globals of `scheduler.c`: the PCBs, the
  slot table `sched_pid`, `page_dir[32]`, the TSS fields, the interrupt flag and the stack registers;
* `Console` — the terminals: `term_arr`, the cursor and video globals of `lib.c`, the keyboard line
  buffer, the page table of the video pages and physical memory;
* `Rtc` — the two tick variables of `rtc.c`.

Pointers to PCBs are addresses: the PCB of process number `n` is the object at
`bottomKernal - kernalStackSize * n`, and 0 is NULL.  An entry of a page table is kept by its fields;
`base` holds bits 12..31, so the 10-bit `page_table_base_addr_entry` view is its upper half.

Left out because no function modelled here reads them: `rtc_val` of a PCB, the page flags that stay
zero, `page_dir` entries other than 32, and the file-operations pointers a table never calls.
-/
import Ece391.Kernel.Filesystem
import Mathlib.Logic.Function.Basic

namespace Ece391

/-! ## Constants (`syscall.h`, `scheduler.h`, `paging.h`, `lib.h`, `keyboard.h`) -/

def bottomKernal : Nat := 0x800000
def kernalStackSize : Nat := 0x2000
def pageSize : Nat := 0x400000
def programMax : Nat := 6
def keyBufferSize : Nat := 128
def maxInputLength : Nat := 127
def fdMin : Int := 0
def fdMax : Int := 7
def kernelDs : Nat := 0x18
def virtualAddr : Nat := 0x08048000
/-- `VIDEO_MEM`, the displayed text page. -/
def videoMemAddr : Nat := 0xB8000
def kb4 : Nat := 0x1000
def numCols : Nat := 80
def numRows : Nat := 25
def attrib : UInt8 := 7

/-! ## Page entries -/

/-- A page-directory or page-table entry. -/
structure PageEntry where
  present : Bool
  readWrite : Bool
  user : Bool
  ps : Bool
  base : Nat
  deriving DecidableEq, Repr

namespace PageEntry

/-- `.hex = 0`. -/
def zero : PageEntry := ⟨false, false, false, false, 0⟩

/-- The assignment to `page_table_base_addr_pte`, the 20-bit field in bits 12..31. -/
def setBasePte (e : PageEntry) (v : Nat) : PageEntry := { e with base := v % 2 ^ 20 }

/-- The assignment to `page_table_base_addr_entry`, the 10-bit field in bits 22..31. -/
def setBaseEntry (e : PageEntry) (v : Nat) : PageEntry :=
  { e with base := e.base % 2 ^ 10 + 2 ^ 10 * (v % 2 ^ 10) }

/-- The 4 MB frame a directory entry maps, `page_table_base_addr_entry`. -/
def frame (e : PageEntry) : Nat := e.base / 2 ^ 10

/-- The three assignments `present = read_write = user = 1`. -/
def grant (e : PageEntry) : PageEntry := { e with present := true, readWrite := true, user := true }

end PageEntry

/-! ## Descriptors and PCBs (`syscall.h`) -/

/-- Which of the four `file_operations_table_pointer_t` tables a descriptor holds; `null` is the
zeroed structure. -/
inductive FileOps
  | null
  | rtc
  | directory
  | filesystem
  | terminal
  deriving DecidableEq, Repr

/-- `file_descriptor_t`. -/
structure FileDescriptor where
  operations : FileOps
  inode : Nat
  filePosition : Nat
  flags : Nat
  deriving DecidableEq, Repr

/-- The zeroed descriptor. -/
def FileDescriptor.zero : FileDescriptor := ⟨.null, 0, 0, 0⟩

/-- `argbuf`: 128 bytes whose last one is NUL.  `execute_handler` copies at most 127 argument bytes
into a cleared array and `halt_handler` clears it, so the string in it always ends inside it. -/
structure ArgBuf where
  byte : Nat → UInt8
  terminated : byte (keyBufferSize - 1) = 0

/-- The cleared argument buffer. -/
def ArgBuf.zero : ArgBuf := ⟨fun _ => 0, rfl⟩

/-- `pcb_t`. -/
structure Pcb where
  pcbArr : Nat → FileDescriptor
  pid : Nat
  parentPid : Nat
  esp : Nat
  kesp : Nat
  ebp : Nat
  ss0 : Nat
  esp0 : Nat
  argbuf : ArgBuf
  argsflag : Nat
  parentPcb : Nat
  rtcFlag : Nat

/-- PCB memory that is all zero. -/
def Pcb.zero : Pcb := ⟨fun _ => .zero, 0, 0, 0, 0, 0, 0, 0, .zero, 0, 0, 0⟩

/-- The address of the PCB of process number `n`: `bottomKernal - kernalStackSize * n`. -/
def pcbAddr (n : Nat) : Nat := bottomKernal - kernalStackSize * n

theorem pcbAddr_injective {m n : Nat} (hm : m ≤ programMax) (hn : n ≤ programMax)
    (h : pcbAddr m = pcbAddr n) : m = n := by
  unfold pcbAddr bottomKernal kernalStackSize at h
  unfold programMax at hm hn
  omega

/-- Terminals and scheduler slots are numbered 0, 1, 2.  The library's instance gets a name here, so
that a literal of `Fin 3` is the same term in every module. -/
instance neZero_three : NeZero 3 := inferInstance

/-! ## The three groups of globals -/

/-- What a handler's own stack frame holds when the handler starts: the stack registers its inline
assembly stores, and the values of the locals it reads before it has written them. -/
structure Frame where
  esp : Nat
  ebp : Nat
  /-- `slot` in `execute_handler`, if no slot is free. -/
  slot : Nat
  /-- `entryBuf` in `execute_handler`, if the file is shorter than 28 bytes. -/
  entryBuf : Nat → UInt8

/-- The process table. -/
structure Proc where
  programCount : Nat
  argsFlag : Nat
  pidArr : Nat → Nat
  pcbCurrent : Nat
  /-- The PCBs, by address. -/
  pcb : Nat → Pcb
  schedPid : Fin 3 → Nat
  currProcess : Fin 3
  /-- `page_dir[pageDirIndex]`, the 4 MB page at virtual address 128 MB. -/
  userPage : PageEntry
  tssSs0 : Nat
  tssEsp0 : Nat
  /-- The stack registers a handler last loaded. -/
  esp : Nat
  ebp : Nat
  /-- IF of EFLAGS. -/
  intFlag : Bool

/-- `terminal_t`. -/
structure Terminal where
  screenX : Nat
  screenY : Nat
  keyBuf : Nat → UInt8
  visible : Nat
  vidMemAddr : Nat
  newlineTracker : Nat
  enterFlag : Nat

/-- The terminals, the keyboard line buffer and the video memory behind them. -/
structure Console where
  currTerminal : Fin 3
  termArr : Fin 3 → Terminal
  /-- The static `screen_x`, `screen_y` and `scrollFlag` of `lib.c`. -/
  screenX : Nat
  screenY : Nat
  scrollFlag : Nat
  /-- `video_mem`, a virtual address. -/
  videoMem : Nat
  /-- The position last sent to the VGA cursor registers. -/
  vgaCursor : Nat
  keyBuffer : Nat → UInt8
  keyBufferIndex : Int
  pageTable : Nat → PageEntry
  /-- `page_virtual_mem[0]`, the user's video page. -/
  pageVirtualMem : PageEntry
  /-- Physical memory. -/
  phys : Nat → UInt8
  /-- A page fault was taken: `exception_14` prints its message and spins. -/
  fault : Bool

/-- `rtc_tick` and `rtc_status`. -/
structure Rtc where
  tick : Nat
  status : Nat

/-- The kernel. -/
structure Kernel where
  proc : Proc
  con : Console
  rtc : Rtc

/-! ## Access -/

namespace Proc

/-- `cli()` and `sti()`. -/
def cli (p : Proc) : Proc := { p with intFlag := false }
def sti (p : Proc) : Proc := { p with intFlag := true }

/-- `*pcb_current`. -/
def current (p : Proc) : Pcb := p.pcb p.pcbCurrent

/-- Assign fields of the PCB at an address. -/
def setPcb (p : Proc) (addr : Nat) (f : Pcb → Pcb) : Proc :=
  { p with pcb := Function.update p.pcb addr (f (p.pcb addr)) }

/-- The PCB of process number `n`. -/
def pcbOf (p : Proc) (n : Nat) : Pcb := p.pcb (pcbAddr n)

/-- Process number `n` is live: `pid_arr[n - 1] = 1`. -/
def Live (p : Proc) (n : Nat) : Prop := 1 ≤ n ∧ n ≤ programMax ∧ p.pidArr (n - 1) = 1

instance (p : Proc) (n : Nat) : Decidable (p.Live n) := by unfold Live; infer_instance

/-- The number of ones in `pid_arr`. -/
def liveCount (p : Proc) : Nat := ((List.range programMax).filter fun i => p.pidArr i = 1).length

end Proc

namespace Kernel

def cli (k : Kernel) : Kernel := { k with proc := k.proc.cli }
def sti (k : Kernel) : Kernel := { k with proc := k.proc.sti }

end Kernel

end Ece391
