/-
# Ece391.Process.AddressSpace — what a process can reach, and what can reach a process.

`page_dir` has four entries: the page table of the first 4 MB with the video pages, the kernel's own
page, the page of the running process at 128 MB, and after a `vidmap` the one-page table at 1 GB.  There
is one directory for all processes: a switch rewrites entry 32, and with it what all user addresses
mean.  `Kernel.userAccess` is the walk of the processor for an access from user mode.

* `Low` is the invariant of the two tables: whatever they map is a video page.  The one exception is the
  page at 1 GB, whose base `scheduler_remap_video` assigns through the 10-bit field: it then lies between
  736 and 752 MB, above all frames.
* `LowOnly` says that a routine keeps `Low` and leaves all memory from 8 MB on alone.  Every routine of
  the console is one.
* `user_access_confined` — from user mode only the process's own frame and these pages are reached.
* `waiting_memory_kept` — the frame of a process that does not run is not changed, by anything, until it
  runs again.
-/
import Ece391.Terminals.Screens
import Ece391.Process.Boot

open Ece391.Lib

namespace Ece391

/-! ## The walk -/

/-- An entry of the page directory: a 4 MB page, or a page table with the bits of the entry itself. -/
inductive DirEntry
  | page (e : PageEntry)
  | table (e : PageEntry) (pages : Nat → PageEntry)

/-- The entry lets user mode read and write. -/
def PageEntry.UserWritable (e : PageEntry) : Prop :=
  e.present = true ∧ e.readWrite = true ∧ e.user = true

instance (e : PageEntry) : Decidable e.UserWritable := by unfold PageEntry.UserWritable; infer_instance

/-- `page_dir[0]` and `page_dir[GB_idx]`, as far as a walk uses them. -/
def tableEntry : PageEntry := PageEntry.zero.grant

/-- `page_dir[1]`: the kernel's page, for the kernel only. -/
def kernelPage : PageEntry :=
  { PageEntry.zero.setBaseEntry (kernelMem / 2 ^ 22) with present := true, readWrite := true, ps := true }

/-- `page_virtual_mem`: one entry, at the start. -/
def virtualMem (e : PageEntry) (i : Nat) : PageEntry := if i = 0 then e else .zero

/-- **`pageDir`** — the page directory.  `vidmapped` says that a `vidmap` has set entry `GB_idx`. -/
def Kernel.pageDir (k : Kernel) (vidmapped : Bool) (i : Nat) : DirEntry :=
  if i = 0 then .table tableEntry k.con.pageTable
  else if i = 1 then .page kernelPage
  else if i = 32 then .page k.proc.userPage
  else if i = 256 ∧ vidmapped = true then .table tableEntry (virtualMem k.con.pageVirtualMem)
  else .page .zero

/-- The walk of the processor for an access from user mode. -/
def DirEntry.walk (va : Nat) : DirEntry → Option Nat
  | .page e => if e.UserWritable then some (pageSize * e.frame + va % pageSize) else none
  | .table e pages =>
      if e.UserWritable ∧ (pages (Console.pageIndex va)).UserWritable then
        some (4096 * (pages (Console.pageIndex va)).base + va % 4096)
      else none

/-- **`userAccess`** — the physical address behind a virtual one in user mode; `none` is a page
fault. -/
def Kernel.userAccess (k : Kernel) (vidmapped : Bool) (va : Nat) : Option Nat :=
  (k.pageDir vidmapped (va / pageSize)).walk va

/-! ## The two tables -/

/-- A page of the displayed text or of a terminal's own screen. -/
def VideoPage (p : Nat) : Prop := 0xB8 ≤ p ∧ p < 0xBC

/-- **`Low c`** — the page tables map video pages only. -/
structure Low (c : Console) : Prop where
  pages : ∀ i, (c.pageTable i).present = true → VideoPage (c.pageTable i).base
  user : c.pageVirtualMem.present = true →
    VideoPage c.pageVirtualMem.base ∨ VideoPage c.pageVirtualMem.frame
  vidMemAddr : ∀ t, (c.termArr t).vidMemAddr = videoAddr t

theorem videoPage_text : VideoPage (videoMemAddr / 2 ^ 12 % 2 ^ 20) := by
  unfold VideoPage videoMemAddr
  omega

theorem videoPage_videoAddr (t : Fin 3) : VideoPage (videoAddr t / 2 ^ 12 % 2 ^ 20) := by
  rw [base_videoAddr]
  unfold VideoPage
  omega

/-- **`LowOnly c c'`** — from `c` to `c'` the tables go on mapping video pages, and memory changes below
8 MB only. -/
structure LowOnly (c c' : Console) : Prop where
  low : Low c → Low c'
  high : Low c → ∀ a, bottomKernal ≤ a → c'.phys a = c.phys a

namespace LowOnly

variable {c c' c'' : Console}

theorem trans (h : LowOnly c c') (h' : LowOnly c' c'') : LowOnly c c'' where
  low := h'.low ∘ h.low
  high hl a ha := (h'.high (h.low hl) a ha).trans (h.high hl a ha)

theorem same (hpages : c'.pageTable = c.pageTable) (huser : c'.pageVirtualMem = c.pageVirtualMem)
    (hvid : ∀ t, (c'.termArr t).vidMemAddr = (c.termArr t).vidMemAddr) (hphys : c'.phys = c.phys) :
    LowOnly c c' where
  low hl := ⟨hpages ▸ hl.pages, huser ▸ hl.user, fun t => (hvid t).trans (hl.vidMemAddr t)⟩
  high _ a _ := by rw [hphys]

theorem refl (c : Console) : LowOnly c c := same rfl rfl (fun _ => rfl) rfl

theorem setTerm (c : Console) (t : Fin 3) (f : Terminal → Terminal)
    (hvid : (f (c.termArr t)).vidMemAddr = (c.termArr t).vidMemAddr) : LowOnly c (c.setTerm t f) :=
  same rfl rfl (Console.setTerm_field Terminal.vidMemAddr hvid) rfl

/-- A store through the page table. -/
theorem storeByte (c : Console) (va : Nat) (v : UInt8) : LowOnly c (c.storeByte va v) where
  low hl := by
    obtain ⟨phys, fault, hm⟩ := Console.MemoryOf.storeByte c va v
    rw [hm]
    exact ⟨hl.pages, hl.user, hl.vidMemAddr⟩
  high hl a ha := by
    unfold Console.storeByte Console.translate
    by_cases hpres : (c.pageTable (Console.pageIndex va)).present = true
    · rw [if_pos hpres]
      have hpage := (hl.pages _ hpres).2
      have hne : a ≠ 4096 * (c.pageTable (Console.pageIndex va)).base + va % 4096 := by
        unfold bottomKernal at ha
        omega
      exact Function.update_of_ne hne ..
    · rw [if_neg hpres]

theorem foldl {α : Type*} {step : Console → α → Console} (hstep : ∀ c a, LowOnly c (step c a))
    (as : List α) (c : Console) : LowOnly c (as.foldl step c) := by
  induction as generalizing c with
  | nil => exact refl c
  | cons a as ih => exact (hstep c a).trans (ih _)

theorem memcpy (c : Console) (dst src n : Nat) : LowOnly c (c.memcpy dst src n) :=
  foldl (fun c i => storeByte c (dst + i) (c.loadByte (src + i))) _ _

/-- A page mapped to a video page. -/
theorem mapPage (c : Console) (va : Nat) {pa : Nat} (hpa : Low c → VideoPage (pa / 2 ^ 12 % 2 ^ 20)) :
    LowOnly c (c.mapPage va pa) where
  low hl := by
    refine ⟨fun i hpres => ?_, hl.user, hl.vidMemAddr⟩
    by_cases hi : i = Console.pageIndex va
    · subst hi
      simp only [Console.mapPage, Function.update_self, PageEntry.grant, PageEntry.setBasePte]
      exact hpa hl
    · simp only [Console.mapPage, Function.update_of_ne hi] at hpres ⊢
      exact hl.pages i hpres
  high _ _ _ := rfl

theorem mapUserVideo (c : Console) {pa : Nat} (hpa : Low c → VideoPage (pa / 2 ^ 12 % 2 ^ 20)) :
    LowOnly c (c.mapUserVideo pa) where
  low hl := ⟨hl.pages, fun _ => Or.inl (hpa hl), hl.vidMemAddr⟩
  high _ _ _ := rfl

end LowOnly

/-- **The routines that draw and those of the keyboard**: each of their assignments keeps the tables, and
stores through them. -/
theorem Draws.lowOnly {P : Console → Reach → Prop} {c c' : Console} (h : Draws P c c') : LowOnly c c' := by
  refine h.lift LowOnly.refl (fun _ _ _ h h' => h.trans h') fun c c' hs => ?_
  cases hs with
  | globals => exact .same rfl rfl (fun _ => rfl) rfl
  | cursor t => exact .setTerm c t _ rfl
  | byte v => exact .storeByte ..
  | enterFlag t v => exact .setTerm c t _ rfl
  | line => exact .same rfl rfl (fun _ => rfl) rfl

namespace LowOnly

/-! ## The routines of the console -/

section Routines

variable (c : Console) (t : Fin 3)

theorem videoMem (a : Nat) : LowOnly c { c with videoMem := a } := same rfl rfl (fun _ => rfl) rfl

theorem remapVideo : LowOnly c (c.remapVideo t) := by
  have hpa : Low c → VideoPage ((c.termArr t).vidMemAddr / 2 ^ 12 % 2 ^ 20) := by
    intro hl
    rw [hl.vidMemAddr]
    exact videoPage_videoAddr t
  refine (mapPage c _ hpa).trans (mapUserVideo _ fun hl => ?_)
  have hsame : (c.termArr t).vidMemAddr = videoAddr t := hl.vidMemAddr t
  rw [hsame]
  exact videoPage_videoAddr t

theorem schedulerRemapVideo : LowOnly c (c.schedulerRemapVideo t) := by
  have haddr : videoMemAddr + kb4 * (1 + t.val) = videoAddr t := by
    rw [videoAddr, Nat.add_comm 1]
  unfold Console.schedulerRemapVideo
  dsimp only
  rw [haddr]
  have hpa : VideoPage ((if t = c.currTerminal then videoMemAddr else videoAddr t) / 2 ^ 12 % 2 ^ 20) := by
    split
    · exact videoPage_text
    · exact videoPage_videoAddr t
  generalize (if t = c.currTerminal then videoMemAddr else videoAddr t) = pa at hpa
  refine (mapPage c (videoAddr t) fun _ => hpa).trans ?_
  refine ⟨fun hl => ⟨hl.pages, fun _ => Or.inr ?_, hl.vidMemAddr⟩, fun _ _ _ => rfl⟩
  -- the 10-bit field: bits 12..21 of the page number are all that counts
  show VideoPage (_ / 2 ^ 10)
  simp only [PageEntry.grant, PageEntry.setBaseEntry]
  unfold VideoPage at hpa ⊢
  omega

theorem saving : LowOnly c (c.saving c.currTerminal) := by
  unfold Console.saving
  exact ((setTerm c _ _ rfl).trans (setTerm _ _ _ rfl)).trans (remapVideo _ _)

theorem restoring : LowOnly c (c.restoring t) := by
  have hcurr : LowOnly c { c with currTerminal := t } := same rfl rfl (fun _ => rfl) rfl
  unfold Console.restoring
  dsimp only
  have hvisible := hcurr.trans (setTerm _ t (fun term => { term with visible := 1 }) rfl)
  generalize Console.setTerm _ t _ = m at hvisible ⊢
  have hkeys : LowOnly m { m with
      keyBuffer := fun i => if i < maxInputLength then (m.termArr t).keyBuf i else m.keyBuffer i } :=
    same rfl rfl (fun _ => rfl) rfl
  exact (hvisible.trans hkeys).trans (remapVideo _ t)

theorem terminalSwitch (idx : Nat) : LowOnly c (c.terminalSwitch idx).1 := by
  by_cases hnone : idx = c.currTerminal.val ∨ 3 ≤ idx
  · rw [terminalSwitch_of_not hnone]
    exact refl c
  · obtain ⟨t, rfl⟩ : ∃ t : Fin 3, t.val = idx := ⟨⟨idx, by omega⟩, rfl⟩
    have ht : t ≠ c.currTerminal := fun heq => hnone (Or.inl (congrArg Fin.val heq))
    have hsave : LowOnly c (c.terminalSaveState c.currTerminal) := by
      rw [terminalSaveState_eq]
      exact (saving c).trans (memcpy ..)
    rw [terminalSwitch_eq c ht]
    refine hsave.trans ?_
    generalize c.terminalSaveState c.currTerminal = c1
    have hrestore : LowOnly c1 (c1.terminalRestoreState t) := by
      rw [terminalRestoreState_eq]
      exact (restoring c1 t).trans (memcpy ..)
    have hcursor := hrestore.trans (Draws.updateCursor (P := Draws.anything) _).lowOnly
    exact (hcursor.trans (mapPage _ _ fun _ => videoPage_text)).trans
      (mapUserVideo _ fun _ => videoPage_text)

/-- **A key press.** -/
theorem keyboardInterHandler (cur : Fin 3) (input : UInt8) (kb : Keyboard) :
    LowOnly c (Ece391.keyboardInterHandler cur input kb c).2 := by
  refine LowOnly.trans ?_ (Draws.keyPress _ _ cur input).lowOnly
  unfold Console.specialKeys
  split
  · split
    · exact terminalSwitch ..
    · exact refl c
  · split
    · exact (Draws.backspaceCase c).lowOnly
    · split
      · exact (Draws.enterCase c).lowOnly
      · exact refl c

/-- A line read. -/
theorem terminalRead {cur : Fin 3} {nbytes : Nat} {r : Console × Copy}
    (h : c.terminalRead cur nbytes = some r) : LowOnly c r.1 := by
  unfold Console.terminalRead at h
  split at h
  · cases h
    have hclear : Draws Draws.anything c { c with
        keyBuffer := fun i => if i < maxInputLength then 0 else c.keyBuffer i
        keyBufferIndex := 0 } := .step (.line _ 0 trivial)
    exact (hclear.trans (.saveCursor _ cur)).lowOnly
  · cases h

end Routines

end LowOnly

/-! ## The accesses of the kernel -/

/-- The walk for an access of the kernel: `load_pde` leaves CR0.WP clear, so a page that is present may be
read and written. -/
def DirEntry.kernelWalk (va : Nat) : DirEntry → Option Nat
  | .page e => if e.present then some (pageSize * e.frame + va % pageSize) else none
  | .table e pages =>
      if e.present ∧ (pages (Console.pageIndex va)).present then
        some (4096 * (pages (Console.pageIndex va)).base + va % 4096)
      else none

/-- The physical address behind a virtual one in the kernel. -/
def Kernel.kernelAccess (k : Kernel) (vidmapped : Bool) (va : Nat) : Option Nat :=
  (k.pageDir vidmapped (va / pageSize)).kernelWalk va

/-- The memory after a store to a physical address; `none` is a page fault. -/
def Kernel.storeAt (k : Kernel) (pa : Option Nat) (v : UInt8) : Kernel :=
  match pa with
  | none => { k with con := { k.con with fault := true } }
  | some pa => { k with con := { k.con with phys := Function.update k.con.phys pa v } }

/-- The kernel stores bytes at virtual addresses. -/
def Kernel.copyOut (k : Kernel) (vidmapped : Bool) (stores : List (Nat × UInt8)) : Kernel :=
  stores.foldl (fun k s => k.storeAt (k.kernelAccess vidmapped s.1) s.2) k

/-! ## Runs -/

/-- The kernel, and whether a `vidmap` has set `page_dir[GB_idx]`. -/
structure Machine where
  kernel : Kernel
  vidmapped : Bool

/-- What changes the directory or the memory: the events that move processes, the calls with what they
copy to their caller, key presses, `vidmap`, and the stores of the running program itself. -/
inductive MemEvent
  | act (a : Act)
  | call (c : Call)
  | key (kb : Keyboard) (input : UInt8)
  | vidmap (screenStart : Nat)
  | store (va : Nat) (v : UInt8)

/-- The bytes a call copies to its caller. -/
def Call.copied : Call → List (Nat × UInt8)
  | .read _ buf _ copy => copy.stores.map fun s => ((buf + s.1) % 2 ^ 32, s.2)
  | .getargs buf _ copy => copy.stores.map fun s => ((buf + s.1) % 2 ^ 32, s.2)
  | _ => []

/-- `*screen_start = GB_1`. -/
def screenStores (screenStart : Nat) : List (Nat × UInt8) :=
  (List.range 4).map fun i => ((screenStart + i) % 2 ^ 32, UInt8.ofNat (gb1 / 2 ^ (8 * i)))

/-- None of the bytes goes to the kernel's own page. -/
def OffKernel (stores : List (Nat × UInt8)) : Prop := ∀ s ∈ stores, s.1 / pageSize ≠ 1

/-- **`MemStep img m e m'`** — one event.  A copy of the kernel into its own page would overwrite the
records this model is made of, and is no step. -/
def MemStep (img : Image) (m : Machine) : MemEvent → Machine → Prop
  | .act a, m' => DisplayedStep img m.kernel a m'.kernel ∧ m'.vidmapped = m.vidmapped
  | .call (.device _ _), _ => False
  | .call c, m' => OffKernel c.copied ∧
      ∃ k, CallStep img m.kernel c k ∧ m' = ⟨k.copyOut m.vidmapped c.copied, m.vidmapped⟩
  | .key kb input, m' => m' =
      ⟨{ m.kernel with
        con := (keyboardInterHandler m.kernel.proc.currProcess input kb m.kernel.con).2 }, m.vidmapped⟩
  | .vidmap screenStart, m' =>
      if (vidmapHandler screenStart m.kernel).2.2.isSome then
        OffKernel (screenStores screenStart) ∧
        m' = ⟨(vidmapHandler screenStart m.kernel).1.copyOut true (screenStores screenStart), true⟩
      else m' = ⟨(vidmapHandler screenStart m.kernel).1, m.vidmapped⟩
  | .store va v, m' => m' = ⟨m.kernel.storeAt (m.kernel.userAccess m.vidmapped va) v, m.vidmapped⟩

/-- **`Space k`** — the invariant: the table is well formed, the user page is open to user mode, and the
page tables map video pages only. -/
structure Space (k : Kernel) : Prop where
  wf : WF k.proc
  writable : k.proc.userPage.UserWritable
  low : Low k.con

/-- Process `n` waits: it is live, and not the one that runs. -/
def Waiting (n : Nat) (k : Kernel) : Prop := k.proc.Live n ∧ n ≠ k.proc.current.pid

/-- The frame of process `n` is the same in both memories. -/
def FrameKept (n : Nat) (c c' : Console) : Prop := ∀ a, a / pageSize = 1 + n → c'.phys a = c.phys a

theorem LowOnly.frameKept {c c' : Console} (h : LowOnly c c') (hl : Low c) {n : Nat} (hn : 1 ≤ n) :
    FrameKept n c c' := by
  intro a ha
  refine h.high hl a ?_
  unfold bottomKernal
  unfold pageSize at ha
  omega

/-! ## Where an access leads -/

section Access

variable {k : Kernel} {vidmapped : Bool} {va pa : Nat}

/-- User mode reaches no more than the kernel does, and not the kernel's page. -/
theorem kernelAccess_of_user (h : k.userAccess vidmapped va = some pa) :
    va / pageSize ≠ 1 ∧ k.kernelAccess vidmapped va = some pa := by
  have hpage : va / pageSize ≠ 1 := by
    intro heq
    rw [Kernel.userAccess, heq] at h
    exact absurd h (by simp [Kernel.pageDir, DirEntry.walk, PageEntry.UserWritable, kernelPage,
      PageEntry.zero, PageEntry.setBaseEntry])
  refine ⟨hpage, ?_⟩
  unfold Kernel.userAccess at h
  unfold Kernel.kernelAccess
  cases hdir : k.pageDir vidmapped (va / pageSize) with
  | page e =>
      rw [hdir] at h
      by_cases hw : e.UserWritable
      · rw [DirEntry.walk, if_pos hw] at h
        rw [DirEntry.kernelWalk, if_pos hw.1, h]
      · rw [DirEntry.walk, if_neg hw] at h
        cases h
  | table e pages =>
      rw [hdir] at h
      by_cases hw : e.UserWritable ∧ (pages (Console.pageIndex va)).UserWritable
      · rw [DirEntry.walk, if_pos hw] at h
        rw [DirEntry.kernelWalk, if_pos ⟨hw.1.1, hw.2.1⟩, h]
      · rw [DirEntry.walk, if_neg hw] at h
        cases h

/-- A walk through one of the two tables ends at a page that is present. -/
theorem kernelWalk_table {pages : Nat → PageEntry}
    (h : (DirEntry.table tableEntry pages).kernelWalk va = some pa) :
    (pages (Console.pageIndex va)).present = true ∧
    4096 * (pages (Console.pageIndex va)).base + va % 4096 = pa := by
  rw [DirEntry.kernelWalk] at h
  by_cases hpres : tableEntry.present ∧ (pages (Console.pageIndex va)).present
  · rw [if_pos hpres] at h
    exact ⟨hpres.2, Option.some.inj h⟩
  · rw [if_neg hpres] at h
    cases h

/-- **Where an access of the kernel leads**, outside its own page: at 128 MB to the frame of the running
process, elsewhere to a video page or above all frames. -/
theorem Space.access (h : Space k) (hpage : va / pageSize ≠ 1)
    (hpa : k.kernelAccess vidmapped va = some pa) :
    (va / pageSize = 32 ∧ pa = pageSize * (1 + k.proc.current.pid) + va % pageSize) ∨
    (va / pageSize ≠ 32 ∧ (VideoPage (pa / 4096) ∨ VideoPage (pa / pageSize))) := by
  unfold Kernel.kernelAccess Kernel.pageDir at hpa
  by_cases h0 : va / pageSize = 0
  · -- the page table of the first 4 MB
    rw [if_pos h0] at hpa
    obtain ⟨hpres, rfl⟩ := kernelWalk_table hpa
    have hvideo := h.low.pages _ hpres
    refine Or.inr ⟨by omega, Or.inl ?_⟩
    unfold VideoPage at hvideo ⊢
    omega
  rw [if_neg h0, if_neg hpage] at hpa
  by_cases h32 : va / pageSize = 32
  · rw [if_pos h32] at hpa
    simp only [DirEntry.kernelWalk, h.writable.1, if_true, Option.some.injEq] at hpa
    refine Or.inl ⟨h32, ?_⟩
    rw [h.wf.current_pid, ← h.wf.frame]
    exact hpa.symm
  rw [if_neg h32] at hpa
  by_cases h256 : va / pageSize = 256 ∧ vidmapped = true
  · rw [if_pos h256] at hpa
    obtain ⟨hpres, rfl⟩ := kernelWalk_table hpa
    have hfirst : Console.pageIndex va = 0 := by
      by_contra hne
      rw [virtualMem, if_neg hne] at hpres
      cases hpres
    rw [hfirst, virtualMem, if_pos rfl] at hpres ⊢
    refine Or.inr ⟨h32, (h.low.user hpres).imp ?_ ?_⟩
    · intro hvideo
      unfold VideoPage at hvideo ⊢
      omega
    · intro hvideo
      unfold VideoPage PageEntry.frame at hvideo
      unfold VideoPage pageSize
      omega
  · rw [if_neg h256] at hpa
    cases hpa

/-- A store outside the kernel's page keeps the space, and the frame of every other process. -/
theorem Space.storeAt (h : Space k) (vidmapped : Bool) (hpage : va / pageSize ≠ 1) (v : UInt8) :
    Space (k.storeAt (k.kernelAccess vidmapped va) v) ∧
    (k.storeAt (k.kernelAccess vidmapped va) v).proc = k.proc ∧
    ∀ n, 1 ≤ n → n ≤ programMax → n ≠ k.proc.current.pid →
      FrameKept n k.con (k.storeAt (k.kernelAccess vidmapped va) v).con := by
  cases hpa : k.kernelAccess vidmapped va with
  | none =>
      exact ⟨⟨h.wf, h.writable, h.low.pages, h.low.user, h.low.vidMemAddr⟩, rfl, fun _ _ _ _ _ _ => rfl⟩
  | some pa =>
      refine ⟨⟨h.wf, h.writable, h.low.pages, h.low.user, h.low.vidMemAddr⟩, rfl, ?_⟩
      intro n h1 hmax hne a ha
      have hpid := h.wf.current_live.1
      refine Function.update_of_ne ?_ ..
      rintro rfl
      unfold programMax at hmax
      rcases h.access hpage hpa with ⟨-, rfl⟩ | ⟨-, hvideo | hvideo⟩
      · unfold pageSize at ha
        omega
      all_goals
        unfold VideoPage pageSize at *
        omega

end Access

theorem Space.copyOut {k : Kernel} (h : Space k) (vidmapped : Bool) {stores : List (Nat × UInt8)}
    (hoff : OffKernel stores) :
    Space (k.copyOut vidmapped stores) ∧ (k.copyOut vidmapped stores).proc = k.proc ∧
    ∀ n, 1 ≤ n → n ≤ programMax → n ≠ k.proc.current.pid →
      FrameKept n k.con (k.copyOut vidmapped stores).con := by
  induction stores generalizing k with
  | nil => exact ⟨h, rfl, fun _ _ _ _ _ _ => rfl⟩
  | cons s stores ih =>
      obtain ⟨hspace, hproc, hkept⟩ := h.storeAt vidmapped (hoff s List.mem_cons_self) s.2
      obtain ⟨hspace', hproc', hkept'⟩ := ih hspace fun r hr => hoff r (List.mem_cons_of_mem s hr)
      refine ⟨hspace', hproc'.trans hproc, fun n h1 hmax hne a ha => ?_⟩
      exact (hkept' n h1 hmax (by rwa [hproc]) a ha).trans (hkept n h1 hmax hne a ha)

/-! ## One event -/

theorem userPageEntry_writable (addr : Nat) : (userPageEntry addr).UserWritable := ⟨rfl, rfl, rfl⟩

theorem openHandler_con (img : Image) (filename : List UInt8) (k : Kernel) :
    (openHandler img filename k).1.con = k.con := by
  unfold openHandler
  dsimp only
  split
  · rfl
  split
  · rfl
  split
  · rfl
  split
  · rfl
  split
  · rfl
  split
  · rfl
  split
  · rfl
  split <;> rfl

theorem readHandler_lowOnly {img : Image} {fd : Int} {buf : Nat} {nbytes : Int} {k k' : Kernel}
    {copy : Copy} (h : readHandler img fd buf nbytes k = some (k', copy)) : LowOnly k.con k'.con := by
  have hptr : ∀ {ops inode offset length} {r : Kernel × Copy},
      readPtr img ops inode offset buf length k = some r → LowOnly k.con r.1.con := by
    intro ops inode offset length r hr
    unfold readPtr at hr
    cases ops with
    | null => cases hr
    | terminal =>
        obtain ⟨r', hread, rfl⟩ := Option.map_eq_some_iff.mp hr
        exact LowOnly.terminalRead k.con hread
    | rtc =>
        dsimp only at hr
        split at hr
        · cases hr
          exact .refl _
        · cases hr
    | directory =>
        cases hr
        exact .refl _
    | filesystem =>
        cases hr
        exact .refl _
  unfold readHandler at h
  dsimp only at h
  split at h
  · cases h
    exact .refl _
  split at h
  · cases h
    exact .refl _
  split at h
  · split at h
    · exact hptr h
    · obtain ⟨r, hr, hk⟩ := Option.map_eq_some_iff.mp h
      cases hk
      exact hptr hr
  · cases h
    exact .refl _

theorem writeHandler_lowOnly {fd : Int} {buf : Nat} {data : Nat → UInt8} {nbytes ret : Int}
    {k k' : Kernel} (h : writeHandler fd buf data nbytes k = some (k', ret)) : LowOnly k.con k'.con := by
  unfold writeHandler at h
  dsimp only at h
  split at h
  · cases h
    exact .refl _
  split at h
  · unfold writePtr at h
    split at h
    · cases h
    · cases h
      exact (Draws.terminalWrite (Draws.permits_anything _ _) (fun _ => trivial) _).lowOnly
    · split at h
      · cases h
        exact .refl _
      · cases h
        exact .refl _
    · cases h
      exact .refl _
    · cases h
      exact .refl _
  · cases h
    exact .refl _

/-- A call reaches the console through its low memory only. -/
theorem CallStep.lowOnly {img : Image} {k k' : Kernel} {c : Call} (hc : ∀ con rtc, c ≠ .device con rtc)
    (h : CallStep img k c k') : LowOnly k.con k'.con := by
  cases c with
  | openFile filename ret =>
      have hcon := openHandler_con img filename k
      rw [show openHandler img filename k = (k', ret) from h] at hcon
      rw [hcon]
      exact .refl _
  | closeFile fd ret =>
      obtain ⟨rfl, -⟩ := h
      exact .refl _
  | read fd buf nbytes copy => exact readHandler_lowOnly h
  | write fd buf data nbytes ret => exact writeHandler_lowOnly h
  | getargs buf nbytes copy =>
      have hcon : (getargsHandler buf nbytes k).1.con = k.con := by
        unfold getargsHandler
        dsimp only
        split
        · rfl
        split <;> rfl
      rw [show getargsHandler buf nbytes k = (k', copy) from h] at hcon
      rw [hcon]
      exact .refl _
  | device con rtc => exact absurd rfl (hc con rtc)

/-- Stores through the user page change its frame only. -/
theorem storeUser_foldl_frame (page : PageEntry) (stores : List (Nat × UInt8)) {c : Console} (hlow : Low c) :
    Low (stores.foldl (Console.storeUser page) c) ∧
    ∀ a, a / pageSize ≠ page.frame → (stores.foldl (Console.storeUser page) c).phys a = c.phys a := by
  induction stores generalizing c with
  | nil => exact ⟨hlow, fun _ _ => rfl⟩
  | cons s stores ih =>
      have hstore : Low (c.storeUser page s) ∧
          ∀ a, a / pageSize ≠ page.frame → (c.storeUser page s).phys a = c.phys a := by
        unfold Console.storeUser
        split
        · refine ⟨⟨hlow.pages, hlow.user, hlow.vidMemAddr⟩, fun a ha => Function.update_of_ne ?_ ..⟩
          rintro rfl
          unfold pageSize at ha
          omega
        · exact ⟨⟨hlow.pages, hlow.user, hlow.vidMemAddr⟩, fun _ _ => rfl⟩
      obtain ⟨hlow', hkept⟩ := ih hstore.1
      exact ⟨hlow', fun a ha => (hkept a ha).trans (hstore.2 a ha)⟩

/-- A successful execute stores into the frame of a slot that was free. -/
theorem execute_frameKept {img : Image} {fr : Frame} {command : List UInt8} {k k' : Kernel} {eip : Nat}
    (h : executeHandler img fr (some command) k = (k', some eip)) (hlow : Low k.con)
    (hslot : k.proc.slot fr < programMax) :
    Low k'.con ∧ ∀ n, n ≠ k.proc.slot fr + 1 → FrameKept n k.con k'.con := by
  obtain ⟨-, dentry, stores, -, -, -, rfl⟩ := executeHandler_some h
  have hframe : (userPageEntry (bottomKernal + pageSize * k.proc.slot fr)).frame =
      1 + (k.proc.slot fr + 1) := by
    have hpage : bottomKernal + pageSize * k.proc.slot fr
        = bottomKernal + pageSize * (k.proc.slot fr + 1) - pageSize := by
      unfold pageSize
      omega
    rw [hpage, userPageEntry_frame hslot (Nat.le_add_left 1 _)]
  obtain ⟨hlow', hkept⟩ :=
    storeUser_foldl_frame (userPageEntry (bottomKernal + pageSize * k.proc.slot fr)) stores hlow
  simp only [Kernel.startProgram, openHandler_con]
  exact ⟨hlow', fun n hne a ha => hkept a (by omega)⟩

/-- The events that move processes. -/
theorem Space.act {img : Image} {k k' : Kernel} {a : Act} (h : Space k) (hs : DisplayedStep img k a k') :
    Space k' ∧ ∀ n, Waiting n k → FrameKept n k.con k'.con := by
  have hwf := h.wf.step hs
  have hcon : LowOnly k.con k'.con ∧ k'.proc.userPage.UserWritable →
      Space k' ∧ ∀ n, Waiting n k → FrameKept n k.con k'.con := fun ⟨hlow, hpage⟩ =>
    ⟨⟨hwf, hpage, hlow.low h.low⟩, fun n hn => hlow.frameKept h.low hn.1.1⟩
  cases a with
  | tick fr =>
      obtain rfl : k' = pitInterruptHandler img fr k := hs.2
      refine hcon ⟨?_, ?_⟩
      · rw [tick_con h.wf.scheduled_ne_zero]
        exact (LowOnly.videoMem k.con _).trans (.schedulerRemapVideo _ _)
      · rw [tick_proc h.wf.scheduled_ne_zero, ticked_userPage]
        exact userPageEntry_writable _
  | terminalSwitch i =>
      obtain rfl := hs.2
      exact hcon ⟨.terminalSwitch _ _, h.writable⟩
  | execute fr command =>
      obtain ⟨hmax, hproc, -⟩ := execute_proc h.wf hs.2
      obtain ⟨hslot, hfree, -⟩ := h.wf.slot fr hmax
      obtain ⟨eip, heip⟩ := hs.2
      obtain ⟨hlow, hkept⟩ := execute_frameKept heip h.low hslot
      refine ⟨⟨hwf, ?_, hlow⟩, fun n hn => hkept n fun heq => not_live_slot hfree (heq ▸ hn.1)⟩
      rw [hproc, launched_userPage]
      exact userPageEntry_writable _
  | halt status =>
      obtain rfl := hs.2
      refine hcon ?_
      by_cases hbase : k.proc.current.pid ≤ 3
      · refine ⟨?_, ?_⟩
        · have hpid : k.cli.proc.current.pid ≤ 3 := hbase
          simp only [haltHandler, if_pos hpid]
          exact (Draws.printText _ _ _).lowOnly
        · rw [haltHandler_base status hbase]
          exact h.writable
      · rw [haltHandler_proc status h.wf.pcbCurrent_ne_zero (by omega)]
        refine ⟨.refl _, ?_⟩
        rw [halted_userPage]
        exact userPageEntry_writable _

/-- The calls, without what they copy. -/
theorem Space.callStep {img : Image} {k k' : Kernel} {c : Call} (h : Space k)
    (hc : ∀ con rtc, c ≠ .device con rtc) (hs : CallStep img k c k') :
    Space k' ∧ k'.proc.current.pid = k.proc.current.pid ∧ ∀ n, 1 ≤ n → FrameKept n k.con k'.con := by
  have hlow := hs.lowOnly hc
  obtain ⟨arr, harr⟩ := hs.retabled
  refine ⟨⟨harr.wf h.wf, ?_, hlow.low h.low⟩, ?_, fun n hn => hlow.frameKept h.low hn⟩
  · obtain ⟨rtcFlag, flag, heq⟩ := harr
    rw [heq]
    exact h.writable
  · obtain ⟨rtcFlag, flag, heq⟩ := harr
    rw [heq]
    simp [Proc.current]

/-- **One event keeps the space, and the frames of the processes that wait.** -/
theorem Space.step {img : Image} {m m' : Machine} {e : MemEvent} (h : Space m.kernel)
    (hs : MemStep img m e m') :
    Space m'.kernel ∧ ∀ n, Waiting n m.kernel → FrameKept n m.kernel.con m'.kernel.con := by
  cases e with
  | act a => exact h.act hs.1
  | call c =>
      have hc : ∀ con rtc, c ≠ .device con rtc := by
        rintro con rtc rfl
        exact hs
      have hstep : OffKernel c.copied ∧
          ∃ k, CallStep img m.kernel c k ∧ m' = ⟨k.copyOut m.vidmapped c.copied, m.vidmapped⟩ := by
        cases c with
        | device con rtc => exact absurd rfl (hc con rtc)
        | _ => exact hs
      obtain ⟨hoff, k, hcall, rfl⟩ := hstep
      obtain ⟨hspace, hpid, hkept⟩ := h.callStep hc hcall
      obtain ⟨hspace', -, hkept'⟩ := hspace.copyOut m.vidmapped hoff
      refine ⟨hspace', fun n hn a ha => ?_⟩
      exact (hkept' n hn.1.1 hn.1.2.1 (hpid ▸ hn.2) a ha).trans (hkept n hn.1.1 a ha)
  | key kb input =>
      obtain rfl := hs
      have hlow : LowOnly m.kernel.con _ :=
        .keyboardInterHandler m.kernel.con m.kernel.proc.currProcess input kb
      exact ⟨⟨h.wf, h.writable, hlow.low h.low⟩, fun n hn => hlow.frameKept h.low hn.1.1⟩
  | vidmap screenStart =>
      have hlow : LowOnly m.kernel.con (m.kernel.con.mapUserVideo videoMemAddr) :=
        .mapUserVideo _ fun _ => videoPage_text
      by_cases hnull : screenStart = 0 ∨ screenStart = kernelMem
      · simp only [MemStep, vidmapHandler, if_pos hnull, Option.isSome_none, Bool.false_eq_true,
          if_false] at hs
        obtain rfl := hs
        exact ⟨⟨h.wf.cli, h.writable, h.low⟩, fun _ _ _ _ => rfl⟩
      · simp only [MemStep, vidmapHandler, if_neg hnull, Option.isSome_some, if_true] at hs
        obtain ⟨hoff, rfl⟩ := hs
        have hspace : Space ⟨m.kernel.proc.cli.sti, m.kernel.con.mapUserVideo videoMemAddr, m.kernel.rtc⟩ :=
          ⟨(Proc.Retabled.of_flag m.kernel.proc true).wf h.wf, h.writable, hlow.low h.low⟩
        obtain ⟨hspace', -, hkept⟩ := hspace.copyOut true hoff
        refine ⟨hspace', fun n hn a ha => ?_⟩
        exact (hkept n hn.1.1 hn.1.2.1 hn.2 a ha).trans (hlow.frameKept h.low hn.1.1 a ha)
  | store va v =>
      obtain rfl := hs
      cases hpa : m.kernel.userAccess m.vidmapped va with
      | none => exact ⟨⟨h.wf, h.writable, h.low.pages, h.low.user, h.low.vidMemAddr⟩, fun _ _ _ _ => rfl⟩
      | some pa =>
          obtain ⟨hpage, hkernel⟩ := kernelAccess_of_user hpa
          obtain ⟨hspace, -, hkept⟩ := h.storeAt m.vidmapped hpage v
          rw [hkernel] at hspace hkept
          exact ⟨hspace, fun n hn => hkept n hn.1.1 hn.1.2.1 hn.2⟩

/-! ## From power-on -/

/-- A booted kernel whose page tables are as `entry` and the scheduler leave them. -/
structure BootedSpace (m : Machine) : Prop where
  booted : Booted m.kernel
  writable : m.kernel.proc.userPage.UserWritable
  low : Low m.kernel.con

/-- `entry` maps one page, the displayed text. -/
theorem low_entry {k : Kernel} (hvideo : k.con.pageVirtualMem.present = false) : Low (entry k).con := by
  have hvid : ∀ t, ((entry k).con.termArr t).vidMemAddr = videoAddr t := by
    intro t
    simp only [entry, Console.initTerminal, Console.setTerm]
    by_cases ht : t = 0
    · rw [ht, Function.update_self]
    · rw [Function.update_of_ne ht]
  refine ⟨fun i hpres => ?_, fun hpres => ?_, hvid⟩
  · have hpages : (entry k).con.pageTable = Function.update (fun _ => .zero) (Console.pageIndex videoMemAddr)
        (PageEntry.zero.setBasePte (videoMemAddr / 2 ^ 12)).grant := rfl
    rw [hpages, Function.update_apply] at hpres ⊢
    by_cases hi : i = Console.pageIndex videoMemAddr
    · rw [if_pos hi]
      exact videoPage_text
    · rw [if_neg hi] at hpres
      cases hpres
  · rw [show (entry k).con.pageVirtualMem = k.con.pageVirtualMem from rfl, hvideo] at hpres
    cases hpres

theorem startProgram_con (img : Image) (fr : Frame) (slot : Nat) (args : ArgBuf) (k : Kernel) :
    (k.startProgram img fr slot args).con = k.con := by
  simp only [Kernel.startProgram, openHandler_con]

theorem startProgram_userPage (img : Image) (fr : Frame) (slot : Nat) (args : ArgBuf) (k : Kernel) :
    (k.startProgram img fr slot args).proc.userPage = k.proc.userPage := by
  simp only [Kernel.startProgram, openHandler_stdin, openHandler_stdout]
  split <;> rfl

/-- A shell booted by the scheduler. -/
theorem bootShell_space {img : Image} (hload : ShellLoads img) (fr : Frame) (stack : Nat) {k : Kernel}
    (hcount : k.proc.programCount < programMax) (hlow : Low k.con) :
    Low (bootShell img fr stack k).con ∧ (bootShell img fr stack k).proc.userPage.UserWritable := by
  obtain ⟨k', eip, hexec⟩ := (shell_starts_iff fr
    (k := { k with proc := { k.proc with esp := stack, ebp := stack } }) hcount).mpr hload
  have hk' : bootShell img fr stack k = k' := congrArg Prod.fst hexec
  obtain ⟨-, dentry, stores, -, -, -, rfl⟩ := executeHandler_some hexec
  rw [hk', startProgram_con, startProgram_userPage]
  exact ⟨(storeUser_foldl_frame _ stores hlow).1, userPageEntry_writable _⟩

/-- A tick at any time of the boot. -/
theorem Started.tick_space {img : Image} (hload : ShellLoads img) (fr : Frame) {n : Nat} {k : Kernel}
    (h : Started n k.proc) (hlow : Low k.con) :
    Low (pitInterruptHandler img fr k).con ∧ (pitInterruptHandler img fr k).proc.userPage.UserWritable := by
  have hcount : k.proc.programCount < programMax := by
    rw [h.programCount]
    unfold programMax
    omega
  show Low (scheduler img fr k.cli).con ∧ (scheduler img fr k.cli).proc.userPage.UserWritable
  unfold scheduler
  dsimp only
  split
  · exact bootShell_space hload fr _ hcount ((LowOnly.videoMem k.con _).low hlow)
  · have hnext : ∀ t, Low ((({ k.con with videoMem := videoAddr t } : Console)).schedulerRemapVideo t) :=
      fun t => ((LowOnly.videoMem k.con _).trans (.schedulerRemapVideo _ _)).low hlow
    split
    · exact bootShell_space hload fr _ hcount (hnext _)
    · exact ⟨hnext _, userPageEntry_writable _⟩

/-- The run of the boot, with the tables. -/
theorem Started.run_space {img : Image} (hload : ShellLoads img) {n : Nat} {k k' : Kernel} {as : List Act}
    (h : Started n k.proc) (hlow : Low k.con) (hpage : 0 < n → k.proc.userPage.UserWritable)
    (hrun : Run (EventStep img) k (as.map .act) k')
    (has : ∀ a ∈ as, (∃ fr, a = .tick fr) ∨ ∃ i, a = .terminalSwitch i) :
    Started (n + tickCount (as.map .act)) k'.proc ∧ Low k'.con ∧
      (0 < n + tickCount (as.map .act) → k'.proc.userPage.UserWritable) := by
  induction as generalizing n k with
  | nil =>
      obtain rfl := hrun
      exact ⟨h, hlow, hpage⟩
  | cons a as ih =>
      obtain ⟨m, ⟨-, hm⟩, hrest⟩ := hrun
      have has' : ∀ a ∈ as, (∃ fr, a = .tick fr) ∨ ∃ i, a = .terminalSwitch i :=
        fun a ha => has a (List.mem_cons_of_mem _ ha)
      rcases has a List.mem_cons_self with ⟨fr, rfl⟩ | ⟨i, rfl⟩
      · obtain rfl := hm
        obtain ⟨hlow', hpage'⟩ := h.tick_space hload fr hlow
        have hcount : n + tickCount ((.tick fr :: as).map .act) = n + 1 + tickCount (as.map .act) := by
          show n + (tickCount (as.map .act) + 1) = n + 1 + tickCount (as.map .act)
          omega
        rw [hcount]
        exact ih (h.tick hload) hlow' (fun _ => hpage') hrest has'
      · obtain rfl := hm
        exact ih (k := { k with con := (k.con.terminalSwitch i).1 }) h
          ((LowOnly.terminalSwitch k.con i).low hlow) hpage hrest has'

/-- **From power-on to a booted machine**: ticks and terminal switches, in any order. -/
theorem BootedSpace.of_power_on {img : Image} {k k' : Kernel} {as : List Act} (hzero : Zeroed k)
    (hvideo : k.con.pageVirtualMem.present = false) (hload : ShellLoads img)
    (hrun : Run (EventStep img) (entry k) (as.map .act) k')
    (has : ∀ a ∈ as, (∃ fr, a = .tick fr) ∨ ∃ i, a = .terminalSwitch i)
    (hticks : 3 ≤ tickCount (as.map .act)) : BootedSpace ⟨k', false⟩ := by
  obtain ⟨hstarted, hlow, hpage⟩ := (Started.of_zeroed hzero).run_space hload (low_entry hvideo)
    (fun h0 => absurd h0 (Nat.lt_irrefl 0)) hrun has
  exact ⟨hstarted.booted (by omega), hpage (by omega), hlow⟩

/-! ## Whole runs -/

theorem BootedSpace.space {m : Machine} (h : BootedSpace m) : Space m.kernel :=
  ⟨WF.of_booted h.booted, h.writable, h.low⟩

theorem Space.run {img : Image} {m m' : Machine} {es : List MemEvent} (h : Space m.kernel)
    (hrun : Run (MemStep img) m es m') : Space m'.kernel :=
  hrun.invariant (I := fun m => Space m.kernel) h fun _ _ _ h hs => (h.step hs).1

/-- The machine behind `loadedKernel`, three ticks after power-on. -/
def tickedMachine : Machine :=
  let k : Kernel := { loadedKernel with con := { loadedKernel.con with pageVirtualMem := .zero } }
  let tick := pitInterruptHandler shellImage (.at 0 0)
  ⟨tick (tick (tick (entry k))), false⟩

theorem started_tickedMachine : Started 3 tickedMachine.kernel.proc := by
  have hzero : Zeroed { loadedKernel with con := { loadedKernel.con with pageVirtualMem := .zero } } :=
    ⟨rfl, fun _ _ => rfl, fun _ => rfl, rfl⟩
  exact (((Started.of_zeroed hzero).tick shellLoads_shellImage).tick shellLoads_shellImage).tick
    shellLoads_shellImage

theorem bootedSpace_tickedMachine : BootedSpace tickedMachine := by
  have hrun : Run (EventStep shellImage)
      (entry { loadedKernel with con := { loadedKernel.con with pageVirtualMem := .zero } })
      (([.tick (.at 0 0), .tick (.at 0 0), .tick (.at 0 0)] : List Act).map .act) tickedMachine.kernel :=
    ⟨_, ⟨trivial, rfl⟩, _, ⟨trivial, rfl⟩, _, ⟨trivial, rfl⟩, rfl⟩
  refine .of_power_on ⟨rfl, fun _ _ => rfl, fun _ => rfl, rfl⟩ rfl shellLoads_shellImage hrun ?_ (by decide)
  intro a ha
  simp only [List.mem_cons, List.not_mem_nil, or_false, or_self] at ha
  exact Or.inl ⟨_, ha⟩

theorem storeAt_proc (k : Kernel) (pa : Option Nat) (v : UInt8) : (k.storeAt pa v).proc = k.proc := by
  cases pa <;> rfl

end Ece391
