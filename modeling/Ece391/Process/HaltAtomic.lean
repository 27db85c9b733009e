/-
# Ece391.Process.HaltAtomic — `halt_handler` against the timer.

`halt_handler` starts with `cli` and ends with `sti`, but in between it calls `close_handler`, which
sets the interrupt flag whenever it closes something.  A tick taken there saves the registers of the
halting code in the PCB of the PARENT, since `sched_pid` already names the parent; when the slot is
scheduled again `pcb_current` is the parent too, and the rest of the handler works on the parent.

`haltOps` is the handler cut at the places where the flag can be set.  `Mid` describes the state
between two of its operations: which process `pcb_current` names and what the six descriptor tables
are.  The exact condition under which no placement of ticks shows is `AtomicHalt`.
-/
import Ece391.Process.Calls
import Ece391.Lib.Interrupt

open Ece391.Lib

namespace Ece391

/-! ## The handler, cut at its interruptible points -/

/-- `halt_handler` in progress: the kernel and the two locals. -/
structure Halting where
  k : Kernel
  ebpParent : Nat
  espParent : Nat

namespace Halting

/-- The state of `halt_handler` at its first instruction.  System calls go through a trap gate, so the
interrupt flag is still set there. -/
def start (k : Kernel) : Halting := ⟨k.sti, 0, 0⟩

/-- From `cli()` to the last assignment before the first `close_handler`. -/
def enter (s : Halting) : Halting :=
  let p := s.k.proc.cli
  { k := { s.k with proc := p.haltEnter }
    ebpParent := (p.pcb p.current.parentPcb).ebp
    espParent := (p.pcb p.current.parentPcb).esp }

/-- `close_handler(fd)`. -/
def close (fd : Nat) (s : Halting) : Halting :=
  { s with k := { s.k with proc := (closeHandler fd s.k.proc).1 } }

/-- `pcb_current = pcb_current->parent_pcb`. -/
def parent (s : Halting) : Halting := { s with k := { s.k with proc := s.k.proc.haltParent } }

/-- The assembly at the end. -/
def leave (s : Halting) : Halting :=
  { s with k := { s.k with proc := s.k.proc.haltLeave s.espParent s.ebpParent } }

/-- A timer tick. -/
def tick (img : Image) (fr : Frame) (s : Halting) : Halting :=
  { s with k := pitInterruptHandler img fr s.k }

end Halting

/-- The operations of `halt_handler`, for a process other than the base shells. -/
def haltOps : List (Halting → Halting) :=
  .enter :: (haltDescriptors.map Halting.close ++ [.parent, .leave])

/-- A run of closes, on the process table. -/
theorem foldl_close (fds : List Nat) (s : Halting) :
    (fds.map Halting.close).foldl (fun s f => f s) s =
      { s with k := { s.k with
        proc := fds.foldl (fun p (fd : Nat) => (closeHandler fd p).1) s.k.proc } } := by
  induction fds generalizing s with
  | nil => rfl
  | cons fd fds ih =>
      rw [List.map_cons, List.foldl_cons, ih]
      rfl

/-- Without interruption the operations are `halt_handler`. -/
theorem haltOps_uninterrupted {k : Kernel} (status : UInt8) (hbase : 3 < k.proc.current.pid) :
    (haltOps.foldl (fun s f => f s) (Halting.start k)).k = (haltHandler status k).1 := by
  have hpid : ¬ k.cli.proc.current.pid ≤ 3 := by
    have : k.cli.proc.current.pid = k.proc.current.pid := rfl
    omega
  have hhalt : (haltHandler status k).1 = { k with proc := k.proc.cli.haltProcess } := by
    simp only [haltHandler, if_neg hpid]
    rfl
  have hstart : (Halting.start k).enter =
      ⟨{ k with proc := k.proc.cli.haltEnter }, (k.proc.cli.pcb k.proc.cli.current.parentPcb).ebp,
        (k.proc.cli.pcb k.proc.cli.current.parentPcb).esp⟩ := rfl
  rw [hhalt]
  simp only [haltOps, List.foldl_cons, List.foldl_append, hstart, foldl_close, List.foldl_nil,
    Halting.parent, Halting.leave, Proc.haltProcess]

/-- **`HaltRun img k ts k'`** — the current process of `k` halts, the ticks `ts` fall where the flag
permits between the start of the handler and its final `sti`, and the handler leaves `k'`.  The
operations go on only while the slot of the halting process is the running one. -/
def HaltRun (img : Image) (k : Kernel) (ts : List Frame) (k' : Kernel) : Prop :=
  ∃ s', Interrupted (fun s : Halting => s.k.proc.intFlag = true)
    (fun s => s.k.proc.currProcess = k.proc.currProcess) (Halting.tick img) haltOps
    (Halting.start k) ts s' ∧ s'.k = k'

/-- `n` ticks in a row. -/
def tickAll (img : Image) (ts : List Frame) (k : Kernel) : Kernel :=
  ticks (pitInterruptHandler img) ts k

/-- **`SameTables k k'`** — descriptor tables, `pid_arr`, `sched_pid` and `pcb_current` agree. -/
structure SameTables (k k' : Kernel) : Prop where
  tables : ∀ n, 1 ≤ n → n ≤ programMax → (k.proc.pcbOf n).pcbArr = (k'.proc.pcbOf n).pcbArr
  pidArr : k.proc.pidArr = k'.proc.pidArr
  schedPid : k.proc.schedPid = k'.proc.schedPid
  pcbCurrent : k.proc.pcbCurrent = k'.proc.pcbCurrent

/-! ## Ticks -/

/-- What any number of ticks leaves alone, and where it leads. -/
structure TicksEffect (p p' : Proc) (n : Nat) : Prop where
  pidArr : p'.pidArr = p.pidArr
  schedPid : p'.schedPid = p.schedPid
  tables : ∀ m, (p'.pcbOf m).pcbArr = (p.pcbOf m).pcbArr
  lineage : ∀ m, (p'.pcbOf m).lineage = (p.pcbOf m).lineage
  currProcess : p'.currProcess.val = (p.currProcess.val + n) % 3
  pcbCurrent : p'.pcbCurrent = if n = 0 then p.pcbCurrent else pcbAddr (p.schedPid p'.currProcess)
  intFlag : p.intFlag = true → p'.intFlag = true

theorem ticksEffect (img : Image) (ts : List Frame) {k : Kernel}
    (hsched : ∀ t, k.proc.schedPid t ≠ 0) :
    TicksEffect k.proc (tickAll img ts k).proc ts.length := by
  induction ts generalizing k with
  | nil => exact ⟨rfl, rfl, fun _ => rfl, fun _ => rfl, (Nat.mod_eq_of_lt k.proc.currProcess.isLt).symm,
      rfl, id⟩
  | cons fr ts ih =>
      have hp : (pitInterruptHandler img fr k).proc = k.proc.ticked fr := tick_proc hsched
      have h := ih (k := pitInterruptHandler img fr k) (by rw [hp]; exact hsched)
      rw [hp] at h
      have hall : tickAll img (fr :: ts) k = tickAll img ts (pitInterruptHandler img fr k) := rfl
      rw [hall]
      refine ⟨h.pidArr, h.schedPid, ?_, ?_, ?_, ?_, fun _ => h.intFlag (ticked_intFlag k.proc fr)⟩
      · exact fun m => (h.tables m).trans (ticked_pcbArr k.proc fr _)
      · exact fun m => (h.lineage m).trans (ticked_lineage k.proc fr _)
      · rw [h.currProcess, ticked_currProcess, List.length_cons, Fin.val_add]
        have : ((1 : Fin 3) : Nat) = 1 := rfl
        omega
      · have hsucc : ¬ (fr :: ts).length = 0 := by simp
        rw [h.pcbCurrent, if_neg hsucc, ticked_schedPid]
        cases ts with
        | nil =>
            have hcur : (tickAll img [] (pitInterruptHandler img fr k)).proc.currProcess
                = k.proc.currProcess + 1 := by
              show (pitInterruptHandler img fr k).proc.currProcess = _
              rw [hp, ticked_currProcess]
            rw [if_pos List.length_nil, ticked_pcbCurrent, hcur]
        | cons fr' ts => rw [if_neg (by simp)]

/-! ## Between two operations -/

/-- **`Mid p0 x tb p`** — the handler that started in `p0` has freed the slot and given it to the
parent, `pcb_current` names process `x`, and the descriptor tables are `tb`. -/
structure Mid (p0 : Proc) (x : Nat) (tb : Nat → Nat → FileDescriptor) (p : Proc) : Prop where
  currProcess : p.currProcess = p0.currProcess
  pidArr : p.pidArr = p0.halted.pidArr
  schedPid : p.schedPid = p0.halted.schedPid
  pcbCurrent : p.pcbCurrent = pcbAddr x
  tables : ∀ n ≤ programMax, (p.pcbOf n).pcbArr = tb n
  lineage : ∀ n, (p.pcbOf n).lineage = (p0.pcbOf n).lineage

namespace Mid

variable {p0 p p' : Proc} {x : Nat} {tb : Nat → Nat → FileDescriptor}

theorem table (h : Mid p0 x tb p) (hx : x ≤ programMax) : p.table = tb x := by
  rw [Proc.table, Proc.current, h.pcbCurrent]
  exact h.tables x hx

/-- The state after `enter`, perhaps some ticks after the handler was called. -/
theorem enter {n : Nat} (h0 : WF p0) (hticks : TicksEffect p0 p n)
    (hback : p.currProcess = p0.currProcess) :
    Mid p0 p0.current.pid (fun n => (p0.pcbOf n).pcbArr) p.cli.haltEnter := by
  have hcur : p.pcbCurrent = p0.pcbCurrent := by
    rw [hticks.pcbCurrent, hback, ← h0.current]
    exact ite_self _
  have hlin := hticks.lineage p0.current.pid
  have haddr : p0.pcbCurrent = pcbAddr p0.current.pid := by rw [h0.current_pid, h0.current]
  simp only [Pcb.lineage, Prod.mk.injEq, Proc.pcbOf, ← haddr] at hlin
  have hcurrent : p.cli.current = p.pcb p0.pcbCurrent := by rw [← hcur]; rfl
  have hpcb : ∀ a, ∃ argbuf argsflag, p.cli.haltEnter.pcb a =
      { p.pcb a with argbuf := argbuf, argsflag := argsflag } := by
    intro a
    by_cases ha : a = p.pcbCurrent
    · subst ha
      exact ⟨.zero, 0, by simp [Proc.haltEnter, Proc.setPcb, Proc.cli]⟩
    · exact ⟨(p.pcb a).argbuf, (p.pcb a).argsflag, by
        simp [Proc.haltEnter, Proc.setPcb, Proc.cli, ha]⟩
  refine ⟨hback, ?_, ?_, ?_, ?_, ?_⟩
  · show Function.update p.pidArr (p.cli.current.pid - 1) 0 = _
    rw [hcurrent, hlin.1, hticks.pidArr]
    rfl
  · show Function.update p.schedPid p.currProcess p.cli.current.parentPid = _
    rw [hcurrent, hlin.2.1, hticks.schedPid, hback]
    rfl
  · exact hcur.trans haddr
  · intro n _
    obtain ⟨argbuf, argsflag, hb⟩ := hpcb (pcbAddr n)
    rw [Proc.pcbOf, hb]
    exact hticks.tables n
  · intro n
    obtain ⟨argbuf, argsflag, hb⟩ := hpcb (pcbAddr n)
    rw [Proc.pcbOf, hb]
    exact hticks.lineage n

/-- `close_handler` works on the process `pcb_current` names, and sets the flag if it closed
something. -/
theorem close (h : Mid p0 x tb p) (hx : x ≤ programMax) {fd : Nat} (h2 : 2 ≤ fd) (h7 : fd ≤ 7) :
    Mid p0 x (Function.update tb x (clearFlag (tb x) fd)) (closeHandler fd p).1 ∧
    (closeHandler fd p).1.intFlag = decide ((tb x fd).flags ≠ 0) := by
  have hne : p.pcbCurrent ≠ 0 := by
    rw [h.pcbCurrent]
    exact pcbAddr_ne_zero hx
  rw [closeHandler_eq h2 h7 hne, h.table hx]
  refine ⟨⟨h.currProcess, h.pidArr, h.schedPid, h.pcbCurrent, ?_, ?_⟩, rfl⟩
  · intro n hn
    by_cases hnx : n = x
    · subst hnx
      simp [Proc.withTable, Proc.pcbOf, h.pcbCurrent]
    · have haddr : pcbAddr n ≠ pcbAddr x := fun heq => hnx (pcbAddr_injective hn hx heq)
      simp [Proc.withTable, Proc.pcbOf, h.pcbCurrent, haddr, hnx]
      exact h.tables n hn
  · intro n
    rw [← h.lineage n]
    by_cases hn : pcbAddr n = p.pcbCurrent
    · simp [Proc.withTable, Proc.pcbOf, hn, Proc.current, Pcb.lineage]
    · simp [Proc.withTable, Proc.pcbOf, hn]

/-- Ticks hand the processor back with `pcb_current` naming the parent. -/
theorem afterTicks (h : Mid p0 x tb p) {n : Nat} (hticks : TicksEffect p p' n)
    (hback : p'.currProcess = p0.currProcess) :
    Mid p0 (if n = 0 then x else p0.current.parentPid) tb p' := by
  refine ⟨hback, hticks.pidArr.trans h.pidArr, hticks.schedPid.trans h.schedPid, ?_, ?_, ?_⟩
  · rw [hticks.pcbCurrent, hback, h.schedPid, halted_schedPid, Function.update_self, h.pcbCurrent]
    split <;> rfl
  · exact fun m hm => (hticks.tables m).trans (h.tables m hm)
  · exact fun m => (hticks.lineage m).trans (h.lineage m)

/-- `pcb_current = pcb_current->parent_pcb`. -/
theorem parent (h : Mid p0 x tb p) {y : Nat} (hy : (p0.pcbOf x).parentPcb = pcbAddr y) :
    Mid p0 y tb p.haltParent := by
  refine ⟨h.currProcess, h.pidArr, h.schedPid, ?_, h.tables, h.lineage⟩
  have hlin := h.lineage x
  simp only [Pcb.lineage, Prod.mk.injEq] at hlin
  show p.current.parentPcb = _
  rw [Proc.current, h.pcbCurrent, ← hy]
  exact hlin.2.2

theorem leave (h : Mid p0 x tb p) (esp ebp : Nat) : Mid p0 x tb (p.haltLeave esp ebp) :=
  ⟨h.currProcess, h.pidArr, h.schedPid, h.pcbCurrent, h.tables, h.lineage⟩

end Mid

/-! ## The rest of the handler, from an operation on -/

/-- The rest of `halt_handler` with the descriptors `fds` still to be closed, on slot `t`. -/
def HaltTail (img : Image) (t : Fin 3) (fds : List Nat) (s : Halting) (ts : List Frame)
    (s' : Halting) : Prop :=
  Interrupted (fun s : Halting => s.k.proc.intFlag = true) (fun s => s.k.proc.currProcess = t)
    (Halting.tick img) (fds.map Halting.close ++ [.parent, .leave]) s ts s'

theorem ticks_halting (img : Image) (ts : List Frame) (s : Halting) :
    ticks (Halting.tick img) ts s = { s with k := tickAll img ts s.k } := by
  induction ts generalizing s with
  | nil => rfl
  | cons fr ts ih =>
      rw [ticks_cons, ih]
      rfl

section Tail

variable {img : Image} {p0 : Proc} {tb : Nat → Nat → FileDescriptor} {x : Nat} {s s' : Halting}
  {ts : List Frame}

/-- A group of ticks between two operations. -/
theorem Mid.tickGroup (h0 : WF p0) (hbase : 3 < p0.current.pid) (h : Mid p0 x tb s.k.proc)
    (hback : (ticks (Halting.tick img) ts s).k.proc.currProcess = p0.currProcess) :
    Mid p0 (if ts.length = 0 then x else p0.current.parentPid) tb
      (ticks (Halting.tick img) ts s).k.proc ∧ ts.length % 3 = 0 := by
  rw [ticks_halting] at hback ⊢
  have hsched : ∀ t, s.k.proc.schedPid t ≠ 0 := by
    rw [h.schedPid]
    exact (h0.halted hbase).scheduled_ne_zero
  have heff := ticksEffect img ts hsched
  refine ⟨h.afterTicks heff hback, ?_⟩
  have hlt := p0.currProcess.isLt
  have hval := heff.currProcess
  rw [show (tickAll img ts s.k).proc.currProcess = p0.currProcess from hback, h.currProcess] at hval
  omega

/-- The descriptors of `fds` are closed in a table. -/
def Closed (arr : Nat → FileDescriptor) (fds : List Nat) : Prop := ∀ fd ∈ fds, (arr fd).flags = 0

theorem Mid.close_closed (h : Mid p0 x tb s.k.proc) (hx : x ≤ programMax) {fd : Nat}
    (h2 : 2 ≤ fd) (h7 : fd ≤ 7) (hclosed : (tb x fd).flags = 0) :
    Mid p0 x tb (s.close fd).k.proc ∧ (s.close fd).k.proc.intFlag = false := by
  obtain ⟨hmid, hflag⟩ := h.close hx h2 h7
  rw [clearFlag_of_closed hclosed, Function.update_eq_self] at hmid
  exact ⟨hmid, by rw [show (s.close fd).k.proc = (closeHandler fd s.k.proc).1 from rfl, hflag]; simp [hclosed]⟩

/-- What the handler leads to when nothing is left to close: the assignment of `pcb_current` and the
final assembly. -/
theorem haltTail_nil (h0 : WF p0) (hbase : 3 < p0.current.pid) {y : Nat}
    (hy : (p0.pcbOf y).parentPcb = pcbAddr p0.current.parentPid) (h : Mid p0 y tb s.k.proc)
    (hrun : Interrupted (fun s : Halting => s.k.proc.intFlag = true)
      (fun s => s.k.proc.currProcess = p0.currProcess) (Halting.tick img) [.leave] s.parent ts s') :
    Mid p0 p0.current.parentPid tb s'.k.proc ∧ ts.length % 3 = 0 := by
  obtain ⟨ts₁, ts₂, rfl, -, hback, hrest⟩ := hrun.head
  obtain ⟨rfl, rfl⟩ := hrest.nil
  have hpar : Mid p0 p0.current.parentPid tb s.parent.k.proc := h.parent hy
  obtain ⟨hmid, hlen⟩ := hpar.tickGroup h0 hbase hback
  rw [ite_self] at hmid
  exact ⟨hmid.leave _ _, by simpa using hlen⟩

/-- Once `pcb_current` names the parent, a base shell, and the parent has nothing to close. -/
theorem haltTail_switched (h0 : WF p0) (hbase : 3 < p0.current.pid)
    (hshell : (p0.pcbOf p0.current.parentPid).parentPcb = pcbAddr p0.current.parentPid)
    (hpar : p0.current.parentPid ≤ programMax)
    {fds : List Nat} (hfds : ∀ fd ∈ fds, 2 ≤ fd ∧ fd ≤ 7)
    (hclosed : Closed (tb p0.current.parentPid) fds)
    (h : Mid p0 p0.current.parentPid tb s.k.proc) (hrun : HaltTail img p0.currProcess fds s ts s') :
    Mid p0 p0.current.parentPid tb s'.k.proc ∧ ts.length % 3 = 0 := by
  induction fds generalizing s ts with
  | nil =>
      obtain ⟨ts₁, ts₂, rfl, -, hback, hrest⟩ := hrun.head
      obtain ⟨hmid, hlen₁⟩ := h.tickGroup h0 hbase hback
      rw [ite_self] at hmid
      obtain ⟨hend, hlen₂⟩ := haltTail_nil h0 hbase hshell hmid hrest
      exact ⟨hend, by rw [List.length_append]; omega⟩
  | cons fd fds ih =>
      obtain ⟨ts₁, ts₂, rfl, -, hback, hrest⟩ := hrun.head
      obtain ⟨hmid, hlen₁⟩ := h.tickGroup h0 hbase hback
      rw [ite_self] at hmid
      obtain ⟨h2, h7⟩ := hfds fd (by simp)
      have hnext := (hmid.close_closed hpar h2 h7 (hclosed fd (by simp))).1
      obtain ⟨hend, hlen₂⟩ := ih (fun fd hfd => hfds fd (by simp [hfd]))
        (fun fd hfd => hclosed fd (by simp [hfd])) hnext hrest
      exact ⟨hend, by rw [List.length_append]; omega⟩

/-- While `pcb_current` names the halting process and nothing of its own is left to close.  If the flag
is set the parent must be a base shell with nothing to close. -/
theorem haltTail_closed (h0 : WF p0) (hbase : 3 < p0.current.pid) {fds : List Nat}
    (hfds : ∀ fd ∈ fds, 2 ≤ fd ∧ fd ≤ 7) (hclosed : Closed (tb p0.current.pid) fds)
    (h : Mid p0 p0.current.pid tb s.k.proc)
    (hflag : s.k.proc.intFlag = true →
      p0.current.parentPid ≤ 3 ∧ Closed (tb p0.current.parentPid) fds)
    (hrun : HaltTail img p0.currProcess fds s ts s') :
    Mid p0 p0.current.parentPid tb s'.k.proc ∧ ts.length % 3 = 0 := by
  have hlive := h0.current_live
  have hof := h0.current_pcbOf
  have hparLive := (h0.parentLive _ hlive hbase).1
  have hparPcb := h0.parentPcb _ hlive hbase
  rw [← hof] at hparLive hparPcb
  have hshell : p0.current.parentPid ≤ 3 →
      (p0.pcbOf p0.current.parentPid).parentPcb = pcbAddr p0.current.parentPid :=
    h0.shellParent _ hparLive.1
  induction fds generalizing s ts with
  | nil =>
      obtain ⟨ts₁, ts₂, rfl, hen, hback, hrest⟩ := hrun.head
      obtain ⟨hmid, hlen₁⟩ := h.tickGroup h0 hbase hback
      rcases hen with rfl | hen
      · obtain ⟨hend, hlen₂⟩ := haltTail_nil h0 hbase (hof ▸ hparPcb) hmid hrest
        exact ⟨hend, by simpa using hlen₂⟩
      · by_cases hts : ts₁.length = 0
        · rw [if_pos hts] at hmid
          obtain ⟨hend, hlen₂⟩ := haltTail_nil h0 hbase (hof ▸ hparPcb) hmid hrest
          exact ⟨hend, by rw [List.length_append]; omega⟩
        · rw [if_neg hts] at hmid
          obtain ⟨hend, hlen₂⟩ := haltTail_nil h0 hbase (hshell (hflag hen).1) hmid hrest
          exact ⟨hend, by rw [List.length_append]; omega⟩
  | cons fd fds ih =>
      obtain ⟨ts₁, ts₂, rfl, hen, hback, hrest⟩ := hrun.head
      obtain ⟨hmid, hlen₁⟩ := h.tickGroup h0 hbase hback
      obtain ⟨h2, h7⟩ := hfds fd (by simp)
      have hfdsRest : ∀ fd ∈ fds, 2 ≤ fd ∧ fd ≤ 7 := fun fd hfd => hfds fd (by simp [hfd])
      have hclosedRest : Closed (tb p0.current.pid) fds := fun fd hfd => hclosed fd (by simp [hfd])
      by_cases hts : ts₁.length = 0
      · rw [if_pos hts] at hmid
        obtain ⟨hnext, hoff⟩ := hmid.close_closed hlive.2.1 h2 h7 (hclosed fd (by simp))
        obtain ⟨hend, hlen₂⟩ := ih hfdsRest hclosedRest hnext (fun hon => by rw [hoff] at hon; cases hon)
          hrest
        exact ⟨hend, by rw [List.length_append]; omega⟩
      · -- the slot was left and taken up again: from here on `pcb_current` names the parent
        rw [if_neg hts] at hmid
        obtain ⟨h3, hparClosed⟩ := hflag (hen.resolve_left (by simpa using hts))
        have hnext := (hmid.close_closed hparLive.2.1 h2 h7 (hparClosed fd (by simp))).1
        obtain ⟨hend, hlen₂⟩ := haltTail_switched h0 hbase (hshell h3) hparLive.2.1 hfdsRest
          (fun fd hfd => hparClosed fd (by simp [hfd])) hnext hrest
        exact ⟨hend, by rw [List.length_append]; omega⟩

/-- With one descriptor `d` of the halting process still open. -/
theorem haltTail_one (h0 : WF p0) (hbase : 3 < p0.current.pid) (hshell : p0.current.parentPid ≤ 3)
    {before after : List Nat} {d : Nat} (hfds : ∀ fd ∈ before ++ d :: after, 2 ≤ fd ∧ fd ≤ 7)
    (hbefore : Closed (tb p0.current.pid) before) (hafter : Closed (tb p0.current.pid) after)
    (hpar : Closed (tb p0.current.parentPid) after) (h : Mid p0 p0.current.pid tb s.k.proc)
    (hoff : s.k.proc.intFlag = false)
    (hrun : HaltTail img p0.currProcess (before ++ d :: after) s ts s') :
    Mid p0 p0.current.parentPid
        (Function.update tb p0.current.pid (clearFlag (tb p0.current.pid) d)) s'.k.proc ∧
      ts.length % 3 = 0 := by
  have hlive := h0.current_live
  have hof := h0.current_pcbOf
  have hne : p0.current.parentPid ≠ p0.current.pid := by
    have := (h0.parentLive _ hlive hbase).2
    rwa [← hof] at this
  induction before generalizing s ts with
  | nil =>
      obtain ⟨ts₁, ts₂, rfl, hen, -, hrest⟩ := hrun.head
      obtain rfl := hen.resolve_right (by rw [hoff]; decide)
      obtain ⟨h2, h7⟩ := hfds d (by simp)
      have hnext := (h.close hlive.2.1 h2 h7).1
      refine haltTail_closed (s := s.close d) h0 hbase (fun fd hfd => hfds fd (by simp [hfd])) ?_
        hnext (fun _ => ⟨hshell, ?_⟩) hrest
      · intro fd hfd
        by_cases hd : fd = d
        · simp [clearFlag, hd]
        · simpa [clearFlag, hd] using hafter fd hfd
      · rw [Function.update_of_ne hne]
        exact hpar
  | cons fd before ih =>
      obtain ⟨ts₁, ts₂, rfl, hen, -, hrest⟩ := hrun.head
      obtain rfl := hen.resolve_right (by rw [hoff]; decide)
      obtain ⟨h2, h7⟩ := hfds fd (by simp)
      obtain ⟨hnext, hoff'⟩ := h.close_closed hlive.2.1 h2 h7 (hbefore fd (by simp))
      exact ih (fun e he => hfds e (List.mem_cons_of_mem _ he))
        (fun e he => hbefore e (List.mem_cons_of_mem _ he)) hnext hoff' hrest

end Tail

/-! ## When a halt is atomic -/

/-- **`AtomicHalt p`** — the current process has none of its descriptors 2..7 open, or it has one open,
its parent is a base shell and the parent has no higher descriptor open. -/
def AtomicHalt (p : Proc) : Prop :=
  Closed p.table haltDescriptors ∨
  ∃ d ∈ haltDescriptors, (∀ e ∈ haltDescriptors, e ≠ d → (p.table e).flags = 0) ∧
    p.current.parentPid ≤ 3 ∧
    ∀ e ∈ haltDescriptors, d < e → ((p.pcbOf p.current.parentPid).pcbArr e).flags = 0

theorem haltDescriptors_sorted : haltDescriptors.Pairwise (· < ·) := by decide

theorem haltDescriptors_range {fd : Nat} (h : fd ∈ haltDescriptors) : 2 ≤ fd ∧ fd ≤ 7 :=
  mem_haltDescriptors.mp h

/-- The descriptor tables after a halt. -/
theorem halted_tables {p : Proc} (h : WF p) {n : Nat} (hn : n ≤ programMax) :
    (p.halted.pcbOf n).pcbArr =
      if n = p.current.pid then clearFlags p.table else (p.pcbOf n).pcbArr := by
  have hlive := h.scheduled p.currProcess
  rw [Proc.pcbOf, halted_pcb, h.current, h.current_pid]
  by_cases hnc : n = p.schedPid p.currProcess
  · rw [if_pos (by rw [hnc]), if_pos hnc]
  · rw [if_neg fun heq => hnc (pcbAddr_injective hn hlive.2.1 heq), if_neg hnc, Proc.pcbOf]

/-- The uninterrupted halt, and as many ticks as bring the slot back. -/
theorem Mid.uninterrupted (img : Image) {k : Kernel} {ts : List Frame} (h0 : WF k.proc)
    (hbase : 3 < k.proc.current.pid) (hlen : ts.length % 3 = 0) :
    Mid k.proc k.proc.current.parentPid (fun n => (k.proc.halted.pcbOf n).pcbArr)
      (tickAll img ts { k with proc := k.proc.halted }).proc := by
  have hwf := h0.halted hbase
  have heff := ticksEffect img ts (k := { k with proc := k.proc.halted }) hwf.scheduled_ne_zero
  have hcur : (tickAll img ts { k with proc := k.proc.halted }).proc.currProcess
      = k.proc.currProcess := by
    have hlt := k.proc.currProcess.isLt
    have hval := heff.currProcess
    rw [halted_currProcess] at hval
    exact Fin.ext (by omega)
  refine ⟨hcur, heff.pidArr, heff.schedPid, ?_, fun n _ => heff.tables n, ?_⟩
  · have hparent : k.proc.halted.pcbCurrent = pcbAddr k.proc.current.parentPid := by
      rw [hwf.current, halted_schedPid, halted_currProcess, Function.update_self]
    rw [heff.pcbCurrent, hcur, halted_schedPid, Function.update_self, hparent]
    exact ite_self _
  · exact fun n => (heff.lineage n).trans (halted_lineage k.proc _)

/-- Two states of the same handler agree if their tables and current processes do. -/
theorem SameTables.of_mid {k k' : Kernel} {p0 : Proc} {x : Nat} {tb tb' : Nat → Nat → FileDescriptor}
    (h : Mid p0 x tb k.proc) (h' : Mid p0 x tb' k'.proc) (htb : ∀ n ≤ programMax, tb n = tb' n) :
    SameTables k k' where
  tables n _ hn := by rw [h.tables n hn, h'.tables n hn, htb n hn]
  pidArr := h.pidArr.trans h'.pidArr.symm
  schedPid := h.schedPid.trans h'.schedPid.symm
  pcbCurrent := h.pcbCurrent.trans h'.pcbCurrent.symm

/-- Closing closed descriptors changes nothing. -/
theorem foldl_clearFlag_of_closed {arr : Nat → FileDescriptor} {fds : List Nat}
    (h : Closed arr fds) : fds.foldl clearFlag arr = arr := by
  funext i
  rw [clearFlag_foldl]
  split
  next hi => rw [← h i hi]
  next => rfl

/-- Closing `d` is closing all descriptors exactly if no other one is open. -/
theorem clearFlag_eq_clearFlags {arr : Nat → FileDescriptor} {d : Nat} (hd : d ∈ haltDescriptors) :
    clearFlag arr d = clearFlags arr ↔ ∀ e ∈ haltDescriptors, e ≠ d → (arr e).flags = 0 := by
  constructor
  · intro heq e he hne
    have happly := congrFun heq e
    rw [clearFlags_apply, if_pos (haltDescriptors_range he), clearFlag,
      Function.update_of_ne hne] at happly
    rw [happly]
  · intro hclosed
    funext i
    rw [clearFlags_apply, clearFlag]
    by_cases hi : i = d
    · subst hi
      rw [if_pos (haltDescriptors_range hd), Function.update_self]
    · rw [Function.update_of_ne hi]
      split
      next hr => rw [← hclosed i (mem_haltDescriptors.mpr hr) hi]
      next => rfl

section Run

variable {img : Image} {k k' : Kernel} {ts : List Frame}

/-- `Mid.enter` from the first instruction of the handler, where the flag is set. -/
theorem Mid.start (h0 : WF k.proc) {p : Proc} {n : Nat} (hticks : TicksEffect k.sti.proc p n)
    (hback : p.currProcess = k.proc.currProcess) :
    Mid k.proc k.proc.current.pid (fun n => (k.proc.pcbOf n).pcbArr) p.cli.haltEnter := by
  have hsti : WF k.sti.proc := h0.congr rfl rfl rfl rfl rfl rfl fun _ => rfl
  have hentered := Mid.enter hsti hticks hback
  exact ⟨hentered.currProcess, hentered.pidArr, hentered.schedPid, hentered.pcbCurrent,
    hentered.tables, hentered.lineage⟩

/-- The ticks before the `cli` of the handler change nothing the handler sees. -/
theorem HaltRun.entered (h0 : WF k.proc) (hrun : HaltRun img k ts k') :
    ∃ s s' ts₁ ts₂, ts = ts₁ ++ ts₂ ∧ ts₁.length % 3 = 0 ∧ s'.k = k' ∧
      Mid k.proc k.proc.current.pid (fun n => (k.proc.pcbOf n).pcbArr) s.k.proc ∧
      s.k.proc.intFlag = false ∧ HaltTail img k.proc.currProcess haltDescriptors s ts₂ s' := by
  obtain ⟨s', hrun, rfl⟩ := hrun
  obtain ⟨ts₁, ts₂, rfl, -, hback, hrest⟩ := hrun.head
  rw [ticks_halting] at hback hrest
  have heff := ticksEffect img ts₁ (k := k.sti) h0.scheduled_ne_zero
  refine ⟨_, s', ts₁, ts₂, rfl, ?_, rfl, .start h0 heff hback, rfl, hrest⟩
  have hlt := k.proc.currProcess.isLt
  have hval := heff.currProcess
  rw [show (tickAll img ts₁ k.sti).proc.currProcess = k.proc.currProcess from hback] at hval
  have hsti : k.sti.proc.currProcess = k.proc.currProcess := rfl
  omega

/-- **A halt that finds `AtomicHalt` is atomic**, wherever the ticks fall. -/
theorem haltRun_atomic (status : UInt8) (h0 : WF k.proc) (hbase : 3 < k.proc.current.pid)
    (hatomic : AtomicHalt k.proc) (hrun : HaltRun img k ts k') :
    SameTables k' (tickAll img ts (haltHandler status k).1) := by
  have htable : k.proc.table = (k.proc.pcbOf k.proc.current.pid).pcbArr :=
    congrArg Pcb.pcbArr h0.current_pcbOf
  rw [haltHandler_proc status h0.pcbCurrent_ne_zero hbase]
  obtain ⟨s, s', ts₁, ts₂, rfl, hlen₁, rfl, hmid, hoff, htail⟩ := hrun.entered h0
  rcases hatomic with hclosed | ⟨d, hd, hothers, hshell, hparent⟩
  · obtain ⟨hend, hlen₂⟩ := haltTail_closed h0 hbase (fun _ => haltDescriptors_range)
      (htable ▸ hclosed) hmid (fun hon => by rw [hoff] at hon; cases hon) htail
    refine .of_mid hend (.uninterrupted img h0 hbase (by rw [List.length_append]; omega)) ?_
    intro n hn
    rw [halted_tables h0 hn, clearFlags, foldl_clearFlag_of_closed hclosed, htable]
    split
    next heq => rw [heq]
    next => rfl
  · obtain ⟨before, after, hsplit⟩ := List.append_of_mem hd
    have hsorted := haltDescriptors_sorted
    rw [hsplit, List.pairwise_append, List.pairwise_cons] at hsorted
    have hbeforeNe : ∀ e ∈ before, e ≠ d := fun e he => (hsorted.2.2 e he d (by simp)).ne
    have hmem : ∀ e, e ∈ before ∨ e ∈ after → e ∈ haltDescriptors := by
      intro e he
      rw [hsplit]
      rcases he with he | he <;> simp [he]
    rw [hsplit] at htail
    obtain ⟨hend, hlen₂⟩ := haltTail_one h0 hbase hshell
      (fun e he => haltDescriptors_range (hsplit ▸ he))
      (fun e he => htable ▸ hothers e (hmem e (Or.inl he)) (hbeforeNe e he))
      (fun e he => htable ▸ hothers e (hmem e (Or.inr he)) (hsorted.2.1.1 e he).ne')
      (fun e he => hparent e (hmem e (Or.inr he)) (hsorted.2.1.1 e he)) hmid hoff htail
    refine .of_mid hend (.uninterrupted img h0 hbase (by rw [List.length_append]; omega)) ?_
    intro n hn
    rw [halted_tables h0 hn, ← (clearFlag_eq_clearFlags hd).mpr hothers, htable]
    by_cases hnc : n = k.proc.current.pid
    · rw [if_pos hnc, hnc, Function.update_self]
    · rw [if_neg hnc, Function.update_of_ne hnc]

end Run

/-! ## When it is not -/

/-- The first open descriptor of a table, in the order of `fds`. -/
theorem exists_first_open {arr : Nat → FileDescriptor} {fds : List Nat} (h : ¬ Closed arr fds) :
    ∃ before d after, fds = before ++ d :: after ∧ Closed arr before ∧ (arr d).flags ≠ 0 := by
  induction fds with
  | nil => exact absurd (fun fd hfd => absurd hfd List.not_mem_nil) h
  | cons fd fds ih =>
      by_cases hfd : (arr fd).flags = 0
      · have hrest : ¬ Closed arr fds := by
          intro hclosed
          apply h
          intro e he
          rcases List.mem_cons.mp he with rfl | he
          · exact hfd
          · exact hclosed e he
        obtain ⟨before, d, after, rfl, hbefore, hd⟩ := ih hrest
        refine ⟨fd :: before, d, after, rfl, ?_, hd⟩
        intro e he
        rcases List.mem_cons.mp he with rfl | he
        · exact hfd
        · exact hbefore e he
      · exact ⟨[], fd, fds, rfl, fun e he => absurd he List.not_mem_nil, hfd⟩

/-- Closes in a row. -/
theorem Mid.closes {p0 : Proc} {x : Nat} {tb : Nat → Nat → FileDescriptor} {s : Halting}
    (h : Mid p0 x tb s.k.proc) (hx : x ≤ programMax) {fds : List Nat}
    (hfds : ∀ fd ∈ fds, 2 ≤ fd ∧ fd ≤ 7) :
    Mid p0 x (Function.update tb x (fds.foldl clearFlag (tb x)))
      ((fds.map Halting.close).foldl (fun s f => f s) s).k.proc := by
  induction fds generalizing s tb with
  | nil =>
      rw [List.foldl_nil, Function.update_eq_self]
      exact h
  | cons fd fds ih =>
      obtain ⟨h2, h7⟩ := hfds fd (by simp)
      have hnext : Mid p0 x (Function.update tb x (clearFlag (tb x) fd)) (s.close fd).k.proc :=
        (h.close hx h2 h7).1
      have hrest := ih hnext fun e he => hfds e (by simp [he])
      rw [Function.update_self, Function.update_idem] at hrest
      exact hrest

theorem closeHandler_currProcess (fd : Int) (p : Proc) :
    (closeHandler fd p).1.currProcess = p.currProcess := by
  by_cases hcur : p.pcbCurrent = 0
  · rw [closeHandler_null fd hcur]
    rfl
  · obtain ⟨rtcFlag, flag, hp⟩ := (closeHandler_retabled fd hcur).1
    rw [hp]

/-- The operations keep the slot. -/
theorem haltOps_currProcess {f : Halting → Halting} (hf : f ∈ haltOps) (s : Halting) :
    (f s).k.proc.currProcess = s.k.proc.currProcess := by
  simp only [haltOps, List.mem_cons, List.mem_append, List.mem_map, List.not_mem_nil,
    or_false] at hf
  rcases hf with rfl | ⟨fd, -, rfl⟩ | rfl | rfl
  · rfl
  · exact closeHandler_currProcess fd s.k.proc
  · rfl
  · rfl

section Fails

variable {img : Image} {k : Kernel} {before after : List Nat} {d : Nat}

/-- The handler up to the first close that sets the flag. -/
theorem Mid.firstClose (h0 : WF k.proc) (hfds : haltDescriptors = before ++ d :: after)
    (hbefore : Closed k.proc.table before) (hd : (k.proc.table d).flags ≠ 0) {s : Halting}
    (hs : s = (Halting.enter :: (before.map Halting.close ++ [Halting.close d])).foldl
      (fun s f => f s) (Halting.start k)) :
    Mid k.proc k.proc.current.pid
      (Function.update (fun n => (k.proc.pcbOf n).pcbArr) k.proc.current.pid
        (clearFlag k.proc.table d)) s.k.proc ∧ s.k.proc.intFlag = true := by
  have htable : k.proc.table = (k.proc.pcbOf k.proc.current.pid).pcbArr :=
    congrArg Pcb.pcbArr h0.current_pcbOf
  have hmax := h0.current_live.2.1
  have hrange : ∀ e ∈ before ++ d :: after, 2 ≤ e ∧ e ≤ 7 :=
    fun e he => haltDescriptors_range (hfds ▸ he)
  have hentered : Mid k.proc k.proc.current.pid (fun n => (k.proc.pcbOf n).pcbArr)
      (Halting.start k).enter.k.proc :=
    .start h0 (ticksEffect default [] (k := k.sti) h0.scheduled_ne_zero) rfl
  have hbeforeRange : ∀ e ∈ before, 2 ≤ e ∧ e ≤ 7 := fun e he => hrange e (by simp [he])
  have hclosed := hentered.closes hmax hbeforeRange
  rw [← htable, foldl_clearFlag_of_closed hbefore, htable] at hclosed
  obtain ⟨h2, h7⟩ := hrange d (by simp)
  subst hs
  rw [List.foldl_cons, List.foldl_append, List.foldl_cons, List.foldl_nil]
  have hclose := hclosed.close hmax h2 h7
  rw [Function.update_self, Function.update_idem, ← htable] at hclose
  exact ⟨hclose.1, hclose.2.trans (decide_eq_true hd)⟩

/-- The run that shows a halt is not atomic: three ticks right after the first close. -/
theorem HaltRun.after_close (img : Image) (h0 : WF k.proc) (hbase : 3 < k.proc.current.pid)
    (hfds : haltDescriptors = before ++ d :: after) (hbefore : Closed k.proc.table before)
    (hd : (k.proc.table d).flags ≠ 0) {ts : List Frame} (hlen : ts.length = 3) {y : Nat}
    (hy : (k.proc.pcbOf k.proc.current.parentPid).parentPcb = pcbAddr y) :
    ∃ k', HaltRun img k ts k' ∧
      Mid k.proc y (Function.update
        (Function.update (fun n => (k.proc.pcbOf n).pcbArr) k.proc.current.pid
          (clearFlag k.proc.table d))
        k.proc.current.parentPid
        (after.foldl clearFlag (k.proc.pcbOf k.proc.current.parentPid).pcbArr)) k'.proc := by
  obtain ⟨hparLive, hparNe⟩ := h0.parentLive _ h0.current_live hbase
  rw [← h0.current_pcbOf] at hparLive hparNe
  have hops : haltOps = (Halting.enter :: (before.map Halting.close ++ [Halting.close d])) ++
      (after.map Halting.close ++ [.parent, .leave]) := by
    rw [haltOps, hfds, List.map_append, List.map_cons]
    simp
  generalize hs : (Halting.enter :: (before.map Halting.close ++ [Halting.close d])).foldl
    (fun s f => f s) (Halting.start k) = s
  obtain ⟨hmid, hon⟩ := Mid.firstClose h0 hfds hbefore hd hs.symm
  -- three ticks bring the slot back, with `pcb_current` naming the parent
  have hsched : ∀ t, s.k.proc.schedPid t ≠ 0 := by
    rw [hmid.schedPid]
    exact (h0.halted hbase).scheduled_ne_zero
  have hback : (ticks (Halting.tick img) ts s).k.proc.currProcess = k.proc.currProcess := by
    rw [ticks_halting]
    have hval := (ticksEffect img ts hsched).currProcess
    have hlt := k.proc.currProcess.isLt
    rw [hmid.currProcess, hlen] at hval
    apply Fin.ext
    show (tickAll img ts s.k).proc.currProcess.val = _
    omega
  have hticked := (hmid.tickGroup h0 hbase hback).1
  rw [if_neg (by omega)] at hticked
  have hafter : ∀ e ∈ after, 2 ≤ e ∧ e ≤ 7 :=
    fun e he => haltDescriptors_range (by rw [hfds]; simp [he])
  have hend := (hticked.closes hparLive.2.1 hafter).parent hy
  rw [Function.update_of_ne hparNe] at hend
  have hkeeps : ∀ f ∈ haltOps, ∀ s : Halting, s.k.proc.currProcess = k.proc.currProcess →
      (f s).k.proc.currProcess = k.proc.currProcess := fun f hf s hrun => by
    rw [haltOps_currProcess hf, hrun]
  rw [hops] at hkeeps
  have hlast : Interrupted (fun s : Halting => s.k.proc.intFlag = true)
      (fun s => s.k.proc.currProcess = k.proc.currProcess) (Halting.tick img)
      (after.map Halting.close ++ [.parent, .leave]) (ticks (Halting.tick img) ts s) [] _ :=
    .uninterrupted hback fun f hf => hkeeps f (List.mem_append_right _ hf)
  have hrest := hlast.of_ticks (by simp) fun ts₁ _ => by
    rw [ticks_halting]
    exact (ticksEffect img ts₁ hsched).intFlag hon
  rw [List.append_nil, ← hs] at hrest
  have hstart : (Halting.start k).k.proc.currProcess = k.proc.currProcess := rfl
  have hrun : Interrupted (fun s : Halting => s.k.proc.intFlag = true)
      (fun s => s.k.proc.currProcess = k.proc.currProcess) (Halting.tick img) _ (Halting.start k)
      ts _ :=
    .of_ops hstart (fun f hf => hkeeps f (List.mem_append_left _ hf)) hrest
  rw [← hops, hs, List.foldl_append] at hrun
  exact ⟨_, ⟨_, hrun, rfl⟩, hend.leave _ _⟩

/-- **A halt that does not find `AtomicHalt` is not atomic.** -/
theorem atomicHalt_of_haltRun {status : UInt8} (h0 : WF k.proc) (hbase : 3 < k.proc.current.pid)
    (hatomic : ∀ ts k', HaltRun img k ts k' →
      SameTables k' (tickAll img ts (haltHandler status k).1)) : AtomicHalt k.proc := by
  by_cases hclosed : Closed k.proc.table haltDescriptors
  · exact Or.inl hclosed
  obtain ⟨before, d, after, hfds, hbefore, hd⟩ := exists_first_open hclosed
  have hdMem : d ∈ haltDescriptors := by rw [hfds]; simp
  obtain ⟨hparLive, hparNe⟩ := h0.parentLive _ h0.current_live hbase
  rw [← h0.current_pcbOf] at hparLive hparNe
  -- where `pcb_current` ends up: at the parent itself if that is a base shell, else above it
  obtain ⟨y, hy, hyle, hshell⟩ : ∃ y,
      (k.proc.pcbOf k.proc.current.parentPid).parentPcb = pcbAddr y ∧ y ≤ programMax ∧
      (y = k.proc.current.parentPid → k.proc.current.parentPid ≤ 3) := by
    by_cases h3 : k.proc.current.parentPid ≤ 3
    · exact ⟨_, h0.shellParent _ hparLive.1 h3, hparLive.2.1, fun _ => h3⟩
    · have h3 : 3 < k.proc.current.parentPid := by omega
      obtain ⟨hlive, hne⟩ := h0.parentLive _ hparLive h3
      exact ⟨_, h0.parentPcb _ hparLive h3, hlive.2.1, fun heq => absurd heq hne⟩
  have hlen : (List.replicate 3 (Frame.at 0 0)).length = 3 := rfl
  obtain ⟨k', hrun, hmid⟩ := HaltRun.after_close img h0 hbase hfds hbefore hd hlen hy
  have hsame := hatomic _ _ hrun
  rw [haltHandler_proc status h0.pcbCurrent_ne_zero hbase] at hsame
  have hatomicMid := Mid.uninterrupted img h0 hbase
    (show (List.replicate 3 (Frame.at 0 0)).length % 3 = 0 from rfl)
  have htables : ∀ n, 1 ≤ n → n ≤ programMax → _ := fun n h1 hn =>
    ((hmid.tables n hn).symm.trans (hsame.tables n h1 hn)).trans (hatomicMid.tables n hn)
  refine Or.inr ⟨d, hdMem, ?_, ?_, ?_⟩
  · have hown := htables _ h0.current_live.1 h0.current_live.2.1
    rw [Function.update_of_ne hparNe.symm, Function.update_self,
      halted_tables h0 h0.current_live.2.1, if_pos rfl] at hown
    exact (clearFlag_eq_clearFlags hdMem).mp hown
  · apply hshell
    apply pcbAddr_injective hyle hparLive.2.1
    rw [← hmid.pcbCurrent, hsame.pcbCurrent, hatomicMid.pcbCurrent]
  · intro e he hlt
    have hparent := htables _ hparLive.1 hparLive.2.1
    rw [Function.update_self, halted_tables h0 hparLive.2.1, if_neg hparNe] at hparent
    have hafter : e ∈ after := by
      have hsorted := haltDescriptors_sorted
      rw [hfds, List.pairwise_append] at hsorted
      rw [hfds, List.mem_append, List.mem_cons] at he
      rcases he with he | rfl | he
      · have := hsorted.2.2 e he d (by simp)
        omega
      · omega
      · exact he
    have happly := congrFun hparent e
    rw [clearFlag_foldl, if_pos hafter] at happly
    rw [← happly]

end Fails

/-! ## The exact condition -/

/-- **A halt is atomic exactly if it finds `AtomicHalt`.**  In every state the kernel can reach, a
process other than the base shells halts; whatever ticks fall between the start of the handler and its
final `sti`, the tables are those of the uninterrupted handler followed by the same ticks, and no
other process has lost a descriptor. -/
theorem halt_atomic_iff (img : Image) {k0 k : Kernel} {es : List Event} (status : UInt8)
    (hboot : Booted k0) (hreach : Run (EventStep img) k0 es k) (hbase : 3 < k.proc.current.pid) :
    (∀ ts k', HaltRun img k ts k' →
      SameTables k' (tickAll img ts (haltHandler status k).1) ∧
      ∀ n, 1 ≤ n → n ≤ programMax → n ≠ k.proc.current.pid →
        (k'.proc.pcbOf n).pcbArr = (k.proc.pcbOf n).pcbArr) ↔
    AtomicHalt k.proc := by
  have h0 := WF.reachable hboot hreach
  constructor
  · intro hatomic
    exact atomicHalt_of_haltRun h0 hbase fun ts k' hrun => (hatomic ts k' hrun).1
  · intro hatomic ts k' hrun
    have hsame := haltRun_atomic status h0 hbase hatomic hrun
    refine ⟨hsame, ?_⟩
    intro n h1 hn hne
    have heff := ticksEffect img ts (k := { k with proc := k.proc.halted })
      (h0.halted hbase).scheduled_ne_zero
    rw [hsame.tables n h1 hn, haltHandler_proc status h0.pcbCurrent_ne_zero hbase, heff.tables n,
      halted_tables h0 hn, if_neg hne]

/-- A process runs "shell", and the program opens "shell". -/
theorem program_opens {k : Kernel} (h : WF k.proc) (hdisp : k.proc.currProcess = k.con.currTerminal)
    (hcount : k.proc.programCount < programMax) {slot : Nat} (hslot : k.proc.slot (.at 8 9) = slot) :
    ∃ ret k', Run (EventStep shellImage) k
        [.act (.execute (.at 8 9) shellName), .call (.openFile shellName ret)] k' ∧
      k'.proc.current.pid = slot + 1 ∧ k'.proc.current.parentPid = k.proc.current.pid ∧
      k'.proc.table = (openTable shellImage shellName
        (startTable (k.proc.pcbOf (slot + 1)).pcbArr)).1 ∧
      k'.proc.pcbOf k.proc.current.pid = k.proc.current := by
  obtain ⟨k1, hexec⟩ := shellImage_execute (k := k) (.at 8 9) hcount
  have hs : DisplayedStep shellImage k (.execute (.at 8 9) shellName) k1 := ⟨hdisp, hexec⟩
  have hproc := (execute_proc h hexec).2.1
  rw [hslot] at hproc
  obtain ⟨-, hcaller, -, -⟩ := step_execute h hexec
  have hopen : CallStep shellImage k1 (.openFile shellName (openHandler shellImage shellName k1).2)
      (openHandler shellImage shellName k1).1 := rfl
  have hopened := hopen.openFile.1
  generalize (openHandler shellImage shellName k1).1 = k2 at hopen hopened
  have hself := launched_pcbOf_self k.proc k.con.currTerminal (.at 8 9) slot (parseArgs shellName)
  have hlin := hopened.lineage k1.proc.pcbCurrent
  simp only [Pcb.lineage, Prod.mk.injEq] at hlin
  have hcurrent : k1.proc.current = k1.proc.pcbOf (slot + 1) := by rw [hproc, launched_current]
  have hof : k2.proc.current = k2.proc.pcb k1.proc.pcbCurrent := by
    rw [Proc.current, hopened.pcbCurrent]
  refine ⟨_, k2, ⟨k1, hs, k2, hopen, rfl⟩, ?_, ?_, ?_, ?_⟩
  · rw [hof, hlin.1]
    show k1.proc.current.pid = _
    rw [hcurrent, hproc, hself.1]
  · rw [hof, hlin.2.1]
    show k1.proc.current.parentPid = _
    rw [hcurrent, hproc, hself.2.1]
  · rw [hopened.table, Proc.table, hcurrent, hproc]
    show (openTable _ _ ((k.proc.launched _ _ _ _).pcb (pcbAddr (slot + 1))).pcbArr).1 = _
    rw [launched_pcbArr, Proc.pcbOf]
  · refine Eq.trans ?_ hcaller
    apply hopened.pcb_of_ne
    rw [hproc, launched_pcbCurrent]
    intro heq
    obtain ⟨hlt, hfree, -⟩ := h.slot (.at 8 9) hcount
    rw [hslot] at hlt hfree
    have hlive := h.current_live
    rw [pcbAddr_injective hlive.2.1 hlt heq] at hlive
    exact not_live_slot hfree hlive

/-- The first shell runs a program, the program opens one file and halts: `AtomicHalt` holds, so the
halt is atomic. -/
theorem one_open_file_halts :
    ∃ es k, Run (EventStep shellImage) bootedKernel es k ∧ 3 < k.proc.current.pid ∧
      (k.proc.table 2).flags = 1 ∧
      ∀ ts k', HaltRun shellImage k ts k' →
        SameTables k' (tickAll shellImage ts (haltHandler 0 k).1) ∧
        ∀ n, 1 ≤ n → n ≤ programMax → n ≠ k.proc.current.pid →
          (k'.proc.pcbOf n).pcbArr = (k.proc.pcbOf n).pcbArr := by
  obtain ⟨ret, k, hrun, hpid, hparent, htable, hcaller⟩ := program_opens
    (WF.of_booted booted_bootedKernel) rfl (by decide) (show bootedKernel.proc.slot (.at 8 9) = 3 by
      decide)
  have hshell : bootedKernel.proc.current = shellPcb 1 := bootedKernel_pcbOf (by decide) (by decide)
  have hone : bootedKernel.proc.current.pid = 1 := by rw [hshell]; rfl
  have harr : (bootedKernel.proc.pcbOf 4).pcbArr = Pcb.zero.pcbArr := rfl
  rw [hone] at hparent hcaller
  rw [harr] at htable
  have hatomic : AtomicHalt k.proc := by
    rw [AtomicHalt, hparent, htable, hcaller, hshell]
    exact Or.inr ⟨2, by decide, by decide, by decide, by decide⟩
  refine ⟨_, k, hrun, by omega, by rw [htable]; decide, ?_⟩
  exact (halt_atomic_iff shellImage 0 booted_bootedKernel hrun (by omega)).mpr hatomic

/-- The first shell opens two files and runs a program that opens one file and halts.  Three ticks
after the handler has closed the file of the program close descriptor 3 of the shell. -/
theorem halt_closes_parent_file :
    ∃ es k k', Run (EventStep shellImage) bootedKernel es k ∧ 3 < k.proc.current.pid ∧
      HaltRun shellImage k [.at 0 0, .at 0 0, .at 0 0] k' ∧
      ((k.proc.pcbOf 1).pcbArr 3).flags = 1 ∧ ((k'.proc.pcbOf 1).pcbArr 3).flags = 0 ∧
      ¬ SameTables k' (tickAll shellImage [.at 0 0, .at 0 0, .at 0 0] (haltHandler 0 k).1) := by
  have hopen : ∀ k ret, ret = (openHandler shellImage shellName k).2 →
      EventStep shellImage k (.call (.openFile shellName ret))
        (openHandler shellImage shellName k).1 := fun k ret h => by rw [h]; rfl
  have htwo : Run (EventStep shellImage) bootedKernel
      [.call (.openFile shellName 2), .call (.openFile shellName 3)]
      (openHandler shellImage shellName (openHandler shellImage shellName bootedKernel).1).1 :=
    ⟨_, hopen _ _ (by decide), _, hopen _ _ (by decide), rfl⟩
  have hwf := WF.reachable booted_bootedKernel htwo
  have hone : (openHandler shellImage shellName
      (openHandler shellImage shellName bootedKernel).1).1.proc.current.pid = 1 := by decide
  obtain ⟨ret, k, hrun, hpid, hparent, htable, hcaller⟩ := program_opens hwf (by decide)
    (by decide) (show _ = 3 by decide)
  have hreach := run_append.mpr ⟨_, htwo, hrun⟩
  have h0 := WF.reachable booted_bootedKernel hreach
  rw [hone] at hparent hcaller
  have hopen2 : (k.proc.table 2).flags ≠ 0 := by rw [htable]; decide
  have hfile : ((k.proc.pcbOf 1).pcbArr 3).flags = 1 := by rw [hcaller]; decide
  have hy : (k.proc.pcbOf k.proc.current.parentPid).parentPcb = pcbAddr 1 := by
    rw [hparent]
    exact h0.shellParent 1 (by decide) (by decide)
  have hlen : [Frame.at 0 0, .at 0 0, .at 0 0].length = 3 := rfl
  obtain ⟨k', hhalt, hmid⟩ := HaltRun.after_close shellImage h0 (by omega)
    (show haltDescriptors = [] ++ 2 :: [3, 4, 5, 6, 7] from rfl)
    (fun e he => absurd he List.not_mem_nil) hopen2 hlen hy
  have hlost : ((k'.proc.pcbOf 1).pcbArr 3).flags = 0 := by
    rw [hmid.tables 1 (by decide), hparent, Function.update_self, clearFlag_foldl, if_pos (by decide)]
  refine ⟨_, k, k', hreach, by omega, hhalt, hfile, hlost, ?_⟩
  intro hsame
  have hkept := Mid.uninterrupted shellImage h0 (by omega)
    (show [Frame.at 0 0, .at 0 0, .at 0 0].length % 3 = 0 from rfl)
  rw [hsame.tables 1 (by decide) (by decide), haltHandler_proc 0 h0.pcbCurrent_ne_zero (by omega),
    hkept.tables 1 (by decide), halted_tables h0 (by decide), if_neg (by omega), hfile] at hlost
  exact absurd hlost (by decide)

end Ece391
