/-
# Ece391.Process.Calls — the file system calls as events, and what they leave alone.

`open`, `close`, `read`, `write` and `getargs` reach the process table through the current PCB only:
they replace its descriptor table, perhaps its RTC flag, and leave the interrupt flag in some state.
`Retabled` says this once, with the new table as a parameter; the new tables themselves are functions
of the old one (`openTable`, `closeTable`, `advanceTable`).

An event carries its result, so that a run is a record of what the callers saw.  A call that does not
return in a state (a read that spins) is no event of that state; `device` stands for what the
keyboard, the RTC and the screen do between two calls.
-/
import Ece391.Process.Resume

open Ece391.Lib

namespace Ece391

/-! ## Replacing the current descriptor table -/

/-- **`p.Retabled arr p'`** — `p'` is `p` with the current descriptor table replaced by `arr`; the RTC
flag of that PCB and the interrupt flag may differ too. -/
def Proc.Retabled (p : Proc) (arr : Nat → FileDescriptor) (p' : Proc) : Prop :=
  ∃ rtcFlag flag, p' =
    { p with
      pcb := Function.update p.pcb p.pcbCurrent
        { p.current with pcbArr := arr, rtcFlag := rtcFlag }
      intFlag := flag }

namespace Proc.Retabled

variable {p p' p'' : Proc} {arr arr' : Nat → FileDescriptor}

theorem pcbCurrent (h : p.Retabled arr p') : p'.pcbCurrent = p.pcbCurrent := by
  obtain ⟨rtcFlag, flag, rfl⟩ := h
  rfl

theorem table (h : p.Retabled arr p') : p'.table = arr := by
  obtain ⟨rtcFlag, flag, rfl⟩ := h
  simp [Proc.table, Proc.current]

theorem pcb_of_ne (h : p.Retabled arr p') {a : Nat} (ha : a ≠ p.pcbCurrent) :
    p'.pcb a = p.pcb a := by
  obtain ⟨rtcFlag, flag, rfl⟩ := h
  simp [ha]

theorem lineage (h : p.Retabled arr p') (a : Nat) : (p'.pcb a).lineage = (p.pcb a).lineage := by
  by_cases ha : a = p.pcbCurrent
  · obtain ⟨rtcFlag, flag, rfl⟩ := h
    subst ha
    simp [Pcb.lineage, Proc.current]
  · rw [h.pcb_of_ne ha]

theorem trans (h : p.Retabled arr p') (h' : p'.Retabled arr' p'') : p.Retabled arr' p'' := by
  obtain ⟨rtcFlag, flag, rfl⟩ := h
  obtain ⟨rtcFlag', flag', rfl⟩ := h'
  exact ⟨rtcFlag', flag', by simp [Proc.current]⟩

/-- Only the interrupt flag has changed. -/
theorem of_flag (p : Proc) (flag : Bool) : p.Retabled p.table { p with intFlag := flag } :=
  ⟨p.current.rtcFlag, flag, by simp [Proc.table, Proc.current]⟩

theorem refl (p : Proc) : p.Retabled p.table p := of_flag p p.intFlag

theorem sti (h : p.Retabled arr p') : p.Retabled arr p'.sti :=
  h.trans (h.table ▸ of_flag p' true)

theorem setRtcFlag (h : p.Retabled arr p') :
    p.Retabled arr (p'.setPcb p'.pcbCurrent fun b => { b with rtcFlag := 1 }) := by
  obtain ⟨rtcFlag, flag, rfl⟩ := h
  exact ⟨1, flag, by simp [Proc.setPcb]⟩

theorem of_cli (h : p.cli.Retabled arr p') : p.Retabled arr p' := (of_flag p false).trans h

/-- Assigning the current table is such a change. -/
theorem set (p : Proc) (f : (Nat → FileDescriptor) → Nat → FileDescriptor) :
    p.Retabled (f p.table) (p.setPcb p.pcbCurrent fun b => { b with pcbArr := f b.pcbArr }) :=
  ⟨p.current.rtcFlag, p.intFlag, rfl⟩

theorem wf (h : p.Retabled arr p') (hp : WF p) : WF p' := by
  have hlin : ∀ n, (p'.pcbOf n).lineage = (p.pcbOf n).lineage := fun n => h.lineage _
  obtain ⟨rtcFlag, flag, rfl⟩ := h
  exact hp.congr rfl rfl rfl rfl rfl rfl hlin

theorem tabled (h : p.Retabled arr p') (hp : p.Tabled) : p'.Tabled := by
  obtain ⟨page, hwf⟩ := hp
  have hlin := h.lineage
  obtain ⟨rtcFlag, flag, rfl⟩ := h
  exact ⟨page, hwf.congr rfl rfl rfl rfl rfl rfl fun n => hlin (pcbAddr n)⟩

end Proc.Retabled

/-! ## The new tables -/

/-- The entry `open_handler` makes for a file of a type it knows. -/
def openedEntry (dentry : Dentry) : Option FileDescriptor :=
  if dentry.filetype = 0 then some ⟨.rtc, 0, 0, 1⟩
  else if dentry.filetype = 1 then some ⟨.directory, 0, 0, 1⟩
  else if dentry.filetype = 2 then some ⟨.filesystem, dentry.inodeNum, 0, 1⟩
  else none

/-- `open_handler` on a descriptor table: the table afterwards and the value returned. -/
def openTable (img : Image) (filename : List UInt8) (arr : Nat → FileDescriptor) :
    (Nat → FileDescriptor) × Int :=
  if charAt filename 0 = 0 then (arr, -1)
  else if strncmp (charAt filename) (charAt stdinName) (strlen filename) = 0 then
    (Function.update arr 0 ⟨.terminal, 0, 0, 1⟩, 0)
  else if strncmp (charAt filename) (charAt stdoutName) (strlen filename) = 0 then
    (Function.update arr 1 ⟨.terminal, 0, 0, 1⟩, 1)
  else
    match readDentryByName img filename, freeDescriptor arr with
    | some dentry, some fd =>
        match openedEntry dentry with
        | some d => (Function.update arr fd d, fd)
        | none => (Function.update arr fd ⟨(arr fd).operations, 0, 0, 1⟩, -1)
    | _, _ => (arr, -1)

/-- `close_handler` on a descriptor table. -/
def closeTable (fd : Int) (arr : Nat → FileDescriptor) : (Nat → FileDescriptor) × Int :=
  if fd < 2 ∨ fd > 7 ∨ (arr fd.toNat).flags = 0 then (arr, -1) else (clearFlag arr fd.toNat, 0)

/-- A read moves the position of its descriptor. -/
def advanceTable (fd : Nat) (ret : Int) (arr : Nat → FileDescriptor) : Nat → FileDescriptor :=
  Function.update arr fd
    { arr fd with filePosition := (((arr fd).filePosition + ret) % 2 ^ 32).toNat }

/-! ## One lemma per handler -/

theorem openHandler_retabled (img : Image) (filename : List UInt8) (k : Kernel) :
    k.proc.Retabled (openTable img filename k.proc.table).1 (openHandler img filename k).1.proc ∧
    (openHandler img filename k).2 = (openTable img filename k.proc.table).2 := by
  have hcli : k.cli.proc.Retabled k.proc.table k.cli.proc := .refl _
  have hset : ∀ fd d, k.cli.proc.Retabled (Function.update k.proc.table fd d)
      (k.cli.proc.openDescriptor fd d) := fun fd d => .set _ fun arr => Function.update arr fd d
  unfold openHandler openTable
  split
  · exact ⟨hcli.of_cli, rfl⟩
  split
  · exact ⟨(hset 0 _).of_cli, rfl⟩
  split
  · exact ⟨(hset 1 _).of_cli, rfl⟩
  cases readDentryByName img filename with
  | none => exact ⟨hcli.of_cli, rfl⟩
  | some dentry =>
      have hfree : freeDescriptor k.cli.proc.current.pcbArr = freeDescriptor k.proc.table := rfl
      simp only [hfree]
      cases freeDescriptor k.proc.table with
      | none => exact ⟨hcli.of_cli, rfl⟩
      | some fd =>
          -- one case per file type
          by_cases h0 : dentry.filetype = 0
          · simp only [openedEntry, if_pos h0, and_true]
            exact (hset fd _).setRtcFlag.sti.of_cli
          by_cases h1 : dentry.filetype = 1
          · simp only [openedEntry, if_neg h0, if_pos h1, and_true]
            exact (hset fd _).sti.of_cli
          by_cases h2 : dentry.filetype = 2
          · simp only [openedEntry, if_neg h0, if_neg h1, if_pos h2, and_true]
            exact (hset fd _).sti.of_cli
          · simp only [openedEntry, if_neg h0, if_neg h1, if_neg h2, and_true]
            exact (hset fd _).of_cli

theorem closeHandler_retabled (fd : Int) {p : Proc} (hcur : p.pcbCurrent ≠ 0) :
    p.Retabled (closeTable fd p.table).1 (closeHandler fd p).1 ∧
    (closeHandler fd p).2 = (closeTable fd p.table).2 := by
  have hcli : p.cli.pcbCurrent ≠ 0 := hcur
  by_cases hrange : fd < fdMin + 2 ∨ fd > fdMax
  · have hout : fd < 2 ∨ fd > 7 ∨ (p.table fd.toNat).flags = 0 := by
      unfold fdMin fdMax at hrange
      omega
    simp only [closeHandler, closeTable, if_neg hcli, if_pos hrange, if_pos hout, and_true]
    exact .of_flag p false
  by_cases hflag : (p.cli.current.pcbArr fd.toNat).flags = 0
  · have hout : fd < 2 ∨ fd > 7 ∨ (p.table fd.toNat).flags = 0 := Or.inr (Or.inr hflag)
    simp only [closeHandler, closeTable, if_neg hcli, if_neg hrange, if_pos hflag, if_pos hout,
      and_true]
    exact .of_flag p false
  · have hout : ¬ (fd < 2 ∨ fd > 7 ∨ (p.table fd.toNat).flags = 0) := by
      rintro (h | h | h)
      · exact hrange (Or.inl (by unfold fdMin; omega))
      · exact hrange (Or.inr h)
      · exact hflag h
    simp only [closeHandler, closeTable, if_neg hcli, if_neg hrange, if_neg hflag, if_neg hout,
      and_true]
    exact (Proc.Retabled.set p.cli fun arr => clearFlag arr fd.toNat).sti.of_cli

theorem closeHandler_null (fd : Int) {p : Proc} (hcur : p.pcbCurrent = 0) :
    closeHandler fd p = (p.cli, -1) := by
  have hcli : p.cli.pcbCurrent = 0 := hcur
  simp only [closeHandler, if_pos hcli]

/-- What a device read does to the process table: at most the interrupt flag is set. -/
theorem readPtr_retabled {img : Image} {ops : FileOps} {inode offset buf length : Nat}
    {k k' : Kernel} {copy : Copy} (h : readPtr img ops inode offset buf length k = some (k', copy)) :
    k.proc.Retabled k.proc.table k'.proc := by
  unfold readPtr at h
  cases ops with
  | null => cases h
  | terminal =>
      obtain ⟨r, -, hr⟩ := Option.map_eq_some_iff.mp h
      cases hr
      exact .of_flag _ true
  | rtc =>
      dsimp only at h
      split at h
      · cases h
        exact .refl _
      · cases h
  | directory =>
      cases h
      exact .refl _
  | filesystem =>
      cases h
      exact .refl _

/-- **A read moves at most the position of its own descriptor.** -/
theorem readHandler_retabled {img : Image} {fd : Int} {buf : Nat} {nbytes : Int} {k k' : Kernel}
    {copy : Copy} (h : readHandler img fd buf nbytes k = some (k', copy)) :
    k.proc.Retabled k.proc.table k'.proc ∨
    k.proc.Retabled (advanceTable fd.toNat copy.ret k.proc.table) k'.proc := by
  unfold readHandler at h
  dsimp only at h
  split at h
  · cases h
    exact Or.inl (.refl _)
  split at h
  · cases h
    exact Or.inl (.refl _)
  split at h
  · split at h
    · exact Or.inl (readPtr_retabled h)
    · obtain ⟨r, hr, hk⟩ := Option.map_eq_some_iff.mp h
      cases hk
      have hread := readPtr_retabled hr
      have hadv := Proc.Retabled.set r.1.proc (advanceTable fd.toNat r.2.ret)
      rw [hread.table] at hadv
      exact Or.inr (hread.trans hadv)
  · cases h
    exact Or.inl (.refl _)

theorem writeHandler_retabled {fd : Int} {buf : Nat} {data : Nat → UInt8} {nbytes ret : Int}
    {k k' : Kernel} (h : writeHandler fd buf data nbytes k = some (k', ret)) :
    k.proc.Retabled k.proc.table k'.proc := by
  unfold writeHandler at h
  dsimp only at h
  split at h
  · cases h
    exact .refl _
  split at h
  · unfold writePtr at h
    split at h
    · cases h
    · cases h
      exact .of_flag _ true
    · split at h
      · cases h
        exact .refl _
      · cases h
        exact .refl _
    · cases h
      exact .refl _
    · cases h
      exact .refl _
  · cases h
    exact .refl _

theorem getargsHandler_retabled (buf : Nat) (nbytes : Int) (k : Kernel) :
    k.proc.Retabled k.proc.table (getargsHandler buf nbytes k).1.proc := by
  unfold getargsHandler
  dsimp only
  split
  · exact .of_flag _ false
  split
  · exact .of_flag _ true
  · exact .of_flag _ false

/-! ## The calls as events -/

/-- A system call of the current process, with its result; `device` is everything the hardware does
to the console and the RTC in between. -/
inductive Call
  | openFile (filename : List UInt8) (ret : Int)
  | closeFile (fd : Int) (ret : Int)
  | read (fd : Int) (buf : Nat) (nbytes : Int) (copy : Copy)
  | write (fd : Int) (buf : Nat) (data : Nat → UInt8) (nbytes : Int) (ret : Int)
  | getargs (buf : Nat) (nbytes : Int) (copy : Copy)
  | device (con : Console) (rtc : Rtc)

/-- **`CallStep img k c k'`** — call `c` returns, with the result it carries, and leaves `k'`. -/
def CallStep (img : Image) (k : Kernel) : Call → Kernel → Prop
  | .openFile filename ret, k' => openHandler img filename k = (k', ret)
  | .closeFile fd ret, k' =>
      k' = { k with proc := (closeHandler fd k.proc).1 } ∧ ret = (closeHandler fd k.proc).2
  | .read fd buf nbytes copy, k' => readHandler img fd buf nbytes k = some (k', copy)
  | .write fd buf data nbytes ret, k' => writeHandler fd buf data nbytes k = some (k', ret)
  | .getargs buf nbytes copy, k' => getargsHandler buf nbytes k = (k', copy)
  | .device con rtc, k' => k' = { k with con := con, rtc := rtc }

section CallStep

variable {img : Image} {k k' : Kernel}

theorem CallStep.openFile {filename : List UInt8} {ret : Int}
    (h : CallStep img k (.openFile filename ret) k') :
    k.proc.Retabled (openTable img filename k.proc.table).1 k'.proc ∧
    ret = (openTable img filename k.proc.table).2 := by
  have hopen := openHandler_retabled img filename k
  rwa [show openHandler img filename k = (k', ret) from h] at hopen

theorem CallStep.closeFile {fd ret : Int} (hcur : k.proc.pcbCurrent ≠ 0)
    (h : CallStep img k (.closeFile fd ret) k') :
    k.proc.Retabled (closeTable fd k.proc.table).1 k'.proc ∧
    ret = (closeTable fd k.proc.table).2 := by
  obtain ⟨rfl, rfl⟩ := h
  exact closeHandler_retabled fd hcur

theorem CallStep.getargs {buf : Nat} {nbytes : Int} {copy : Copy}
    (h : CallStep img k (.getargs buf nbytes copy) k') :
    k.proc.Retabled k.proc.table k'.proc := by
  have hargs := getargsHandler_retabled buf nbytes k
  rwa [show getargsHandler buf nbytes k = (k', copy) from h] at hargs

end CallStep

/-- **A call reaches the process table through the current descriptor table only.** -/
theorem CallStep.retabled {img : Image} {k k' : Kernel} {c : Call} (h : CallStep img k c k') :
    ∃ arr, k.proc.Retabled arr k'.proc := by
  cases c with
  | openFile filename ret => exact ⟨_, h.openFile.1⟩
  | closeFile fd ret =>
      obtain ⟨rfl, -⟩ := h
      by_cases hcur : k.proc.pcbCurrent = 0
      · rw [closeHandler_null fd hcur]
        exact ⟨_, .of_flag _ false⟩
      · exact ⟨_, (closeHandler_retabled fd hcur).1⟩
  | read fd buf nbytes copy =>
      rcases readHandler_retabled h with hread | hread
      · exact ⟨_, hread⟩
      · exact ⟨_, hread⟩
  | write fd buf data nbytes ret => exact ⟨_, writeHandler_retabled h⟩
  | getargs buf nbytes copy => exact ⟨_, h.getargs⟩
  | device con rtc =>
      obtain rfl := h
      exact ⟨_, .refl _⟩

/-! ## All events -/

/-- The events of the whole kernel: those that move processes, and the calls. -/
inductive Event
  | act (a : Act)
  | call (c : Call)

def EventStep (img : Image) (k : Kernel) : Event → Kernel → Prop
  | .act a, k' => DisplayedStep img k a k'
  | .call c, k' => CallStep img k c k'

/-- **The step lemma for all events.** -/
theorem WF.event {img : Image} {k k' : Kernel} {e : Event} (h : WF k.proc)
    (hs : EventStep img k e k') : WF k'.proc := by
  cases e with
  | act a => exact h.step hs
  | call c =>
      obtain ⟨arr, harr⟩ := CallStep.retabled hs
      exact harr.wf h

/-- **The table is well formed in every reachable state.** -/
theorem WF.reachable {img : Image} {k k' : Kernel} {es : List Event} (hboot : Booted k)
    (hrun : Run (EventStep img) k es k') : WF k'.proc :=
  hrun.invariant (I := fun k => WF k.proc) (WF.of_booted hboot) fun _ _ _ h hs => h.event hs

end Ece391
