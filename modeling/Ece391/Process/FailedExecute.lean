/-
# Ece391.Process.FailedExecute — what an execute that returns -1 leaves behind.

Four of the five failure exits of `execute_handler` come before anything but `args_flag` is written.
The fifth, in the copy loop, comes after `page_dir[32]` has been pointed at the frame of the free slot.
It is taken when `read_data` refuses the inode number.  The header check does not catch this first: it
ignores the value `read_data` returns and looks at the buffer, which still holds the name of the file.

So the fifth exit is reached by a directory entry with an inode number out of range whose name begins
with the four bytes of the ELF magic.
-/
import Ece391.Process.Table

namespace Ece391

/-! ## The property -/

/-- **`SameTable p p'`** — the process table, the slot table, the current PCB and the user page are the
same. -/
structure SameTable (p p' : Proc) : Prop where
  pidArr : p'.pidArr = p.pidArr
  programCount : p'.programCount = p.programCount
  schedPid : p'.schedPid = p.schedPid
  pcbCurrent : p'.pcbCurrent = p.pcbCurrent
  pcb : p'.pcb = p.pcb
  userPage : p'.userPage = p.userPage

/-- The first four bytes of an executable. -/
def elfMagic : List UInt8 := [0x7F, 0x45, 0x4C, 0x46]

/-- **`StrayExecutable img command k`** — the table is not full, and the command names an entry whose
inode number is out of range and whose name begins with the magic bytes. -/
def StrayExecutable (img : Image) (command : List UInt8) (k : Kernel) : Prop :=
  k.proc.programCount < programMax ∧
  ∃ dentry, readDentryByName img (parseName command).1 = some dentry ∧
    img.inodeCount < dentry.inodeNum ∧ elfMagic <+: (parseName command).1

/-- The entry of `page_dir` that maps the user page to the frame of the slot the handler picks. -/
def Proc.slotPage (p : Proc) (fr : Frame) : PageEntry :=
  userPageEntry (bottomKernal + pageSize * p.slot fr)

/-- **`Remaps img fr command k`** — the execute fails with the user page remapped. -/
def Remaps (img : Image) (fr : Frame) : Option (List UInt8) → Kernel → Prop
  | none, _ => False
  | some command, k => StrayExecutable img command k ∧ k.proc.userPage ≠ k.proc.slotPage fr

/-! ## The header check and the copy loop on a refused inode -/

theorem readData_refused {img : Image} {inode : Nat} (h : img.inodeCount < inode)
    (offset buf length : Nat) : readData img inode offset buf length = ⟨-1, [], []⟩ := by
  rw [readData, if_pos (Or.inl h)]

/-- The copy loop fails exactly on the inode numbers `read_data` refuses. -/
theorem loadProgram_eq_none_iff (img : Image) (inode : Nat) :
    loadProgram img inode = none ↔ img.inodeCount < inode := by
  constructor
  · intro h
    by_contra hle
    obtain ⟨stores, hload⟩ := loadLoop_some img (Nat.not_lt.mp hle) pageSize 0
    rw [loadProgram, hload] at h
    cases h
  · intro h
    -- the first turn already returns
    obtain ⟨n, hn⟩ : ∃ n, pageSize = n + 1 := ⟨pageSize - 1, by decide⟩
    have hpos : 0 < pageSize := by omega
    rw [loadProgram]
    conv_lhs => rw [hn]
    simp [loadLoop, readData_refused h, hpos]

/-- On a refused inode the header check reads the name. -/
theorem isExecutable_refused {img : Image} {inode : Nat} (h : img.inodeCount < inode)
    (name : List UInt8) : isExecutable img name inode = true ↔ elfMagic <+: name := by
  rw [isExecutable, readData_refused h]
  simp only [overlay, List.foldl_nil, Bool.and_eq_true, beq_iff_eq]
  -- a name of fewer than four bytes runs into its NULs
  rcases name with _ | ⟨a, _ | ⟨b, _ | ⟨c, _ | ⟨d, rest⟩⟩⟩⟩
  · simp [charAt, elfMagic]
  · simp [charAt, elfMagic]
  · simp [charAt, elfMagic]
  · simp [charAt, elfMagic]
  · simp only [charAt, elfMagic, List.cons_prefix_cons, List.nil_prefix, and_true, List.getD_cons_zero,
      List.getD_cons_succ, and_assoc]
    constructor
    · rintro ⟨ha, hb, hc, hd⟩
      exact ⟨ha.symm, hb.symm, hc.symm, hd.symm⟩
    · rintro ⟨ha, hb, hc, hd⟩
      exact ⟨ha.symm, hb.symm, hc.symm, hd.symm⟩

/-! ## The handler -/

/-- **A failed execute, exit by exit**: the user page is remapped at the fifth exit and nowhere else. -/
theorem executeHandler_failed {img : Image} {fr : Frame} {command : Option (List UInt8)}
    {k k' : Kernel} (h : executeHandler img fr command k = (k', none)) :
    (∃ c, command = some c ∧ StrayExecutable img c k ∧ k'.proc.userPage = k.proc.slotPage fr) ∨
    ((∀ c, command = some c → ¬ StrayExecutable img c k) ∧ k'.proc.userPage = k.proc.userPage) := by
  unfold executeHandler at h
  split at h
  next hfull =>
    cases h
    exact Or.inr ⟨fun c _ hstray => absurd hstray.1 (Nat.not_lt.mpr hfull), rfl⟩
  next hroom =>
    cases command with
    | none =>
        cases h
        exact Or.inr ⟨fun c hc => (by cases hc), rfl⟩
    | some c =>
        dsimp only at h
        split at h
        next hd =>
          cases h
          refine Or.inr ⟨?_, rfl⟩
          rintro c ⟨⟩ ⟨-, dentry, hd', -⟩
          rw [hd] at hd'
          cases hd'
        next dentry hd =>
          split at h
          next hexec =>
            unfold Kernel.launch at h
            split at h
            next hload =>
              cases h
              have hinode := (loadProgram_eq_none_iff img _).mp hload
              exact Or.inl ⟨c, rfl, ⟨Nat.lt_of_not_le hroom, dentry, hd, hinode,
                (isExecutable_refused hinode _).mp hexec⟩, rfl⟩
            next => cases h
          next hexec =>
            cases h
            refine Or.inr ⟨?_, rfl⟩
            rintro c ⟨⟩ ⟨-, dentry', hd', hinode, hmagic⟩
            obtain rfl := Option.some.inj (hd.symm.trans hd')
            exact hexec ((isExecutable_refused hinode _).mpr hmagic)

/-- The fifth exit is a failure. -/
theorem StrayExecutable.fails {img : Image} {command : List UInt8} {k : Kernel}
    (h : StrayExecutable img command k) (fr : Frame) :
    ∃ k', executeHandler img fr (some command) k = (k', none) := by
  obtain ⟨hcount, dentry, hd, hinode, hmagic⟩ := h
  have hmax : ¬ k.proc.programCount ≥ programMax := Nat.not_le.mpr hcount
  have hexec := (isExecutable_refused hinode (parseName command).1).mpr hmagic
  have hload := (loadProgram_eq_none_iff img dentry.inodeNum).mpr hinode
  simp only [executeHandler, if_neg hmax, hd, hexec, if_true, Kernel.launch, hload]
  exact ⟨_, rfl⟩

/-- **When a failed execute changes nothing.**  For every image, command and state: exactly when it
does not fail with the user page remapped. -/
theorem failed_execute_iff (img : Image) (fr : Frame) (command : Option (List UInt8)) (k : Kernel) :
    (∀ k', executeHandler img fr command k = (k', none) → SameTable k.proc k'.proc) ↔
      ¬ Remaps img fr command k := by
  constructor
  · intro hsame hremaps
    cases command with
    | none => exact hremaps
    | some c =>
        obtain ⟨hstray, hpage⟩ := hremaps
        obtain ⟨k', hfail⟩ := hstray.fails fr
        rcases executeHandler_failed hfail with ⟨-, -, -, hmapped⟩ | ⟨hnot, -⟩
        · exact hpage ((hsame k' hfail).userPage.symm.trans hmapped)
        · exact hnot c rfl hstray
  · intro hkeeps k' hfail
    have hpage : k'.proc.userPage = k.proc.userPage := by
      rcases executeHandler_failed hfail with ⟨c, rfl, hstray, hmapped⟩ | ⟨-, hkept⟩
      · by_contra hne
        exact hkeeps ⟨hstray, fun heq => hne (hmapped.trans heq.symm)⟩
      · exact hkept
    obtain ⟨argsFlag, userPage, flag, hproc⟩ := executeHandler_none hfail
    rw [hproc] at hpage ⊢
    exact ⟨rfl, rfl, rfl, rfl, rfl, hpage⟩

/-- In a well-formed table the user page never maps a free slot, so a stray executable always moves
it. -/
theorem WF.remaps_iff {k : Kernel} (h : WF k.proc) (img : Image) (fr : Frame) (command : List UInt8) :
    Remaps img fr (some command) k ↔ StrayExecutable img command k := by
  refine ⟨fun hremaps => hremaps.1, fun hstray => ⟨hstray, fun hpage => ?_⟩⟩
  obtain ⟨hslot, hfree, -⟩ := h.toForest.slot fr hstray.1
  have hframe := h.frame
  have haddr : bottomKernal + pageSize * k.proc.slot fr
      = bottomKernal + pageSize * (k.proc.slot fr + 1) - pageSize := by
    unfold pageSize
    omega
  rw [hpage, Proc.slotPage, haddr, userPageEntry_frame hslot (by omega)] at hframe
  have hlive := h.scheduled k.proc.currProcess
  rw [show k.proc.schedPid k.proc.currProcess = k.proc.slot fr + 1 by omega] at hlive
  exact not_live_slot hfree hlive

/-- A file system with one entry, named by the magic bytes and with inode number 7; there is one
inode. -/
def strayImage : Image := fun n =>
  ([(0, 1), (4, 1), (8, 1), (64, 0x7F), (65, 0x45), (66, 0x4C), (67, 0x46), (96, 2),
    (100, 7)].lookup n).getD 0

theorem strayExecutable_booted : StrayExecutable strayImage elfMagic bootedKernel :=
  ⟨by decide, strayImage.dentry 0, by decide, by decide, by decide⟩

/-- Executing that entry from the first shell returns -1 and leaves the shell's user page mapped to the
frame of process 4, which does not exist. -/
theorem failed_execute_remaps :
    ∃ k', executeHandler strayImage (.at 0 0) (some elfMagic) bootedKernel = (k', none) ∧
      bootedKernel.proc.userPage.frame = 2 ∧ k'.proc.userPage.frame = 5 ∧
      ¬ SameTable bootedKernel.proc k'.proc := by
  obtain ⟨k', hfail⟩ := strayExecutable_booted.fails (.at 0 0)
  have hpage : k'.proc.userPage = bootedKernel.proc.slotPage (.at 0 0) := by
    rcases executeHandler_failed hfail with ⟨-, -, -, hmapped⟩ | ⟨hnot, -⟩
    · exact hmapped
    · exact absurd strayExecutable_booted (hnot _ rfl)
  have hold : bootedKernel.proc.userPage.frame = 2 := by decide
  have hnew : k'.proc.userPage.frame = 5 := by
    rw [hpage]
    decide
  refine ⟨k', hfail, hold, hnew, fun hsame => ?_⟩
  rw [hsame.userPage, hold] at hnew
  cases hnew

end Ece391
