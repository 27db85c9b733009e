/-
# Ece391.Files.Failure — what a descriptor call that returns -1 leaves behind.

A failed call should leave the descriptor table of its caller alone.  Two exits do not: `open_handler`
marks the free descriptor as used before it looks at the file type, and `read_handler` adds whatever
the device returned to the file position, the -1 of a failed `read_data` included.

`failed_call_iff` is exact, for every image, table and argument.
-/
import Ece391.Process.Calls

namespace Ece391

/-- The four descriptor calls, with their arguments. -/
inductive Request
  | openFile (filename : List UInt8)
  | closeFile (fd : Int)
  | read (fd : Int) (buf : Nat) (nbytes : Int)
  | write (fd : Int) (buf : Nat) (data : Nat → UInt8) (nbytes : Int)

/-- **`Fails img k req k'`** — the call returns -1 and leaves `k'`. -/
def Fails (img : Image) (k : Kernel) : Request → Kernel → Prop
  | .openFile filename, k' => CallStep img k (.openFile filename (-1)) k'
  | .closeFile fd, k' => CallStep img k (.closeFile fd (-1)) k'
  | .read fd buf nbytes, k' => ∃ copy, copy.ret = -1 ∧ CallStep img k (.read fd buf nbytes copy) k'
  | .write fd buf data nbytes, k' => CallStep img k (.write fd buf data nbytes (-1)) k'

/-- The name reaches the search for a free descriptor: it is neither empty nor (a prefix of) stdin or
stdout. -/
def NamesFile (filename : List UInt8) : Prop :=
  charAt filename 0 ≠ 0 ∧
  strncmp (charAt filename) (charAt stdinName) (strlen filename) ≠ 0 ∧
  strncmp (charAt filename) (charAt stdoutName) (strlen filename) ≠ 0

/-- An open that fails with a descriptor in hand: the entry has an unknown type. -/
def OpensUnknown (img : Image) (filename : List UInt8) (arr : Nat → FileDescriptor) : Prop :=
  NamesFile filename ∧
  ∃ dentry fd, readDentryByName img filename = some dentry ∧ freeDescriptor arr = some fd ∧
    2 < dentry.filetype

/-- A device read that returns -1: a file whose inode number is out of range, or a terminal line whose
count of 255 wraps to -1. -/
def ReadsMinusOne (img : Image) (d : FileDescriptor) (nbytes : Int) (k : Kernel) : Prop :=
  (d.operations = .filesystem ∧ img.inodeCount < d.inode) ∨
  (d.operations = .terminal ∧ k.con.LineReady k.proc.currProcess ∧
    s8 (k.con.keyCopy (nbytes % 2 ^ 32).toNat).length = -1)

/-- A read of an open descriptor above stdout that returns -1 from the device. -/
def ReadsBack (img : Image) (fd : Int) (buf : Nat) (nbytes : Int) (k : Kernel) : Prop :=
  buf ≠ 0 ∧ 2 ≤ fd ∧ fd ≤ 7 ∧ (k.proc.table fd.toNat).flags = 1 ∧
  ReadsMinusOne img (k.proc.table fd.toNat) nbytes k

/-- **The calls that leave the table alone when they fail.** -/
def KeepsTable (img : Image) (k : Kernel) : Request → Prop
  | .openFile filename => ¬ OpensUnknown img filename k.proc.table
  | .closeFile _ => True
  | .read fd buf nbytes => ¬ ReadsBack img fd buf nbytes k
  | .write _ _ _ _ => True

/-! ## `open_handler` -/

theorem openedEntry_eq_none_iff (dentry : Dentry) : openedEntry dentry = none ↔ 2 < dentry.filetype := by
  unfold openedEntry
  split_ifs <;> simp <;> omega

/-- **A failed open on the table.** -/
theorem openTable_failed {img : Image} {filename : List UInt8} {arr : Nat → FileDescriptor}
    (hret : (openTable img filename arr).2 = -1) :
    (∃ fd, OpensUnknown img filename arr ∧ freeDescriptor arr = some fd ∧
      (openTable img filename arr).1 = Function.update arr fd ⟨(arr fd).operations, 0, 0, 1⟩) ∨
    (¬ OpensUnknown img filename arr ∧ (openTable img filename arr).1 = arr) := by
  unfold openTable at hret ⊢
  split at hret
  next h0 => exact Or.inr ⟨fun h => h.1.1 h0, by rw [if_pos h0]⟩
  next h0 =>
    rw [if_neg h0]
    split at hret
    · cases hret
    next hin =>
      rw [if_neg hin]
      split at hret
      · cases hret
      next hout =>
        rw [if_neg hout]
        have hnames : NamesFile filename := ⟨h0, hin, hout⟩
        cases hd : readDentryByName img filename with
        | none =>
            refine Or.inr ⟨?_, rfl⟩
            rintro ⟨-, dentry, fd, hd', -⟩
            rw [hd] at hd'
            cases hd'
        | some dentry =>
            cases hfree : freeDescriptor arr with
            | none =>
                refine Or.inr ⟨?_, rfl⟩
                rintro ⟨-, -, fd, -, hfree', -⟩
                rw [hfree] at hfree'
                cases hfree'
            | some fd =>
                rw [hd, hfree] at hret
                dsimp only at hret ⊢
                cases hentry : openedEntry dentry with
                | some d =>
                    rw [hentry] at hret
                    have hpos : (fd : Int) = -1 := hret
                    omega
                | none =>
                    have htype := (openedEntry_eq_none_iff dentry).mp hentry
                    exact Or.inl ⟨fd, ⟨hnames, dentry, fd, hd, hfree, htype⟩, rfl, rfl⟩

/-- An open of an entry of unknown type does fail. -/
theorem OpensUnknown.ret {img : Image} {filename : List UInt8} {arr : Nat → FileDescriptor}
    (h : OpensUnknown img filename arr) : (openTable img filename arr).2 = -1 := by
  obtain ⟨⟨h0, hin, hout⟩, dentry, fd, hd, hfree, htype⟩ := h
  have hentry := (openedEntry_eq_none_iff dentry).mpr htype
  simp only [openTable, if_neg h0, if_neg hin, if_neg hout, hd, hfree, hentry]

/-! ## `read_handler` -/

theorem directoryLoop_ret_nonneg (img : Image) (n i : Nat) (idx curPos : Int) :
    0 ≤ (directoryLoop img n i idx curPos).ret := by
  induction n generalizing i idx curPos with
  | zero =>
      show (0 : Int) ≤ i
      omega
  | succ n ih =>
      unfold directoryLoop
      split
      · exact ih _ _ _
      · show (0 : Int) ≤ i
        omega

theorem readData_ret_eq_neg_one_iff {img : Image} {inode offset buf length : Nat} (hbuf : buf ≠ 0) :
    (readData img inode offset buf length).ret = -1 ↔ img.inodeCount < inode := by
  unfold readData
  constructor
  · intro hret
    by_contra hle
    rw [if_neg (not_or.mpr ⟨hle, hbuf⟩)] at hret
    have hcount : ((readLoop img inode offset length).readCounter : Int) = -1 := hret
    omega
  · intro hlt
    rw [if_pos (Or.inl hlt)]

/-- When the device returns -1. -/
theorem readPtr_ret {img : Image} {d : FileDescriptor} {offset buf : Nat} {nbytes : Int}
    {k k' : Kernel} {copy : Copy} (hbuf : buf ≠ 0)
    (h : readPtr img d.operations d.inode offset buf (nbytes % 2 ^ 32).toNat k = some (k', copy)) :
    copy.ret = -1 ↔ ReadsMinusOne img d nbytes k := by
  unfold readPtr at h
  unfold ReadsMinusOne
  cases hops : d.operations with
  | null =>
      rw [hops] at h
      cases h
  | terminal =>
      rw [hops] at h
      obtain ⟨r, hr, hcopy⟩ := Option.map_eq_some_iff.mp h
      unfold Console.terminalRead at hr
      split at hr
      next hready =>
        cases hr
        cases hcopy
        simp [hready]
      next => cases hr
  | rtc =>
      rw [hops] at h
      dsimp only at h
      split at h
      · cases h
        simp
      · cases h
  | directory =>
      rw [hops] at h
      cases h
      have hpos : 0 ≤ (directoryRead img offset (nbytes % 2 ^ 32).toNat).ret :=
        directoryLoop_ret_nonneg _ _ _ _ _
      simp only [reduceCtorEq, false_and, or_false, iff_false]
      omega
  | filesystem =>
      rw [hops] at h
      cases h
      simpa using readData_ret_eq_neg_one_iff hbuf

/-- A device that would return -1 does return. -/
theorem ReadsMinusOne.returns {img : Image} {d : FileDescriptor} {nbytes : Int} {k : Kernel}
    (h : ReadsMinusOne img d nbytes k) (offset buf length : Nat) :
    ∃ r, readPtr img d.operations d.inode offset buf length k = some r := by
  rcases h with ⟨hops, -⟩ | ⟨hops, hready, -⟩
  · rw [hops]
    exact ⟨_, rfl⟩
  · rw [hops]
    simp only [readPtr, Console.terminalRead, if_pos hready, Option.map_some]
    exact ⟨_, rfl⟩

/-- The -1 that is added to the position always moves it. -/
theorem advanceTable_ne (fd : Nat) (arr : Nat → FileDescriptor) :
    advanceTable fd (-1) arr fd ≠ arr fd := by
  intro heq
  have hpos := congrArg FileDescriptor.filePosition heq
  simp only [advanceTable, Function.update_self] at hpos
  omega

/-- **A failed read on the table.** -/
theorem readHandler_failed {img : Image} {fd : Int} {buf : Nat} {nbytes : Int} {k k' : Kernel}
    {copy : Copy} (h : readHandler img fd buf nbytes k = some (k', copy)) (hret : copy.ret = -1) :
    (ReadsBack img fd buf nbytes k ∧
      k'.proc.table = advanceTable fd.toNat (-1) k.proc.table) ∨
    (¬ ReadsBack img fd buf nbytes k ∧ k'.proc.table = k.proc.table) := by
  unfold readHandler at h
  dsimp only at h
  split at h
  next hout =>
    cases h
    refine Or.inr ⟨?_, rfl⟩
    rintro ⟨hbuf, h2, h7, -⟩
    unfold fdMin fdMax at hout
    omega
  next hout =>
    unfold fdMin fdMax at hout
    split at h
    next h1 =>
      cases h
      refine Or.inr ⟨?_, rfl⟩
      rintro ⟨-, h2, -⟩
      unfold fdMin at h1
      omega
    next h1 =>
      unfold fdMin at h1
      split at h
      next hflag =>
        split at h
        next h0 =>
          refine Or.inr ⟨?_, (readPtr_retabled h).table⟩
          rintro ⟨-, h2, -⟩
          omega
        next h0 =>
          obtain ⟨r, hr, hk⟩ := Option.map_eq_some_iff.mp h
          cases hk
          have hminus := (readPtr_ret (by omega) hr).mp hret
          have hread := readPtr_retabled hr
          have hadv := Proc.Retabled.set r.1.proc (advanceTable fd.toNat r.2.ret)
          rw [hread.table] at hadv
          refine Or.inl ⟨⟨by omega, by omega, by omega, hflag, hminus⟩, ?_⟩
          rw [← hret]
          exact hadv.table
      next hflag =>
        cases h
        refine Or.inr ⟨?_, rfl⟩
        rintro ⟨-, -, -, hflag', -⟩
        exact hflag hflag'

/-- A read whose -1 comes from the device does fail. -/
theorem ReadsBack.fails {img : Image} {fd : Int} {buf : Nat} {nbytes : Int} {k : Kernel}
    (h : ReadsBack img fd buf nbytes k) : ∃ k', Fails img k (.read fd buf nbytes) k' := by
  obtain ⟨hbuf, h2, h7, hflag, hminus⟩ := h
  obtain ⟨r, hr⟩ := hminus.returns (k.proc.table fd.toNat).filePosition buf (nbytes % 2 ^ 32).toNat
  have hret := (readPtr_ret hbuf hr).mpr hminus
  refine ⟨{ r.1 with proc := r.1.proc.advance fd.toNat r.2.ret }, r.2, hret, ?_⟩
  have hin : ¬ (buf = 0 ∨ fd < fdMin ∨ fd > fdMax) := by unfold fdMin fdMax; omega
  have hout : ¬ fd = fdMin + 1 := by unfold fdMin; omega
  have hzero : ¬ fd = 0 := by omega
  have hopen : (k.proc.current.pcbArr fd.toNat).flags = 1 := hflag
  have hread : readPtr img (k.proc.current.pcbArr fd.toNat).operations
      (k.proc.current.pcbArr fd.toNat).inode (k.proc.current.pcbArr fd.toNat).filePosition buf
      (nbytes % 2 ^ 32).toNat k = some r := hr
  show readHandler img fd buf nbytes k = _
  simp only [readHandler, if_neg hin, if_neg hout, if_pos hopen, if_neg hzero, hread, Option.map_some]

/-! ## The other two calls -/

theorem closeHandler_failed {fd : Int} {p : Proc} (hret : (closeHandler fd p).2 = -1) :
    (closeHandler fd p).1.table = p.table := by
  by_cases hcur : p.pcbCurrent = 0
  · rw [closeHandler_null fd hcur]
    rfl
  · obtain ⟨htable, heq⟩ := closeHandler_retabled fd hcur
    rw [htable.table]
    rw [heq] at hret
    unfold closeTable at hret ⊢
    split at hret
    next hout => rw [if_pos hout]
    next => cases hret

/-! ## All four -/

/-- **When a failed descriptor call leaves the table alone.**  Whatever the image, the table and the
arguments, a call that returns -1 leaves the eight entries as they were exactly when it is not an
`open` of an entry of unknown type and not a `read` whose -1 came from the device. -/
theorem failed_call_iff (img : Image) (k : Kernel) (req : Request) :
    (∀ k', Fails img k req k' → ∀ fd ≤ 7, k'.proc.table fd = k.proc.table fd) ↔
      KeepsTable img k req := by
  cases req with
  | openFile filename =>
      obtain ⟨hre, hret⟩ := openHandler_retabled img filename k
      constructor
      · intro h hunknown
        have hfail : Fails img k (.openFile filename) (openHandler img filename k).1 := by
          show openHandler img filename k = _
          rw [← hunknown.ret, ← hret]
        rcases openTable_failed hunknown.ret with ⟨fd, -, hfree, htable⟩ | ⟨hkeep, -⟩
        · -- the claimed descriptor was free, and is marked as used
          obtain ⟨-, h7, hflag, -⟩ := freeDescriptor_eq_some hfree
          have hsame := congrArg FileDescriptor.flags (h _ hfail fd h7)
          rw [hre.table, htable, Function.update_self, hflag] at hsame
          cases hsame
        · exact hkeep hunknown
      · intro hkeep k' hfail fd _
        obtain ⟨hre', hret'⟩ := CallStep.openFile hfail
        rcases openTable_failed hret'.symm with ⟨-, hunknown, -⟩ | ⟨-, htable⟩
        · exact absurd hunknown hkeep
        · rw [hre'.table, htable]
  | closeFile fd =>
      refine ⟨fun _ => trivial, fun _ k' hfail => ?_⟩
      obtain ⟨rfl, hret⟩ := hfail
      intro fd' _
      exact congrFun (closeHandler_failed hret.symm) fd'
  | read fd buf nbytes =>
      constructor
      · intro h hback
        obtain ⟨k', hfail⟩ := hback.fails
        have hsame := h k' hfail fd.toNat (by have := hback.2.2.1; omega)
        obtain ⟨copy, hret, hstep⟩ := hfail
        rcases readHandler_failed hstep hret with ⟨-, htable⟩ | ⟨hkeep, -⟩
        · rw [htable] at hsame
          exact advanceTable_ne _ _ hsame
        · exact hkeep hback
      · rintro hkeep k' ⟨copy, hret, hstep⟩ fd' _
        rcases readHandler_failed hstep hret with ⟨hback, -⟩ | ⟨-, htable⟩
        · exact absurd hback hkeep
        · exact congrFun htable fd'
  | write fd buf data nbytes =>
      refine ⟨fun _ => trivial, fun _ k' hfail fd' _ => ?_⟩
      exact congrFun (writeHandler_retabled hfail).table fd'

/-- The demo image with a file type of 3 in its one directory entry. -/
def unknownTypeImage : Image := Function.update shellImage 96 3

/-- The demo image with an inode number of 7 in its one directory entry. -/
def strayInodeImage : Image := Function.update shellImage 100 7

/-- Opening an entry of unknown type returns -1 and leaves descriptor 2 marked as used; reading a file
whose inode number is out of range returns -1 and moves the position from 0 to 2³² - 1. -/
theorem failed_open_claims_descriptor :
    (∃ k', Fails unknownTypeImage bootedKernel (.openFile shellName) k' ∧
      (bootedKernel.proc.table 2).flags = 0 ∧ (k'.proc.table 2).flags = 1) ∧
    ∃ k1 k2, CallStep strayInodeImage bootedKernel (.openFile shellName 2) k1 ∧
      Fails strayInodeImage k1 (.read 2 1 4) k2 ∧
      (k1.proc.table 2).filePosition = 0 ∧ (k2.proc.table 2).filePosition = 2 ^ 32 - 1 := by
  refine ⟨⟨_, Prod.ext rfl (by decide), by decide, by decide⟩, ?_⟩
  -- what the read returns, and where it leaves the position
  have hread : (readHandler strayInodeImage 2 1 4
      (openHandler strayInodeImage shellName bootedKernel).1).map
        (fun r => (r.2.ret, (r.1.proc.table 2).filePosition)) = some (-1, 2 ^ 32 - 1) := by decide
  obtain ⟨⟨k2, copy⟩, hstep, hpair⟩ := Option.map_eq_some_iff.mp hread
  obtain ⟨hret, hpos⟩ := Prod.mk.inj hpair
  exact ⟨_, k2, Prod.ext rfl (by decide), ⟨copy, hret, hstep⟩, by decide, hpos⟩

end Ece391
