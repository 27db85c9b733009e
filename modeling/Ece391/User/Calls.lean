/-
# Ece391.User.Calls — a user program between its system calls.

The programs under `syscalls/` see the kernel through the calls of `ece391syscall.h` only.  Here a program
is a function on `Running`, the kernel together with what the program has written to its standard output,
and each call is the handler of the kernel, run after whatever the rest of the system has done since the
last call (`World.others`).  What a program relies on is in the fields of `World`: when it runs again, its
PCB is the current one, and its descriptors and arguments are as it left them.

`Printing t` is the state of a program whose descriptor table is `t`, with the terminal at standard output.
There is one lemma for each call: the table afterwards, what the program gets and what has been written.
-/
import Ece391.Files.FileData
import Ece391.Files.Directory
import Ece391.Process.Arguments

open Ece391.Lib

namespace Ece391

/-! ## The calls -/

/-- The system a program runs in: the file system, and what else happens before the program's `n`-th
call. -/
structure World where
  img : Image
  others : Nat → Kernel → Kernel
  pcbCurrent : ∀ n k, (others n k).proc.pcbCurrent = k.proc.pcbCurrent
  table : ∀ n k, (others n k).proc.table = k.proc.table
  args : ∀ n k, (others n k).proc.current.args = k.proc.current.args

/-- The kernel as a program left it, the number of its calls, and what it has written to descriptor 1. -/
structure Running where
  kernel : Kernel
  calls : Nat
  output : List (List UInt8)

/-- The address of a buffer on the program's stack; only that it is not NULL matters. -/
def userBuf : Nat := 0x83FF000

/-- The kernel as a call finds it. -/
def World.before (w : World) (s : Running) : Kernel := w.others s.calls s.kernel

/-- The program goes on with the kernel a call has left. -/
def Running.after (s : Running) (k : Kernel) : Running := { s with kernel := k, calls := s.calls + 1 }

namespace World

variable (w : World)

/-- `ece391_open`. -/
def openFile (name : List UInt8) (s : Running) : Running × Int :=
  let r := openHandler w.img name (w.before s)
  (s.after r.1, r.2)

/-- `ece391_close`. -/
def closeFile (fd : Int) (s : Running) : Running × Int :=
  let r := closeHandler fd (w.before s).proc
  (s.after { w.before s with proc := r.1 }, r.2)

/-- `ece391_read`; `none` is a read that does not return. -/
def read (fd nbytes : Int) (s : Running) : Option (Running × Copy) :=
  (readHandler w.img fd userBuf nbytes (w.before s)).map fun r => (s.after r.1, r.2)

/-- `ece391_write`. -/
def write (fd : Int) (bytes : List UInt8) (s : Running) : Option (Running × Int) :=
  (writeHandler fd userBuf (charAt bytes) bytes.length (w.before s)).map fun r =>
    ({ s.after r.1 with output := if fd = 1 then s.output ++ [bytes] else s.output }, r.2)

/-- `ece391_getargs`. -/
def getargs (nbytes : Int) (s : Running) : Running × Copy :=
  let r := getargsHandler userBuf nbytes (w.before s)
  (s.after r.1, r.2)

/-- `ece391_fdputs`: the string up to its NUL, whatever the write returns. -/
def fdputs (fd : Int) (str : List UInt8) (s : Running) : Option Running :=
  (w.write fd (cstr str) s).map Prod.fst

end World

/-! ## A program that prints -/

/-- **`Printing t s`** — the descriptor table is `t`, and standard output is the terminal. -/
structure Printing (t : Nat → FileDescriptor) (s : Running) : Prop where
  current : s.kernel.proc.pcbCurrent ≠ 0
  table : s.kernel.proc.table = t
  stdout : ∃ i n, t 1 = ⟨.terminal, i, n, 1⟩

/-- **`Reading t inode fd pos s`** — descriptor `fd` is at byte `pos` of a regular file. -/
abbrev Reading (t : Nat → FileDescriptor) (inode fd pos : Nat) : Running → Prop :=
  Printing (Function.update t fd ⟨.filesystem, inode, pos, 1⟩)

/-- A read moves the descriptor it is on, and no other. -/
theorem readHandler_table {img : Image} {fd buf : Nat} {n : Int} {k k' : Kernel} {copy : Copy}
    (h : readHandler img fd buf n k = some (k', copy)) :
    k'.proc.table = Function.update k.proc.table fd (k'.proc.table fd) := by
  rcases readHandler_retabled h with hr | hr
  · rw [hr.table, Function.update_eq_self]
  · rw [hr.table, Int.toNat_natCast, advanceTable, Function.update_self]

theorem readHandler_pcbCurrent {img : Image} {fd : Int} {buf : Nat} {n : Int} {k k' : Kernel} {copy : Copy}
    (h : readHandler img fd buf n k = some (k', copy)) : k'.proc.pcbCurrent = k.proc.pcbCurrent := by
  rcases readHandler_retabled h with hr | hr
  · exact hr.pcbCurrent
  · exact hr.pcbCurrent

/-- The rest of the system leaves the descriptors alone. -/
theorem before_table (w : World) (s : Running) : (w.before s).proc.table = s.kernel.proc.table :=
  w.table s.calls s.kernel

section Printing

variable {w : World} {t : Nat → FileDescriptor} {s : Running}

theorem Printing.before (h : Printing t s) (w : World) :
    (w.before s).proc.pcbCurrent ≠ 0 ∧ (w.before s).proc.table = t := by
  refine ⟨?_, (before_table w s).trans h.table⟩
  rw [World.before, w.pcbCurrent]
  exact h.current

/-- After a call that has replaced the table. -/
theorem Printing.retabled (h : Printing t s) {t' : Nat → FileDescriptor} {k' : Kernel}
    (hre : (w.before s).proc.Retabled t' k'.proc) (hout : t' 1 = t 1) : Printing t' (s.after k') := by
  refine ⟨?_, hre.table, by rw [hout]; exact h.stdout⟩
  show k'.proc.pcbCurrent ≠ 0
  rw [hre.pcbCurrent]
  exact (h.before w).1

/-- A read on a descriptor whose device only copies. -/
theorem Printing.copied (h : Printing t s) {fd n inode pos : Nat} {ops : FileOps} {copy : Copy} (h2 : 2 ≤ fd)
    (h7 : fd ≤ 7) (hn : n < 2 ^ 31) (hdesc : t fd = ⟨ops, inode, pos, 1⟩)
    (hptr : ∀ k, readPtr w.img ops inode pos userBuf n k = some (k, copy)) :
    ∃ s', w.read fd n s = some (s', copy) ∧
      Printing (Function.update t fd ⟨ops, inode, ((pos + copy.ret) % 2 ^ 32).toNat, 1⟩) s' ∧
      s'.output = s.output := by
  obtain ⟨hcur, htable⟩ := h.before w
  have hlen : ((n : Int) % 2 ^ 32).toNat = n := by omega
  have hbefore : (w.before s).proc.table fd = ⟨ops, inode, pos, 1⟩ := by rw [htable, hdesc]
  obtain ⟨k', hread, hentry⟩ := readHandler_copy w.img (n : Int) h2 h7 (show userBuf ≠ 0 by decide) hbefore
    (by rw [hlen]; exact hptr _)
  refine ⟨s.after k', by rw [World.read, hread]; rfl, ⟨?_, ?_, ?_⟩, rfl⟩
  · show k'.proc.pcbCurrent ≠ 0
    rw [readHandler_pcbCurrent hread]
    exact hcur
  · show k'.proc.table = _
    rw [readHandler_table hread, hentry, htable]
  · rw [Function.update_of_ne (by omega)]
    exact h.stdout

/-- **A read of a file.** -/
theorem Printing.read {inode fd pos : Nat} (h : Reading t inode fd pos s) (h2 : 2 ≤ fd) (h7 : fd ≤ 7)
    (hinode : inode < w.img.inodeCount) {n : Nat} (hn : pos + n < 2 ^ 31) :
    ∃ s' copy, w.read fd n s = some (s', copy) ∧ copy.ret = w.img.available inode pos n ∧
      copy.stores = (List.range (w.img.available inode pos n)).map
        (fun i => (i, w.img.fileAt inode (pos + i))) ∧
      Reading t inode fd (pos + w.img.available inode pos n) s' ∧ s'.output = s.output := by
  have hle := w.img.available_le inode pos n
  have hclosed := readData_closed hinode (show userBuf ≠ 0 by decide) (show pos < 2 ^ 31 by omega)
    (show n < 2 ^ 31 by omega)
  obtain ⟨s', hread, hs', hout⟩ := h.copied h2 h7 (show n < 2 ^ 31 by omega) (Function.update_self ..)
    fun k => congrArg (fun c => some (k, c)) hclosed
  have hpos : ((pos + (w.img.available inode pos n : Int)) % 2 ^ 32).toNat =
      pos + w.img.available inode pos n := by omega
  rw [Function.update_idem] at hs'
  dsimp only at hs'
  rw [hpos] at hs'
  exact ⟨s', _, hread, rfl, rfl, hs', hout⟩

/-- **A write to standard output** returns, as an `int8_t`, the number of bytes that are not NUL. -/
theorem Printing.write (h : Printing t s) (w : World) (bytes : List UInt8) :
    ∃ s', w.write 1 bytes s = some (s', s8 (bytes.filter (· ≠ 0)).length) ∧ Printing t s' ∧
      s'.output = s.output ++ [bytes] := by
  obtain ⟨i, n, hout⟩ := h.stdout
  obtain ⟨hcur, htable⟩ := h.before w
  have hdesc : (w.before s).proc.current.pcbArr (1 : Int).toNat = ⟨.terminal, i, n, 1⟩ := by
    show (w.before s).proc.table 1 = _
    rw [htable, hout]
  have hrange : ¬ (userBuf = 0 ∨ (1 : Int) ≤ fdMin ∨ (1 : Int) > fdMax) := by decide
  have hbytes : (List.range (bytes.length : Int).toNat).map (charAt bytes) = bytes := by
    rw [Int.toNat_natCast]
    apply List.ext_getElem (by simp)
    intro j hj hj'
    simp [charAt, hj']
  have hwrite : ∃ k', writeHandler 1 userBuf (charAt bytes) bytes.length (w.before s) =
      some (k', s8 (bytes.filter (· ≠ 0)).length) := by
    simp only [writeHandler, if_neg hrange, hdesc, if_true, writePtr, hbytes]
    exact ⟨_, rfl⟩
  obtain ⟨k', hk'⟩ := hwrite
  have hretabled := writeHandler_retabled hk'
  rw [htable] at hretabled
  have hs' := h.retabled hretabled rfl
  refine ⟨{ s.after k' with output := s.output ++ [bytes] }, ?_, ⟨hs'.current, hs'.table, hs'.stdout⟩, rfl⟩
  rw [World.write, hk']
  rfl

theorem Printing.fdputs (h : Printing t s) (w : World) (str : List UInt8) :
    ∃ s', w.fdputs 1 str s = some s' ∧ Printing t s' ∧ s'.output = s.output ++ [cstr str] := by
  obtain ⟨s', hwrite, hs', hout⟩ := h.write w (cstr str)
  exact ⟨s', by rw [World.fdputs, hwrite]; rfl, hs', hout⟩

/-- **A close** of a descriptor in use. -/
theorem Printing.close (h : Printing t s) (w : World) {fd : Nat} (h2 : 2 ≤ fd) (h7 : fd ≤ 7)
    (hflags : (t fd).flags ≠ 0) :
    (w.closeFile fd s).2 = 0 ∧ Printing (clearFlag t fd) (w.closeFile fd s).1 ∧
      (w.closeFile fd s).1.output = s.output := by
  obtain ⟨hcur, htable⟩ := h.before w
  have hopen : ¬ ((fd : Int) < 2 ∨ (fd : Int) > 7 ∨ ((w.before s).proc.table (fd : Int).toNat).flags = 0) := by
    rw [Int.toNat_natCast, htable]
    omega
  obtain ⟨hretabled, hret⟩ := closeHandler_retabled fd hcur
  rw [closeTable, if_neg hopen] at hretabled hret
  rw [Int.toNat_natCast, htable] at hretabled
  have hout : clearFlag t fd 1 = t 1 := Function.update_of_ne (by omega) ..
  have hs' : Printing (clearFlag t fd)
      (s.after { w.before s with proc := (closeHandler fd (w.before s).proc).1 }) := h.retabled hretabled hout
  exact ⟨hret, hs', rfl⟩

/-- **An open** of a name of the directory, when there is a descriptor for it. -/
theorem Printing.openFile (h : Printing t s) {name : List UInt8} {dentry : Dentry} {e : FileDescriptor}
    {fd : Nat} (hname : readDentryByName w.img name = some dentry) (hentry : openedEntry dentry = some e)
    (hin : ¬ cstr name <+: stdinName) (hstd : ¬ cstr name <+: stdoutName)
    (hfree : freeDescriptor t = some fd) :
    (w.openFile name s).2 = fd ∧ Printing (Function.update t fd e) (w.openFile name s).1 ∧
      (w.openFile name s).1.output = s.output := by
  obtain ⟨hcur, htable⟩ := h.before w
  have hfirst : ¬ charAt name 0 = 0 := by
    intro hzero
    rw [(charAt_zero_eq_zero_iff name).mp hzero] at hin
    exact hin List.nil_prefix
  have hopen : openTable w.img name t = (Function.update t fd e, (fd : Int)) := by
    rw [openTable, if_neg hfirst, if_neg fun h => hin ((strncmp_strlen_iff _ _).mp h),
      if_neg fun h => hstd ((strncmp_strlen_iff _ _).mp h), hname, hfree]
    simp only [hentry]
  obtain ⟨hretabled, hret⟩ := openHandler_retabled w.img name (w.before s)
  rw [htable, hopen] at hretabled hret
  have hout : Function.update t fd e 1 = t 1 := by
    have := (freeDescriptor_eq_some hfree).1
    exact Function.update_of_ne (by omega) ..
  have hs' : Printing (Function.update t fd e) (s.after (openHandler w.img name (w.before s)).1) :=
    h.retabled hretabled hout
  exact ⟨hret, hs', rfl⟩

/-- The search looks at the flags only. -/
theorem freeDescriptor_update {fd : Nat} {e : FileDescriptor} (hflags : e.flags = (t fd).flags) :
    freeDescriptor (Function.update t fd e) = freeDescriptor t := by
  refine congrArg (fun p => List.find? p [2, 3, 4, 5, 6, 7]) (funext fun i => ?_)
  by_cases hi : i = fd
  · subst hi
    rw [Function.update_self, hflags]
  · rw [Function.update_of_ne hi]

/-- A closed descriptor is found again by the next open. -/
theorem freeDescriptor_again {fd : Nat} (hfree : freeDescriptor t = some fd) (e : FileDescriptor) :
    freeDescriptor (clearFlag (Function.update t fd e) fd) = some fd := by
  rw [clearFlag, Function.update_self, Function.update_idem,
    freeDescriptor_update (freeDescriptor_eq_some hfree).2.2.1.symm, hfree]

/-- The descriptor of a directory from which `i` names have been read. -/
def nameDescriptor (img : Image) (i : Nat) : FileDescriptor :=
  ⟨.directory, 0, filenameLen * min i img.entries, 1⟩

/-- **A read of the next name.** -/
theorem Printing.readName (h : Printing t s) {fd i : Nat} (h2 : 2 ≤ fd) (h7 : fd ≤ 7)
    (hcount : 0 ≤ w.img.dirCount) (hmax : w.img.dirCount ≤ 63) (hdesc : t fd = nameDescriptor w.img i) :
    ∃ s' copy, w.read fd filenameLen s = some (s', copy) ∧ (copy.ret, copy.stores) = w.img.listed i ∧
      Printing (Function.update t fd (nameDescriptor w.img (i + 1))) s' ∧ s'.output = s.output := by
  obtain ⟨s', hread, hs', hout⟩ := h.copied (w := w) h2 h7 (show filenameLen < 2 ^ 31 by decide) hdesc
    fun k => rfl
  have hlisted := directoryRead_name hcount hmax i
  have hret : (directoryRead w.img (filenameLen * min i w.img.entries) filenameLen).ret =
      (w.img.listed i).1 := congrArg Prod.fst hlisted
  rw [hret, w.img.listed_position hmax] at hs'
  exact ⟨s', _, hread, hlisted, hs', hout⟩

/-- A read of the clock, once an interrupt has come. -/
theorem Printing.readClock (h : Printing t s) {fd n inode pos : Nat} (h2 : 2 ≤ fd) (h7 : fd ≤ 7)
    (hdesc : t fd = ⟨.rtc, inode, pos, 1⟩) (hclock : (w.before s).rtc.status ≠ 0) :
    ∃ s', w.read fd n s = some (s', ⟨0, [], []⟩) ∧
      (∃ e, e.flags = 1 ∧ Printing (Function.update t fd e) s') ∧ s'.output = s.output := by
  obtain ⟨hcur, htable⟩ := h.before w
  have hrange : ¬ (userBuf = 0 ∨ (fd : Int) < fdMin ∨ (fd : Int) > fdMax) := by
    unfold fdMin fdMax userBuf
    omega
  have hstdout : ¬ (fd : Int) = fdMin + 1 := by
    unfold fdMin
    omega
  have hstdin : ¬ (fd : Int) = 0 := by omega
  have hentry : (w.before s).proc.current.pcbArr (fd : Int).toNat = ⟨.rtc, inode, pos, 1⟩ := by
    rw [Int.toNat_natCast, ← hdesc, ← htable]
    rfl
  obtain ⟨k', hread⟩ : ∃ k', readHandler w.img fd userBuf n (w.before s) = some (k', ⟨0, [], []⟩) := by
    simp only [readHandler, if_neg hrange, if_neg hstdout, hentry, if_true, if_neg hstdin, readPtr,
      if_pos hclock, Option.map_some]
    exact ⟨_, rfl⟩
  have hflags : (k'.proc.table fd).flags = 1 := by
    rcases readHandler_retabled hread with hr | hr
    · rw [hr.table, htable, hdesc]
    · rw [hr.table, Int.toNat_natCast, advanceTable, Function.update_self, htable, hdesc]
  refine ⟨s.after k', by rw [World.read, hread]; rfl, ⟨_, hflags, ?_, ?_, ?_⟩, rfl⟩
  · show k'.proc.pcbCurrent ≠ 0
    rw [readHandler_pcbCurrent hread]
    exact hcur
  · show k'.proc.table = Function.update t fd (k'.proc.table fd)
    rw [← htable]
    exact readHandler_table hread
  · rw [Function.update_of_ne (by omega)]
    exact h.stdout

/-- **The argument.** -/
theorem Printing.getargs (h : Printing t s) (w : World) {a : List UInt8} (ha : ∀ b ∈ a, b ≠ 0)
    (hlen : a.length ≤ 126) (harg : HasArgument s.kernel.proc.current a) (hne : a ≠ []) {n : Int}
    (hn : 0 ≤ n) :
    (w.getargs n s).2 = ⟨0, argsStores a, []⟩ ∧ Printing t (w.getargs n s).1 ∧
      (w.getargs n s).1.output = s.output := by
  obtain ⟨hcur, htable⟩ := h.before w
  have hargs : (w.before s).proc.current.args = s.kernel.proc.current.args := w.args s.calls s.kernel
  have hbefore : HasArgument (w.before s).proc.current a := by
    refine ⟨fun m => ?_, fun hne => ?_⟩
    · rw [show (w.before s).proc.current.argbuf = s.kernel.proc.current.argbuf from
        congrArg Prod.fst hargs]
      exact harg.byte m
    · rw [show (w.before s).proc.current.argsflag = s.kernel.proc.current.argsflag from
        congrArg Prod.snd hargs]
      exact harg.flag hne
  have hretabled := getargsHandler_retabled userBuf n (w.before s)
  rw [htable] at hretabled
  exact ⟨getargsHandler_copies ha hlen hbefore hne (by decide) hn, h.retabled hretabled rfl, rfl⟩

end Printing

/-! ## Buffers -/

/-- The bytes a call has stored into a buffer, from `at_` on. -/
def stored (copy : Copy) (at_ : Nat) (buf : Nat → UInt8) : Nat → UInt8 :=
  copy.stores.foldl (fun data p => Function.update data (at_ + p.1) p.2) buf

/-- A buffer of `n` bytes. -/
def bytes (n : Nat) (buf : Nat → UInt8) : List UInt8 := (List.range n).map buf

theorem charAt_eq_getElem {l : List UInt8} {i : Nat} (hi : i < l.length) : charAt l i = l[i] := by
  simp [charAt, hi]

/-- The string in a buffer that holds its characters and the NUL. -/
theorem cstr_bytes {buf : Nat → UInt8} {a : List UInt8} {n : Nat} (ha : ∀ b ∈ a, b ≠ 0) (hlen : a.length < n)
    (hbyte : ∀ i ≤ a.length, buf i = charAt a i) : cstr (bytes n buf) = a := by
  have hsplit : bytes n buf = a ++ 0 :: (List.range (n - a.length - 1)).map fun j =>
      buf (a.length + 1 + j) := by
    obtain ⟨m, rfl⟩ : ∃ m, n = a.length + 1 + m := ⟨n - a.length - 1, by omega⟩
    have hm : a.length + 1 + m - a.length - 1 = m := by omega
    have hfront : (List.range a.length).map buf = a := by
      refine List.ext_getElem (by simp) fun j hj hj' => ?_
      simpa [charAt, hj'] using hbyte j (Nat.le_of_lt hj')
    have hnul : buf a.length = 0 := by
      rw [hbyte _ (Nat.le_refl _)]
      exact charAt_of_length_le (Nat.le_refl _)
    rw [bytes, hm, List.range_add, List.range_succ, List.map_append, List.map_append, hfront,
      List.map_singleton, hnul, List.append_assoc, List.map_map]
    rfl
  have hall : a.takeWhile (· != 0) = a := List.takeWhile_eq_self_iff.mpr (by simpa using ha)
  rw [hsplit, cstr, List.takeWhile_append, if_pos (congrArg List.length hall),
    List.takeWhile_cons_of_neg (by simp), List.append_nil]

/-- `read_dentry_by_name` sees the string only. -/
theorem readDentryByName_congr (img : Image) {name name' : List UInt8} (h : cstr name = cstr name') :
    readDentryByName img name = readDentryByName img name' := by
  have hlen : strlen name = strlen name' := congrArg List.length h
  unfold readDentryByName
  rw [hlen]
  by_cases hlong : strlen name' > filenameLen
  · rw [if_pos hlong, if_pos hlong]
  · have hmatch : img.matchesName name = img.matchesName name' := by
      funext i
      rw [Bool.eq_iff_iff, img.matchesName_iff (by omega), img.matchesName_iff (by omega), h]
    rw [if_neg hlong, if_neg hlong, hmatch]

/-! ## What a file delivers -/

/-- The bytes of a read, in the buffer. -/
theorem foldl_stores (f : Nat → UInt8) (at_ m : Nat) (data : Nat → UInt8) (k : Nat) :
    ((List.range m).map fun i => (i, f i)).foldl (fun data p => Function.update data (at_ + p.1) p.2) data k =
      if at_ ≤ k ∧ k < at_ + m then f (k - at_) else data k := by
  induction m with
  | zero => rw [if_neg (by omega)]; rfl
  | succ m ih =>
      rw [List.range_succ, List.map_append, List.foldl_append, List.map_singleton, List.foldl_cons,
        List.foldl_nil, Function.update_apply, ih]
      by_cases hk : k = at_ + m
      · rw [if_pos hk, if_pos (by omega), hk, Nat.add_sub_cancel_left]
      · rw [if_neg hk]
        by_cases hin : at_ ≤ k ∧ k < at_ + m
        · rw [if_pos hin, if_pos (by omega)]
        · rw [if_neg hin, if_neg (by omega)]

/-- What a file still delivers at a position: its bytes, and the one behind its end. -/
def World.unread (w : World) (inode pos : Nat) : List UInt8 :=
  w.img.slice inode pos (w.img.inodeLength inode + 1 - pos)

/-- **`fileText`** — what the reads of a file deliver. -/
def World.fileText (w : World) (inode : Nat) : List UInt8 := w.unread inode 0

theorem charAt_slice (img : Image) (inode pos : Nat) {m i : Nat} (hi : i < m) :
    charAt (img.slice inode pos m) i = img.fileAt inode (pos + i) := by
  rw [← img.fileByte_eq]
  simp [charAt, Image.slice, hi]

theorem length_slice (img : Image) (inode pos m : Nat) : (img.slice inode pos m).length = m := by
  simp [Image.slice]

theorem length_unread (w : World) (inode pos : Nat) :
    (w.unread inode pos).length = w.img.inodeLength inode + 1 - pos := length_slice ..

theorem unread_eq (w : World) (inode : Nat) {pos m : Nat} (hm : m ≤ w.img.inodeLength inode + 1 - pos) :
    w.unread inode pos = w.img.slice inode pos m ++ w.unread inode (pos + m) := by
  have hsum : w.img.inodeLength inode + 1 - pos = m + (w.img.inodeLength inode + 1 - (pos + m)) := by omega
  rw [World.unread, hsum, w.img.slice_add]
  rfl

/-! ## What a directory delivers -/

/-- `SBUFSIZE`, the size of the name buffers of `ls` and `grep`. -/
def sbufSize : Nat := 33

/-- A name in the buffer. -/
theorem stored_name {img : Image} {i j : Nat} {copy : Copy} {buf : Nat → UInt8}
    (hstores : copy.stores = (List.range filenameLen).zip (img.dentry i).filename) (hj : j < filenameLen) :
    stored copy 0 buf j = charAt (img.dentry i).filename j := by
  have hlen : (img.dentry i).filename.length = filenameLen := by simp [Image.dentry]
  have hzip : (List.range filenameLen).zip (img.dentry i).filename =
      (List.range filenameLen).map fun j => (j, charAt (img.dentry i).filename j) := by
    refine List.ext_getElem (by simp [hlen]) fun l hl hl' => ?_
    have hl : l < (img.dentry i).filename.length := by simpa [hlen] using hl'
    simp [charAt, hl]
  rw [stored, hstores, hzip, foldl_stores, if_pos (by omega), Nat.sub_zero]

/-- The result of a read that delivers a name. -/
theorem listed_name {img : Image} {i : Nat} {copy : Copy} (hi : i < img.entries)
    (hlisted : (copy.ret, copy.stores) = img.listed i) :
    copy.stores = (List.range filenameLen).zip (img.dentry i).filename ∧ ¬ copy.ret = 0 ∧ ¬ copy.ret = -1 ∧
      copy.ret.toNat = filenameLen := by
  rw [Image.listed, if_pos hi] at hlisted
  obtain ⟨hret, hstores⟩ := Prod.mk.inj hlisted
  rw [hret]
  exact ⟨hstores, by decide, by decide, rfl⟩

/-! ## What happens elsewhere -/

section Elsewhere

variable {img : Image} {k k' : Kernel} {e : SessionEvent} {q : Nat}

/-- **`Elsewhere q k e`** — event `e` is an interrupt, or something a process other than `q` does. -/
def Elsewhere (q : Nat) (k : Kernel) (e : SessionEvent) : Prop :=
  (∃ fr, e = .event (.act (.tick fr))) ∨ (∃ i, e = .event (.act (.terminalSwitch i))) ∨
    (∃ con rtc, e = .event (.call (.device con rtc))) ∨ k.proc.current.pid ≠ q

/-- What happens elsewhere neither ends a process nor touches its descriptors. -/
theorem Elsewhere.step (he : Elsewhere q k e) (h : k.proc.Tabled) (hq : k.proc.Live q)
    (hs : SessionStep img k e k') :
    k'.proc.Live q ∧ (k'.proc.pcbOf q).pcbArr = (k.proc.pcbOf q).pcbArr := by
  rcases he with ⟨fr, rfl⟩ | ⟨i, rfl⟩ | ⟨con, rtc, rfl⟩ | hne
  · obtain ⟨-, rfl⟩ := hs
    rw [tick_proc h.scheduled_ne_zero]
    exact ⟨hq, ticked_pcbArr _ _ _⟩
  · obtain ⟨-, rfl⟩ := hs
    exact ⟨hq, rfl⟩
  · obtain rfl := hs
    exact ⟨hq, rfl⟩
  · -- the PCB of another process is current
    have hcur := h.current_pid
    have hlive := h.scheduled k.proc.currProcess
    rw [← hcur] at hlive
    have haddr : pcbAddr q ≠ k.proc.pcbCurrent := by
      rw [h.pcbCurrent]
      exact fun heq => hne (pcbAddr_injective hq.2.1 hlive.2.1 heq).symm
    rcases h.step_cases hs with ⟨fr, hp⟩ | ⟨fr, slot, args, hslot, hfree, hp⟩ | ⟨hbase, hp⟩ |
      ⟨argsFlag, page, flag, hp⟩ | ⟨arr, harr⟩
    · rw [hp]
      exact ⟨hq, ticked_pcbArr _ _ _⟩
    · rw [hp, launched_pcbOf_of_ne hslot hq.2.1 fun heq => not_live_slot hfree (heq ▸ hq)]
      exact ⟨(live_launched hslot).mpr (.inr hq), rfl⟩
    · rw [hp, Proc.pcbOf, halted_pcb, if_neg haddr]
      exact ⟨(live_halted (by omega)).mpr ⟨hq, hne.symm⟩, rfl⟩
    · rw [hp]
      exact ⟨hq, rfl⟩
    · rw [Proc.pcbOf, harr.pcb_of_ne haddr]
      obtain ⟨rtcFlag, flag, hp⟩ := harr
      rw [hp]
      exact ⟨hq, rfl⟩

/-- **`Resumes img k k'`** — the process that runs in `k` runs again in `k'`, after a session in which it
takes no part. -/
def Resumes (img : Image) (k k' : Kernel) : Prop :=
  k.proc.Tabled ∧ k'.proc.current.pid = k.proc.current.pid ∧
    ∃ es, Run (SessionStep img) k es k' ∧ AllSteps (SessionStep img) (Elsewhere k.proc.current.pid) k es

/-- **A process finds its descriptors and arguments as it left them.** -/
theorem Resumes.keeps (h : Resumes img k k') : k'.proc.pcbCurrent = k.proc.pcbCurrent ∧
    k'.proc.table = k.proc.table ∧ k'.proc.current.args = k.proc.current.args := by
  obtain ⟨htabled, hpid, es, hrun, hall⟩ := h
  obtain ⟨q, hq⟩ : ∃ q, q = k.proc.current.pid := ⟨_, rfl⟩
  rw [← hq] at hpid hall
  have hlive : k.proc.Live q := by
    rw [hq, htabled.current_pid]
    exact htabled.scheduled _
  obtain ⟨htabled', -, htable, hargs⟩ := (hrun.restrict_of_allSteps hall).invariant
    (I := fun m => m.proc.Tabled ∧ m.proc.Live q ∧ (m.proc.pcbOf q).pcbArr = (k.proc.pcbOf q).pcbArr ∧
      (m.proc.pcbOf q).args = (k.proc.pcbOf q).args)
    ⟨htabled, hlive, rfl, rfl⟩ (by
      rintro m e m' ⟨ht, hq, htable, hargs⟩ ⟨he, hs⟩
      obtain ⟨hq', htable'⟩ := he.step ht hq hs
      exact ⟨ht.step hs, hq', htable'.trans htable, (step_args ht hs hq hq').trans hargs⟩)
  refine ⟨?_, ?_, ?_⟩
  · rw [htabled'.pcbCurrent, htabled.pcbCurrent, hpid, hq]
  · rw [Proc.table, htabled'.current_pcbOf, hpid, htable, hq, ← htabled.current_pcbOf, Proc.table]
  · rw [htabled'.current_pcbOf, hpid, hargs, hq, ← htabled.current_pcbOf]

open Classical in
/-- **The system in which sessions lead from one call to the next.**  Where `next` is no such session, nothing
happens. -/
noncomputable def World.ofSessions (img : Image) (next : Nat → Kernel → Kernel) : World where
  img := img
  others n k := if Resumes img k (next n k) then next n k else k
  pcbCurrent n k := by
    split
    next h => exact h.keeps.1
    next => rfl
  table n k := by
    split
    next h => exact h.keeps.2.1
    next => rfl
  args n k := by
    split
    next h => exact h.keeps.2.2
    next => rfl

/-- **Every session after which the process runs again is what some system does.** -/
theorem World.ofSessions_others {next : Nat → Kernel → Kernel} {n : Nat} (h : Resumes img k (next n k)) :
    (World.ofSessions img next).others n k = next n k := if_pos h

end Elsewhere

/-! ## The first program of a terminal -/

/-- A system in which nothing else happens. -/
def quietWorld (img : Image) : World := ⟨img, fun _ k => k, fun _ _ => rfl, fun _ _ => rfl, fun _ _ => rfl⟩

/-- Three ticks; the process of the next terminal closes a descriptor when it is its turn. -/
def othersTurn (img : Image) (k : Kernel) : Kernel :=
  let k1 := pitInterruptHandler img (.at 0 0) k
  let k2 := { k1 with proc := (closeHandler 2 k1.proc).1 }
  pitInterruptHandler img (.at 0 0) (pitInterruptHandler img (.at 0 0) k2)

/-- A system in which the two other terminals have their turn before each call. -/
noncomputable def sharedWorld (img : Image) : World := World.ofSessions img fun _ => othersTurn img

/-- A tick of a session moves the processor on, to another process. -/
theorem session_tick {img : Image} {k k' : Kernel} {fr : Frame} (h : k.proc.Tabled)
    (hs : SessionStep img k (.event (.act (.tick fr))) k') :
    k'.proc.Tabled ∧ k'.proc.schedPid = k.proc.schedPid ∧ k'.proc.currProcess = k.proc.currProcess + 1 ∧
      k'.proc.current.pid ≠ k.proc.current.pid := by
  have htabled := h.step hs
  obtain ⟨-, rfl⟩ := hs
  rw [htabled.current_pid, h.current_pid, tick_proc h.scheduled_ne_zero, ticked_schedPid, ticked_currProcess]
  refine ⟨(h.ticked fr).tabled, rfl, rfl, fun heq => ?_⟩
  obtain ⟨page, hwf⟩ := h
  have hnext := hwf.distinct heq
  generalize k.proc.currProcess = t at hnext
  revert t
  decide

/-- The process that ran runs again. -/
theorem othersTurn_resumes {img : Image} {k : Kernel} (h : k.proc.Tabled) : Resumes img k (othersTurn img k) := by
  obtain ⟨k1, hk1⟩ : ∃ k1, k1 = pitInterruptHandler img (.at 0 0) k := ⟨_, rfl⟩
  obtain ⟨p2, hp2⟩ : ∃ p2, p2 = (closeHandler 2 k1.proc).1 := ⟨_, rfl⟩
  have htick1 : SessionStep img k (.event (.act (.tick (.at 0 0)))) k1 := ⟨trivial, hk1⟩
  obtain ⟨h1, hsched1, hcurr1, -⟩ := session_tick h htick1
  have hclose : SessionStep img k1 (.event (.call (.closeFile 2 (closeHandler 2 k1.proc).2)))
      { k1 with proc := p2 } := ⟨by rw [hp2], rfl⟩
  obtain ⟨rtcFlag, flag, hretabled⟩ := (closeHandler_retabled 2 h1.pcbCurrent_ne_zero).1
  have hsched2 : p2.schedPid = k1.proc.schedPid := by rw [hp2, hretabled]
  have hcurr2 : p2.currProcess = k1.proc.currProcess := by rw [hp2, hretabled]
  have htick3 : SessionStep img { k1 with proc := p2 } (.event (.act (.tick (.at 0 0))))
      (pitInterruptHandler img (.at 0 0) { k1 with proc := p2 }) := ⟨trivial, rfl⟩
  obtain ⟨h3, hsched3, hcurr3, -⟩ := session_tick (h1.step hclose) htick3
  have hturn : othersTurn img k =
      pitInterruptHandler img (.at 0 0) (pitInterruptHandler img (.at 0 0) { k1 with proc := p2 }) := by
    rw [othersTurn, hp2, hk1]
  have htick4 : SessionStep img _ (.event (.act (.tick (.at 0 0)))) (othersTurn img k) := ⟨trivial, hturn⟩
  obtain ⟨h4, hsched4, hcurr4, -⟩ := session_tick h3 htick4
  have hrun : Run (SessionStep img) k [.event (.act (.tick (.at 0 0))), .event (.call (.closeFile 2 _)),
      .event (.act (.tick (.at 0 0))), .event (.act (.tick (.at 0 0)))] (othersTurn img k) :=
    ⟨k1, htick1, _, hclose, _, htick3, _, htick4, rfl⟩
  refine ⟨h, ?_, _, hrun, ?_⟩
  · rw [h4.current_pid, h.current_pid, hsched4, hsched3, hcurr4, hcurr3]
    show p2.schedPid (p2.currProcess + 1 + 1) = _
    rw [hsched2, hcurr2, hsched1, hcurr1]
    congr 1
    generalize k.proc.currProcess = t
    revert t
    decide
  · -- the close is the other process's
    refine .cons (.inl ⟨_, rfl⟩) fun m hm => .cons (.inr (.inr (.inr (session_tick h hm).2.2.2))) fun _ _ =>
      .cons (.inl ⟨_, rfl⟩) fun _ _ => .cons (.inl ⟨_, rfl⟩) fun _ _ => allSteps_nil

theorem sharedWorld_others {img : Image} {k : Kernel} (h : k.proc.Tabled) (n : Nat) :
    (sharedWorld img).others n k = othersTurn img k :=
  World.ofSessions_others (othersTurn_resumes h)

/-- The first program of terminal 0, with an argument of one letter. -/
def letterRun (c : UInt8) : Running where
  kernel :=
    { bootedKernel with
      proc := bootedKernel.proc.setPcb (pcbAddr 1) fun b =>
        { b with argbuf := ⟨fun i => if i = 0 then c else 0, rfl⟩, argsflag := 1 } }
  calls := 0
  output := []

theorem letterRun_printing (c : UInt8) : Printing (shellPcb 1).pcbArr (letterRun c) :=
  ⟨show pcbAddr 1 ≠ 0 by decide, rfl, 0, 0, rfl⟩

theorem letterRun_tabled (c : UInt8) : (letterRun c).kernel.proc.Tabled := by
  suffices hwf : WF (letterRun c).kernel.proc from hwf.tabled
  refine (WF.of_booted booted_bootedKernel).congr rfl rfl rfl rfl rfl rfl fun n => ?_
  by_cases hn : pcbAddr n = pcbAddr 1
  · simp [letterRun, Proc.pcbOf, Proc.setPcb, Pcb.lineage, hn]
  · simp [letterRun, Proc.pcbOf, Proc.setPcb, hn]

theorem letterRun_argument (c : UInt8) : HasArgument (letterRun c).kernel.proc.current [c] := by
  refine ⟨fun m => ?_, fun _ => rfl⟩
  cases m with
  | zero => rfl
  | succ m => rfl

/-- A directory "." and the file "note" with the lines "ab" and "cd". -/
def noteImage : Image := fun n =>
  ([(0, 2), (4, 1), (8, 1), (64, 46), (96, 1), (128, 110), (129, 111), (130, 116), (131, 101),
    (160, 2), (4096, 5), (8192, 97), (8193, 98), (8194, 10), (8195, 99), (8196, 100)].lookup n).getD 0

end Ece391
