/-
# Ece391.Files.Buffers — what the copying calls store and load.

Five loops copy to a caller's buffer: `terminal_read`, `rtc_read` (which copies nothing), `read_data`,
`directory_read` and the `strcpy` of `getargs_handler`.  Each should store into `buf[0..nbytes)` only
and load from the object it copies only.

* `terminal_read` runs while `i < nbytes || i < maxInputLength`: a short buffer is overrun by a long
  line, a long one makes the loop leave `keyBuffer`.
* `read_data` tests `length >= offset + read_counter` and `directory_read` the entry of the byte
  BEFORE: both deliver one byte past the end.
* `getargs_handler` does not look at `nbytes` beyond its sign.

`buffers_respected_iff` gives the exact condition for each of them.
-/
import Ece391.Process.Arguments

namespace Ece391

/-! ## The objects -/

/-- **`Inside img l`** — the load stays in the object it reads: the line part of `keyBuffer`, the bytes
of a file that exists (through a block number the inode has and the image has), the names of the
directory. -/
def Inside (img : Image) : Load → Prop
  | .keyBuffer i => i < maxInputLength
  | .file inode pos =>
      inode < img.inodeCount ∧ 0 ≤ pos ∧ pos < img.inodeLength inode ∧
      pos / blockSize < dataBlockNumSize ∧ img.dataBlockNum inode (pos / blockSize) < img.dataCount
  | .name pos => 0 ≤ pos ∧ pos / filenameLen < img.dirCount ∧ pos / filenameLen < dentrySize - 1

/-- **`CopyRespects img n copy`** — a copy of at most `n` bytes stays in the buffer and in the object. -/
def CopyRespects (img : Image) (n : Nat) (copy : Copy) : Prop :=
  (∀ s ∈ copy.stores, s.1 < n) ∧ ∀ l ∈ copy.loads, Inside img l

/-! ## The conditions -/

/-- The terminal: the line fits in the buffer and the buffer is no longer than the line's. -/
def LineFits (c : Console) (n : Nat) : Prop :=
  n ≤ maxInputLength ∧
  ∀ i, n ≤ i → i < maxInputLength → c.keyBuffer i = 0 ∨ c.keyBuffer i = newLine

/-- A file: nothing is read, or the bytes asked for are all there. -/
def FileFits (img : Image) (inode offset n : Nat) : Prop :=
  img.inodeCount < inode ∨ n = 0 ∨ img.inodeLength inode < offset ∨
  (inode < img.inodeCount ∧ offset + n ≤ img.inodeLength inode ∧
    offset + n ≤ dataBlockNumSize * blockSize ∧
    ∀ i < n, img.dataBlockNum inode (((offset + i : Nat) : Int) / blockSize) < img.dataCount)

/-- The directory: nothing is read, or the names asked for are all there. -/
def NamesFit (img : Image) (offset n : Nat) : Prop :=
  n = 0 ∨ img.dirCount ≤ (s32 offset).tdiv filenameLen ∨
  (0 ≤ s32 offset ∧ s32 offset + n ≤ filenameLen * min img.dirCount (dentrySize - 1))

/-- The condition for a read through one operations table. -/
def DeviceFits (img : Image) (k : Kernel) (ops : FileOps) (inode offset n : Nat) : Prop :=
  match ops with
  | .null => True
  | .rtc => True
  | .terminal => k.con.LineReady k.proc.currProcess → LineFits k.con n
  | .directory => NamesFit img offset n
  | .filesystem => FileFits img inode offset n

/-! ## `read_data` -/

section ReadData

variable (img : Image) (inode offset : Nat)

/-- The loop stores one byte for each load, at consecutive positions. -/
theorem readLoop_spec (n : Nat) :
    (readLoop img inode offset n).readCounter ≤ n ∧
    (readLoop img inode offset n).curPos = s32 offset + (readLoop img inode offset n).readCounter ∧
    (∀ s ∈ (readLoop img inode offset n).stores, s.1 < n) ∧
    (readLoop img inode offset n).loads =
      (List.range (readLoop img inode offset n).readCounter).map
        fun i : Nat => .file inode (s32 offset + i) := by
  induction n with
  | zero => simp [readLoop]
  | succ n ih =>
      obtain ⟨hle, hpos, hstores, hloads⟩ := ih
      rw [readLoop_succ]
      unfold readStep
      split
      · refine ⟨by simpa using hle, ?_, ?_, ?_⟩
        · simp only [hpos]
          omega
        · intro s hs
          rcases List.mem_append.mp hs with hold | hnew
          · have := hstores s hold
            omega
          · rw [List.mem_singleton.mp hnew]
            exact Nat.lt_succ_self n
        · simp only [hloads, hpos, List.range_succ, List.map_append, List.map_cons, List.map_nil]
      · exact ⟨by omega, hpos, fun s hs => Nat.lt_succ_of_lt (hstores s hs), hloads⟩

theorem readLoop_mono (n : Nat) :
    (readLoop img inode offset n).readCounter ≤ (readLoop img inode offset (n + 1)).readCounter := by
  rw [readLoop_succ]
  unfold readStep
  split
  · exact Nat.le_succ _
  · exact Nat.le_refl _

theorem readLoop_le {m n : Nat} (h : m ≤ n) :
    (readLoop img inode offset m).readCounter ≤ (readLoop img inode offset n).readCounter := by
  induction h with
  | refl => exact Nat.le_refl _
  | step _ ih => exact Nat.le_trans ih (readLoop_mono img inode offset _)

/-- Up to one byte past the end every iteration copies. -/
theorem readLoop_counter {n : Nat} (h : offset + n ≤ img.inodeLength inode + 1) :
    (readLoop img inode offset n).readCounter = n := by
  induction n with
  | zero => rfl
  | succ n ih =>
      have hlt : img.inodeLength inode < 2 ^ 32 := img.wordAt_lt _
      have hcount := ih (by omega)
      have htest : img.inodeLength inode ≥
          (offset + (readLoop img inode offset n).readCounter) % 2 ^ 32 := by
        rw [hcount, Nat.mod_eq_of_lt (by omega)]
        omega
      rw [readLoop_succ, readStep, if_pos htest, hcount]

/-- Past the end nothing is ever copied. -/
theorem readLoop_past {n : Nat} (hoff : offset < 2 ^ 32) (h : img.inodeLength inode < offset) :
    (readLoop img inode offset n).readCounter = 0 := by
  induction n with
  | zero => rfl
  | succ n ih =>
      have htest : ¬ img.inodeLength inode ≥
          (offset + (readLoop img inode offset n).readCounter) % 2 ^ 32 := by
        rw [ih, Nat.mod_eq_of_lt (by omega)]
        omega
      rw [readLoop_succ, readStep, if_neg htest, ih]

/-- The loop respects the file exactly if each byte it copies is inside. -/
theorem readLoop_respects_iff (n : Nat) :
    CopyRespects img n ⟨(readLoop img inode offset n).readCounter,
      (readLoop img inode offset n).stores, (readLoop img inode offset n).loads⟩ ↔
      ∀ i < (readLoop img inode offset n).readCounter, Inside img (.file inode (s32 offset + i)) := by
  obtain ⟨-, -, hstores, hloads⟩ := readLoop_spec img inode offset n
  simp only [CopyRespects, hloads, List.mem_map, List.mem_range]
  constructor
  · rintro ⟨-, h⟩ i hi
    exact h _ ⟨i, hi, rfl⟩
  · intro h
    refine ⟨hstores, ?_⟩
    rintro l ⟨i, hi, rfl⟩
    exact h i hi

end ReadData

section FileFits

variable {img : Image} {inode offset n : Nat}

theorem fileFits_of_inside (hoff : offset < 2 ^ 32)
    (hinside : ∀ i < (readLoop img inode offset n).readCounter,
      Inside img (.file inode (s32 offset + i))) : FileFits img inode offset n := by
  by_cases hn : n = 0
  · exact Or.inr (Or.inl hn)
  by_cases hpast : img.inodeLength inode < offset
  · exact Or.inr (Or.inr (Or.inl hpast))
  -- the first byte is copied, so the offset is not negative
  have hone : 1 ≤ (readLoop img inode offset n).readCounter := by
    have hcount := readLoop_counter img inode offset (n := 1) (by omega)
    have := readLoop_le img inode offset (show 1 ≤ n by omega)
    omega
  obtain ⟨hinode, hpos, -⟩ := hinside 0 hone
  have hsmall : s32 offset = offset := by
    unfold s32 at hpos ⊢
    split
    · rfl
    · rw [if_neg (by assumption)] at hpos
      omega
  -- the byte at the end of the file is not
  have hend : offset + n ≤ img.inodeLength inode := by
    by_contra hlong
    have hcount := readLoop_counter img inode offset
      (n := img.inodeLength inode + 1 - offset) (by omega)
    have hmono := readLoop_le img inode offset
      (show img.inodeLength inode + 1 - offset ≤ n by omega)
    obtain ⟨-, -, hlast, -⟩ := hinside (img.inodeLength inode - offset) (by omega)
    rw [hsmall] at hlast
    omega
  have hall : (readLoop img inode offset n).readCounter = n := readLoop_counter _ _ _ (by omega)
  rw [hall, hsmall] at hinside
  refine Or.inr (Or.inr (Or.inr ⟨hinode, hend, ?_, fun i hi => ?_⟩))
  · obtain ⟨-, -, -, hblock, -⟩ := hinside (n - 1) (by omega)
    unfold blockSize dataBlockNumSize at *
    omega
  · obtain ⟨-, -, -, -, hblock⟩ := hinside i hi
    rwa [Int.natCast_add]

theorem inside_of_fileFits (hoff : offset < 2 ^ 32) (hrefused : ¬ img.inodeCount < inode)
    (hfits : FileFits img inode offset n) :
    ∀ i < (readLoop img inode offset n).readCounter, Inside img (.file inode (s32 offset + i)) := by
  obtain ⟨hle, -⟩ := readLoop_spec img inode offset n
  intro i hi
  rcases hfits with h | h | h | ⟨hinode, hend, hblocks, hdata⟩
  · exact absurd h hrefused
  · omega
  · rw [readLoop_past img inode offset hoff h] at hi
    omega
  · have hblock : offset + i < dataBlockNumSize * blockSize := by omega
    have hsmall : s32 offset = offset := s32_of_lt (by
      unfold dataBlockNumSize blockSize at hblocks
      omega)
    have hlast := hdata i (by omega)
    rw [hsmall]
    rw [Int.natCast_add] at hlast
    refine ⟨hinode, by omega, by omega, ?_, hlast⟩
    unfold blockSize dataBlockNumSize at *
    omega

/-- **`readData` stays in the buffer and the file exactly if the file fits.** -/
theorem readData_respects_iff (img : Image) (inode : Nat) {offset buf n : Nat} (hbuf : buf ≠ 0)
    (hoff : offset < 2 ^ 32) :
    CopyRespects img n (readData img inode offset buf n) ↔ FileFits img inode offset n := by
  by_cases hrefused : img.inodeCount < inode
  · rw [readData, if_pos (Or.inl hrefused)]
    exact ⟨fun _ => Or.inl hrefused, fun _ => ⟨by simp, by simp⟩⟩
  · rw [readData, if_neg (not_or.mpr ⟨hrefused, hbuf⟩), readLoop_respects_iff]
    exact ⟨fileFits_of_inside hoff, inside_of_fileFits hoff hrefused⟩

end FileFits

/-! ## `directory_read` -/

theorem directoryLoop_stores (img : Image) (n i : Nat) (idx curPos : Int) :
    ∀ s ∈ (directoryLoop img n i idx curPos).stores, s.1 < i + n := by
  induction n generalizing i idx curPos with
  | zero => simp [directoryLoop]
  | succ n ih =>
      unfold directoryLoop
      split
      · intro s hs
        rcases List.mem_cons.mp hs with rfl | hs
        · show i < i + (n + 1)
          omega
        · have := ih _ _ _ s hs
          omega
      · simp

theorem directoryLoop_loads_nil (img : Image) (n i : Nat) {idx curPos : Int}
    (h : n = 0 ∨ img.dirCount ≤ idx) : (directoryLoop img n i idx curPos).loads = [] := by
  cases n with
  | zero => rfl
  | succ n => rw [directoryLoop, if_neg (by omega)]

/-- Once the loop is entered it stays inside the names exactly if all of them are there: the entry
tested is that of the byte before. -/
theorem directoryLoop_inside_iff (img : Image) (n i : Nat) (idx curPos : Int)
    (hidx : idx < img.dirCount) :
    (∀ l ∈ (directoryLoop img (n + 1) i idx curPos).loads, Inside img l) ↔
      0 ≤ curPos ∧ curPos + (n + 1 : Nat) ≤ filenameLen * min img.dirCount (dentrySize - 1) := by
  induction n generalizing i idx curPos with
  | zero =>
      rw [directoryLoop, if_pos hidx]
      simp only [directoryLoop_loads_nil img 0 _ (Or.inl rfl), List.mem_singleton, forall_eq, Inside]
      unfold filenameLen dentrySize
      omega
  | succ n ih =>
      rw [directoryLoop, if_pos hidx]
      simp only [List.mem_cons, forall_eq_or_imp]
      by_cases hhead : Inside img (.name curPos)
      · have hpos := hhead.1
        have hnext : curPos.tdiv filenameLen < img.dirCount := by
          rw [Int.tdiv_eq_ediv_of_nonneg hpos]
          exact hhead.2.1
        rw [ih (i + 1) _ (curPos + 1) hnext]
        simp only [hhead, true_and]
        omega
      · simp only [hhead, false_and, false_iff]
        rintro ⟨hpos, hend⟩
        apply hhead
        unfold Inside
        unfold filenameLen dentrySize at *
        omega

theorem directoryRead_respects_iff (img : Image) (offset n : Nat) :
    CopyRespects img n (directoryRead img offset n) ↔ NamesFit img offset n := by
  have hstores := directoryLoop_stores img n 0 ((s32 offset).tdiv filenameLen) (s32 offset)
  rw [Nat.zero_add] at hstores
  unfold CopyRespects directoryRead NamesFit
  by_cases hn : n = 0
  · simp [hn, directoryLoop]
  by_cases hidx : img.dirCount ≤ (s32 offset).tdiv filenameLen
  · simp only [directoryLoop_loads_nil img n 0 (Or.inr hidx)]
    exact ⟨fun _ => Or.inr (Or.inl hidx), fun _ => ⟨hstores, by simp⟩⟩
  · obtain ⟨m, rfl⟩ : ∃ m, n = m + 1 := ⟨n - 1, by omega⟩
    rw [directoryLoop_inside_iff img m 0 _ _ (by omega)]
    simp only [hn, hidx, false_or]
    exact ⟨fun h => h.2, fun h => ⟨hstores, h⟩⟩

/-! ## `terminal_read` -/

theorem keyCopy_lt_iff (c : Console) (n : Nat) :
    (∀ s ∈ c.keyCopy n, s.1 < n) ↔
      ∀ i, n ≤ i → i < maxInputLength → c.keyBuffer i = 0 ∨ c.keyBuffer i = newLine := by
  have hmem : ∀ s, s ∈ c.keyCopy n ↔ ∃ i < max n maxInputLength,
      (c.keyBuffer i ≠ 0 ∧ c.keyBuffer i ≠ newLine) ∧ (i, c.keyBuffer i) = s := by
    intro s
    simp [Console.keyCopy, and_assoc]
  constructor
  · intro h i hi hlt
    by_contra hchar
    rw [not_or] at hchar
    have hin : i < max n maxInputLength := Nat.lt_of_lt_of_le hlt (Nat.le_max_right _ _)
    have := h (i, c.keyBuffer i) ((hmem _).mpr ⟨i, hin, hchar, rfl⟩)
    exact absurd this (Nat.not_lt.mpr hi)
  · intro h s hs
    obtain ⟨i, hin, hchar, rfl⟩ := (hmem s).mp hs
    by_contra hge
    have hlt : i < maxInputLength := by
      omega
    exact not_or.mpr hchar (h i (Nat.not_lt.mp hge) hlt)

theorem terminalRead_respects_iff (img : Image) {c c' : Console} {cur : Fin 3} {n : Nat} {copy : Copy}
    (h : c.terminalRead cur n = some (c', copy)) : CopyRespects img n copy ↔ LineFits c n := by
  unfold Console.terminalRead at h
  split at h
  · cases h
    have hloads : (∀ l ∈ (List.range (max n maxInputLength)).map Load.keyBuffer, Inside img l) ↔
        n ≤ maxInputLength := by
      simp only [List.mem_map, List.mem_range, forall_exists_index, and_imp, forall_apply_eq_imp_iff₂,
        Inside]
      constructor
      · intro h
        by_contra hlong
        exact absurd (h maxInputLength (by omega)) (Nat.lt_irrefl _)
      · intro hle i hi
        omega
    rw [CopyRespects, keyCopy_lt_iff, hloads, LineFits, and_comm]
  · cases h

/-! ## `read_handler` -/

/-- **A device read.** -/
theorem readPtr_respects_iff (img : Image) (ops : FileOps) (inode : Nat) {offset buf : Nat} (n : Nat)
    (k : Kernel) (hbuf : buf ≠ 0) (hoff : offset < 2 ^ 32) :
    (∀ k' copy, readPtr img ops inode offset buf n k = some (k', copy) → CopyRespects img n copy) ↔
      DeviceFits img k ops inode offset n := by
  unfold readPtr DeviceFits
  cases ops with
  | null => simp
  | terminal =>
      constructor
      · intro h hready
        have hread : ∃ r, k.con.terminalRead k.proc.currProcess n = some r := by
          rw [Console.terminalRead, if_pos hready]
          exact ⟨_, rfl⟩
        obtain ⟨r, hr⟩ := hread
        refine (terminalRead_respects_iff img hr).mp (h { k with con := r.1, proc := k.proc.sti } r.2 ?_)
        simp [hr]
      · intro h k' copy hcopy
        obtain ⟨r, hr, hrc⟩ := Option.map_eq_some_iff.mp hcopy
        cases hrc
        have hready : k.con.LineReady k.proc.currProcess := by
          by_contra hnot
          rw [Console.terminalRead, if_neg hnot] at hr
          cases hr
        exact (terminalRead_respects_iff img hr).mpr (h hready)
  | rtc =>
      refine ⟨fun _ => trivial, fun _ k' copy hcopy => ?_⟩
      dsimp only at hcopy
      split at hcopy
      · cases hcopy
        exact ⟨by simp, by simp⟩
      · cases hcopy
  | directory =>
      rw [← directoryRead_respects_iff]
      constructor
      · intro h
        exact h k _ rfl
      · intro h k' copy hcopy
        cases hcopy
        exact h
  | filesystem =>
      rw [← readData_respects_iff img inode hbuf hoff]
      constructor
      · intro h
        exact h k _ rfl
      · intro h k' copy hcopy
        cases hcopy
        exact h

/-- **`ReadRespects`** — if the read returns, it has stayed in the buffer and in the object. -/
def ReadRespects (img : Image) (fd : Int) (buf : Nat) (nbytes : Int) (k : Kernel) : Prop :=
  ∀ k' copy, readHandler img fd buf nbytes k = some (k', copy) → CopyRespects img nbytes.toNat copy

/-- **`ReadFits`** — if the descriptor is open for reading, its device copies what is there. -/
def ReadFits (img : Image) (fd : Int) (buf : Nat) (nbytes : Int) (k : Kernel) : Prop :=
  buf ≠ 0 → 0 ≤ fd → fd ≤ 7 → fd ≠ 1 → (k.proc.table fd.toNat).flags = 1 →
    if fd = 0 then DeviceFits img k (k.proc.table 0).operations 0 0 nbytes.toNat
    else DeviceFits img k (k.proc.table fd.toNat).operations (k.proc.table fd.toNat).inode
      (k.proc.table fd.toNat).filePosition nbytes.toNat

theorem readHandler_respects_iff (img : Image) {fd : Int} (buf : Nat) {nbytes : Int} {k : Kernel}
    (h0 : 0 ≤ nbytes) (h31 : nbytes < 2 ^ 31)
    (hpos : (k.proc.table fd.toNat).filePosition < 2 ^ 32) :
    ReadRespects img fd buf nbytes k ↔ ReadFits img fd buf nbytes k := by
  have hlength : (nbytes % 2 ^ 32).toNat = nbytes.toNat := by omega
  have hnone : CopyRespects img nbytes.toNat ⟨-1, [], []⟩ := ⟨by simp, by simp⟩
  unfold ReadRespects ReadFits readHandler
  dsimp only
  rw [hlength]
  by_cases hout : buf = 0 ∨ fd < fdMin ∨ fd > fdMax
  · rw [if_pos hout]
    unfold fdMin fdMax at hout
    refine ⟨fun _ hbuf hfd h7 => by omega, fun _ k' copy hcopy => ?_⟩
    cases hcopy
    exact hnone
  rw [if_neg hout]
  unfold fdMin fdMax at hout
  by_cases h1 : fd = fdMin + 1
  · rw [if_pos h1]
    unfold fdMin at h1
    refine ⟨fun _ _ _ _ hne => by omega, fun _ k' copy hcopy => ?_⟩
    cases hcopy
    exact hnone
  rw [if_neg h1]
  unfold fdMin at h1
  by_cases hflag : (k.proc.table fd.toNat).flags = 1
  · rw [if_pos (show (k.proc.current.pcbArr fd.toNat).flags = 1 from hflag)]
    by_cases hstdin : fd = 0
    · subst hstdin
      rw [if_pos rfl, if_pos rfl]
      have hdevice := readPtr_respects_iff img (k.proc.table 0).operations 0 nbytes.toNat k
        (show buf ≠ 0 by omega) (show 0 < 2 ^ 32 by decide)
      exact ⟨fun h _ _ _ _ _ => hdevice.mp h, fun h => hdevice.mpr (h (by omega) (by omega) (by omega)
        (by omega) hflag)⟩
    · rw [if_neg hstdin, if_neg hstdin]
      have hdevice := readPtr_respects_iff img (k.proc.table fd.toNat).operations
        (k.proc.table fd.toNat).inode nbytes.toNat k (show buf ≠ 0 by omega) hpos
      constructor
      · intro h _ _ _ _ _
        refine hdevice.mp fun k' copy hcopy =>
          h { k' with proc := k'.proc.advance fd.toNat copy.ret } copy ?_
        exact Option.map_eq_some_iff.mpr ⟨(k', copy), hcopy, rfl⟩
      · intro h k' copy hcopy
        obtain ⟨r, hr, hrc⟩ := Option.map_eq_some_iff.mp hcopy
        cases hrc
        exact hdevice.mpr (h (by omega) (by omega) (by omega) (by omega) hflag) r.1 r.2 hr
  · rw [if_neg (show ¬ (k.proc.current.pcbArr fd.toNat).flags = 1 from hflag)]
    refine ⟨fun _ _ _ _ _ hopen => absurd hopen hflag, fun _ k' copy hcopy => ?_⟩
    cases hcopy
    exact hnone

/-! ## `getargs_handler` -/

/-- The argument string of a buffer. -/
def ArgBuf.string (a : ArgBuf) : List UInt8 := cstr ((List.range (keyBufferSize - 1)).map a.byte)

theorem ArgBuf.length_string_le (a : ArgBuf) : a.string.length ≤ keyBufferSize - 1 := by
  have hle := strlen_le_length ((List.range (keyBufferSize - 1)).map a.byte)
  rwa [List.length_map, List.length_range] at hle

/-- The buffer holds its string and a NUL behind it. -/
theorem ArgBuf.byte_string (a : ArgBuf) {j : Nat} (hj : j ≤ a.string.length) :
    a.byte j = charAt a.string j := by
  have hle := a.length_string_le
  have hbyte : ∀ i < keyBufferSize - 1,
      charAt ((List.range (keyBufferSize - 1)).map a.byte) i = a.byte i := by
    intro i hi
    simp [charAt, hi]
  rcases Nat.lt_or_eq_of_le hj with hlt | heq
  · rw [ArgBuf.string, charAt_cstr hlt, hbyte j (by omega)]
  · rw [charAt_of_length_le (by omega), heq]
    rcases Nat.lt_or_eq_of_le hle with hlt | hfull
    · rw [← hbyte _ hlt]
      exact charAt_strlen _
    · rw [hfull]
      exact a.terminated

/-- The `strcpy` of `getargs_handler` stores the string and its NUL. -/
theorem ArgBuf.strcpy_eq (a : ArgBuf) :
    strcpyFrom a.byte (keyBufferSize - 1) 0 = argsStores a.string := by
  have hne : ∀ b ∈ a.string, b ≠ 0 := fun b hb => by simpa using List.mem_takeWhile_imp hb
  rw [strcpyFrom_eq a.byte a.string 0 _ hne a.length_string_le fun j hj => by
    rw [Nat.zero_add, a.byte_string hj]]
  simp [argsStores]

/-- **`GetargsRespects`** — `getargs` stays in the buffer, and fails if the string and its terminator do
not fit. -/
def GetargsRespects (buf : Nat) (nbytes : Int) (k : Kernel) : Prop :=
  (∀ s ∈ (getargsHandler buf nbytes k).2.stores, (s.1 : Int) < nbytes) ∧
  (nbytes < k.proc.current.argbuf.string.length + 1 → (getargsHandler buf nbytes k).2.ret = -1)

/-- **`ArgsFit`** — there is nothing to copy, or room for it. -/
def ArgsFit (buf : Nat) (nbytes : Int) (k : Kernel) : Prop :=
  buf = 0 ∨ k.proc.current.argsflag = 0 ∨ k.proc.current.argbuf.byte 0 = 0 ∨
  k.proc.current.argbuf.string.length + 1 ≤ nbytes

theorem getargsHandler_respects_iff (buf : Nat) {nbytes : Int} (k : Kernel) (h0 : 0 ≤ nbytes) :
    GetargsRespects buf nbytes k ↔ ArgsFit buf nbytes k := by
  have hcur : k.cli.proc.current = k.proc.current := rfl
  unfold GetargsRespects ArgsFit getargsHandler
  dsimp only
  rw [hcur]
  by_cases hfail : buf = 0 ∨ nbytes < 0 ∨ k.proc.current.argsflag = 0
  · have hfits : buf = 0 ∨ k.proc.current.argsflag = 0 := by
      rcases hfail with h | h | h
      · exact Or.inl h
      · omega
      · exact Or.inr h
    rw [if_pos hfail]
    refine ⟨fun _ => ?_, fun _ => ⟨by simp, fun _ => rfl⟩⟩
    rcases hfits with h | h
    · exact Or.inl h
    · exact Or.inr (Or.inl h)
  rw [if_neg hfail]
  by_cases hfirst : k.proc.current.argbuf.byte 0 = 0
  · rw [if_neg (not_not.mpr hfirst)]
    exact ⟨fun _ => Or.inr (Or.inr (Or.inl hfirst)), fun _ => ⟨by simp, fun _ => rfl⟩⟩
  · rw [if_pos hfirst]
    simp only [ArgBuf.strcpy_eq, not_or] at hfail ⊢
    constructor
    · rintro ⟨hstores, -⟩
      have hlast := hstores (k.proc.current.argbuf.string.length, _) (List.mem_map.mpr
        ⟨k.proc.current.argbuf.string.length, List.mem_range.mpr (Nat.lt_succ_self _), rfl⟩)
      exact Or.inr (Or.inr (Or.inr hlast))
    · rintro (h | h | h | h)
      · exact absurd h hfail.1
      · exact absurd h hfail.2.2
      · exact absurd h hfirst
      · refine ⟨fun s hs => ?_, fun hlong => by omega⟩
        obtain ⟨i, hi, rfl⟩ := List.mem_map.mp hs
        have hi := List.mem_range.mp hi
        show (i : Int) < nbytes
        omega

/-! ## All of them -/

/-- **When the copying calls respect the caller's buffer.**  For every image, kernel state, descriptor,
buffer and count; the bounds are those of the C types `int32_t` and `uint32_t`. -/
theorem buffers_respected_iff (img : Image) (fd : Int) (buf : Nat) (nbytes : Int) (k : Kernel)
    (h0 : 0 ≤ nbytes) (h31 : nbytes < 2 ^ 31)
    (hpos : (k.proc.table fd.toNat).filePosition < 2 ^ 32) :
    (ReadRespects img fd buf nbytes k ↔ ReadFits img fd buf nbytes k) ∧
    (GetargsRespects buf nbytes k ↔ ArgsFit buf nbytes k) :=
  ⟨readHandler_respects_iff img buf h0 h31 hpos, getargsHandler_respects_iff buf k h0⟩

/-- The booted kernel with the line "abc" typed and entered at terminal 0. -/
def typedKernel : Kernel :=
  { bootedKernel with
    con := { bootedKernel.con with
      keyBuffer := charAt [97, 98, 99, newLine]
      termArr := fun t => { bootedKernel.con.termArr t with enterFlag := 1, visible := 1 } } }

/-- A buffer as long as the line buffer is respected. -/
theorem full_line_respected :
    ReadRespects shellImage 0 1 127 typedKernel ∧ GetargsRespects 1 127 typedKernel := by
  obtain ⟨hread, hargs⟩ := buffers_respected_iff shellImage 0 1 127 typedKernel (by decide) (by decide)
    (by decide)
  refine ⟨hread.mpr fun _ _ _ _ _ => ?_, hargs.mpr (Or.inr (Or.inl (by decide)))⟩
  show typedKernel.con.LineReady _ → LineFits typedKernel.con 127
  refine fun _ => ⟨Nat.le_refl _, fun i hi hlt => ?_⟩
  unfold maxInputLength at hlt
  omega

/-- Reading that line into a buffer of two bytes stores a third one; reading five bytes of a file of
four loads the byte after its end; and an argument of one character overruns a buffer of one byte. -/
theorem buffers_overrun :
    (∃ k' copy, readHandler shellImage 0 1 2 typedKernel = some (k', copy) ∧ (2, 99) ∈ copy.stores) ∧
    (∃ k1 k2 copy, CallStep shellImage bootedKernel (.openFile shellName 2) k1 ∧
      CallStep shellImage k1 (.read 2 1 5 copy) k2 ∧
      shellImage.inodeLength 0 = 4 ∧ Load.file 0 4 ∈ copy.loads) ∧
    ∃ k1, SessionStep shellImage bootedKernel (.execute (.at 0 0) shellX) k1 ∧
      (1, 0) ∈ (getargsHandler 1 1 k1).2.stores := by
  refine ⟨?_, ?_, ?_⟩
  · have hread : (readHandler shellImage 0 1 2 typedKernel).map (fun r => r.2.stores) =
        some [(0, 97), (1, 98), (2, 99)] := by decide
    obtain ⟨⟨k', copy⟩, hstep, hstores⟩ := Option.map_eq_some_iff.mp hread
    exact ⟨k', copy, hstep, by rw [hstores]; decide⟩
  · have hread : (readHandler shellImage 2 1 5 (openHandler shellImage shellName bootedKernel).1).map
        (fun r => r.2.loads) = some [.file 0 0, .file 0 1, .file 0 2, .file 0 3, .file 0 4] := by decide
    obtain ⟨⟨k2, copy⟩, hstep, hloads⟩ := Option.map_eq_some_iff.mp hread
    exact ⟨_, k2, copy, Prod.ext rfl (by decide), hstep, by decide, by rw [hloads]; decide⟩
  · obtain ⟨k1, hexec⟩ := shellX_executes
    have harg : HasArgument k1.proc.current [120] :=
      (WF.of_booted booted_bootedKernel).tabled.execute_hasArgument (by decide) hexec
    refine ⟨k1, hexec, ?_⟩
    rw [getargsHandler_copies (by simp) (by decide) harg (by decide) (by decide) (by decide)]
    decide

end Ece391
