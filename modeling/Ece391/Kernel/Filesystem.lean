/-
# Ece391.Kernel.Filesystem — the read-only file system of `filesystem.c`.

The image is a flat byte memory: `img n` is the byte at distance `n` from `boot_block_addr`, and
pointer arithmetic wraps at 2³².  Keeping it flat matters.  `read_dentry_by_name` walks
`DENTRY_SIZE = 64` entries of a 63-entry array, so its last probe reads the first inode; an inode
number equal to `inode_count` passes the range check of `read_data` and is decoded from the first
data block; and `directory_read` tests the index of the PREVIOUS byte, so it can leave the name table
by one byte.  None of these reads is patched over here: the loops are the source's loops.

A copy into a caller's buffer is returned as a `Copy`: the value returned, the stores into the buffer
in order as `(index, byte)`, and what was loaded to make them.
-/
import Ece391.Kernel.CString

namespace Ece391

/-! ## What a copy does -/

/-- One load from the kernel object a read copies from: an element of `keyBuffer`, the byte of a file
at a position, or the byte of the directory's name table at a position. -/
inductive Load
  | keyBuffer (i : Nat)
  | file (inode : Nat) (pos : Int)
  | name (pos : Int)
  deriving DecidableEq, Repr

/-- The outcome of a copy loop: return value, stores `buf[i] = b`, loads, each in program order. -/
structure Copy where
  ret : Int
  stores : List (Nat × UInt8)
  loads : List Load
  deriving DecidableEq, Repr

/-! ## The image and its layout (`filesystem.h`) -/

/-- The bytes from `boot_block_addr` on. -/
abbrev Image := Nat → UInt8

def filenameLen : Nat := 32
def blockSize : Nat := 4096
def dentrySize : Nat := 64
def dataBlockNumSize : Nat := 1023

namespace Image

variable (img : Image)

/-- The byte at a pointer, `a` bytes after the boot block. -/
def byteAt (a : Int) : UInt8 := img (a % 2 ^ 32).toNat

/-- The little-endian word at a pointer. -/
def wordAt (a : Int) : Nat :=
  (img.byteAt a).toNat + 2 ^ 8 * (img.byteAt (a + 1)).toNat + 2 ^ 16 * (img.byteAt (a + 2)).toNat
    + 2 ^ 24 * (img.byteAt (a + 3)).toNat

/-- `boot_block_addr->dir_count`, a signed field. -/
def dirCount : Int := s32 (img.wordAt 0)

/-- `boot_block_addr->inode_count`; every comparison the code makes with it is unsigned. -/
def inodeCount : Nat := img.wordAt 4

/-- `boot_block_addr->data_count`. -/
def dataCount : Nat := img.wordAt 8

/-- `boot_block_addr->direntries[i].filename[j]`. -/
def nameByte (i j : Int) : UInt8 := img.byteAt (64 + 64 * i + j)

/-- `boot_block_addr->direntries[i].filetype`. -/
def filetype (i : Nat) : Nat := img.wordAt (64 + 64 * i + 32)

/-- `boot_block_addr->direntries[i].inode_num`. -/
def inodeNum (i : Nat) : Nat := img.wordAt (64 + 64 * i + 36)

/-- `inode_addr[inode].length`, compared as an unsigned word. -/
def inodeLength (inode : Nat) : Nat := img.wordAt (4096 * (inode + 1))

/-- `inode_addr[inode].data_block_num[idx]`. -/
def dataBlockNum (inode : Nat) (idx : Int) : Nat := img.wordAt (4096 * (inode + 1) + 4 + 4 * idx)

/-- `data_addr[block].val[data]`; the data blocks follow the boot block and the inodes. -/
def dataVal (block : Nat) (data : Int) : UInt8 :=
  img.byteAt (4096 * (img.inodeCount + 1) + 4096 * block + data)

/-- The byte `read_data` fetches at position `pos` of an inode, with C's truncating division. -/
def fileByte (inode : Nat) (pos : Int) : UInt8 :=
  img.dataVal (img.dataBlockNum inode (pos.tdiv blockSize)) (pos.tmod blockSize)

end Image

/-! ## Directory entries -/

/-- `dentry_t`, the fields the callers read. -/
structure Dentry where
  filename : List UInt8
  filetype : Nat
  inodeNum : Nat
  deriving DecidableEq, Repr

/-- The entry `direntries[i]`, copied out as `read_dentry_by_name` and `read_dentry_by_index` do. -/
def Image.dentry (img : Image) (i : Nat) : Dentry where
  filename := (List.range filenameLen).map fun (j : Nat) => img.nameByte i j
  filetype := img.filetype i
  inodeNum := img.inodeNum i

/-- The test `!strncmp(&direntries[i], fname, FILENAME_LEN)`. -/
def Image.matchesName (img : Image) (fname : List UInt8) (i : Nat) : Bool :=
  strncmp (fun j => img.nameByte i j) (charAt fname) filenameLen == 0

/-- **`readDentryByName`** — the first of the `DENTRY_SIZE` entries whose name compares equal;
`none` is the return value `-1`. -/
def readDentryByName (img : Image) (fname : List UInt8) : Option Dentry :=
  if strlen fname > filenameLen then none
  else ((List.range dentrySize).find? (img.matchesName fname)).map img.dentry

/-- **`readDentryByIndex`** — the entry at an index, which is compared as an unsigned word. -/
def readDentryByIndex (img : Image) (index : Nat) : Option Dentry :=
  if index > img.wordAt 0 then none else some (img.dentry index)

/-- The name test compares C strings. -/
theorem Image.matchesName_iff (img : Image) {fname : List UInt8} (hlen : strlen fname ≤ filenameLen)
    (i : Nat) : img.matchesName fname i = true ↔ cstr (img.dentry i).filename = cstr fname := by
  have hentry : strlen (img.dentry i).filename ≤ filenameLen := by
    simpa [Image.dentry] using strlen_le_length (img.dentry i).filename
  rw [← cstr_eq_iff hentry hlen, Image.matchesName, beq_iff_eq, strncmp_eq_zero_iff]
  -- below `FILENAME_LEN` the copied name is the name in the image
  have hbyte : ∀ j < filenameLen, charAt (img.dentry i).filename j = img.nameByte i j := by
    intro j hj
    simp [charAt, Image.dentry, hj]
  constructor
  · intro h j hj hbefore
    rw [hbyte j hj]
    exact h j hj fun l hl => hbyte l (Nat.lt_trans hl hj) ▸ hbefore l hl
  · intro h j hj hbefore
    rw [← hbyte j hj]
    exact h j hj fun l hl => (hbyte l (Nat.lt_trans hl hj)).symm ▸ hbefore l hl

/-- A name that entry `i` carries is found, at entry `i` or before it. -/
theorem readDentryByName_of_entry (img : Image) {fname : List UInt8} {i : Nat} (hi : i < dentrySize)
    (hname : cstr (img.dentry i).filename = cstr fname) :
    ∃ j ≤ i, readDentryByName img fname = some (img.dentry j) := by
  have hlen : strlen fname ≤ filenameLen := by
    have hle := strlen_le_length (img.dentry i).filename
    rw [strlen, hname] at hle
    simpa [strlen, Image.dentry] using hle
  have hmatch := (img.matchesName_iff hlen i).mpr hname
  have hnot : ¬ strlen fname > filenameLen := by omega
  cases hfind : (List.range dentrySize).find? (img.matchesName fname) with
  | none =>
      rw [List.find?_eq_none] at hfind
      exact absurd hmatch (hfind i (List.mem_range.mpr hi))
  | some j =>
      refine ⟨j, ?_, by rw [readDentryByName, if_neg hnot, hfind, Option.map_some]⟩
      rw [List.find?_range_eq_some] at hfind
      by_contra hlt
      have := hfind.2.2 i (by omega)
      simp [hmatch] at this

/-! ## Reading an inode -/

/-- The locals of the loop of `read_data`, with the stores and loads made so far. -/
structure ReadLoop where
  readCounter : Nat
  curPos : Int
  stores : List (Nat × UInt8)
  loads : List Load

/-- One iteration: `if (length >= offset + read_counter)` copy the byte at `cur_pos` to `buf[i]`. -/
def readStep (img : Image) (inode offset : Nat) (st : ReadLoop) (i : Nat) : ReadLoop :=
  if img.inodeLength inode ≥ (offset + st.readCounter) % 2 ^ 32 then
    { readCounter := st.readCounter + 1
      curPos := st.curPos + 1
      stores := st.stores ++ [(i, img.fileByte inode st.curPos)]
      loads := st.loads ++ [.file inode st.curPos] }
  else st

/-- The loop of `read_data`, `for (i = 0; i < length; i++)`. -/
def readLoop (img : Image) (inode offset length : Nat) : ReadLoop :=
  (List.range length).foldl (readStep img inode offset) ⟨0, s32 offset, [], []⟩

/-- **`readData`** — `read_data(inode, offset, buf, length)`; `buf = 0` is the NULL pointer. -/
def readData (img : Image) (inode offset buf length : Nat) : Copy :=
  if inode > img.inodeCount ∨ buf = 0 then ⟨-1, [], []⟩
  else
    let st := readLoop img inode offset length
    ⟨st.readCounter, st.stores, st.loads⟩

/-! ## Reading the directory -/

/-- The loop of `directory_read` with `n` iterations left: `i` bytes stored, `idx` the entry of the
byte before, `curPos` the position of the next one. -/
def directoryLoop (img : Image) : Nat → Nat → Int → Int → Copy
  | 0, i, _, _ => ⟨i, [], []⟩
  | n + 1, i, idx, curPos =>
      if idx < img.dirCount then
        let idx' := curPos.tdiv filenameLen
        let r := directoryLoop img n (i + 1) idx' (curPos + 1)
        ⟨r.ret, (i, img.nameByte idx' (curPos.tmod filenameLen)) :: r.stores,
          .name curPos :: r.loads⟩
      else ⟨i, [], []⟩

/-- **`directoryRead`** — `directory_read(inode, offset, buf, length)`; the inode is ignored. -/
def directoryRead (img : Image) (offset length : Nat) : Copy :=
  directoryLoop img length 0 ((s32 offset).tdiv filenameLen) (s32 offset)

/-! ## `readData`, in closed form -/

/-- How many bytes a read of `length` bytes at `offset` delivers.  The loop tests `>=`, so a file of
length `L` yields `L + 1` bytes. -/
def Image.available (img : Image) (inode offset length : Nat) : Nat :=
  min length (img.inodeLength inode + 1 - offset)

theorem Image.wordAt_lt (img : Image) (a : Int) : img.wordAt a < 2 ^ 32 := by
  have h0 := (img.byteAt a).toNat_lt
  have h1 := (img.byteAt (a + 1)).toNat_lt
  have h2 := (img.byteAt (a + 2)).toNat_lt
  have h3 := (img.byteAt (a + 3)).toNat_lt
  unfold Image.wordAt
  omega

/-- The bytes of an inode from `offset` on, `n` of them. -/
def Image.slice (img : Image) (inode offset n : Nat) : List UInt8 :=
  (List.range n).map fun i => img.fileByte inode ((offset + i : Nat) : Int)

theorem Image.slice_succ (img : Image) (inode offset n : Nat) :
    img.slice inode offset (n + 1) =
      img.slice inode offset n ++ [img.fileByte inode ((offset + n : Nat) : Int)] := by
  simp [Image.slice, List.range_succ]

theorem Image.slice_add (img : Image) (inode offset m n : Nat) :
    img.slice inode offset (m + n) =
      img.slice inode offset m ++ img.slice inode (offset + m) n := by
  induction n with
  | zero => simp [Image.slice]
  | succ n ih =>
      rw [← Nat.add_assoc, Image.slice_succ, ih, Image.slice_succ, List.append_assoc,
        Nat.add_assoc offset m n]

theorem readLoop_succ (img : Image) (inode offset n : Nat) :
    readLoop img inode offset (n + 1) = readStep img inode offset (readLoop img inode offset n) n := by
  simp [readLoop, List.range_succ]

/-- The loop of `read_data` in closed form, for an offset and a length below 2³¹: it stores the slice
at `buf[0..n)` and loads exactly the `n` positions from `offset` on. -/
theorem readLoop_eq (img : Image) (inode offset length : Nat) (hoff : offset < 2 ^ 31)
    (hlen : length < 2 ^ 31) :
    readLoop img inode offset length =
      { readCounter := img.available inode offset length
        curPos := ((offset + img.available inode offset length : Nat) : Int)
        stores := (List.range (img.available inode offset length)).map
          fun i => (i, img.fileByte inode ((offset + i : Nat) : Int))
        loads := (List.range (img.available inode offset length)).map
          fun i => .file inode ((offset + i : Nat) : Int) } := by
  induction length with
  | zero => simp [readLoop, Image.available, s32_of_lt hoff]
  | succ n ih =>
      rw [readLoop_succ, ih (by omega)]
      unfold readStep
      by_cases hmore : n + 1 ≤ img.inodeLength inode + 1 - offset
      · -- the file still has a byte at position `offset + n`
        have hn : img.available inode offset n = n := by unfold Image.available; omega
        have hn1 : img.available inode offset (n + 1) = n + 1 := by unfold Image.available; omega
        have htest : img.inodeLength inode ≥ (offset + n) % 2 ^ 32 := by
          rw [Nat.mod_eq_of_lt (by omega)]
          omega
        rw [hn, hn1, if_pos htest]
        simp [List.range_succ, Int.add_assoc]
      · -- past the end the test fails and the loop state no longer moves
        have hn : img.available inode offset (n + 1) = img.available inode offset n := by
          unfold Image.available; omega
        have htest : ¬ img.inodeLength inode ≥
            (offset + img.available inode offset n) % 2 ^ 32 := by
          unfold Image.available
          rw [Nat.mod_eq_of_lt (by omega)]
          omega
        rw [hn, if_neg htest]

/-- **`readData` in closed form.** -/
theorem readData_eq (img : Image) (inode offset buf length : Nat) (hinode : inode ≤ img.inodeCount)
    (hbuf : buf ≠ 0) (hlt : offset + length < 2 ^ 31) :
    (readData img inode offset buf length).ret = img.available inode offset length ∧
    (readData img inode offset buf length).stores.map Prod.snd =
      img.slice inode offset (img.available inode offset length) := by
  have hneg : ¬ (inode > img.inodeCount ∨ buf = 0) := by
    rintro (h | h)
    · omega
    · exact hbuf h
  simp only [readData, if_neg hneg, readLoop_eq img inode offset length (by omega) (by omega),
    List.map_map, true_and]
  rfl

end Ece391
