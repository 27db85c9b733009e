/-
# Ece391.User.Programs — what `cat` and `ls` write.

Both programs read a piece at a time and write it, until a read delivers nothing.  The kernel's
`terminal_write` counts the bytes that are not NUL and returns the count as an `int8_t`, and both programs
take -1 for a failure.  A name of the directory with its newline has at most 33 such bytes, so `ls` never
sees one.  A piece of 1024 bytes can have 255, 511 or 767 of them, or 1023: `cat` then stops behind this
piece, which has been written, and returns 3 (`cat_prints`).
-/
import Ece391.User.Calls

namespace Ece391

/-! ## `ece391cat.c` -/

/-- The size of the buffer of `cat`. -/
def catBuf : Nat := 1024

/-- The loop of `cat`. -/
def catLoop (w : World) (fd : Int) : Nat → (Nat → UInt8) → Running → Option (Running × Int)
  | 0, _, _ => none
  | n + 1, buf, st => do
      let (st, cnt) ← w.read fd catBuf st
      if cnt.ret = 0 then some (st, 0)
      else if cnt.ret = -1 then
        let st ← w.fdputs 1 "file read failed\n".toUTF8.toList st
        some (st, 3)
      else
        let buf := stored cnt 0 buf
        let (st, ret) ← w.write 1 (bytes cnt.ret.toNat buf) st
        if ret = -1 then some (st, 3) else catLoop w fd n buf st

/-- **`cat`** — `main`; `fuel` bounds the reads. -/
def cat (w : World) (fuel : Nat) (buf : Nat → UInt8) (st : Running) : Option (Running × Int) :=
  let (st, args) := w.getargs catBuf st
  if args.ret ≠ 0 then do
    let st ← w.fdputs 1 "could not read arguments\n".toUTF8.toList st
    some (st, 3)
  else
    let buf := stored args 0 buf
    let (st, fd) := w.openFile (bytes catBuf buf) st
    if fd = -1 then do
      let st ← w.fdputs 1 "file not found\n".toUTF8.toList st
      some (st, 2)
    else catLoop w fd fuel buf st

/-- A write of these bytes returns -1. -/
def Refused (bytes : List UInt8) : Bool := (bytes.filter (· ≠ 0)).length % 256 == 255

theorem refused_iff (l : List UInt8) : s8 (l.filter (· ≠ 0)).length = -1 ↔ Refused l = true := by
  rw [Refused, beq_iff_eq, s8]
  split
  · omega
  · omega

/-- What is written of the pieces of a file: those up to the first one refused, and that one. -/
def written : List (List UInt8) → List (List UInt8)
  | [] => []
  | c :: cs => if Refused c then [c] else c :: written cs

theorem written_eq_self {pieces : List (List UInt8)} (h : pieces.any Refused = false) :
    written pieces = pieces := by
  induction pieces with
  | nil => rfl
  | cons c cs ih =>
      rw [List.any_cons, Bool.or_eq_false_iff] at h
      have hgo : ¬ Refused c = true := by
        rw [h.1]
        exact Bool.false_ne_true
      rw [written, if_neg hgo, ih h.2]

/-- What the program returns. -/
def verdict (pieces : List (List UInt8)) : Int := if pieces.any Refused then 3 else 0

/-- Piece `i` of a file. -/
def World.piece (w : World) (inode i : Nat) : List UInt8 :=
  w.img.slice inode (catBuf * i) (w.img.available inode (catBuf * i) catBuf)

/-- **`pieces`** — the pieces of a file, from the `i`-th on. -/
def World.pieces (w : World) (inode i : Nat) : List (List UInt8) :=
  (List.range' i (w.img.inodeLength inode / catBuf + 1 - i)).map (w.piece inode)

section Cat

variable {w : World} {t : Nat → FileDescriptor} {inode i : Nat}

theorem piece_start (hi : i ≤ w.img.inodeLength inode / catBuf) : catBuf * i ≤ w.img.inodeLength inode := by
  rw [Nat.mul_comm]
  exact Nat.mul_le_of_le_div catBuf i _ hi

/-- Behind the last piece there is nothing. -/
theorem pieces_end {i : Nat} (hi : i = w.img.inodeLength inode / catBuf + 1) :
    w.img.inodeLength inode + 1 ≤ catBuf * i := by
  have := Nat.lt_mul_div_succ (w.img.inodeLength inode) (show 0 < catBuf by decide)
  rw [hi]
  omega

theorem pieces_cons (hi : i ≤ w.img.inodeLength inode / catBuf) :
    w.pieces inode i = w.piece inode i :: w.pieces inode (i + 1) := by
  rw [World.pieces, show w.img.inodeLength inode / catBuf + 1 - i =
    (w.img.inodeLength inode / catBuf + 1 - (i + 1)) + 1 by omega, List.range'_succ, List.map_cons, World.pieces]

/-- The pieces are the text. -/
theorem pieces_flatten {n : Nat} (hn : i + n = w.img.inodeLength inode / catBuf + 1) :
    (w.pieces inode i).flatten = w.unread inode (catBuf * i) := by
  induction n generalizing i with
  | zero =>
      have hend : w.img.inodeLength inode + 1 ≤ catBuf * i := pieces_end (by omega)
      rw [World.pieces, show w.img.inodeLength inode / catBuf + 1 - i = 0 by omega, World.unread,
        Nat.sub_eq_zero_of_le hend]
      rfl
  | succ n ih =>
      have hstart : catBuf * i ≤ w.img.inodeLength inode := piece_start (by omega)
      have hmin : w.img.available inode (catBuf * i) catBuf =
          min catBuf (w.img.inodeLength inode + 1 - catBuf * i) := rfl
      have hsplit : w.unread inode (catBuf * i) = w.piece inode i ++
          w.unread inode (catBuf * i + w.img.available inode (catBuf * i) catBuf) :=
        unread_eq w inode (by omega)
      rw [pieces_cons (by omega), List.flatten_cons, ih (by omega), hsplit, Nat.mul_succ]
      by_cases hfull : w.img.available inode (catBuf * i) catBuf = catBuf
      · rw [hfull]
      · -- the last piece
        have hnone : ∀ pos, w.img.inodeLength inode + 1 ≤ pos → w.unread inode pos = [] := by
          intro pos hpos
          rw [World.unread, Nat.sub_eq_zero_of_le hpos]
          rfl
        rw [hnone _ (by omega), hnone _ (by omega)]

/-- The bytes of a read, as they are written. -/
theorem bytes_stored {copy : Copy} {pos m : Nat} {buf : Nat → UInt8}
    (hstores : copy.stores = (List.range m).map fun j => (j, w.img.fileAt inode (pos + j))) :
    bytes m (stored copy 0 buf) = w.img.slice inode pos m := by
  refine List.ext_getElem (by simp [bytes, Image.slice]) fun j hj hj' => ?_
  have hj : j < m := by simpa [bytes] using hj
  rw [← charAt_eq_getElem hj', charAt_slice w.img inode pos hj]
  simp only [bytes, List.getElem_map, List.getElem_range]
  rw [stored, hstores, foldl_stores fun j => w.img.fileAt inode (pos + j), if_pos (by omega), Nat.sub_zero]

/-- **The loop of `cat`**, from piece `i` on. -/
theorem catLoop_prints {fd : Nat} (h2 : 2 ≤ fd) (h7 : fd ≤ 7) (hinode : inode < w.img.inodeCount)
    (hsize : w.img.inodeLength inode < 2 ^ 30) {n pos : Nat} (buf : Nat → UInt8) {st : Running}
    (h : Reading t inode fd pos st) (hpos : pos = min (catBuf * i) (w.img.inodeLength inode + 1))
    (hi : i ≤ w.img.inodeLength inode / catBuf + 1) (hn : w.img.inodeLength inode / catBuf + 1 - i < n) :
    ∃ st', catLoop w fd n buf st = some (st', verdict (w.pieces inode i)) ∧
      st'.output = st.output ++ written (w.pieces inode i) := by
  induction n generalizing i pos buf st with
  | zero => exact absurd hn (Nat.not_lt_zero _)
  | succ n ih =>
      have hbuf : catBuf = 1024 := rfl
      obtain ⟨st1, copy, hread, hret, hstores, h1, hout1⟩ :=
        h.read (w := w) h2 h7 hinode (n := catBuf) (by
          have := Nat.min_le_right (catBuf * i) (w.img.inodeLength inode + 1)
          omega)
      have hmin : w.img.available inode pos catBuf = min catBuf (w.img.inodeLength inode + 1 - pos) := rfl
      rw [catLoop]
      simp only [hread, Option.bind_eq_bind, Option.bind_some]
      by_cases hmore : i ≤ w.img.inodeLength inode / catBuf
      · have hstart := piece_start hmore
        obtain rfl : pos = catBuf * i := by omega
        have hnotzero : ¬ copy.ret = 0 := by omega
        have hnotfailed : ¬ copy.ret = -1 := by omega
        have hlength : copy.ret.toNat = w.img.available inode (catBuf * i) catBuf := by omega
        have hpiece : bytes copy.ret.toNat (stored copy 0 buf) = w.piece inode i := by
          rw [hlength]
          exact bytes_stored hstores
        obtain ⟨st2, hwrite, h2', hout2⟩ := h1.write w (w.piece inode i)
        rw [if_neg hnotzero, if_neg hnotfailed, hpiece, hwrite, Option.bind_some, pieces_cons hmore, verdict,
          List.any_cons, written]
        by_cases hrefused : Refused (w.piece inode i) = true
        · rw [if_pos ((refused_iff _).mpr hrefused), if_pos hrefused, hrefused]
          exact ⟨st2, rfl, by rw [hout2, hout1]⟩
        · have hfalse : Refused (w.piece inode i) = false := by simpa using hrefused
          rw [if_neg fun hret => hrefused ((refused_iff _).mp hret), if_neg hrefused, hfalse, Bool.false_or]
          obtain ⟨st', hloop, hout⟩ := ih (i := i + 1) (stored copy 0 buf) h2'
            (by rw [Nat.mul_succ]; omega) (by omega) (by omega)
          exact ⟨st', hloop, by rw [hout, hout2, hout1, List.append_assoc, List.singleton_append]⟩
      · -- the file is through
        have hnone : w.pieces inode i = [] := by
          rw [World.pieces, show w.img.inodeLength inode / catBuf + 1 - i = 0 by omega]
          rfl
        have hend : w.img.inodeLength inode + 1 ≤ catBuf * i := pieces_end (by omega)
        rw [if_pos (by omega), hnone]
        exact ⟨st1, rfl, by rw [hout1, written, List.append_nil]⟩

/-- **`cat` prints the file, or stops at the first piece whose count is taken for a failure.**  For every
word as argument that names a file, and whatever the rest of the system does between the calls: the pieces
written are those up to the first one with 255, 511, 767 or 1023 bytes that are not NUL; if there is none,
the text of the file has been written and the return value is 0, and otherwise it is 3. -/
theorem cat_prints {fuel : Nat} {buf : Nat → UInt8} {st : Running} {a : List UInt8} {dentry : Dentry} {fd : Nat}
    (h : Printing t st) (ha : ∀ b ∈ a, b ≠ 0) (hlen : a.length ≤ 126) (hne : a ≠ [])
    (harg : HasArgument st.kernel.proc.current a) (hname : readDentryByName w.img a = some dentry)
    (hin : ¬ a <+: stdinName) (hstd : ¬ a <+: stdoutName) (htype : dentry.filetype = 2)
    (hinode : dentry.inodeNum < w.img.inodeCount) (hsize : w.img.inodeLength dentry.inodeNum < 2 ^ 30)
    (hfree : freeDescriptor t = some fd) (hfuel : w.img.inodeLength dentry.inodeNum / catBuf + 1 < fuel) :
    (w.pieces dentry.inodeNum 0).flatten = w.fileText dentry.inodeNum ∧
    ∃ st', cat w fuel buf st = some (st', if (w.pieces dentry.inodeNum 0).any Refused then 3 else 0) ∧
      st'.output = st.output ++ written (w.pieces dentry.inodeNum 0) ∧
      ((w.pieces dentry.inodeNum 0).any Refused = false →
        st'.output = st.output ++ w.pieces dentry.inodeNum 0) := by
  refine ⟨pieces_flatten (i := 0) (Nat.zero_add _), ?_⟩
  obtain ⟨hcopy, h1, hout1⟩ := h.getargs w ha hlen harg hne (show (0 : Int) ≤ catBuf by decide)
  obtain ⟨⟨st1, args⟩, hgetargs⟩ : ∃ r, w.getargs catBuf st = r := ⟨_, rfl⟩
  rw [hgetargs] at hcopy h1 hout1
  have hret : ¬ args.ret ≠ 0 := by
    rw [show args = _ from hcopy]
    exact not_not.mpr rfl
  -- the argument is the name
  have hself : cstr a = a := List.takeWhile_eq_self_iff.mpr (by simpa using ha)
  have hbuf : cstr (bytes catBuf (stored args 0 buf)) = a := by
    refine cstr_bytes ha (by unfold catBuf; omega) fun i hi => ?_
    rw [show args = _ from hcopy, stored, argsStores, foldl_stores (charAt a), if_pos (by omega), Nat.sub_zero]
  have hentry : openedEntry dentry = some ⟨.filesystem, dentry.inodeNum, 0, 1⟩ := by
    simp [openedEntry, htype]
  obtain ⟨hopen, hreading, hout2⟩ := h1.openFile
    ((readDentryByName_congr w.img (hbuf.trans hself.symm)).trans hname) hentry (hbuf.symm ▸ hin)
    (hbuf.symm ▸ hstd) hfree
  obtain ⟨⟨st2, d⟩, hopenFile⟩ : ∃ r, w.openFile (bytes catBuf (stored args 0 buf)) st1 = r := ⟨_, rfl⟩
  rw [hopenFile] at hopen hreading hout2
  obtain rfl : d = fd := hopen
  have hopened : ¬ (fd : Int) = -1 := by omega
  obtain ⟨h2, h7, -⟩ := freeDescriptor_eq_some hfree
  obtain ⟨st', hloop, hout⟩ := catLoop_prints (i := 0) (n := fuel) h2 h7 hinode hsize _ hreading (by simp)
    (Nat.zero_le _) hfuel
  have hwritten : st'.output = st.output ++ written (w.pieces dentry.inodeNum 0) :=
    hout.trans (by rw [hout2, hout1])
  refine ⟨st', ?_, hwritten, fun hnone => by rw [hwritten, written_eq_self hnone]⟩
  rw [cat, hgetargs]
  dsimp only
  rw [if_neg hret, hopenFile]
  dsimp only
  rw [if_neg hopened]
  exact hloop

end Cat

/-- A file "n" of 2000 bytes `a`, on a block full of them. -/
def longImage : Image := fun n =>
  if 8192 ≤ n ∧ n < 12288 then 97
  else ([(0, 1), (4, 1), (8, 1), (64, 110), (96, 2), (4096, 208), (4097, 7)].lookup n).getD 0

theorem longImage_slice {pos n : Nat} (hn : pos + n ≤ 4096) : longImage.slice 0 pos n = List.replicate n 97 := by
  refine List.eq_replicate_iff.mpr ⟨length_slice .., fun b hb => ?_⟩
  obtain ⟨i, hi, rfl⟩ := List.mem_map.mp hb
  have hi := List.mem_range.mp hi
  have hblock : (pos + i) / blockSize = 0 := Nat.div_eq_of_lt (by unfold blockSize; omega)
  have hbyte : (pos + i) % blockSize = pos + i := Nat.mod_eq_of_lt (by unfold blockSize; omega)
  have hfirst : longImage.dataBlockNum 0 (0 : Nat) = 0 := by decide
  have hcount : longImage.inodeCount = 1 := by decide
  have haddr : (4096 * ((1 : Nat) + 1 : Int) + 4096 * (0 : Nat) + (pos + i : Nat)) % 2 ^ 32 =
      ((8192 + (pos + i) : Nat) : Int) := by omega
  rw [Image.fileByte_eq, Image.fileAt, hblock, hbyte, hfirst, Image.dataVal, hcount, Image.byteAt, haddr,
    Int.toNat_natCast, longImage, if_pos (by omega)]

/-- With the other terminals at work in between, it is printed in two pieces; the byte behind it is in the
second. -/
theorem long_file_printed :
    (sharedWorld longImage).before (letterRun 110) = othersTurn longImage (letterRun 110).kernel ∧
    ∃ st', cat (sharedWorld longImage) 4 (fun _ => 0) (letterRun 110) = some (st', 0) ∧
      st'.output = [List.replicate 1024 97, List.replicate 977 97] := by
  refine ⟨sharedWorld_others (letterRun_tabled 110) 0, ?_⟩
  have himg : (sharedWorld longImage).img = longImage := rfl
  have hlength : longImage.inodeLength (longImage.dentry 0).inodeNum = 2000 := by decide
  have hpieces : (sharedWorld longImage).pieces (longImage.dentry 0).inodeNum 0 =
      [List.replicate 1024 97, List.replicate 977 97] := by
    have hnumber : (longImage.dentry 0).inodeNum = 0 := by decide
    have hfirst : longImage.available 0 0 catBuf = 1024 := by decide
    have hlast : longImage.available 0 1024 catBuf = 977 := by decide
    rw [World.pieces, himg, hlength, hnumber]
    show [longImage.slice 0 0 (longImage.available 0 0 catBuf),
      longImage.slice 0 1024 (longImage.available 0 1024 catBuf)] = _
    rw [hfirst, hlast, longImage_slice (by decide), longImage_slice (by decide)]
  have hname : readDentryByName longImage [110] = some (longImage.dentry 0) := by decide
  have htype : (longImage.dentry 0).filetype = 2 := by decide
  have hinode : (longImage.dentry 0).inodeNum < longImage.inodeCount := by decide
  have hfree : freeDescriptor (shellPcb 1).pcbArr = some 2 := by decide
  have hsize : longImage.inodeLength (longImage.dentry 0).inodeNum < 2 ^ 30 := by
    rw [hlength]
    decide
  have hreads : longImage.inodeLength (longImage.dentry 0).inodeNum / catBuf + 1 < 4 := by
    rw [hlength]
    decide
  obtain ⟨-, st', hcat, -, hout⟩ := cat_prints (w := sharedWorld longImage) (letterRun_printing 110) (by simp)
    (by decide) (by decide) (letterRun_argument 110) hname (by decide) (by decide) htype hinode hsize hfree hreads
  have hrefused : ∀ n, Refused (List.replicate n 97) = (n % 256 == 255) := fun n => by
    rw [Refused, List.filter_replicate_of_pos (by decide), List.length_replicate]
  have hplain : [List.replicate 1024 (97 : UInt8), List.replicate 977 97].any Refused = false := by
    rw [List.any_cons, List.any_cons, hrefused, hrefused]
    rfl
  rw [hpieces] at hcat hout
  rw [hplain] at hcat
  exact ⟨st', hcat, hout hplain⟩

/-! ## `ece391ls.c` -/

/-- The loop of `ls`. -/
def lsLoop (w : World) (fd : Int) : Nat → (Nat → UInt8) → Running → Option (Running × Int)
  | 0, _, _ => none
  | n + 1, buf, st => do
      let (st, cnt) ← w.read fd ((sbufSize : Int) - 1) st
      if cnt.ret = 0 then some (st, 0)
      else if cnt.ret = -1 then
        let st ← w.fdputs 1 "directory entry read failed\n".toUTF8.toList st
        some (st, 3)
      else
        let buf := Function.update (stored cnt 0 buf) cnt.ret.toNat newLine
        let (st, ret) ← w.write 1 (bytes (cnt.ret.toNat + 1) buf) st
        if ret = -1 then some (st, 3) else lsLoop w fd n buf st

/-- **`ls`** — `main`; `entries` bounds the names read. -/
def ls (w : World) (entries : Nat) (buf : Nat → UInt8) (st : Running) : Option (Running × Int) :=
  let (st, fd) := w.openFile dotName st
  if fd = -1 then do
    let st ← w.fdputs 1 "directory open failed\n".toUTF8.toList st
    some (st, 2)
  else lsLoop w fd entries buf st

section Ls

variable {w : World} {t : Nat → FileDescriptor} {i : Nat}

/-- A name as it is printed, with the NULs behind it. -/
def printedName (img : Image) (i : Nat) : List UInt8 := (img.dentry i).filename ++ [newLine]

/-- The write of a short piece does not fail. -/
theorem not_refused {l : List UInt8} (hlen : l.length < 255) : ¬ s8 (l.filter (· ≠ 0)).length = -1 := by
  have hle := List.length_filter_le (· ≠ 0) l
  rw [refused_iff, Refused, beq_iff_eq]
  omega

/-- A name and its newline, in the buffer. -/
theorem bytes_name {img : Image} {copy : Copy} {buf : Nat → UInt8}
    (hstores : copy.stores = (List.range filenameLen).zip (img.dentry i).filename) :
    bytes (filenameLen + 1) (Function.update (stored copy 0 buf) filenameLen newLine) = printedName img i := by
  have hlen : (img.dentry i).filename.length = filenameLen := by simp [Image.dentry]
  rw [bytes, List.range_succ, List.map_append, List.map_singleton, Function.update_self, printedName]
  congr 1
  refine List.ext_getElem (by simp [hlen]) fun j hj hj' => ?_
  have hj : j < filenameLen := by simpa using hj
  rw [List.getElem_map, List.getElem_range, Function.update_of_ne (by omega), stored_name hstores hj]
  exact charAt_eq_getElem hj'

theorem lsLoop_lists {d : Nat} (hcount : 0 ≤ w.img.dirCount) (hmax : w.img.dirCount ≤ 63) (h2 : 2 ≤ d)
    (h7 : d ≤ 7) {n : Nat} (buf : Nat → UInt8) {st : Running} (h : Printing t st)
    (hdesc : t d = nameDescriptor w.img i) (hn : w.img.entries - i < n) :
    ∃ st', lsLoop w d n buf st = some (st', 0) ∧
      st'.output = st.output ++ (List.range' i (w.img.entries - i)).map (printedName w.img) := by
  induction n generalizing i buf t st with
  | zero => exact absurd hn (Nat.not_lt_zero _)
  | succ n ih =>
      obtain ⟨st1, copy, hread, hlisted, h1, hout1⟩ := h.readName h2 h7 hcount hmax hdesc
      have hrequest : (sbufSize : Int) - 1 = (filenameLen : Nat) := by decide
      rw [lsLoop, hrequest]
      simp only [hread, Option.bind_eq_bind, Option.bind_some]
      by_cases hi : i < w.img.entries
      · obtain ⟨hstores, hzero, hfailed, hlength⟩ := listed_name hi hlisted
        have hrange : List.range' i (w.img.entries - i) = i :: List.range' (i + 1) (w.img.entries - (i + 1)) := by
          rw [show w.img.entries - i = (w.img.entries - (i + 1)) + 1 by omega, List.range'_succ]
        obtain ⟨st2, hwrite, h2', hout2⟩ := h1.write w (printedName w.img i)
        have hshort : (printedName w.img i).length < 255 := by
          simp [printedName, Image.dentry, filenameLen]
        rw [if_neg hzero, if_neg hfailed, hlength, bytes_name hstores, hwrite, Option.bind_some,
          if_neg (not_refused hshort), hrange, List.map_cons]
        obtain ⟨st', hloop, hout⟩ := ih
          (Function.update (stored copy 0 buf) filenameLen newLine) h2' (Function.update_self ..) (by omega)
        exact ⟨st', hloop, by rw [hout, hout2, hout1, List.append_assoc, List.singleton_append]⟩
      · -- the names are through
        have hret : copy.ret = 0 := by
          rw [Image.listed, if_neg hi] at hlisted
          exact congrArg Prod.fst hlisted
        rw [if_pos hret, Nat.sub_eq_zero_of_le (Nat.le_of_not_lt hi)]
        exact ⟨st1, rfl, hout1.trans (List.append_nil _).symm⟩

/-- **`ls` lists the directory.**  For every directory of at most 63 entries with a "." in it, and whatever the
rest of the system does between the calls: it returns 0 and has written each name once, in order, as the 32
bytes of its field and a newline. -/
theorem ls_lists {entries : Nat} {buf : Nat → UInt8} {st : Running} {dentry : Dentry} {d : Nat}
    (h : Printing t st) (hname : readDentryByName w.img dotName = some dentry) (htype : dentry.filetype = 1)
    (hcount : 0 ≤ w.img.dirCount) (hmax : w.img.dirCount ≤ 63) (hfree : freeDescriptor t = some d)
    (hentries : w.img.entries < entries) :
    ∃ st', ls w entries buf st = some (st', 0) ∧
      st'.output = st.output ++ (List.range w.img.entries).map (printedName w.img) := by
  have hentry : openedEntry dentry = some (nameDescriptor w.img 0) := by
    simp [openedEntry, htype, nameDescriptor]
  obtain ⟨hopen, h1, hout1⟩ := h.openFile hname hentry (by decide) (by decide) hfree
  obtain ⟨hd2, hd7, -⟩ := freeDescriptor_eq_some hfree
  obtain ⟨st', hloop, hout⟩ := lsLoop_lists hcount hmax hd2 hd7 buf h1 (Function.update_self ..)
    (by rw [Nat.sub_zero]; exact hentries)
  refine ⟨st', ?_, by rw [hout, hout1, Nat.sub_zero, List.range_eq_range']⟩
  have hopened : ¬ (w.openFile dotName st).2 = -1 := by omega
  show (if (w.openFile dotName st).2 = -1 then _
    else lsLoop w (w.openFile dotName st).2 entries buf (w.openFile dotName st).1) = _
  rw [if_neg hopened, hopen]
  exact hloop

end Ls

/-- The two names of the directory with "note". -/
theorem note_listed :
    ∃ st', ls (quietWorld noteImage) 4 (fun _ => 0) (letterRun 0) = some (st', 0) ∧
      st'.output = [printedName noteImage 0, printedName noteImage 1] := by
  have hname : readDentryByName (quietWorld noteImage).img dotName = some (noteImage.dentry 0) := by decide
  have hdir : freeDescriptor (shellPcb 1).pcbArr = some 2 := by decide
  exact ls_lists (letterRun_printing 0) hname (by decide) (by decide) (by decide) hdir (by decide)

end Ece391
