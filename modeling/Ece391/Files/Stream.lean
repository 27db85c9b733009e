/-
# Ece391.Files.Stream — a descriptor of a regular file is a stream.

A descriptor on a regular file delivers the bytes of the file in order, however the reads are cut and
whatever happens on the other descriptors in between.  The invariant is the position: after reads that
asked for `m` bytes in all it is `available inode 0 m`, the number of bytes one read of `m` bytes from
the start would have delivered.  Since `read_data` tests `>=`, a file of length `L` has `L + 1` bytes
here; chunked and single reads agree on that.
-/
import Ece391.Process.Calls

open Ece391.Lib

namespace Ece391

/-! ## The reads of a descriptor -/

/-- The request and the outcome of a read on descriptor `d` with a buffer.  A read into NULL is
refused and asks for nothing. -/
def Call.readOn (d : Int) : Call → Option (Int × Copy)
  | .read fd buf nbytes copy => if fd = d ∧ buf ≠ 0 then some (nbytes, copy) else none
  | _ => none

/-- The reads on `d` in a sequence of calls. -/
def readsOn (d : Int) (cs : List Call) : List (Int × Copy) := cs.filterMap (Call.readOn d)

/-- The number of bytes they asked for, -/
def asked (d : Int) (cs : List Call) : Int := ((readsOn d cs).map Prod.fst).sum

/-- the sum of their return values, -/
def returned (d : Int) (cs : List Call) : Int := ((readsOn d cs).map fun r => r.2.ret).sum

/-- and the bytes they stored, in order. -/
def delivered (d : Int) (cs : List Call) : List UInt8 :=
  (readsOn d cs).flatMap fun r => r.2.stores.map Prod.snd

theorem readOn_eq_some {d : Int} {c : Call} {n : Int} {copy : Copy}
    (h : c.readOn d = some (n, copy)) : ∃ buf, c = .read d buf n copy ∧ buf ≠ 0 := by
  unfold Call.readOn at h
  split at h
  next fd buf nbytes copy' =>
    split at h
    next hd =>
      cases h
      exact ⟨buf, by rw [hd.1], hd.2⟩
    next => cases h
  next => cases h

/-! ## What a call does to one descriptor -/

/-- `open` changes no descriptor in 2..7 that is in use. -/
theorem openTable_of_open (img : Image) (filename : List UInt8) {arr : Nat → FileDescriptor}
    {d : Nat} (hd : 2 ≤ d) (hflag : (arr d).flags ≠ 0) :
    (openTable img filename arr).1 d = arr d := by
  unfold openTable
  split
  · rfl
  split
  · simp [show d ≠ 0 by omega]
  split
  · simp [show d ≠ 1 by omega]
  split
  next dentry fd _ hfree =>
    have hne : d ≠ fd := by
      rintro rfl
      exact hflag (freeDescriptor_eq_some hfree).2.2.1
    split
    · simp [hne]
    · simp [hne]
  · rfl

/-- `close` changes no other descriptor. -/
theorem closeTable_of_ne {fd : Int} {arr : Nat → FileDescriptor} {d : Nat} (hne : fd ≠ d) :
    (closeTable fd arr).1 d = arr d := by
  unfold closeTable
  split
  · rfl
  next h =>
    have hd : d ≠ fd.toNat := by omega
    simp [clearFlag, hd]

/-- What the read handler does on a descriptor whose device only copies: the read returns, and the
position moves on by what it returned. -/
theorem readHandler_copy (img : Image) {d : Nat} {ops : FileOps} {buf inode pos : Nat} (nbytes : Int)
    {k : Kernel} {copy : Copy} (h2 : 2 ≤ d) (h7 : d ≤ 7) (hbuf : buf ≠ 0)
    (hdesc : k.proc.table d = ⟨ops, inode, pos, 1⟩)
    (hptr : readPtr img ops inode pos buf (nbytes % 2 ^ 32).toNat k = some (k, copy)) :
    ∃ k', readHandler img d buf nbytes k = some (k', copy) ∧
      k'.proc.table d = ⟨ops, inode, ((pos + copy.ret) % 2 ^ 32).toNat, 1⟩ := by
  have hrange : ¬ (buf = 0 ∨ (d : Int) < fdMin ∨ (d : Int) > fdMax) := by
    unfold fdMin fdMax
    omega
  have hout : ¬ (d : Int) = fdMin + 1 := by
    unfold fdMin
    omega
  have hin : ¬ (d : Int) = 0 := by omega
  have hdesc' : k.proc.current.pcbArr (d : Int).toNat = ⟨ops, inode, pos, 1⟩ := hdesc
  refine ⟨{ k with proc := k.proc.advance d copy.ret }, ?_, ?_⟩
  · simp only [readHandler, if_neg hrange, if_neg hout, hdesc', if_true, if_neg hin, hptr,
      Option.map_some]
    rfl
  · have htab : (k.proc.advance d copy.ret).table = advanceTable d copy.ret k.proc.table :=
      (Proc.Retabled.set k.proc (advanceTable d copy.ret)).table
    rw [htab, advanceTable, Function.update_self, hdesc]

/-- A read on a descriptor of a regular file. -/
theorem readHandler_file {img : Image} {d : Nat} {buf inode pos : Nat} {nbytes : Int}
    {k k' : Kernel} {copy : Copy} (h2 : 2 ≤ d) (h7 : d ≤ 7) (hbuf : buf ≠ 0)
    (hdesc : k.proc.table d = ⟨.filesystem, inode, pos, 1⟩)
    (h : readHandler img d buf nbytes k = some (k', copy)) :
    copy = readData img inode pos buf (nbytes % 2 ^ 32).toNat ∧
    k'.proc.table d = ⟨.filesystem, inode, ((pos + copy.ret) % 2 ^ 32).toNat, 1⟩ := by
  obtain ⟨k₁, hread, htable⟩ := readHandler_copy img nbytes h2 h7 hbuf hdesc rfl
  obtain ⟨rfl, rfl⟩ := Prod.mk.inj (Option.some.inj (hread.symm.trans h))
  exact ⟨rfl, htable⟩

/-- **The frame of a call**: one that neither closes `d` nor reads from it leaves the entry of `d`
alone. -/
theorem CallStep.keeps {img : Image} {k k' : Kernel} {c : Call} {d : Nat} (h : CallStep img k c k')
    (h2 : 2 ≤ d) (hflag : (k.proc.table d).flags ≠ 0) (hclose : ∀ ret, c ≠ .closeFile d ret)
    (hread : c.readOn d = none) : k'.proc.table d = k.proc.table d := by
  cases c with
  | openFile filename ret =>
      rw [h.openFile.1.table, openTable_of_open img filename h2 hflag]
  | closeFile fd ret =>
      obtain ⟨rfl, -⟩ := h
      by_cases hcur : k.proc.pcbCurrent = 0
      · rw [closeHandler_null fd hcur]
        rfl
      · have hne : fd ≠ d := fun heq => hclose ret (by rw [heq])
        rw [(closeHandler_retabled fd hcur).1.table, closeTable_of_ne hne]
  | read fd buf nbytes copy =>
      by_cases hfd : fd = d
      · -- a read into NULL is refused at once
        have hbuf : buf = 0 := by
          by_contra hne
          simp [Call.readOn, hfd, hne] at hread
        have hnull : buf = 0 ∨ fd < fdMin ∨ fd > fdMax := Or.inl hbuf
        simp only [CallStep, readHandler, if_pos hnull, Option.some.injEq, Prod.mk.injEq] at h
        rw [h.1]
      · have hne : d ≠ fd.toNat := by omega
        rcases readHandler_retabled h with hread | hread
        · rw [hread.table]
        · rw [hread.table, advanceTable, Function.update_of_ne hne]
  | write fd buf data nbytes ret => rw [(writeHandler_retabled h).table]
  | getargs buf nbytes copy => rw [h.getargs.table]
  | device con rtc =>
      obtain rfl := h
      rfl

/-! ## Reads that continue one another -/

/-- Reading on after `m` bytes: the counts add up. -/
theorem Image.available_add (img : Image) (inode m n : Nat) :
    img.available inode 0 m + img.available inode (img.available inode 0 m) n =
      img.available inode 0 (m + n) := by
  unfold Image.available
  omega

theorem Image.available_le (img : Image) (inode offset n : Nat) :
    img.available inode offset n ≤ n := Nat.min_le_left _ _

/-- **The run rule of one descriptor.** `P` relates the reads on `d` so far to the entry of `d`.  If
every read on `d` keeps it, as long as the reads meet `Q`, then so does any run that does not close
`d`: the other calls leave the entry alone. -/
theorem reads_invariant {img : Image} {d : Nat} (h2 : 2 ≤ d)
    {P : List (Int × Copy) → FileDescriptor → Prop} {Q : List (Int × Copy) → Prop}
    (hpre : ∀ rs rs', Q (rs ++ rs') → Q rs) (hopen : ∀ rs e, P rs e → e.flags ≠ 0)
    (hread : ∀ rs buf n copy k k', P rs (k.proc.table d) → Q (rs ++ [(n, copy)]) → buf ≠ 0 →
      readHandler img d buf n k = some (k', copy) → P (rs ++ [(n, copy)]) (k'.proc.table d))
    {cs : List Call} {rs : List (Int × Copy)} {k k' : Kernel} (hrun : Run (CallStep img) k cs k')
    (hclose : ∀ ret, .closeFile d ret ∉ cs) (hok : Q (rs ++ readsOn d cs))
    (h : P rs (k.proc.table d)) : P (rs ++ readsOn d cs) (k'.proc.table d) := by
  induction cs generalizing k rs with
  | nil =>
      obtain rfl := hrun
      simpa [readsOn] using h
  | cons c cs ih =>
      obtain ⟨k1, hs, hrest⟩ := hrun
      have hcloseHead : ∀ ret, c ≠ .closeFile d ret := fun ret heq =>
        hclose ret (by simp [heq])
      have hcloseRest : ∀ ret, .closeFile d ret ∉ cs := fun ret hmem =>
        hclose ret (List.mem_cons_of_mem _ hmem)
      cases hc : c.readOn d with
      | none =>
          have hreads : readsOn d (c :: cs) = readsOn d cs := by simp [readsOn, hc]
          have hkeep := hs.keeps h2 (hopen _ _ h) hcloseHead hc
          rw [hreads] at hok ⊢
          exact ih hrest hcloseRest hok (hkeep ▸ h)
      | some r =>
          obtain ⟨n, copy⟩ := r
          have hreads : rs ++ readsOn d (c :: cs) = rs ++ [(n, copy)] ++ readsOn d cs := by
            simp [readsOn, hc]
          obtain ⟨buf, rfl, hbuf⟩ := readOn_eq_some hc
          rw [hreads] at hok ⊢
          exact ih hrest hcloseRest hok (hread rs buf n copy k k1 h (hpre _ _ hok) hbuf hs)

/-- Requests that are not negative and stay below 2³¹ bytes in all. -/
def BoundedRequests (rs : List (Int × Copy)) : Prop :=
  (∀ r ∈ rs, 0 ≤ r.1) ∧ (rs.map Prod.fst).sum < 2 ^ 31

theorem requested_nonneg {rs : List (Int × Copy)} (hpos : ∀ r ∈ rs, 0 ≤ r.1) :
    0 ≤ (rs.map Prod.fst).sum := by
  induction rs with
  | nil => simp
  | cons r rs ih =>
      have hr := hpos r (by simp)
      have hrs := ih fun r hr => hpos r (by simp [hr])
      rw [List.map_cons, List.sum_cons]
      omega

theorem BoundedRequests.of_append {rs rs' : List (Int × Copy)} (h : BoundedRequests (rs ++ rs')) :
    BoundedRequests rs := by
  obtain ⟨hpos, hsum⟩ := h
  refine ⟨fun r hr => hpos r (List.mem_append_left _ hr), ?_⟩
  have hrest := requested_nonneg fun r hr => hpos r (List.mem_append_right rs hr)
  rw [List.map_append, List.sum_append] at hsum
  omega

/-- **`Streamed img inode rs e`** — after the reads `rs`, which asked for `m` bytes, the position is the
one a single read of `m` bytes leads to, and what came back so far is what that read delivers. -/
structure Streamed (img : Image) (inode : Nat) (rs : List (Int × Copy)) (e : FileDescriptor) :
    Prop where
  entry : e = ⟨.filesystem, inode, img.available inode 0 (rs.map Prod.fst).sum.toNat, 1⟩
  returned : (rs.map fun r => r.2.ret).sum = img.available inode 0 (rs.map Prod.fst).sum.toNat
  delivered : (rs.flatMap fun r => r.2.stores.map Prod.snd) =
    img.slice inode 0 (img.available inode 0 (rs.map Prod.fst).sum.toNat)

theorem Streamed.start (img : Image) (inode : Nat) :
    Streamed img inode [] ⟨.filesystem, inode, 0, 1⟩ := by
  have hnone : img.available inode 0 (([] : List (Int × Copy)).map Prod.fst).sum.toNat = 0 := by
    simp [Image.available]
  refine ⟨by rw [hnone], by rw [hnone]; rfl, ?_⟩
  rw [hnone]
  rfl

/-- One more read on the descriptor. -/
theorem Streamed.read {img : Image} {inode d : Nat} (h2 : 2 ≤ d) (h7 : d ≤ 7)
    (hinode : inode ≤ img.inodeCount) {rs : List (Int × Copy)} {buf : Nat} {n : Int} {copy : Copy}
    {k k' : Kernel} (h : Streamed img inode rs (k.proc.table d))
    (hok : BoundedRequests (rs ++ [(n, copy)])) (hbuf : buf ≠ 0)
    (hread : readHandler img d buf n k = some (k', copy)) :
    Streamed img inode (rs ++ [(n, copy)]) (k'.proc.table d) := by
  obtain ⟨hentry, hreturned, hdelivered⟩ := h
  have hn : 0 ≤ n := hok.1 (n, copy) (by simp)
  have hbefore := requested_nonneg hok.of_append.1
  have hsum : ((rs ++ [(n, copy)]).map Prod.fst).sum = (rs.map Prod.fst).sum + n := by simp
  have htotal := hok.2
  rw [hsum] at htotal
  obtain ⟨m, hm⟩ := Int.eq_ofNat_of_zero_le hbefore
  rw [hm] at htotal
  simp only [hm, Int.toNat_natCast] at hentry hreturned hdelivered
  have hmn : ((rs ++ [(n, copy)]).map Prod.fst).sum.toNat = m + n.toNat := by
    rw [hsum, hm]
    omega
  -- the read itself, at the position of the invariant
  obtain ⟨hcopy, hdesc⟩ := readHandler_file h2 h7 hbuf hentry hread
  have hle := img.available_le inode 0 m
  have hlen : (n % 2 ^ 32).toNat = n.toNat := by omega
  rw [hlen] at hcopy
  obtain ⟨hret, hbytes⟩ := readData_eq img inode (img.available inode 0 m) buf n.toNat hinode hbuf
    (by omega)
  rw [← hcopy] at hret hbytes
  have hadd := img.available_add inode m n.toNat
  have hle' := img.available_le inode 0 (m + n.toNat)
  constructor
  · have hnext : (((img.available inode 0 m : Nat) + copy.ret) % 2 ^ 32).toNat =
        img.available inode 0 (m + n.toNat) := by
      rw [hret]
      omega
    rw [hdesc, hnext, hmn]
  · rw [List.map_append, List.sum_append, hreturned, hmn]
    simp only [List.map_cons, List.map_nil, List.sum_singleton, hret]
    omega
  · rw [List.flatMap_append, hdelivered, List.flatMap_singleton, hbytes, hmn, ← hadd,
      Image.slice_add, Nat.zero_add]

/-! ## The stream of an opened file -/

/-- **A descriptor in 2..7 that `open` returned**: it was free before, and it now holds the entry made
from the dentry of the name. -/
theorem openTable_fresh {img : Image} {filename : List UInt8} {arr : Nat → FileDescriptor} {d : Nat}
    (hret : (openTable img filename arr).2 = d) (hd : 2 ≤ d) :
    d ≤ 7 ∧ (arr d).flags = 0 ∧ ∃ dentry, readDentryByName img filename = some dentry ∧
      openedEntry dentry = some ((openTable img filename arr).1 d) := by
  unfold openTable at hret ⊢
  split at hret
  · dsimp only at hret
    omega
  split at hret
  · dsimp only at hret
    omega
  split at hret
  · dsimp only at hret
    omega
  next hfirst hin hout =>
    rw [if_neg hfirst, if_neg hin, if_neg hout]
    split at hret
    next dentry fd hname hfree =>
      split at hret
      next entry hentry =>
        obtain rfl : fd = d := by
          dsimp only at hret
          omega
        obtain ⟨-, h7, hflag, -⟩ := freeDescriptor_eq_some hfree
        exact ⟨h7, hflag, dentry, hname, by simp [hentry]⟩
      next =>
        dsimp only at hret
        omega
    next =>
      dsimp only at hret
      omega

/-- The entry itself, when the dentry is known. -/
theorem openTable_entry {img : Image} {filename : List UInt8} {arr : Nat → FileDescriptor}
    {dentry : Dentry} {desc : FileDescriptor} {d : Nat}
    (hname : readDentryByName img filename = some dentry) (hentry : openedEntry dentry = some desc)
    (hret : (openTable img filename arr).2 = d) (hd : 2 ≤ d) :
    d ≤ 7 ∧ (openTable img filename arr).1 d = desc := by
  obtain ⟨h7, -, dentry', hname', hentry'⟩ := openTable_fresh hret hd
  obtain rfl : dentry = dentry' := Option.some.inj (hname.symm.trans hname')
  exact ⟨h7, Option.some.inj (hentry'.symm.trans hentry)⟩

/-- **Descriptor streams do not depend on chunking or interleaving.** After `open` has returned `d`
for a regular file, any calls that do not close `d` may follow, on any descriptors; what the reads on
`d` returned in all, and the bytes they stored, are those of a single `read_data` from the start of the
file for all the bytes they asked for. -/
theorem descriptor_stream (img : Image) {filename : List UInt8} {dentry : Dentry} {d : Int}
    {cs : List Call} {k k1 k2 : Kernel} {buf : Nat}
    (hname : readDentryByName img filename = some dentry) (htype : dentry.filetype = 2)
    (hinode : dentry.inodeNum < img.inodeCount) (hd : 2 ≤ d)
    (hopen : CallStep img k (.openFile filename d) k1) (hrun : Run (CallStep img) k1 cs k2)
    (hclose : ∀ ret, .closeFile d ret ∉ cs) (hpos : ∀ r ∈ readsOn d cs, 0 ≤ r.1)
    (htotal : asked d cs < 2 ^ 31) (hbuf : buf ≠ 0) :
    returned d cs = (readData img dentry.inodeNum 0 buf (asked d cs).toNat).ret ∧
    delivered d cs =
      (readData img dentry.inodeNum 0 buf (asked d cs).toNat).stores.map Prod.snd := by
  obtain ⟨htable, hret⟩ := hopen.openFile
  have hentry : openedEntry dentry = some ⟨.filesystem, dentry.inodeNum, 0, 1⟩ := by
    simp [openedEntry, htype]
  obtain ⟨d, rfl⟩ : ∃ n : Nat, d = n := ⟨d.toNat, by omega⟩
  obtain ⟨h7, hdesc⟩ := openTable_entry hname hentry hret.symm (by omega)
  have hstart : Streamed img dentry.inodeNum [] (k1.proc.table d) := by
    rw [htable.table, hdesc]
    exact Streamed.start img dentry.inodeNum
  have hbounded : BoundedRequests ([] ++ readsOn d cs) := ⟨hpos, htotal⟩
  obtain ⟨-, hreturned, hdelivered⟩ := reads_invariant (by omega)
    (fun rs rs' => BoundedRequests.of_append) (fun rs e h => by rw [h.entry]; exact Nat.one_ne_zero)
    (fun rs buf n copy k k' h hok hbuf hread => h.read (by omega) h7 (by omega) hok hbuf hread)
    hrun hclose hbounded hstart
  have hnonneg : 0 ≤ asked d cs := requested_nonneg hpos
  obtain ⟨hone, hbytes⟩ := readData_eq img dentry.inodeNum 0 buf (asked d cs).toNat (by omega) hbuf
    (by omega)
  rw [hone, hbytes]
  exact ⟨hreturned, hdelivered⟩

/-- The four-byte file "shell", read with requests for 2 and 9 bytes and an open in between: five
bytes come back, the last one from beyond the end of the file. -/
theorem shell_stream :
    ∃ k1 k2 c1 r c2, CallStep shellImage bootedKernel (.openFile shellName 2) k1 ∧
      Run (CallStep shellImage) k1 [.read 2 1 2 c1, .openFile shellName r, .read 2 1 9 c2] k2 ∧
      returned 2 [.read 2 1 2 c1, .openFile shellName r, .read 2 1 9 c2] = 5 ∧
      delivered 2 [.read 2 1 2 c1, .openFile shellName r, .read 2 1 9 c2] =
        [0x7F, 0x45, 0x4C, 0x46, 0] := by
  have hopen : CallStep shellImage bootedKernel (.openFile shellName 2)
      (openHandler shellImage shellName bootedKernel).1 := Prod.ext rfl (by decide)
  generalize hk1 : (openHandler shellImage shellName bootedKernel).1 = k1 at hopen
  have hdesc : k1.proc.table 2 = ⟨.filesystem, 0, 0, 1⟩ := by
    rw [← hk1]
    decide
  obtain ⟨k2, hread1, hdesc2⟩ := readHandler_copy shellImage 2 (d := 2) (by decide) (by decide)
    Nat.one_ne_zero hdesc rfl
  obtain ⟨c1, hc1⟩ : ∃ c1, c1 = readData shellImage 0 0 1 ((2 : Int) % 2 ^ 32).toNat := ⟨_, rfl⟩
  rw [← hc1] at hread1 hdesc2
  replace hread1 : CallStep shellImage k1 (.read 2 1 2 c1) k2 := hread1
  have hopen2 : CallStep shellImage k2 (.openFile shellName (openHandler shellImage shellName k2).2)
      (openHandler shellImage shellName k2).1 := rfl
  have hdesc3 := hopen2.keeps (d := 2) (by decide) (by simp [hdesc2]) (by simp) rfl
  obtain ⟨k4, c2, hread2⟩ : ∃ k4 c2, CallStep shellImage
      (openHandler shellImage shellName k2).1 (.read 2 1 9 c2) k4 := by
    obtain ⟨k4, hread2, -⟩ := readHandler_copy shellImage 9 (by decide) (by decide)
      Nat.one_ne_zero (hdesc3.trans hdesc2) rfl
    exact ⟨k4, _, hread2⟩
  have hrun : Run (CallStep shellImage) k1 [.read 2 1 2 c1,
      .openFile shellName (openHandler shellImage shellName k2).2, .read 2 1 9 c2] k4 :=
    ⟨k2, hread1, _, hopen2, k4, hread2, rfl⟩
  refine ⟨k1, k4, c1, _, c2, hopen, hrun, ?_⟩
  have hname : readDentryByName shellImage shellName = some (shellImage.dentry 0) := by decide
  have hreads : readsOn 2 [.read 2 1 2 c1,
      .openFile shellName (openHandler shellImage shellName k2).2, .read 2 1 9 c2] =
      [(2, c1), (9, c2)] := rfl
  have hasked : asked 2 [.read 2 1 2 c1,
      .openFile shellName (openHandler shellImage shellName k2).2, .read 2 1 9 c2] = 11 := rfl
  have hstream := descriptor_stream shellImage hname (by decide) (by decide) (by decide) hopen hrun
    (by simp) (by simp [hreads]) (by rw [hasked]; decide) Nat.one_ne_zero
  rw [hasked] at hstream
  rw [hstream.1, hstream.2]
  decide

end Ece391
