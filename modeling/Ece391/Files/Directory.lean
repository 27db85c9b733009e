/-
# Ece391.Files.Directory — what `directory_read` delivers, and what `ls` and `grep` see.

The loop of `directory_read` tests the entry of the byte BEFORE, so a read that starts inside the name
table and asks for more than is left of it goes one byte past the last name.  `slices_names_iff` gives
the exact condition.  A reader that asks for 32 bytes at a time never meets it: its position is a
multiple of 32 throughout (`listing_run`), a read ends with the name it started in, and the one after
the last name starts past the table and returns 0.
-/
import Ece391.Files.Stream

open Ece391.Lib

namespace Ece391

/-! ## The name table -/

/-- The number of entries; `dir_count` is a signed field. -/
def Image.entries (img : Image) : Nat := img.dirCount.toNat

/-- Byte `pos` of the name table. -/
def Image.nameAt (img : Image) (pos : Nat) : UInt8 :=
  img.nameByte (pos / filenameLen : Nat) (pos % filenameLen : Nat)

/-- **`nameTable img`** — the names of the entries, one after the other. -/
def Image.nameTable (img : Image) : List UInt8 :=
  (List.range img.entries).flatMap fun i => (img.dentry i).filename

/-- A name is 32 consecutive bytes of the table. -/
theorem Image.filename_eq (img : Image) (i : Nat) :
    (img.dentry i).filename =
      (List.range filenameLen).map fun j => img.nameAt (filenameLen * i + j) := by
  unfold Image.dentry
  apply List.map_congr_left
  intro j hj
  have hj := List.mem_range.mp hj
  unfold Image.nameAt
  rw [Nat.mul_add_div (by decide), Nat.div_eq_of_lt hj, Nat.mul_add_mod, Nat.mod_eq_of_lt hj,
    Nat.add_zero]

theorem Image.names_eq (img : Image) (n : Nat) :
    ((List.range n).flatMap fun i => (img.dentry i).filename) =
      (List.range (filenameLen * n)).map img.nameAt := by
  induction n with
  | zero => rfl
  | succ n ih =>
      rw [List.range_succ, List.flatMap_append, ih, List.flatMap_singleton, img.filename_eq,
        Nat.mul_succ, List.range_add, List.map_append, List.map_map]
      rfl

theorem Image.nameTable_slice (img : Image) (offset n : Nat)
    (h : offset + n ≤ filenameLen * img.entries) :
    (img.nameTable.drop offset).take n = (List.range n).map fun i => img.nameAt (offset + i) := by
  obtain ⟨m, hm⟩ := Nat.exists_eq_add_of_le h
  unfold Image.nameTable
  rw [img.names_eq, hm, Nat.add_assoc, List.range_add, List.map_append, List.drop_left' (by simp),
    List.range_add, List.map_append, List.map_append, List.take_left' (by simp), List.map_map]
  rfl

/-! ## The loop in closed form -/

/-- How many bytes a read of `length` bytes at `offset` delivers: none from the end of the table on,
and one more than the table has when the request crosses its end. -/
def Image.listedBytes (img : Image) (offset length : Nat) : Nat :=
  if offset < filenameLen * img.entries then min length (filenameLen * img.entries + 1 - offset) else 0

/-- The loop from position `p`, when `idx` is the entry of the byte before: it runs up to and
including position `32 * entries`. -/
theorem directoryLoop_eq (img : Image) (n i p : Nat) {idx : Int}
    (hidx : idx < img.dirCount ↔ p ≤ filenameLen * img.entries) :
    directoryLoop img n i idx p =
      { ret := (i + min n (filenameLen * img.entries + 1 - p) : Nat)
        stores := (List.range (min n (filenameLen * img.entries + 1 - p))).map
          fun j => (i + j, img.nameAt (p + j))
        loads := (List.range (min n (filenameLen * img.entries + 1 - p))).map
          fun j => .name ((p + j : Nat) : Int) } := by
  induction n generalizing i p idx with
  | zero => simp [directoryLoop]
  | succ n ih =>
      unfold directoryLoop
      by_cases hin : idx < img.dirCount
      · have hp := hidx.mp hin
        have hnext : ((p : Int).tdiv filenameLen < img.dirCount) ↔
            p + 1 ≤ filenameLen * img.entries := by
          rw [Int.tdiv_eq_ediv_of_nonneg (by omega)]
          unfold Image.entries filenameLen
          omega
        have hmin : min (n + 1) (filenameLen * img.entries + 1 - p) =
            min n (filenameLen * img.entries + 1 - (p + 1)) + 1 := by omega
        rw [if_pos hin, hmin, List.range_succ_eq_map]
        simp only [show (p : Int) + 1 = ((p + 1 : Nat) : Int) by omega, ih (i + 1) (p + 1) hnext]
        have hbyte : img.nameByte ((p : Int).tdiv filenameLen) ((p : Int).tmod filenameLen) =
            img.nameAt p := by
          rw [Int.tdiv_eq_ediv_of_nonneg (by omega), Int.tmod_eq_emod_of_nonneg (by omega)]
          rfl
        rw [hbyte]
        simp only [List.map_cons, List.map_map, Nat.add_zero, Copy.mk.injEq, List.cons.injEq, true_and]
        refine ⟨by omega, ?_, ?_⟩
        · apply List.map_congr_left
          intro j _
          simp only [Function.comp_apply, Nat.succ_eq_add_one, Nat.add_comm 1 j, Nat.add_assoc]
        · apply List.map_congr_left
          intro j _
          simp only [Function.comp_apply, Nat.succ_eq_add_one, Nat.add_comm 1 j, Nat.add_assoc]
      · have hp : min (n + 1) (filenameLen * img.entries + 1 - p) = 0 := by
          have := mt hidx.mpr hin
          omega
        rw [if_neg hin, hp]
        simp

/-- **`directoryRead` in closed form.** -/
theorem directoryRead_eq {img : Image} (hcount : 0 ≤ img.dirCount) {offset : Nat}
    (hoff : offset < 2 ^ 31) (length : Nat) :
    directoryRead img offset length =
      { ret := img.listedBytes offset length
        stores := (List.range (img.listedBytes offset length)).map
          fun i => (i, img.nameAt (offset + i))
        loads := (List.range (img.listedBytes offset length)).map
          fun i => .name ((offset + i : Nat) : Int) } := by
  have hfirst : ((offset : Int).tdiv filenameLen < img.dirCount) ↔
      offset < filenameLen * img.entries := by
    rw [Int.tdiv_eq_ediv_of_nonneg (by omega)]
    unfold Image.entries filenameLen
    omega
  unfold directoryRead Image.listedBytes
  rw [s32_of_lt hoff]
  by_cases hin : offset < filenameLen * img.entries
  · have hidx := iff_of_true (hfirst.mpr hin) (Nat.le_of_lt hin)
    simp only [directoryLoop_eq img length 0 offset hidx, if_pos hin, Nat.zero_add]
  · rw [if_neg hin]
    cases length with
    | zero => rfl
    | succ n =>
        rw [directoryLoop, if_neg (mt hfirst.mp hin)]
        rfl

/-! ## Slices of the name table -/

/-- The entry a load of the name table belongs to. -/
def Load.entry : Load → Int
  | .name pos => pos.tdiv filenameLen
  | _ => 0

/-- **`SlicesNames img offset length`** — the read is a slice of the name table: it returns as many
bytes as there are, stores them in their places, and looks at no entry behind the last. -/
structure SlicesNames (img : Image) (offset length : Nat) : Prop where
  ret : (directoryRead img offset length).ret =
    (min length (filenameLen * img.entries - offset) : Nat)
  places : (directoryRead img offset length).stores.map Prod.fst =
    List.range (min length (filenameLen * img.entries - offset))
  bytes : (directoryRead img offset length).stores.map Prod.snd =
    (img.nameTable.drop offset).take (min length (filenameLen * img.entries - offset))
  loads : ∀ l ∈ (directoryRead img offset length).loads, l.entry < img.dirCount

/-- **A slice of the name table**, exactly when the request starts behind the table or ends inside
it. -/
theorem slices_names_iff {img : Image} (hcount : 0 ≤ img.dirCount) {offset : Nat}
    (hoff : offset < 2 ^ 31) (length : Nat) :
    SlicesNames img offset length ↔
      filenameLen * img.entries ≤ offset ∨ offset + length ≤ filenameLen * img.entries := by
  have hclosed := directoryRead_eq hcount hoff length
  constructor
  · intro h
    have hret := h.ret
    rw [hclosed] at hret
    simp only [Image.listedBytes] at hret
    by_contra hcross
    rw [if_pos (by omega)] at hret
    omega
  · intro h
    have hn : img.listedBytes offset length = min length (filenameLen * img.entries - offset) := by
      unfold Image.listedBytes
      split
      · omega
      · omega
    rw [hn] at hclosed
    refine ⟨by rw [hclosed], ?_, ?_, ?_⟩
    · rw [hclosed, List.map_map]
      exact List.map_id _
    · rw [hclosed, List.map_map]
      rcases h with h | h
      · have hnone : min length (filenameLen * img.entries - offset) = 0 := by omega
        rw [hnone]
        rfl
      · rw [img.nameTable_slice _ _ (by omega)]
        rfl
    · rw [hclosed]
      intro l hl
      obtain ⟨i, hi, rfl⟩ := List.mem_map.mp hl
      have hi := List.mem_range.mp hi
      show ((offset + i : Nat) : Int).tdiv filenameLen < img.dirCount
      rw [Int.tdiv_eq_ediv_of_nonneg (by omega)]
      unfold Image.entries filenameLen at hi
      unfold filenameLen
      omega

/-- The last two bytes of the only name. -/
theorem shell_name_slice : SlicesNames shellImage 30 2 :=
  (slices_names_iff (by decide) (by decide) 2).mpr (Or.inr (by decide))

/-- A request for 33 bytes of a directory with one name: 33 come back, the last of them from the entry
behind it. -/
theorem shell_name_overrun : shellImage.dirCount = 1 ∧ (directoryRead shellImage 0 33).ret = 33 ∧
    ¬ SlicesNames shellImage 0 33 := by
  have h33 : (directoryRead shellImage 0 33).ret = 33 := by decide
  refine ⟨by decide, h33, fun h => ?_⟩
  have hret := h.ret
  rw [h33] at hret
  exact absurd hret (by decide)

/-! ## Reading name by name -/

/-- **`listed img i`** — the return value and the stores of the `i`-th 32-byte read: the name of entry
`i`, and nothing once the names are through. -/
def Image.listed (img : Image) (i : Nat) : Int × List (Nat × UInt8) :=
  if i < img.entries then (filenameLen, (List.range filenameLen).zip (img.dentry i).filename)
  else (0, [])

/-- The read at the position `i` such reads lead to. -/
theorem directoryRead_name {img : Image} (hcount : 0 ≤ img.dirCount) (hmax : img.dirCount ≤ 63)
    (i : Nat) :
    ((directoryRead img (filenameLen * min i img.entries) filenameLen).ret,
      (directoryRead img (filenameLen * min i img.entries) filenameLen).stores) = img.listed i := by
  have hoff : filenameLen * min i img.entries < 2 ^ 31 := by
    unfold filenameLen Image.entries
    omega
  rw [directoryRead_eq hcount hoff]
  unfold Image.listed
  by_cases hi : i < img.entries
  · have hn : img.listedBytes (filenameLen * min i img.entries) filenameLen = filenameLen := by
      unfold Image.listedBytes
      have hmul := Nat.mul_le_mul_left filenameLen (Nat.succ_le_of_lt hi)
      rw [Nat.mul_succ] at hmul
      rw [Nat.min_eq_left (Nat.le_of_lt hi), if_pos (by unfold filenameLen at *; omega)]
      omega
    rw [hn, if_pos hi, Nat.min_eq_left (Nat.le_of_lt hi), img.filename_eq, ← List.zip_map',
      List.map_id']
  · have hn : img.listedBytes (filenameLen * min i img.entries) filenameLen = 0 := by
      unfold Image.listedBytes
      rw [Nat.min_eq_right (by omega), if_neg (Nat.lt_irrefl _)]
    rw [hn, if_neg hi]
    rfl

/-- The position after the `i`-th read. -/
theorem Image.listed_position (img : Image) (hmax : img.dirCount ≤ 63) (i : Nat) :
    (((filenameLen * min i img.entries : Nat) + (img.listed i).1) % 2 ^ 32).toNat =
      filenameLen * min (i + 1) img.entries := by
  unfold Image.listed filenameLen
  unfold Image.entries
  split
  · dsimp only
    omega
  · dsimp only
    omega

/-- **`Listing img rs e`** — the reads `rs` on a directory, in terms of the names: the `i`-th of them
delivered entry `i` or, behind the last, nothing; the position is that of the next name. -/
structure Listing (img : Image) (rs : List (Int × Copy)) (e : FileDescriptor) : Prop where
  entry : e = ⟨.directory, 0, filenameLen * min rs.length img.entries, 1⟩
  requests : ∀ r ∈ rs, r.1 = filenameLen
  outcomes : (rs.map fun r => (r.2.ret, r.2.stores)) = (List.range rs.length).map img.listed

section Listing

variable {img : Image} {d : Nat}

/-- The next 32-byte read returns, whatever its buffer, and continues the listing. -/
theorem Listing.next (hcount : 0 ≤ img.dirCount) (hmax : img.dirCount ≤ 63) (h2 : 2 ≤ d)
    (h7 : d ≤ 7) {rs : List (Int × Copy)} {k : Kernel} (h : Listing img rs (k.proc.table d))
    {buf : Nat} (hbuf : buf ≠ 0) :
    ∃ k' copy, readHandler img d buf filenameLen k = some (k', copy) ∧
      (copy.ret, copy.stores) = img.listed rs.length ∧
      Listing img (rs ++ [((filenameLen : Int), copy)]) (k'.proc.table d) := by
  obtain ⟨hentry, hrequests, houtcomes⟩ := h
  obtain ⟨k', hread, htable⟩ := readHandler_copy img filenameLen h2 h7 hbuf hentry rfl
  have hlen : ((filenameLen : Int) % 2 ^ 32).toNat = filenameLen := by decide
  rw [hlen] at hread htable
  have hlisted := directoryRead_name hcount hmax rs.length
  have hret : (directoryRead img (filenameLen * min rs.length img.entries) filenameLen).ret =
      (img.listed rs.length).1 := congrArg Prod.fst hlisted
  refine ⟨k', _, hread, hlisted, ?_, ?_, ?_⟩
  · rw [htable, hret, img.listed_position hmax, List.length_append]
    rfl
  · intro r hr
    rcases List.mem_append.mp hr with hr | hr
    · exact hrequests r hr
    · rw [List.mem_singleton.mp hr]
  · rw [List.map_append, houtcomes, List.length_append, List.range_add, List.map_append]
    simpa using hlisted

/-- Calls between two reads of the listing, and reads of 32 bytes, continue it. -/
theorem Listing.run (hcount : 0 ≤ img.dirCount) (hmax : img.dirCount ≤ 63) (h2 : 2 ≤ d)
    (h7 : d ≤ 7) {cs : List Call} {rs : List (Int × Copy)} {k k' : Kernel}
    (h : Listing img rs (k.proc.table d)) (hrun : Run (CallStep img) k cs k')
    (hclose : ∀ ret, .closeFile d ret ∉ cs) (hsize : ∀ r ∈ readsOn d cs, r.1 = filenameLen) :
    Listing img (rs ++ readsOn d cs) (k'.proc.table d) := by
  have hall : ∀ r ∈ rs ++ readsOn d cs, r.1 = filenameLen := by
    intro r hr
    rcases List.mem_append.mp hr with hr | hr
    · exact h.requests r hr
    · exact hsize r hr
  refine reads_invariant (Q := fun rs => ∀ r ∈ rs, r.1 = filenameLen) h2 ?_ ?_ ?_ hrun hclose hall h
  · intro rs rs' hall r hr
    exact hall r (List.mem_append_left _ hr)
  · intro rs e hlisting
    rw [hlisting.entry]
    exact Nat.one_ne_zero
  · intro rs buf n copy k k' hlisting hall hbuf hread
    obtain rfl : n = filenameLen := hall (n, copy) (by simp)
    obtain ⟨k₁, copy₁, hread₁, -, hnext⟩ := hlisting.next hcount hmax h2 h7 hbuf
    obtain ⟨rfl, rfl⟩ := Prod.mk.inj (Option.some.inj (hread₁.symm.trans hread))
    exact hnext

end Listing

/-- **`ListLoop img d k names k'`** — the loop of `ls` and `grep` from `k` on, up to a point where it is
about to read: `names` are the bytes its iterations have stored.  The body of an iteration makes any
calls that leave `d` alone. -/
inductive ListLoop (img : Image) (d : Int) (k : Kernel) : List (List UInt8) → Kernel → Prop
  | start : ListLoop img d k [] k
  | iterate {names : List (List UInt8)} {k1 k2 k3 : Kernel} {buf : Nat} {cnt : Copy}
      {body : List Call} (before : ListLoop img d k names k1) (hbuf : buf ≠ 0)
      (hread : readHandler img d buf filenameLen k1 = some (k2, cnt)) (hmore : cnt.ret ≠ 0)
      (hbody : Run (CallStep img) k2 body k3) (hclose : ∀ ret, .closeFile d ret ∉ body)
      (hreads : readsOn d body = []) :
      ListLoop img d k (names ++ [cnt.stores.map Prod.snd]) k3

/-- At the head of the loop the descriptor is at the name after the last one seen. -/
theorem ListLoop.listing {img : Image} {d : Nat} (hcount : 0 ≤ img.dirCount)
    (hmax : img.dirCount ≤ 63) (h2 : 2 ≤ d) (h7 : d ≤ 7) {k k' : Kernel} {names : List (List UInt8)}
    (hloop : ListLoop img d k names k') (hstart : Listing img [] (k.proc.table d)) :
    names.length ≤ img.entries ∧
    names = (List.range names.length).map (fun i => (img.dentry i).filename) ∧
    ∃ rs : List (Int × Copy), rs.length = names.length ∧ Listing img rs (k'.proc.table d) := by
  induction hloop with
  | start => exact ⟨Nat.zero_le _, rfl, [], rfl, hstart⟩
  | @iterate names k1 k2 k3 buf cnt body before hbuf hread hmore hbody hclose hreads ih =>
      obtain ⟨hle, hnames, rs, hlen, hlisting⟩ := ih
      obtain ⟨k₂, cnt₂, hread₂, hlisted, hnext⟩ := hlisting.next hcount hmax h2 h7 hbuf
      obtain ⟨rfl, rfl⟩ := Prod.mk.inj (Option.some.inj (hread₂.symm.trans hread))
      -- the read was not the one behind the last name
      have hlt : names.length < img.entries := by
        by_contra hge
        rw [hlen, Image.listed, if_neg hge] at hlisted
        exact hmore (congrArg Prod.fst hlisted)
      rw [hlen, Image.listed, if_pos hlt] at hlisted
      have hname : cnt₂.stores.map Prod.snd = (img.dentry names.length).filename := by
        rw [(Prod.mk.inj hlisted).2]
        apply List.map_snd_zip
        simp [Image.dentry]
      have hbodyListing := hnext.run hcount hmax h2 h7 hbody hclose (by simp [hreads])
      rw [hreads, List.append_nil] at hbodyListing
      refine ⟨?_, ?_, _, ?_, hbodyListing⟩
      · rw [List.length_append]
        exact hlt
      · rw [List.length_append, List.length_singleton, List.range_succ, List.map_append, ← hnames,
          hname]
        rfl
      · rw [List.length_append, List.length_append, hlen]
        rfl

/-- **Listing a directory yields every name once.** After `open` has returned `d` for a directory, any
calls that do not close `d` may follow.  If the reads on `d` ask for 32 bytes each, the `i`-th of them
returns 32 with the name of entry `i`, every later one returns 0 and stores nothing, and a next one
always returns.  So the loop of `ls` and `grep` goes on until it has seen each name once, in order, and
ends there. -/
theorem directory_listing {img : Image} (hcount : 0 ≤ img.dirCount) (hmax : img.dirCount ≤ 63)
    {filename : List UInt8} {dentry : Dentry} {d : Nat} {k k1 : Kernel}
    (hname : readDentryByName img filename = some dentry) (htype : dentry.filetype = 1) (hd : 2 ≤ d)
    (hopen : CallStep img k (.openFile filename d) k1) :
    (∀ cs k2, Run (CallStep img) k1 cs k2 → (∀ ret, .closeFile d ret ∉ cs) →
      (∀ r ∈ readsOn d cs, r.1 = filenameLen) →
      ((readsOn d cs).map fun r => (r.2.ret, r.2.stores)) =
        (List.range (readsOn d cs).length).map img.listed ∧
      ∀ buf ≠ 0, ∃ k3 copy, CallStep img k2 (.read d buf filenameLen copy) k3 ∧
        (copy.ret, copy.stores) = img.listed (readsOn d cs).length) ∧
    (∀ names k2, ListLoop img d k1 names k2 →
      names.length ≤ img.entries ∧
      names = (List.range names.length).map (fun i => (img.dentry i).filename) ∧
      ∀ buf ≠ 0, ∃ k3 cnt, readHandler img d buf filenameLen k2 = some (k3, cnt) ∧
        (names.length < img.entries → cnt.ret = filenameLen) ∧
        (names.length = img.entries → cnt.ret = 0)) := by
  obtain ⟨htable, hret⟩ := hopen.openFile
  have hentry : openedEntry dentry = some ⟨.directory, 0, 0, 1⟩ := by simp [openedEntry, htype]
  obtain ⟨h7, hdesc⟩ := openTable_entry hname hentry hret.symm hd
  have hstart : Listing img [] (k1.proc.table d) := by
    rw [htable.table, hdesc]
    exact ⟨by simp, by simp, rfl⟩
  refine ⟨?_, ?_⟩
  · intro cs k2 hrun hclose hsize
    have hlisting := hstart.run hcount hmax hd h7 hrun hclose hsize
    refine ⟨hlisting.outcomes, fun buf hbuf => ?_⟩
    obtain ⟨k3, copy, hread, hlisted, -⟩ := hlisting.next hcount hmax hd h7 hbuf
    exact ⟨k3, copy, hread, hlisted⟩
  · intro names k2 hloop
    obtain ⟨hle, hnames, rs, hlen, hlisting⟩ := hloop.listing hcount hmax hd h7 hstart
    refine ⟨hle, hnames, fun buf hbuf => ?_⟩
    obtain ⟨k3, cnt, hread, hlisted, -⟩ := hlisting.next hcount hmax hd h7 hbuf
    rw [hlen, Image.listed] at hlisted
    refine ⟨k3, cnt, hread, fun hlt => ?_, fun heq => ?_⟩
    · rw [if_pos hlt] at hlisted
      exact congrArg Prod.fst hlisted
    · rw [if_neg (by omega)] at hlisted
      exact congrArg Prod.fst hlisted

/-- A directory "." and the file "shell". -/
def dotImage : Image := fun n =>
  ([(0, 2), (4, 1), (8, 1), (64, 46), (96, 1), (128, 115), (129, 104), (130, 101), (131, 108),
    (132, 108), (160, 2), (4096, 4)].lookup n).getD 0

/-- The name ".". -/
def dotName : List UInt8 := [46]

/-- Opened in the booted kernel it is descriptor 2, and the loop sees both names. -/
theorem dot_listing :
    ∃ k1, CallStep dotImage bootedKernel (.openFile dotName 2) k1 ∧
      (∀ names k2, ListLoop dotImage 2 k1 names k2 → names.length = 2 →
        names = [(dotImage.dentry 0).filename, (dotImage.dentry 1).filename]) ∧
      ∃ k2 copy, CallStep dotImage k1 (.read 2 1 filenameLen copy) k2 ∧ copy.ret = 32 := by
  have hopen : CallStep dotImage bootedKernel (.openFile dotName 2)
      (openHandler dotImage dotName bootedKernel).1 := Prod.ext rfl (by decide)
  have hname : readDentryByName dotImage dotName = some (dotImage.dentry 0) := by decide
  obtain ⟨hreads, hloop⟩ := directory_listing (by decide) (by decide) hname (by decide) (d := 2)
    (by decide) hopen
  refine ⟨_, hopen, fun names k2 hl htwo => ?_, ?_⟩
  · have hnames := (hloop names k2 hl).2.1
    rw [htwo] at hnames
    exact hnames
  · obtain ⟨k2, copy, hread, hlisted⟩ := (hreads [] _ rfl (by simp) (by simp [readsOn])).2 1
      Nat.one_ne_zero
    exact ⟨k2, copy, hread, congrArg Prod.fst hlisted⟩

end Ece391
