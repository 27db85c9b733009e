/-
# Ece391.Process.Loader — the copy loop of `execute_handler`.

The loop asks `read_data` for what is left of `pageSize` bytes and goes on until nothing comes back.  `Loads`
is that loop without a bound on its turns: a derivation is a run that ends.  It ends for every file, since a
read behind the end of the file returns 0.

What is left of the user page is less than the loop takes it to be: the program starts in the middle of the
page, and `read_data` returns one byte more than the file has.  `loader_stays_inside_iff` gives the length
from which on the loop leaves the page.
-/
import Ece391.Files.FileData
import Ece391.Process.Admission

namespace Ece391

/-- **`Loads img inode count stores`** — the copy loop, `count` bytes done, comes to an end and stores
these bytes. -/
inductive Loads (img : Image) (inode : Nat) : Nat → List (Nat × UInt8) → Prop
  | full {count : Nat} (hroom : ¬count < pageSize) : Loads img inode count []
  | done {count : Nat} (hroom : count < pageSize)
      (hret : (readData img inode count (virtualAddr + count) (pageSize - count)).ret = 0) :
      Loads img inode count []
  | turn {count : Nat} {rest : List (Nat × UInt8)} (hroom : count < pageSize)
      (hsome : (readData img inode count (virtualAddr + count) (pageSize - count)).ret ≠ 0)
      (hok : (readData img inode count (virtualAddr + count) (pageSize - count)).ret ≠ -1)
      (hrest : Loads img inode
        (count + (readData img inode count (virtualAddr + count) (pageSize - count)).ret.toNat) rest) :
      Loads img inode count
        ((readData img inode count (virtualAddr + count) (pageSize - count)).stores.map
          (fun s => (virtualAddr + count + s.1, s.2)) ++ rest)

/-- The address range of the user page. -/
def InUserPage (addr : Nat) : Prop := 0x08000000 ≤ addr ∧ addr ≤ 0x083FFFFF

/-- **`LoadsInside img inode`** — the copy loop ends; byte for byte, the file is in user memory where the
program starts, whatever frame is mapped there; and every store is in the user page. -/
def LoadsInside (img : Image) (inode : Nat) : Prop :=
  ∃ stores, Loads img inode 0 stores ∧ loadProgram img inode = some stores ∧
    (∀ (page : PageEntry) (c : Console), ∀ i < img.inodeLength inode,
      (stores.foldl (Console.storeUser page) c).phys
        (pageSize * page.frame + (virtualAddr + i) % pageSize) = img.fileAt inode i) ∧
    ∀ s ∈ stores, InUserPage s.1

/-! ## The loop -/

section Loop

variable {img : Image} {inode : Nat}

/-- A read returns a count, unless it is refused. -/
theorem readData_ret_nonneg {offset buf length : Nat} (h : (readData img inode offset buf length).ret ≠ -1) :
    0 ≤ (readData img inode offset buf length).ret := by
  unfold readData at h ⊢
  split
  case isTrue hrefused =>
    rw [if_pos hrefused] at h
    exact absurd rfl h
  case isFalse => exact Int.natCast_nonneg _

/-- **The loop of the model is the loop**: every turn that goes on adds a byte, so `pageSize` turns are
enough. -/
theorem Loads.loadLoop {count fuel : Nat} {stores : List (Nat × UInt8)} (h : Loads img inode count stores)
    (hfuel : pageSize ≤ count + fuel) : loadLoop img inode fuel count = some stores := by
  induction h generalizing fuel with
  | full hroom =>
      cases fuel with
      | zero => rfl
      | succ fuel => rw [Ece391.loadLoop, if_neg hroom]
  | done hroom hret =>
      obtain ⟨fuel, rfl⟩ : ∃ n, fuel = n + 1 := ⟨fuel - 1, by omega⟩
      rw [Ece391.loadLoop, if_pos hroom]
      exact if_pos hret
  | turn hroom hsome hok hrest ih =>
      obtain ⟨fuel, rfl⟩ : ∃ n, fuel = n + 1 := ⟨fuel - 1, by omega⟩
      have hnonneg := readData_ret_nonneg hok
      rw [Ece391.loadLoop, if_pos hroom]
      show (if _ = 0 then _ else if _ ≠ -1 then _ else _) = _
      rw [if_neg hsome, if_pos hok, ih (by omega), Option.map_some]

/-- Where the file ends, the loop ends. -/
theorem loads_end (hinode : inode < img.inodeCount) :
    Loads img inode (img.inodeLength inode + 1) [] := by
  by_cases hroom : img.inodeLength inode + 1 < pageSize
  · have hlt : pageSize < 2 ^ 31 := by decide
    refine .done hroom ?_
    rw [readData_closed hinode (by unfold virtualAddr; omega) (by omega) (by omega)]
    show ((img.available inode _ _ : Nat) : Int) = 0
    rw [Image.available, Nat.sub_self, Nat.min_zero, Int.natCast_zero]
  · exact .full hroom

/-- The bytes the loop stores: those of the file, and the one behind its end. -/
def programStores (img : Image) (inode : Nat) : List (Nat × UInt8) :=
  (List.range (img.inodeLength inode + 1)).map fun i => (virtualAddr + i, img.fileAt inode i)

/-- **The loop ends**, after one read that returns the file and one that returns nothing. -/
theorem loads_file (hinode : inode < img.inodeCount) (hlength : img.inodeLength inode < pageSize) :
    Loads img inode 0 (programStores img inode) := by
  have hread := readData_closed hinode (show virtualAddr + 0 ≠ 0 by decide)
    (show 0 < 2 ^ 31 by decide) (show pageSize - 0 < 2 ^ 31 by decide)
  have havailable : img.available inode 0 (pageSize - 0) = img.inodeLength inode + 1 := by
    unfold Image.available
    omega
  rw [havailable] at hread
  have hret : (readData img inode 0 (virtualAddr + 0) (pageSize - 0)).ret =
      ((img.inodeLength inode + 1 : Nat) : Int) := by rw [hread]
  have hstores : (readData img inode 0 (virtualAddr + 0) (pageSize - 0)).stores.map
      (fun s => (virtualAddr + 0 + s.1, s.2)) ++ [] = programStores img inode := by
    rw [hread, List.append_nil, List.map_map]
    refine List.map_congr_left fun i _ => ?_
    show (virtualAddr + 0 + i, img.fileAt inode (0 + i)) = _
    rw [Nat.add_zero, Nat.zero_add]
  rw [← hstores]
  refine .turn (by decide) (by omega) (by omega) ?_
  rw [hret, Int.toNat_natCast, Nat.zero_add]
  exact loads_end hinode

/-- The loop has only one way to go. -/
theorem Loads.unique {count : Nat} {stores stores' : List (Nat × UInt8)} (h : Loads img inode count stores)
    (h' : Loads img inode count stores') : stores = stores' := by
  have hrun := h.loadLoop (Nat.le_add_left pageSize count)
  rw [h'.loadLoop (Nat.le_add_left pageSize count)] at hrun
  exact (Option.some.inj hrun).symm

theorem storeUser_phys (page : PageEntry) (c : Console) {addr : Nat} (v : UInt8) (haddr : addr / pageSize = 32) :
    (c.storeUser page (addr, v)).phys =
      Function.update c.phys (pageSize * page.frame + addr % pageSize) v := by
  rw [Console.storeUser, if_pos haddr]

/-- The bytes that are in the user page are in the frame behind it. -/
theorem foldl_storeUser (page : PageEntry) (c : Console) (f : Nat → UInt8) {n : Nat}
    (hn : virtualAddr + n ≤ 0x08400000) {i : Nat} (hi : i < n) :
    (((List.range n).map fun j => (virtualAddr + j, f j)).foldl (Console.storeUser page) c).phys
      (pageSize * page.frame + (virtualAddr + i) % pageSize) = f i := by
  induction n with
  | zero => exact absurd hi (Nat.not_lt_zero _)
  | succ n ih =>
      have hpage : (virtualAddr + n) / pageSize = 32 := by
        unfold virtualAddr pageSize at *
        omega
      rw [List.range_succ, List.map_append, List.foldl_append, List.map_singleton, List.foldl_cons,
        List.foldl_nil, storeUser_phys page _ _ hpage]
      by_cases heq : i = n
      · rw [heq, Function.update_self]
      · -- another byte of the page
        have hne : pageSize * page.frame + (virtualAddr + i) % pageSize ≠
            pageSize * page.frame + (virtualAddr + n) % pageSize := by
          unfold virtualAddr pageSize at *
          omega
        rw [Function.update_of_ne hne, ih (by omega) (by omega)]

end Loop

/-! ## The main result -/

/-- **The loader stays inside the user page exactly for the shorter files.**  For every well-formed image and
every executable in it: the loop ends, and with the file in place and no store outside the page, exactly if
the file has fewer than 0x3B8000 bytes, the distance from 0x08048000 to the end of the page. -/
theorem loader_stays_inside_iff {img : Image} (hwf : img.WellFormed) {w : List UInt8} {i : Nat}
    (hexec : Executable img w i) :
    LoadsInside img (img.inodeNum i) ↔ img.inodeLength (img.inodeNum i) < 0x3B8000 := by
  have hlength : img.inodeLength (img.inodeNum i) < pageSize :=
    Nat.lt_of_le_of_lt (hwf _ hexec.inode).1 (by decide)
  have hloads := loads_file hexec.inode hlength
  have hprogram : loadProgram img (img.inodeNum i) = some (programStores img (img.inodeNum i)) :=
    hloads.loadLoop (Nat.le_add_left _ _)
  constructor
  · rintro ⟨stores, hstores, -, -, hinside⟩
    rw [hstores.unique hloads] at hinside
    -- the byte behind the end is stored too
    have hlast := (hinside (virtualAddr + img.inodeLength (img.inodeNum i), _)
      (List.mem_map.mpr ⟨_, List.mem_range.mpr (Nat.lt_succ_self _), rfl⟩)).2
    unfold virtualAddr at hlast
    omega
  · intro hshort
    refine ⟨_, hloads, hprogram, fun page c j hj => ?_, fun s hs => ?_⟩
    · exact foldl_storeUser page c _ (by unfold virtualAddr; omega) (Nat.lt_succ_of_lt hj)
    · obtain ⟨j, hj, rfl⟩ := List.mem_map.mp hs
      have hj := List.mem_range.mp hj
      unfold InUserPage virtualAddr
      omega

/-- The four bytes of "shell". -/
theorem shell_executable : Executable shellImage shellName 0 where
  listed := by decide
  name := by decide
  inode := by decide
  length := by decide
  magic := by decide

theorem shell_loads_inside : LoadsInside shellImage (shellImage.inodeNum 0) :=
  (loader_stays_inside_iff shellImage_wellFormed shell_executable).mpr (by decide)

/-- The image with a "shell" of 0x3B8000 bytes, all in one block. -/
def longShellImage : Image := fun n =>
  ([(0, 1), (4, 1), (8, 1), (64, 115), (65, 104), (66, 101), (67, 108), (68, 108), (96, 2),
    (4097, 0x80), (4098, 0x3B), (8192, 0x7F), (8193, 0x45), (8194, 0x4C), (8195, 0x46)].lookup n).getD 0


/-- Where `longShellImage` has no byte of its own it is zero. -/
theorem longShellImage_byte {n : Nat} (h : 4100 ≤ n ∧ n < 8192) : longShellImage n = 0 := by
  have hnone : ([(0, 1), (4, 1), (8, 1), (64, 115), (65, 104), (66, 101), (67, 108), (68, 108), (96, 2),
      (4097, 0x80), (4098, 0x3B), (8192, 0x7F), (8193, 0x45), (8194, 0x4C),
      (8195, 0x46)] : List (Nat × UInt8)).lookup n = none := by
    rw [List.lookup_eq_none_iff]
    intro p hp
    rw [bne_iff_ne]
    simp only [List.mem_cons, List.not_mem_nil, or_false] at hp
    rcases hp with rfl | rfl | rfl | rfl | rfl | rfl | rfl | rfl | rfl | rfl | rfl | rfl | rfl | rfl | rfl
    all_goals
      show n ≠ _
      omega
  rw [longShellImage, hnone]
  rfl

theorem longShellImage_wellFormed : longShellImage.WellFormed := by
  have hcount : longShellImage.inodeCount = 1 := by decide
  have hlength : longShellImage.inodeLength 0 = 0x3B8000 := by decide
  have hdata : longShellImage.dataCount = 1 := by decide
  intro inode hinode
  obtain rfl : inode = 0 := by omega
  rw [hlength, hdata]
  refine ⟨by decide, fun idx hidx => ?_⟩
  unfold blockSize at hidx
  have hbyte : ∀ a : Int, 4100 ≤ a → a < 8192 → longShellImage.byteAt a = 0 := by
    intro a hlow hhigh
    have haddr : (a % 2 ^ 32).toNat = a.toNat := by omega
    rw [Image.byteAt, haddr]
    exact longShellImage_byte (by omega)
  rw [Image.dataBlockNum, Image.wordAt, hbyte _ (by omega) (by omega), hbyte _ (by omega) (by omega),
    hbyte _ (by omega) (by omega), hbyte _ (by omega) (by omega)]
  decide

/-- The long "shell" leaves the page. -/
theorem long_shell_leaves_page : longShellImage.WellFormed ∧ Executable longShellImage shellName 0 ∧
    ¬LoadsInside longShellImage (longShellImage.inodeNum 0) := by
  have hexec : Executable longShellImage shellName 0 :=
    ⟨by decide, by decide, by decide, by decide, by decide⟩
  refine ⟨longShellImage_wellFormed, hexec, ?_⟩
  rintro ⟨stores, hstores, -, -, hinside⟩
  have hloads := loads_file hexec.inode (show longShellImage.inodeLength _ < pageSize by decide)
  rw [hstores.unique hloads] at hinside
  have hlast := (hinside (virtualAddr + 0x3B8000, _)
    (List.mem_map.mpr ⟨0x3B8000, List.mem_range.mpr (by decide), rfl⟩)).2
  exact absurd hlast (by decide)

end Ece391
