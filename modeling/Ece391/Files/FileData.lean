/-
# Ece391.Files.FileData — when `read_data` returns exactly the bytes of a file.

Two tests of `read_data` are off by one.  `inode > inode_count` lets the inode number `inode_count`
through, which is then decoded from the first data block; and `length >= offset + read_counter` copies
the byte behind the last one.  Every other read is exact: `reads_exactly_iff` gives the condition.
-/
import Ece391.Kernel.Scheduler

namespace Ece391

/-- **`WellFormed img`** — no inode is longer than its block list, and the blocks it uses exist. -/
def Image.WellFormed (img : Image) : Prop :=
  ∀ inode < img.inodeCount, img.inodeLength inode ≤ dataBlockNumSize * blockSize ∧
    ∀ idx : Nat, idx * blockSize < img.inodeLength inode → img.dataBlockNum inode idx < img.dataCount

/-- Byte `pos` of a file, through its block list. -/
def Image.fileAt (img : Image) (inode pos : Nat) : UInt8 :=
  img.dataVal (img.dataBlockNum inode (pos / blockSize : Nat)) (pos % blockSize : Nat)

theorem Image.fileByte_eq (img : Image) (inode pos : Nat) :
    img.fileByte inode (pos : Int) = img.fileAt inode pos := by
  unfold Image.fileByte Image.fileAt
  rw [Int.tdiv_eq_ediv_of_nonneg (by omega), Int.tmod_eq_emod_of_nonneg (by omega), Int.natCast_ediv,
    Int.natCast_emod]

/-- The index into `data_block_num` that a load uses. -/
def Load.blockIdx : Load → Int
  | .file _ pos => pos.tdiv blockSize
  | _ => 0

/-- **`ReadsExactly`** — the claim of a correct `read_data`: -1 exactly for an inode that does not
exist, otherwise as many bytes as there are, each in its place, through the block list only. -/
structure ReadsExactly (img : Image) (inode offset buf length : Nat) : Prop where
  refused : (readData img inode offset buf length).ret = -1 ↔ img.inodeCount ≤ inode
  ret : inode < img.inodeCount →
    (readData img inode offset buf length).ret = min length (img.inodeLength inode - offset)
  stores : inode < img.inodeCount → (readData img inode offset buf length).stores =
    (List.range (min length (img.inodeLength inode - offset))).map
      fun i => (i, img.fileAt inode (offset + i))
  blocks : inode < img.inodeCount → ∀ l ∈ (readData img inode offset buf length).loads,
    0 ≤ l.blockIdx ∧ l.blockIdx < dataBlockNumSize

/-- The read in closed form: one byte more than the file has. -/
theorem readData_closed {img : Image} {inode offset buf length : Nat} (hinode : inode < img.inodeCount)
    (hbuf : buf ≠ 0) (hoff : offset < 2 ^ 31) (hlen : length < 2 ^ 31) :
    readData img inode offset buf length =
      ⟨img.available inode offset length,
        (List.range (img.available inode offset length)).map
          fun i => (i, img.fileAt inode (offset + i)),
        (List.range (img.available inode offset length)).map
          fun i => .file inode ((offset + i : Nat) : Int)⟩ := by
  have hneg : ¬ (inode > img.inodeCount ∨ buf = 0) := by
    rintro (h | h)
    · omega
    · exact hbuf h
  simp only [readData, if_neg hneg, readLoop_eq img inode offset length hoff hlen, img.fileByte_eq]

/-- **Exactly the file's bytes.**  For every well-formed image, inode, offset and length below 2³¹ and
buffer: `read_data` is exact if and only if the inode number is not `inode_count`, and the bytes asked
for are all there or the offset lies beyond the end. -/
theorem reads_exactly_iff {img : Image} (hwf : img.WellFormed) (inode : Nat) {offset buf length : Nat}
    (hbuf : buf ≠ 0) (hoff : offset < 2 ^ 31) (hlen : length < 2 ^ 31) :
    ReadsExactly img inode offset buf length ↔
      img.inodeCount < inode ∨ inode < img.inodeCount ∧
        (offset + length ≤ img.inodeLength inode ∨ img.inodeLength inode < offset) := by
  rcases Nat.lt_trichotomy inode img.inodeCount with hlt | heq | hgt
  · have hclosed := readData_closed hlt hbuf hoff hlen
    have hlong := (hwf inode hlt).1
    constructor
    · intro h
      have hret := h.ret hlt
      rw [hclosed] at hret
      simp only [Image.available] at hret
      omega
    · intro h
      have havailable : img.available inode offset length =
          min length (img.inodeLength inode - offset) := by
        unfold Image.available
        omega
      rw [havailable] at hclosed
      refine ⟨?_, fun _ => ?_, fun _ => ?_, fun _ => ?_⟩
      · rw [hclosed]
        exact iff_of_false (by simp only; omega) (by omega)
      · rw [hclosed]
      · rw [hclosed]
      · rw [hclosed]
        intro l hl
        obtain ⟨i, hi, rfl⟩ := List.mem_map.mp hl
        have hi := List.mem_range.mp hi
        have hpos : offset + i < dataBlockNumSize * blockSize := by omega
        have hidx : Load.blockIdx (.file inode ((offset + i : Nat) : Int)) =
            ((offset + i : Nat) : Int) / blockSize := by
          rw [Load.blockIdx, Int.tdiv_eq_ediv_of_nonneg (by omega)]
        rw [hidx]
        unfold blockSize dataBlockNumSize at *
        omega
  · -- the inode behind the last one passes the check
    subst heq
    have hneg : ¬ (img.inodeCount > img.inodeCount ∨ buf = 0) := by
      rintro (h | h)
      · omega
      · exact hbuf h
    refine ⟨fun h => ?_, fun h => by omega⟩
    have hret := h.refused.mpr (Nat.le_refl _)
    rw [readData, if_neg hneg] at hret
    simp only at hret
    omega
  · have hrefused : readData img inode offset buf length = ⟨-1, [], []⟩ := by
      rw [readData, if_pos (Or.inl hgt)]
    refine iff_of_true ⟨?_, ?_, ?_, ?_⟩ (Or.inl hgt)
    · rw [hrefused]
      exact iff_of_true rfl (by omega)
    all_goals exact fun hlt => absurd hlt (by omega)

/-- The image with the four-byte file "shell" is well-formed. -/
theorem shellImage_wellFormed : shellImage.WellFormed := by
  have hcount : shellImage.inodeCount = 1 := by decide
  have hlength : shellImage.inodeLength 0 = 4 := by decide
  intro inode hinode
  obtain rfl : inode = 0 := by omega
  rw [hlength]
  refine ⟨by decide, fun idx hidx => ?_⟩
  obtain rfl : idx = 0 := by
    unfold blockSize at hidx
    omega
  decide

/-- Two bytes from the middle of it. -/
theorem shell_reads_exactly : ReadsExactly shellImage 0 1 1 2 :=
  (reads_exactly_iff shellImage_wellFormed 0 Nat.one_ne_zero (by decide) (by decide)).mpr
    (Or.inr ⟨by decide, Or.inl (by decide)⟩)

/-- Ten bytes asked for at the start: five come back, the last from behind the end. -/
theorem shell_reads_too_much : shellImage.WellFormed ∧ (readData shellImage 0 0 1 10).ret = 5 ∧
    ¬ ReadsExactly shellImage 0 0 1 10 := by
  have hfive : (readData shellImage 0 0 1 10).ret = 5 := by decide
  refine ⟨shellImage_wellFormed, hfive, fun h => ?_⟩
  have hret := h.ret (by decide)
  rw [hfive] at hret
  exact absurd hret (by decide)

end Ece391
