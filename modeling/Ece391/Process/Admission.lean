/-
# Ece391.Process.Admission — which commands `execute_handler` goes on to load.

The header check reads four bytes of the file into `exec`, the array that holds the name of the program,
and looks at the array whatever `read_data` returned.  A file with fewer than four bytes leaves part of
the name in it, an inode number out of range leaves all of it, and the two tests of `read_data` that are
off by one let through an inode number of `inode_count` and the byte behind the end of a file.  The entry
itself is the first of 64 that compares equal, `dir_count` or not.

`admission_exact_iff` says for which images, tables and commands the decision is right all the same.
-/
import Ece391.Files.Lookup
import Ece391.Process.Arguments
import Ece391.Process.FailedExecute

namespace Ece391

/-! ## The checks, up to the load -/

/-- The entry `execute_handler` goes on to load, `none` where it returns -1 before that. -/
def admission (img : Image) (command : List UInt8) (p : Proc) : Option Dentry :=
  if p.programCount ≥ programMax then none
  else (readDentryByName img (parseName command).1).filter fun dentry =>
    isExecutable img (parseName command).1 dentry.inodeNum

/-- **`execute_handler` is the checks and then the load.** -/
theorem executeHandler_admission (img : Image) (fr : Frame) (command : List UInt8) (k : Kernel) :
    match admission img command k.proc with
    | none => (executeHandler img fr (some command) k).2 = none
    | some dentry => executeHandler img fr (some command) k =
        (k.cli.noteArgs (parseArgs command)).launch img fr (k.proc.slot fr) dentry.inodeNum
          (parseArgs command) := by
  unfold admission executeHandler
  by_cases hfull : k.proc.programCount ≥ programMax
  · simp only [if_pos hfull]
  · simp only [if_neg hfull]
    cases hfound : readDentryByName img (parseName command).1 with
    | none => rfl
    | some dentry =>
        by_cases hexec : isExecutable img (parseName command).1 dentry.inodeNum = true
        · rw [Option.filter_some, if_pos hexec]
          simp only [if_pos hexec]
        · rw [Option.filter_some, if_neg hexec]
          simp only [if_neg hexec]

/-! ## What they should decide -/

/-- **`Executable img w i`** — entry `i` of the directory is named `w`, and its file has at least four
bytes, which are the magic. -/
structure Executable (img : Image) (w : List UInt8) (i : Nat) : Prop where
  listed : (i : Int) < img.dirCount
  name : cstr (img.dentry i).filename = w
  inode : img.inodeNum i < img.inodeCount
  length : 4 ≤ img.inodeLength (img.inodeNum i)
  magic : img.slice (img.inodeNum i) 0 4 = elfMagic

/-- **`AdmitsExactly img fr command k`** — a program is loaded if and only if there is room for it and the
first word of the command names an executable; otherwise -1 is returned. -/
structure AdmitsExactly (img : Image) (fr : Frame) (command : List UInt8) (k : Kernel) : Prop where
  loads : (admission img command k.proc).isSome = true ↔
    k.proc.programCount < programMax ∧ ∃ i, Executable img (command.takeWhile isWord) i
  refused : ¬ (k.proc.programCount < programMax ∧ ∃ i, Executable img (command.takeWhile isWord) i) →
    (executeHandler img fr (some command) k).2 = none

/-! ## What they look at -/

/-- Byte `m` of `exec` after the read: that of the file, or what was there of the name. -/
def headerByte (img : Image) (w : List UInt8) (inode m : Nat) : UInt8 :=
  if inode ≤ img.inodeCount ∧ m ≤ img.inodeLength inode then img.fileByte inode m else charAt w m

/-- The four bytes that are compared with the magic. -/
def header (img : Image) (w : List UInt8) (inode : Nat) : List UInt8 :=
  (List.range 4).map (headerByte img w inode)

/-- **`Counterfeit img w j`** — the first entry that compares equal passes the check, but it is none of
the directory, or its inode is out of range, or its file is too short. -/
structure Counterfeit (img : Image) (w : List UInt8) (j : Nat) : Prop where
  first : FirstMatch img w j
  passes : header img w (img.inodeNum j) = elfMagic
  defect : img.dirCount ≤ j ∨ img.inodeCount ≤ img.inodeNum j ∨ img.inodeLength (img.inodeNum j) < 4

/-- **The names that are judged right.**  The first entry found is an executable; or there is neither an
executable nor a counterfeit; or a counterfeit comes before an executable. -/
def JudgedRight (img : Image) (w : List UInt8) : Prop :=
  (∃ j, FirstMatch img w j ∧ Executable img w j) ∨
  ((∀ i, ¬ Executable img w i) ∧ ∀ j, ¬ Counterfeit img w j) ∨
  ((∃ i, Executable img w i) ∧ ∃ j, Counterfeit img w j)

section Judge

variable {img : Image} {w : List UInt8}

/-- The array after the read. -/
theorem overlay_readData (img : Image) (w : List UInt8) (inode : Nat) {m : Nat} (hm : m < 4) :
    overlay (charAt w) (readData img inode 0 localBuf 4).stores m = headerByte img w inode m := by
  unfold headerByte
  by_cases hinode : inode ≤ img.inodeCount
  · have hread : ¬ (inode > img.inodeCount ∨ localBuf = 0) := by
      rintro (h | h)
      · omega
      · cases h
    rw [readData, if_neg hread]
    simp only [readLoop_eq img inode 0 4 (by decide) (by decide), Nat.zero_add, overlay_range]
    unfold Image.available
    by_cases hlength : m ≤ img.inodeLength inode
    · rw [if_pos (by omega), if_pos ⟨hinode, hlength⟩]
    · rw [if_neg (by omega), if_neg (fun h => hlength h.2)]
  · rw [readData_refused (Nat.lt_of_not_le hinode), if_neg (fun h => hinode h.1)]
    rfl

/-- The header check compares `header` with the magic. -/
theorem isExecutable_iff (inode : Nat) :
    isExecutable img w inode = true ↔ header img w inode = elfMagic := by
  have hlist : header img w inode = [headerByte img w inode 0, headerByte img w inode 1,
    headerByte img w inode 2, headerByte img w inode 3] := rfl
  rw [isExecutable, hlist, elfMagic]
  simp only [overlay_readData img w inode (show 0 < 4 by decide),
    overlay_readData img w inode (show 1 < 4 by decide), overlay_readData img w inode (show 2 < 4 by decide),
    overlay_readData img w inode (show 3 < 4 by decide), Bool.and_eq_true, beq_iff_eq, List.cons.injEq,
    and_true, and_assoc]

/-- A file of four bytes or more, with a valid inode, is read whole. -/
theorem header_of_file {inode : Nat} (hinode : inode < img.inodeCount)
    (hlength : 4 ≤ img.inodeLength inode) : header img w inode = img.slice inode 0 4 := by
  unfold header Image.slice
  refine List.map_congr_left fun m hm => ?_
  have hm4 := List.mem_range.mp hm
  rw [headerByte, if_pos ⟨Nat.le_of_lt hinode, by omega⟩, Nat.zero_add]

/-- The first entry found passes the check exactly if it is an executable or a counterfeit. -/
theorem passes_iff {j : Nat} (hlen : strlen w ≤ filenameLen) (hw : cstr w = w) (hfirst : FirstMatch img w j) :
    header img w (img.inodeNum j) = elfMagic ↔ Executable img w j ∨ Counterfeit img w j := by
  have hname : cstr (img.dentry j).filename = w := ((img.matchesName_iff hlen j).mp hfirst.2.1).trans hw
  constructor
  · intro hpasses
    by_cases hdefect : img.dirCount ≤ j ∨ img.inodeCount ≤ img.inodeNum j ∨
        img.inodeLength (img.inodeNum j) < 4
    · exact Or.inr ⟨hfirst, hpasses, hdefect⟩
    · have hlisted : (j : Int) < img.dirCount := by
        by_contra h
        exact hdefect (Or.inl (by omega))
      have hinode : img.inodeNum j < img.inodeCount := by
        by_contra h
        exact hdefect (Or.inr (Or.inl (by omega)))
      have hlength : 4 ≤ img.inodeLength (img.inodeNum j) := by
        by_contra h
        exact hdefect (Or.inr (Or.inr (by omega)))
      exact Or.inl ⟨hlisted, hname, hinode, hlength, header_of_file hinode hlength ▸ hpasses⟩
  · rintro (hexec | hcounterfeit)
    · rw [header_of_file hexec.inode hexec.length]
      exact hexec.magic
    · exact hcounterfeit.passes

/-- **The decision**, in terms of the image. -/
theorem admission_isSome_iff {command : List UInt8} {p : Proc}
    (hlen : (command.takeWhile isWord).length ≤ filenameLen) :
    (admission img command p).isSome = true ↔ p.programCount < programMax ∧
      ((∃ j, FirstMatch img (command.takeWhile isWord) j ∧ Executable img (command.takeWhile isWord) j) ∨
        ∃ j, Counterfeit img (command.takeWhile isWord) j) := by
  have hname : (parseName command).1 = command.takeWhile isWord := congrArg Prod.fst (parseName_eq command)
  have hw : cstr (command.takeWhile isWord) = command.takeWhile isWord := by
    refine List.takeWhile_eq_self_iff.mpr fun c hc => ?_
    have hword := List.mem_takeWhile_imp hc
    simp only [isWord, Bool.and_eq_true] at hword
    exact hword.1.1
  unfold admission
  rw [hname]
  generalize command.takeWhile isWord = w at hlen hw
  have hstrlen : strlen w ≤ filenameLen := by rwa [strlen, hw]
  by_cases hfull : p.programCount ≥ programMax
  · rw [if_pos hfull]
    refine ⟨fun h => (by cases h), fun h => absurd h.1 (Nat.not_lt.mpr hfull)⟩
  rw [if_neg hfull]
  have hroom : p.programCount < programMax := Nat.lt_of_not_le hfull
  by_cases hnone : ∀ j < dentrySize, img.matchesName w j = false
  · -- no entry, hence neither of the two
    have hno : ∀ j, ¬ FirstMatch img w j := fun j hfirst => by
      have hmatch := hnone j hfirst.1
      rw [hfirst.2.1] at hmatch
      cases hmatch
    rw [readDentryByName_of_noMatch hnone]
    refine ⟨fun h => (by cases h), ?_⟩
    rintro ⟨-, ⟨j, hfirst, -⟩ | ⟨j, hcounterfeit⟩⟩
    · exact absurd hfirst (hno j)
    · exact absurd hcounterfeit.first (hno j)
  · push Not at hnone
    obtain ⟨i, hi, hmatch⟩ := hnone
    obtain ⟨j, -, hfirst⟩ := firstMatch_le hi (by simpa using hmatch)
    rw [readDentryByName_of_match hstrlen hfirst, Option.filter_some]
    have hsome : (if isExecutable img w (img.dentry j).inodeNum = true then some (img.dentry j)
        else none).isSome = true ↔ header img w (img.inodeNum j) = elfMagic := by
      rw [← isExecutable_iff]
      show _ ↔ isExecutable img w (img.dentry j).inodeNum = true
      split
      next h => exact iff_of_true rfl h
      next h => exact iff_of_false (by decide) h
    rw [hsome, passes_iff hstrlen hw hfirst]
    constructor
    · rintro (hexec | hcounterfeit)
      · exact ⟨hroom, Or.inl ⟨j, hfirst, hexec⟩⟩
      · exact ⟨hroom, Or.inr ⟨j, hcounterfeit⟩⟩
    · rintro ⟨-, ⟨j', hfirst', hexec⟩ | ⟨j', hcounterfeit⟩⟩
      · exact Or.inl (hfirst.unique hfirst' ▸ hexec)
      · exact Or.inr (hfirst.unique hcounterfeit.first ▸ hcounterfeit)

end Judge

/-- **When the admission check is exact.**  For every image, every process table and every command whose
first word has at most 32 characters: exactly if the table is full or the word is judged right. -/
theorem admission_exact_iff (img : Image) (fr : Frame) (command : List UInt8) (k : Kernel)
    (hlen : (command.takeWhile isWord).length ≤ 32) :
    AdmitsExactly img fr command k ↔
      programMax ≤ k.proc.programCount ∨ JudgedRight img (command.takeWhile isWord) := by
  have hadmission : (admission img command k.proc).isSome = true ↔ _ := admission_isSome_iff hlen
  have hrefused : (admission img command k.proc).isSome ≠ true →
      (executeHandler img fr (some command) k).2 = none := by
    intro hnone
    have hexec := executeHandler_admission img fr command k
    rw [Option.not_isSome_iff_eq_none.mp hnone] at hexec
    exact hexec
  constructor
  · intro h
    by_cases hfull : programMax ≤ k.proc.programCount
    · exact Or.inl hfull
    have hroom : k.proc.programCount < programMax := Nat.lt_of_not_le hfull
    have hloads := hadmission.symm.trans h.loads
    right
    by_cases hexec : ∃ i, Executable img (command.takeWhile isWord) i
    · rcases (hloads.mpr ⟨hroom, hexec⟩).2 with hfirst | hcounterfeit
      · exact Or.inl hfirst
      · exact Or.inr (Or.inr ⟨hexec, hcounterfeit⟩)
    · refine Or.inr (Or.inl ⟨not_exists.mp hexec, fun j hcounterfeit => hexec ?_⟩)
      exact (hloads.mp ⟨hroom, Or.inr ⟨j, hcounterfeit⟩⟩).2
  · intro h
    have hloads : (admission img command k.proc).isSome = true ↔
        k.proc.programCount < programMax ∧ ∃ i, Executable img (command.takeWhile isWord) i := by
      rw [hadmission]
      refine and_congr_right fun hroom => ?_
      rcases h with hfull | ⟨j, hfirst, hexec⟩ | ⟨hnone, hreal⟩ | ⟨hexec, hcounterfeit⟩
      · exact absurd hroom (Nat.not_lt.mpr hfull)
      · exact iff_of_true (Or.inl ⟨j, hfirst, hexec⟩) ⟨j, hexec⟩
      · refine iff_of_false ?_ (not_exists.mpr hnone)
        rintro (⟨j, -, hexec⟩ | ⟨j, hcounterfeit⟩)
        · exact hnone j hexec
        · exact hreal j hcounterfeit
      · exact iff_of_true (Or.inr hcounterfeit) hexec
    exact ⟨hloads, fun hnot => hrefused fun hsome => hnot (hloads.mp hsome)⟩

/-- The shell of the demo image, executed from a booted kernel. -/
theorem shell_admitted :
    AdmitsExactly shellImage (.at 0 0) shellX bootedKernel := by
  refine (admission_exact_iff shellImage (.at 0 0) shellX bootedKernel (by decide)).mpr
    (Or.inr (Or.inl ⟨0, ⟨by decide, by decide, fun l hl => absurd hl (Nat.not_lt_zero l)⟩, ?_⟩))
  exact ⟨by decide, by decide, by decide, by decide, by decide⟩

/-- The demo image with a file length of 3: the fourth byte of the magic lies behind the end. -/
def shortImage : Image := Function.update shellImage 4096 3

/-- The file has three bytes, and it is executed all the same. -/
theorem short_file_admitted :
    (∃ k' eip, executeHandler shortImage (.at 0 0) (some shellName) bootedKernel = (k', some eip)) ∧
    ¬ AdmitsExactly shortImage (.at 0 0) shellName bootedKernel := by
  have hname : readDentryByName shortImage (parseName shellName).1 = some (shortImage.dentry 0) := by decide
  refine ⟨executeHandler_succeeds (k := bootedKernel) (.at 0 0) (by decide) hname (by decide) (by decide),
    fun h => ?_⟩
  obtain ⟨-, i, hexec⟩ := h.loads.mp (by decide)
  have hlisted : (i : Int) < shortImage.dirCount := hexec.listed
  have hcount : shortImage.dirCount = 1 := by decide
  obtain rfl : i = 0 := by omega
  exact absurd hexec.length (by decide)

end Ece391
