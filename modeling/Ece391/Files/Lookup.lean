/-
# Ece391.Files.Lookup — lookup by name against lookup by index.

The directory is the first `dir_count` entries of the boot block.  `read_dentry_by_index` accepts the
index `dir_count` too, and `read_dentry_by_name` does not look at `dir_count` at all: it walks
`DENTRY_SIZE = 64` entries, the stale ones and the first inode included.  A name is compared as a C
string, so an entry with bytes after its terminator is found under the part before it.

`lookup_agrees_iff` says for every image, index and name exactly when the two lookups agree.
-/
import Mathlib.Data.Nat.Find
import Ece391.Kernel.Scheduler

namespace Ece391

/-! ## Names -/

/-- A name filled up with NULs to the length of an entry; a name of 32 bytes has none. -/
def paddedName (name : List UInt8) : List UInt8 :=
  cstr name ++ List.replicate (filenameLen - strlen name) 0

/-- **`HasName img i name`** — entry `i` carries exactly this name. -/
def HasName (img : Image) (i : Nat) (name : List UInt8) : Prop :=
  strlen name ≤ filenameLen ∧ (img.dentry i).filename = paddedName name

/-- The entry's name is followed by NULs only. -/
def Padded (img : Image) (i : Nat) : Prop :=
  (img.dentry i).filename = paddedName (img.dentry i).filename

/-- A C string ends before the NULs appended to it. -/
theorem cstr_append_zeros (s : List UInt8) (n : Nat) : cstr (cstr s ++ List.replicate n 0) = cstr s := by
  have hall : ∀ b ∈ s.takeWhile (· != 0), (b != 0) = true := fun b hb => by
    have hne := List.mem_takeWhile_imp hb
    exact hne
  have hzeros : (List.replicate n (0 : UInt8)).takeWhile (· != 0) = [] := by
    cases n with
    | zero => rfl
    | succ n => simp [List.replicate_succ]
  unfold cstr
  rw [List.takeWhile_append_of_pos hall, hzeros, List.append_nil]

/-- An entry carries a name exactly if it compares equal to it and is padded. -/
theorem hasName_iff (img : Image) (i : Nat) {name : List UInt8} (hlen : strlen name ≤ filenameLen) :
    HasName img i name ↔ img.matchesName name i = true ∧ Padded img i := by
  rw [img.matchesName_iff hlen i]
  constructor
  · rintro ⟨-, hname⟩
    have hcstr : cstr (img.dentry i).filename = cstr name := by
      rw [hname, paddedName, cstr_append_zeros]
    refine ⟨hcstr, ?_⟩
    rw [Padded, paddedName, strlen, hcstr]
    exact hname
  · rintro ⟨hcstr, hpadded⟩
    rw [Padded, paddedName, strlen, hcstr] at hpadded
    exact ⟨hlen, hpadded⟩

/-! ## The first entry that compares equal -/

/-- `j` is the first of the `DENTRY_SIZE` entries that compare equal to the name. -/
def FirstMatch (img : Image) (name : List UInt8) (j : Nat) : Prop :=
  j < dentrySize ∧ img.matchesName name j = true ∧ ∀ l < j, img.matchesName name l = false

theorem readDentryByName_of_match {img : Image} {name : List UInt8} {j : Nat}
    (hlen : strlen name ≤ filenameLen) (h : FirstMatch img name j) :
    readDentryByName img name = some (img.dentry j) := by
  have hfind : (List.range dentrySize).find? (img.matchesName name) = some j := by
    rw [List.find?_range_eq_some]
    exact ⟨h.2.1, List.mem_range.mpr h.1, fun l hl => by simp [h.2.2 l hl]⟩
  rw [readDentryByName, if_neg (by omega), hfind, Option.map_some]

theorem readDentryByName_of_noMatch {img : Image} {name : List UInt8}
    (h : ∀ j < dentrySize, img.matchesName name j = false) : readDentryByName img name = none := by
  have hfind : (List.range dentrySize).find? (img.matchesName name) = none := by
    rw [List.find?_eq_none]
    intro j hj
    simp [h j (List.mem_range.mp hj)]
  rw [readDentryByName, hfind]
  split <;> rfl

/-- An entry that compares equal has a first one before it. -/
theorem firstMatch_le {img : Image} {name : List UInt8} {i : Nat} (hi : i < dentrySize)
    (h : img.matchesName name i = true) : ∃ j ≤ i, FirstMatch img name j := by
  have hex : ∃ j, img.matchesName name j = true := ⟨i, h⟩
  have hle : Nat.find hex ≤ i := Nat.find_min' hex h
  refine ⟨Nat.find hex, hle, by omega, Nat.find_spec hex, fun l hl => ?_⟩
  simpa using Nat.find_min hex hl

theorem FirstMatch.unique {img : Image} {name : List UInt8} {i j : Nat} (hi : FirstMatch img name i)
    (hj : FirstMatch img name j) : i = j := by
  rcases Nat.lt_trichotomy i j with hlt | heq | hgt
  · have := hj.2.2 i hlt
    rw [hi.2.1] at this
    cases this
  · exact heq
  · have := hi.2.2 j hgt
    rw [hj.2.1] at this
    cases this

/-! ## The two lookups -/

/-- A `dir_count` that is not negative is the word itself. -/
theorem dirCount_eq {img : Image} (h0 : 0 ≤ img.dirCount) : img.dirCount = img.wordAt 0 := by
  have hlt := img.wordAt_lt 0
  unfold Image.dirCount s32 at *
  split at h0
  next hsmall => rw [if_pos hsmall]
  next => omega

/-- **`LookupAgrees img index name`** — the lookup by index succeeds exactly below `dir_count`; the
lookup by name succeeds exactly if an entry below `dir_count` has the name, and then returns what the
lookup by index returns for the first such entry. -/
def LookupAgrees (img : Image) (index : Nat) (name : List UInt8) : Prop :=
  ((readDentryByIndex img index).isSome = true ↔ (index : Int) < img.dirCount) ∧
  ((readDentryByName img name).isSome = true ↔
    ∃ i : Nat, (i : Int) < img.dirCount ∧ HasName img i name) ∧
  ∀ i : Nat, (i : Int) < img.dirCount → HasName img i name → (∀ l < i, ¬ HasName img l name) →
    readDentryByName img name = readDentryByIndex img i

/-- The name is too long for an entry, or compares equal to none of the 64 entries, or the first one it
compares equal to is a padded entry of the directory. -/
def FoundInDirectory (img : Image) (name : List UInt8) : Prop :=
  filenameLen < strlen name ∨ (∀ j < dentrySize, img.matchesName name j = false) ∨
  ∃ j : Nat, FirstMatch img name j ∧ (j : Int) < img.dirCount ∧ Padded img j

section Agree

variable {img : Image} {name : List UInt8}

theorem readDentryByIndex_isSome_iff (h0 : 0 ≤ img.dirCount) (index : Nat) :
    ((readDentryByIndex img index).isSome = true ↔ (index : Int) < img.dirCount) ↔
      (index : Int) ≠ img.dirCount := by
  have hsome : (readDentryByIndex img index).isSome = true ↔ (index : Int) ≤ img.dirCount := by
    rw [dirCount_eq h0]
    unfold readDentryByIndex
    split
    next hgt => simp; omega
    next hle => simp; omega
  rw [hsome]
  omega

/-- The lookup by index in the directory. -/
theorem readDentryByIndex_of_lt {i : Nat} (h0 : 0 ≤ img.dirCount) (hi : (i : Int) < img.dirCount) :
    readDentryByIndex img i = some (img.dentry i) := by
  rw [dirCount_eq h0] at hi
  rw [readDentryByIndex, if_neg (by omega)]

/-- An entry of the directory with the name has a first one before it. -/
theorem exists_first_hasName {i : Nat} (hi : (i : Int) < img.dirCount) (hname : HasName img i name) :
    ∃ j : Nat, (j : Int) < img.dirCount ∧ HasName img j name ∧ ∀ l < j, ¬ HasName img l name := by
  classical
  have hex : ∃ j, HasName img j name := ⟨i, hname⟩
  have hle : Nat.find hex ≤ i := Nat.find_min' hex hname
  exact ⟨Nat.find hex, by omega, Nat.find_spec hex, fun l hl => Nat.find_min hex hl⟩

/-- The lookup by name fails on a name no directory entry can have. -/
theorem byName_agrees_of_none (hnone : readDentryByName img name = none)
    (hno : ∀ i : Nat, (i : Int) < img.dirCount → ¬ HasName img i name) :
    ((readDentryByName img name).isSome = true ↔
      ∃ i : Nat, (i : Int) < img.dirCount ∧ HasName img i name) ∧
    ∀ i : Nat, (i : Int) < img.dirCount → HasName img i name → (∀ l < i, ¬ HasName img l name) →
      readDentryByName img name = readDentryByIndex img i := by
  refine ⟨?_, fun i hi hname => absurd hname (hno i hi)⟩
  rw [hnone]
  constructor
  · intro h
    cases h
  · rintro ⟨i, hi, hname⟩
    exact absurd hname (hno i hi)

/-- **The lookup by name agrees exactly if the name is found in the directory or nowhere.** -/
theorem byName_agrees_iff (h0 : 0 ≤ img.dirCount) (h63 : img.dirCount ≤ 63) :
    (((readDentryByName img name).isSome = true ↔
        ∃ i : Nat, (i : Int) < img.dirCount ∧ HasName img i name) ∧
      ∀ i : Nat, (i : Int) < img.dirCount → HasName img i name → (∀ l < i, ¬ HasName img l name) →
        readDentryByName img name = readDentryByIndex img i) ↔ FoundInDirectory img name := by
  by_cases hlen : filenameLen < strlen name
  · -- too long a name is refused, and no entry has it
    refine ⟨fun _ => Or.inl hlen, fun _ => byName_agrees_of_none ?_ fun i _ hname => ?_⟩
    · rw [readDentryByName, if_pos hlen]
    · exact absurd hname.1 (by omega)
  have hlen' : strlen name ≤ filenameLen := by omega
  by_cases hnone : ∀ j < dentrySize, img.matchesName name j = false
  · refine ⟨fun _ => Or.inr (Or.inl hnone), fun _ =>
      byName_agrees_of_none (readDentryByName_of_noMatch hnone) fun i hi hname => ?_⟩
    have hmatch := ((hasName_iff img i hlen').mp hname).1
    rw [hnone i (by unfold dentrySize; omega)] at hmatch
    cases hmatch
  -- some entry compares equal, and the first one is returned
  obtain ⟨i, hi, hmatch⟩ : ∃ i < dentrySize, img.matchesName name i = true := by
    push Not at hnone
    obtain ⟨i, hi, hmatch⟩ := hnone
    exact ⟨i, hi, by simpa using hmatch⟩
  obtain ⟨j, -, hfirst⟩ := firstMatch_le hi hmatch
  have hfound := readDentryByName_of_match hlen' hfirst
  have hle : ∀ i : Nat, (i : Int) < img.dirCount → HasName img i name → j ≤ i := by
    intro i hi hname
    by_contra hlt
    have hbefore := hfirst.2.2 i (by omega)
    rw [((hasName_iff img i hlen').mp hname).1] at hbefore
    cases hbefore
  constructor
  · rintro ⟨hiff, hleast⟩
    rw [hfound] at hiff hleast
    obtain ⟨i, hi, hname⟩ := hiff.mp rfl
    -- the least entry with the name is the first that compares equal
    obtain ⟨i0, hi0, hname0, hbefore⟩ := exists_first_hasName hi hname
    have hdentry := hleast i0 hi0 hname0 hbefore
    rw [readDentryByIndex_of_lt h0 hi0] at hdentry
    have hname : HasName img j name := by
      refine ⟨hlen', ?_⟩
      rw [Option.some.inj hdentry]
      exact hname0.2
    have hj := hle i0 hi0 hname0
    exact Or.inr (Or.inr ⟨j, hfirst, by omega, ((hasName_iff img j hlen').mp hname).2⟩)
  · rintro (hlong | hno | ⟨j', hfirst', hj', hpadded⟩)
    · exact absurd hlong hlen
    · exact absurd hno hnone
    · obtain rfl := hfirst.unique hfirst'
      have hname : HasName img j name := (hasName_iff img j hlen').mpr ⟨hfirst.2.1, hpadded⟩
      rw [hfound]
      refine ⟨⟨fun _ => ⟨j, hj', hname⟩, fun _ => rfl⟩, fun i hi hnamei hbefore => ?_⟩
      have hij : i = j := by
        have hji := hle i hi hnamei
        by_contra hne
        exact hbefore j (by omega) hname
      rw [hij, readDentryByIndex_of_lt h0 hj']

end Agree

/-- **When lookup by name and lookup by index agree.**  For every image whose `dir_count` is between 0
and 63, every index and every name: exactly if the index is not `dir_count` itself and the name is too
long, or equal to none of the 64 entries walked, or found first in a padded entry of the directory. -/
theorem lookup_agrees_iff {img : Image} (h0 : 0 ≤ img.dirCount) (h63 : img.dirCount ≤ 63) (index : Nat)
    (name : List UInt8) :
    LookupAgrees img index name ↔ (index : Int) ≠ img.dirCount ∧ FoundInDirectory img name := by
  rw [LookupAgrees, readDentryByIndex_isSome_iff h0 index, byName_agrees_iff h0 h63]

/-- The one file of the demo image. -/
theorem shell_lookup_agrees : LookupAgrees shellImage 0 shellName := by
  refine (lookup_agrees_iff (by decide) (by decide) 0 shellName).mpr ⟨by decide, Or.inr (Or.inr ?_)⟩
  have hpadded : (shellImage.dentry 0).filename = paddedName (shellImage.dentry 0).filename := by decide
  exact ⟨0, ⟨by decide, by decide, fun l hl => absurd hl (Nat.not_lt_zero l)⟩, by decide, hpadded⟩

/-- With one directory entry, index 1 is accepted; and the empty name is found in the unused entry 1,
though no entry of the directory has it. -/
theorem stale_entry_found :
    shellImage.dirCount = 1 ∧ (readDentryByIndex shellImage 1).isSome = true ∧
    (readDentryByName shellImage []).isSome = true ∧ ¬ LookupAgrees shellImage 1 [] := by
  refine ⟨by decide, by decide, by decide, fun hagrees => ?_⟩
  have hlt : ((1 : Nat) : Int) < shellImage.dirCount := hagrees.1.mp (by decide)
  exact absurd hlt (by decide)

end Ece391
