/-
# Ece391.Files.OpenNames — which names `open_handler` takes for stdin, stdout and for files.

`open_handler` compares the name with "stdin" and "stdout" over the length of the NAME
(`strncmp(filename, "stdin", strlen(filename))`), so every non-empty prefix of the two is taken for them.
A name that is no such prefix goes to `read_dentry_by_name`, which walks 64 entries whatever `dir_count`
is and returns the first one that compares equal, whatever its type.

`open_names_exact_iff` puts the two together, for every image, descriptor table and name.
-/
import Ece391.Files.Lifecycle
import Ece391.Files.Lookup
import Ece391.Files.Failure

namespace Ece391

/-! ## What the names should mean -/

/-- The directory contains the name, with a known file type. -/
def Listed (img : Image) (name : List UInt8) : Prop :=
  ∃ i : Nat, (i : Int) < img.dirCount ∧ cstr (img.dentry i).filename = cstr name ∧ img.filetype i ≤ 2

/-- A descriptor in 2..7 is returned, and it is in use. -/
def OpenedFile (arr' : Nat → FileDescriptor) (ret : Int) : Prop :=
  ∃ fd : Nat, 2 ≤ fd ∧ fd ≤ 7 ∧ ret = fd ∧ (arr' fd).flags = 1

/-- **`OpensExactly img name arr arr' ret`** — from the table `arr` to `arr'`: descriptor 0 and descriptor
1 for exactly one name each, and any other name is that of a file, or of none. -/
structure OpensExactly (img : Image) (name : List UInt8) (arr arr' : Nat → FileDescriptor) (ret : Int) :
    Prop where
  stdin : ret = 0 ↔ cstr name = stdinName
  stdout : ret = 1 ↔ cstr name = stdoutName
  kept : cstr name ≠ stdinName → cstr name ≠ stdoutName → arr' 0 = arr 0 ∧ arr' 1 = arr 1
  file : cstr name ≠ stdinName → cstr name ≠ stdoutName → (OpenedFile arr' ret ↔ Listed img name)
  failed : cstr name ≠ stdinName → cstr name ≠ stdoutName → ¬ Listed img name → ret = -1

/-! ## When they do -/

/-- The walk over the 64 entries gives the same answer as the directory.  The first entry that compares
equal, if its type is known, is one of the directory; and it has a known type if one of the directory
with this name has. -/
def WalkAgrees (img : Image) (name : List UInt8) : Prop :=
  filenameLen < strlen name ∨
  (∀ j : Nat, FirstMatch img name j → img.filetype j ≤ 2 → (j : Int) < img.dirCount) ∧
  (Listed img name → ∃ j, FirstMatch img name j ∧ img.filetype j ≤ 2)

/-- **The names that `open_handler` resolves exactly**: the two reserved ones, the empty name if the
directory does not have it, and those that are a prefix of neither reserved name and that the walk
finds in the directory or not at all. -/
def ExactName (img : Image) (name : List UInt8) : Prop :=
  cstr name = stdinName ∨ cstr name = stdoutName ∨ (cstr name = [] ∧ ¬ Listed img name) ∨
  (¬ cstr name <+: stdinName ∧ ¬ cstr name <+: stdoutName ∧ WalkAgrees img name)

section Open

variable {img : Image} {name : List UInt8} {arr : Nat → FileDescriptor}

/-- The lookup finds an entry of a known type. -/
def Opens (img : Image) (name : List UInt8) : Prop :=
  ∃ dentry, readDentryByName img name = some dentry ∧ dentry.filetype ≤ 2

/-- Listed names fit into an entry. -/
theorem Listed.strlen_le (h : Listed img name) : strlen name ≤ filenameLen := by
  obtain ⟨i, -, hname, -⟩ := h
  have hle := strlen_le_length (img.dentry i).filename
  rw [strlen, hname] at hle
  simpa [strlen, Image.dentry] using hle

theorem opens_iff (hlen : strlen name ≤ filenameLen) :
    Opens img name ↔ ∃ j, FirstMatch img name j ∧ img.filetype j ≤ 2 := by
  constructor
  · rintro ⟨dentry, hfound, htype⟩
    by_cases hnone : ∀ j < dentrySize, img.matchesName name j = false
    · rw [readDentryByName_of_noMatch hnone] at hfound
      cases hfound
    · push Not at hnone
      obtain ⟨i, hi, hmatch⟩ := hnone
      obtain ⟨j, -, hfirst⟩ := firstMatch_le hi (by simpa using hmatch)
      rw [readDentryByName_of_match hlen hfirst] at hfound
      obtain rfl := Option.some.inj hfound
      exact ⟨j, hfirst, htype⟩
  · rintro ⟨j, hfirst, htype⟩
    exact ⟨_, readDentryByName_of_match hlen hfirst, htype⟩

/-- **The walk against the directory.** -/
theorem opens_iff_listed_iff : (Opens img name ↔ Listed img name) ↔ WalkAgrees img name := by
  by_cases hlen : filenameLen < strlen name
  · -- too long for the walk, and for an entry
    refine ⟨fun _ => Or.inl hlen, fun _ => ⟨?_, fun h => absurd h.strlen_le (by omega)⟩⟩
    rintro ⟨dentry, hfound, -⟩
    rw [readDentryByName, if_pos hlen] at hfound
    cases hfound
  have hlen' : strlen name ≤ filenameLen := by omega
  rw [opens_iff hlen']
  constructor
  · intro hiff
    refine Or.inr ⟨fun j hfirst htype => ?_, hiff.mpr⟩
    obtain ⟨i, hi, hname, -⟩ := hiff.mp ⟨j, hfirst, htype⟩
    -- the entry of the directory is not before the first match
    have hmatch := (img.matchesName_iff hlen' i).mpr hname
    have hle : j ≤ i := by
      by_contra hlt
      rw [hfirst.2.2 i (by omega)] at hmatch
      cases hmatch
    omega
  · rintro (hlong | ⟨hbelow, hknown⟩)
    · exact absurd hlong hlen
    · refine ⟨?_, hknown⟩
      rintro ⟨j, hfirst, htype⟩
      exact ⟨j, hbelow j hfirst htype, (img.matchesName_iff hlen' j).mp hfirst.2.1, htype⟩

/-! ## The branches of `open_handler` -/

/-- A name that is a prefix of neither reserved one: a descriptor for an entry that the walk finds with a
known type, and -1 otherwise. -/
theorem openTable_ordinary (hin : ¬ cstr name <+: stdinName) (hout : ¬ cstr name <+: stdoutName)
    {fd : Nat} (hfree : freeDescriptor arr = some fd) :
    (openTable img name arr).1 0 = arr 0 ∧ (openTable img name arr).1 1 = arr 1 ∧
    (Opens img name → (openTable img name arr).2 = fd ∧ ((openTable img name arr).1 fd).flags = 1) ∧
    (¬ Opens img name → (openTable img name arr).2 = -1) := by
  obtain ⟨h2, -⟩ := freeDescriptor_eq_some hfree
  have hfirst : ¬ charAt name 0 = 0 := by
    intro hzero
    rw [(charAt_zero_eq_zero_iff name).mp hzero] at hin
    exact hin List.nil_prefix
  rw [openTable, if_neg hfirst, if_neg (fun h => hin ((strncmp_strlen_iff _ _).mp h)),
    if_neg (fun h => hout ((strncmp_strlen_iff _ _).mp h)), hfree]
  have hkept : ∀ d, Function.update arr fd d 0 = arr 0 ∧ Function.update arr fd d 1 = arr 1 := fun d =>
    ⟨Function.update_of_ne (by omega) .., Function.update_of_ne (by omega) ..⟩
  cases hfound : readDentryByName img name with
  | none =>
      refine ⟨rfl, rfl, ?_, fun _ => rfl⟩
      rintro ⟨dentry, hdentry, -⟩
      rw [hfound] at hdentry
      cases hdentry
  | some dentry =>
      dsimp only
      cases hentry : openedEntry dentry with
      | none =>
          refine ⟨(hkept _).1, (hkept _).2, ?_, fun _ => rfl⟩
          rintro ⟨dentry', hdentry, htype⟩
          rw [hfound] at hdentry
          obtain rfl := Option.some.inj hdentry
          have hunknown := (openedEntry_eq_none_iff dentry).mp hentry
          omega
      | some d =>
          refine ⟨(hkept _).1, (hkept _).2, fun _ => ⟨rfl, ?_⟩, fun hno => ?_⟩
          · show (Function.update arr fd d fd).flags = 1
            rw [Function.update_self]
            exact openedEntry_flags hentry
          · have hknown : ¬ 2 < dentry.filetype := fun hunknown => by
              rw [(openedEntry_eq_none_iff dentry).mpr hunknown] at hentry
              cases hentry
            exact absurd ⟨dentry, hfound, by omega⟩ hno

/-- A non-empty prefix of a reserved name is taken for it. -/
theorem openTable_reserved (hne : cstr name ≠ []) :
    (cstr name <+: stdinName → (openTable img name arr).2 = 0) ∧
    (¬ cstr name <+: stdinName → cstr name <+: stdoutName → (openTable img name arr).2 = 1) := by
  have hfirst : ¬ charAt name 0 = 0 := fun hzero => hne ((charAt_zero_eq_zero_iff name).mp hzero)
  constructor
  · intro hin
    rw [openTable, if_neg hfirst, if_pos ((strncmp_strlen_iff _ _).mpr hin)]
  · intro hin hout
    rw [openTable, if_neg hfirst, if_neg (fun h => hin ((strncmp_strlen_iff _ _).mp h)),
      if_pos ((strncmp_strlen_iff _ _).mpr hout)]

/-- What is asked of a name other than the reserved ones. -/
theorem opensExactly_other_iff {arr' : Nat → FileDescriptor} {ret : Int} (h0 : cstr name ≠ stdinName)
    (h1 : cstr name ≠ stdoutName) :
    OpensExactly img name arr arr' ret ↔
      (ret ≠ 0 ∧ ret ≠ 1) ∧ (arr' 0 = arr 0 ∧ arr' 1 = arr 1) ∧
      (OpenedFile arr' ret ↔ Listed img name) ∧ (¬ Listed img name → ret = -1) := by
  constructor
  · intro h
    exact ⟨⟨fun hret => h0 (h.stdin.mp hret), fun hret => h1 (h.stdout.mp hret)⟩, h.kept h0 h1,
      h.file h0 h1, h.failed h0 h1⟩
  · rintro ⟨⟨hne0, hne1⟩, hkept, hfile, hfailed⟩
    exact ⟨⟨fun h => absurd h hne0, fun h => absurd h h0⟩, ⟨fun h => absurd h hne1, fun h => absurd h h1⟩,
      fun _ _ => hkept, fun _ _ => hfile, fun _ _ => hfailed⟩

/-- **`open_handler` on a descriptor table.** -/
theorem openTable_exact_iff {fd : Nat} (hfree : freeDescriptor arr = some fd) :
    OpensExactly img name arr (openTable img name arr).1 (openTable img name arr).2 ↔
      ExactName img name := by
  obtain ⟨h2, h7, -⟩ := freeDescriptor_eq_some hfree
  by_cases hnil : cstr name = []
  · -- the empty name
    have hzero := (charAt_zero_eq_zero_iff name).mpr hnil
    have htable : openTable img name arr = (arr, -1) := if_pos hzero
    have hin : cstr name ≠ stdinName := fun h => absurd (hnil.symm.trans h) (by decide)
    have hout : cstr name ≠ stdoutName := fun h => absurd (hnil.symm.trans h) (by decide)
    have hnone : ¬ OpenedFile arr (-1) := by
      rintro ⟨fd, -, -, hret, -⟩
      omega
    rw [htable, opensExactly_other_iff hin hout]
    constructor
    · rintro ⟨-, -, hfile, -⟩
      exact Or.inr (Or.inr (Or.inl ⟨hnil, fun hlisted => hnone (hfile.mpr hlisted)⟩))
    · rintro (h | h | ⟨-, hlisted⟩ | ⟨h, -⟩)
      · exact absurd h hin
      · exact absurd h hout
      · have hret : (-1 : Int) ≠ 0 ∧ (-1 : Int) ≠ 1 := by decide
        exact ⟨hret, ⟨rfl, rfl⟩, iff_of_false hnone hlisted, fun _ => rfl⟩
      · rw [hnil] at h
        exact absurd List.nil_prefix h
  obtain ⟨hret0, hret1⟩ : (cstr name <+: stdinName → (openTable img name arr).2 = 0) ∧ _ :=
    openTable_reserved hnil
  by_cases hin : cstr name <+: stdinName
  · -- a prefix of "stdin"
    have hret := hret0 hin
    constructor
    · intro h
      exact Or.inl (h.stdin.mp hret)
    · intro h
      have hexact : cstr name = stdinName := by
        rcases h with h | h | ⟨h, -⟩ | ⟨h, -⟩
        · exact h
        · rw [h] at hin
          exact absurd hin (by decide)
        · exact absurd h hnil
        · exact absurd hin h
      have hother : cstr name ≠ stdoutName := by
        rw [hexact]
        decide
      refine ⟨⟨fun _ => hexact, fun _ => hret⟩, ⟨fun h => ?_, fun h => absurd h hother⟩,
        fun h => absurd hexact h, fun h => absurd hexact h, fun h => absurd hexact h⟩
      rw [hret] at h
      cases h
  by_cases hout : cstr name <+: stdoutName
  · -- a prefix of "stdout" only
    have hret := hret1 hin hout
    constructor
    · intro h
      exact Or.inr (Or.inl (h.stdout.mp hret))
    · intro h
      have hexact : cstr name = stdoutName := by
        rcases h with h | h | ⟨h, -⟩ | ⟨-, h, -⟩
        · exact absurd (h ▸ List.prefix_rfl) hin
        · exact h
        · exact absurd h hnil
        · exact absurd hout h
      have hother : cstr name ≠ stdinName := by
        rw [hexact]
        decide
      refine ⟨⟨fun h => ?_, fun h => absurd h hother⟩, ⟨fun _ => hexact, fun _ => hret⟩,
        fun _ h => absurd hexact h, fun _ h => absurd hexact h, fun _ h => absurd hexact h⟩
      rw [hret] at h
      cases h
  -- a file name
  obtain ⟨hkept0, hkept1, hopens, hfails⟩ : (openTable img name arr).1 0 = arr 0 ∧ _ :=
    openTable_ordinary hin hout hfree
  have hne0 : cstr name ≠ stdinName := fun h => hin (h ▸ List.prefix_rfl)
  have hne1 : cstr name ≠ stdoutName := fun h => hout (h ▸ List.prefix_rfl)
  have hcond : ExactName img name ↔ (Opens img name ↔ Listed img name) := by
    rw [opens_iff_listed_iff]
    constructor
    · rintro (h | h | ⟨h, -⟩ | ⟨-, -, h⟩)
      · exact absurd h hne0
      · exact absurd h hne1
      · exact absurd h hnil
      · exact h
    · intro h
      exact Or.inr (Or.inr (Or.inr ⟨hin, hout, h⟩))
  have hopened : OpenedFile (openTable img name arr).1 (openTable img name arr).2 ↔ Opens img name := by
    constructor
    · rintro ⟨fd', -, -, hret, -⟩
      by_contra hno
      rw [hfails hno] at hret
      omega
    · intro h
      exact ⟨fd, h2, h7, (hopens h).1, (hopens h).2⟩
  rw [hcond, ← hopened, opensExactly_other_iff hne0 hne1]
  constructor
  · rintro ⟨-, -, hfile, -⟩
    exact hfile
  · intro hiff
    have hret : (openTable img name arr).2 = fd ∨ (openTable img name arr).2 = -1 := by
      by_cases h : Opens img name
      · exact Or.inl (hopens h).1
      · exact Or.inr (hfails h)
    refine ⟨⟨by omega, by omega⟩, ⟨hkept0, hkept1⟩, hiff, fun hlisted => hfails fun h => ?_⟩
    exact hlisted (hiff.mp (hopened.mpr h))

end Open

/-- **When only the exact names are special.**  For every image, every kernel whose running process has a
free descriptor and every file name: exactly if the name is one of the two reserved names, or empty and
not in the directory, or a prefix of neither and found by the walk in the directory or not at all. -/
theorem open_names_exact_iff (img : Image) (name : List UInt8) {k : Kernel}
    (hfree : ∃ fd, 2 ≤ fd ∧ fd ≤ 7 ∧ (k.proc.table fd).flags = 0) :
    OpensExactly img name k.proc.table (openHandler img name k).1.proc.table (openHandler img name k).2 ↔
      ExactName img name := by
  obtain ⟨fd, hfd⟩ : ∃ fd, freeDescriptor k.proc.table = some fd := by
    obtain ⟨fd, h2, h7, hflag⟩ := hfree
    by_contra hnone
    have hall := freeDescriptor_eq_none_iff.mp (Option.eq_none_iff_forall_ne_some.mpr
      fun fd h => hnone ⟨fd, h⟩)
    have hused := List.countP_eq_length.mp hall fd (by simp only [haltDescriptors, List.mem_cons]; omega)
    simp [hflag] at hused
  obtain ⟨htable, hret⟩ := openHandler_retabled img name k
  rw [htable.table, hret]
  exact openTable_exact_iff hfd

/-- The file of the demo image is opened in descriptor 2. -/
theorem shell_opened_exactly :
    OpensExactly shellImage shellName bootedKernel.proc.table
      (openHandler shellImage shellName bootedKernel).1.proc.table
      (openHandler shellImage shellName bootedKernel).2 := by
  refine (open_names_exact_iff shellImage shellName ⟨2, by decide, by decide, by decide⟩).mpr
    (Or.inr (Or.inr (Or.inr ⟨by decide, by decide, Or.inr ⟨fun j hfirst _ => ?_, fun _ => ?_⟩⟩)))
  · have hzero : FirstMatch shellImage shellName 0 :=
      ⟨by decide, by decide, fun l hl => absurd hl (Nat.not_lt_zero l)⟩
    rw [hfirst.unique hzero]
    decide
  · exact ⟨0, ⟨by decide, by decide, fun l hl => absurd hl (Nat.not_lt_zero l)⟩, by decide⟩

/-- The name "s" is taken for stdin. -/
theorem stem_taken_for_stdin :
    (openHandler shellImage [115] bootedKernel).2 = 0 ∧
    ¬ OpensExactly shellImage [115] bootedKernel.proc.table
      (openHandler shellImage [115] bootedKernel).1.proc.table
      (openHandler shellImage [115] bootedKernel).2 := by
  have hret : (openHandler shellImage [115] bootedKernel).2 = 0 := by decide
  exact ⟨hret, fun h => absurd (h.stdin.mp hret) (by decide)⟩

end Ece391
