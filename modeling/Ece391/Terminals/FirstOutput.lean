/-
# Ece391.Terminals.FirstOutput — output before the video pages are mapped.

`paging_initialize` maps the text page only.  The page of a terminal is mapped by the first tick that
moves to its slot, and by the first Alt-Fn switch from or to it.  The very first tick maps nothing: it
starts the shell of terminal 0, whose page is left to the fourth tick.  Until then a character that
this shell prints is a store to an absent page.

An output routine stores through the page of its terminal, so that it faults only if that page is absent
(`Draws.quiet`).  `BootScreens` is the state of the pages during the boot, with the number of ticks so far
and whether there was a switch.  From the two of them `first_output_iff` reads off the only window in which the kernel faults: between the first tick and the
second, as long as terminal 0 has not been switched away from.
-/
import Ece391.Process.Boot
import Ece391.Process.Loader
import Ece391.Terminals.Layout

open Ece391.Lib

namespace Ece391

/-! ## What `terminal_write` reaches -/

/-- The page of terminal `t` is mapped. -/
def Console.Shows (c : Console) (t : Fin 3) : Prop := (c.pageTable (0xB9 + t.val)).present = true

/-- The page of terminal `t`, and the flags. -/
def ownPage (t : Fin 3) : Console → Reach → Prop
  | c, .byte va => Draws.page t c (.byte va)
  | _, .enterFlag => True
  | _, .line => False

section Quiet

variable {t : Fin 3} {c c' : Console}

theorem page_ownPage {c : Console} {r : Reach} (h : Draws.page t c r) : ownPage t c r := by
  cases r with
  | byte va => exact h
  | enterFlag => trivial
  | line => exact h

/-- The two copies of the output routines are the same one. -/
theorem VideoMap.permits (hmap : VideoMap c) : Draws.Permits (ownPage t) t c where
  own _ _ := page_ownPage
  displayed hvis _ _ hpage := by
    have hself : t = c.currTerminal := by
      by_contra hne
      exact hvis (hmap.visible_eq_zero.mpr hne)
    exact page_ownPage (hself ▸ hpage)

/-- **A routine that stores to a mapped page only takes no fault.** -/
theorem Draws.quiet (h : Draws (ownPage t) c c') (hshows : c.Shows t)
    (hvid : (c.termArr t).vidMemAddr = videoAddr t) (hcursors : c.CursorsOn) : c'.fault = c.fault := by
  induction h with
  | refl => rfl
  | @tail c1 c2 h hs ih =>
      have hdraws : Draws (ownPage t) c c1 := h
      cases hs with
      | @byte va v hpage =>
          obtain ⟨i, hi, rfl⟩ :=
            hpage ((hdraws.kept.vidMemAddr t).trans hvid) (hdraws.cursorsOn hcursors)
          have hindex : Console.pageIndex (videoAddr t + i) = 0xB9 + t.val := by
            unfold Console.pageIndex videoAddr videoMemAddr kb4
            omega
          have hpres : (c1.pageTable (0xB9 + t.val)).present = true := by
            rw [hdraws.kept.pageTable]
            exact hshows
          rw [← ih, Console.storeByte, Console.translate, hindex, if_pos hpres]
      | globals | cursor | enterFlag | line => exact ih

end Quiet

/-! ## A character on an absent page -/

section Absent

variable {t : Fin 3} {c : Console}

/-- A character that is printed is stored, and the store faults. -/
theorem putcAt_fault (hmap : VideoMap c) (hcursors : c.CursorsOn) (habsent : ¬ c.Shows t) {ch : UInt8}
    (hnl : ch ≠ newLine) (hcr : ch ≠ carriageReturn) : (c.putcAt t ch).fault = true := by
  obtain ⟨hx, hy⟩ := hcursors.term t
  have hcell : 2 * (numCols * (c.termArr t).screenY + (c.termArr t).screenX) < 4096 :=
    Draws.cell_lt hy hx (Nat.zero_le 1)
  unfold Console.putcAt
  dsimp only
  rw [if_neg (not_or.mpr ⟨hnl, hcr⟩)]
  -- the fault of the first store, kept by everything behind it
  generalize hm : ({ c with videoMem := (c.termArr t).vidMemAddr } : Console).loadCursor t = m
  have hmem : m.videoMem + 2 * (numCols * m.screenY + m.screenX) =
      videoAddr t + 2 * (numCols * (c.termArr t).screenY + (c.termArr t).screenX) := by
    subst hm
    exact congrArg (· + _) (hmap.vidMemAddr t)
  have htrans : m.translate (m.videoMem + 2 * (numCols * m.screenY + m.screenX)) = none := by
    have hindex : Console.pageIndex
        (videoAddr t + 2 * (numCols * (c.termArr t).screenY + (c.termArr t).screenX)) = 0xB9 + t.val := by
      unfold Console.pageIndex videoAddr videoMemAddr kb4
      omega
    rw [hmem, Console.translate, hindex]
    subst hm
    exact if_neg habsent
  have hfault : (m.storeByte (m.videoMem + 2 * (numCols * m.screenY + m.screenX)) ch).fault = true := by
    rw [Console.storeByte, htrans]
  generalize m.storeByte (m.videoMem + 2 * (numCols * m.screenY + m.screenX)) ch = m1 at hfault
  show (m1.storeByte _ attrib).fault = true
  unfold Console.storeByte
  split
  · exact hfault
  · rfl

/-- A plain character of a write, on an absent page. -/
theorem writeByte_fault (hmap : VideoMap c) (hcursors : c.CursorsOn) (habsent : ¬ c.Shows t) {ch : UInt8}
    (hch : Plain ch) : (Console.writeByte t c ch).fault = true := by
  obtain ⟨hnul, hnl, hcr⟩ := hch
  have hput := putcAt_fault hmap hcursors habsent hnl hcr
  rw [Console.writeByte, if_pos hnul]
  unfold Console.writeChar
  dsimp only
  rw [if_neg (show ¬ (ch = newLine ∧ (c.termArr t).visible = 1) from fun h => hnl h.1), if_neg hnl,
    writePut_eq hmap]
  have hcount := ((Draws.putcAt c t ch).trans (.updateCursor _)).trans
    (.tracker _ t fun n => (n + 1) % 256)
  exact (Draws.writeBreak (hcount.videoMap hmap).permits fun _ => trivial).fault hput

/-- **A write of text to an absent page faults.** -/
theorem terminalWrite_fault (hmap : VideoMap c) (hcursors : c.CursorsOn) (habsent : ¬ c.Shows t)
    {buf : List UInt8} (hbuf : ∃ ch ∈ buf, Plain ch) : (c.terminalWrite t buf).1.fault = true := by
  obtain ⟨ch, hmem, hch⟩ := hbuf
  obtain ⟨before, after, rfl⟩ := List.append_of_mem hmem
  have hP := hmap.permits (t := t)
  have hflag : ∀ c, ownPage t c .enterFlag := fun _ => trivial
  have hstart := Draws.writeStart hflag c t
  have hbefore := hstart.trans (Draws.writeBytes (hP.draws hstart) hflag before)
  have hfault := writeByte_fault (t := t) (hbefore.videoMap hmap) (hbefore.cursorsOn hcursors)
    (by rw [Console.Shows, hbefore.kept.pageTable]; exact habsent) hch
  have hthis := hbefore.trans (Draws.writeByte (hP.draws hbefore) hflag ch)
  have hlater := Draws.writeBytes (hP.draws hthis) hflag after
  rw [Console.terminalWrite]
  dsimp only
  rw [List.foldl_append, List.foldl_cons]
  exact (Draws.saveCursor (P := ownPage t) _ t).fault (hlater.fault hfault)

end Absent

/-! ## The pages of the terminals during the boot -/

/-- Mapping a page makes it present and no other. -/
theorem mapPage_shows (c : Console) (t u : Fin 3) (pa : Nat) :
    (c.mapPage (videoAddr t) pa).Shows u ↔ u = t ∨ c.Shows u := by
  unfold Console.Shows Console.mapPage
  rw [pageIndex_videoAddr]
  by_cases hu : u = t
  · subst hu
    simp [PageEntry.grant]
  · have hne : 0xB9 + u.val ≠ 0xB9 + t.val := fun heq => hu (Fin.ext (by omega))
    dsimp only
    rw [Function.update_of_ne hne]
    exact (or_iff_right hu).symm

theorem mapUserVideo_shows (c : Console) (u : Fin 3) (pa : Nat) :
    (c.mapUserVideo pa).Shows u ↔ c.Shows u := by
  simp only [Console.Shows, Console.mapUserVideo]

theorem updateCursor_shows (c : Console) (u : Fin 3) : c.updateCursor.Shows u ↔ c.Shows u := by
  simp only [Console.Shows, Console.updateCursor]

theorem schedulerRemapVideo_shows (c : Console) (t u : Fin 3) :
    (c.schedulerRemapVideo t).Shows u ↔ u = t ∨ c.Shows u := by
  have haddr : videoMemAddr + kb4 * (1 + t.val) = videoAddr t := by
    rw [videoAddr, Nat.add_comm 1]
  rw [← mapPage_shows c t u (if t = c.currTerminal then videoMemAddr else videoAddr t)]
  simp only [Console.schedulerRemapVideo, haddr]
  rfl

/-- A program that fits the user page is stored without a fault. -/
theorem storeUser_foldl_fault (page : PageEntry) (stores : List (Nat × UInt8)) (c : Console)
    (hfits : ∀ s ∈ stores, s.1 / pageSize = 32) :
    ∃ phys, stores.foldl (Console.storeUser page) c = { c with phys := phys } := by
  induction stores generalizing c with
  | nil => exact ⟨c.phys, rfl⟩
  | cons s stores ih =>
      have hs : c.storeUser page s =
          { c with phys := Function.update c.phys (pageSize * page.frame + s.1 % pageSize) s.2 } :=
        if_pos (hfits s (by simp))
      obtain ⟨phys, hphys⟩ := ih (c.storeUser page s) fun s' hs' => hfits s' (by simp [hs'])
      rw [List.foldl_cons, hphys, hs]
      exact ⟨phys, rfl⟩

/-- **`ShellFits img`** — "shell" loads, and all of it into the user page. -/
def ShellFits (img : Image) : Prop :=
  ∃ dentry stores, readDentryByName img (parseName shellName).1 = some dentry ∧
    isExecutable img (parseName shellName).1 dentry.inodeNum = true ∧
    loadProgram img dentry.inodeNum = some stores ∧ ∀ s ∈ stores, s.1 / pageSize = 32

theorem ShellFits.loads {img : Image} (h : ShellFits img) : ShellLoads img := by
  obtain ⟨dentry, stores, hname, hexec, hload, -⟩ := h
  exact ⟨dentry, stores, hname, hexec, hload⟩

/-- Starting a shell changes nothing of the console but the memory. -/
theorem bootShell_con {img : Image} (hfits : ShellFits img) (fr : Frame) (stack : Nat) (k : Kernel) :
    ∃ phys, (bootShell img fr stack k).con = { k.con with phys := phys } := by
  obtain ⟨dentry, stores, hname, hexec, hload, hinside⟩ := hfits
  generalize hk1 : ({ k with proc := { k.proc with esp := stack, ebp := stack } } : Kernel) = k1
  have hcon : k1.con = k.con := by rw [← hk1]
  have hboot : bootShell img fr stack k = (executeHandler img fr (some shellName) k1).1 := by
    rw [← hk1]
    rfl
  rw [hboot]
  cases h : executeHandler img fr (some shellName) k1 with
  | mk k' res =>
      cases res with
      | some eip =>
          obtain ⟨-, dentry', stores', hname', -, hload', rfl⟩ := executeHandler_some h
          obtain rfl : dentry = dentry' := Option.some.inj (hname.symm.trans hname')
          obtain rfl : stores = stores' := Option.some.inj (hload.symm.trans hload')
          obtain ⟨phys, hphys⟩ := storeUser_foldl_fault
            ((k1.cli.noteArgs (parseArgs shellName)).mapUserPage (k1.proc.slot fr)).proc.userPage
            stores k1.con hinside
          refine ⟨phys, ?_⟩
          simp only [Kernel.startProgram, openHandler_stdin, openHandler_stdout]
          rw [← hcon]
          exact hphys
      | none =>
          -- only the full process table refuses a shell that loads
          have hmax : k1.proc.programCount ≥ programMax := by
            by_contra hlt
            simp only [executeHandler, if_neg hlt, hname, hexec, if_true, Kernel.launch, hload] at h
            cases h
          rw [executeHandler, if_pos hmax] at h
          cases h
          rw [← hcon]
          exact ⟨k1.con.phys, rfl⟩

/-- The console after a tick. -/
theorem tick_boot_con {img : Image} (hfits : ShellFits img) (fr : Frame) (k : Kernel) :
    ∃ phys, (pitInterruptHandler img fr k).con =
      if k.proc.schedPid 0 = 0 then { k.con with videoMem := videoAddr 0, phys := phys }
      else
        { ({ k.con with videoMem := videoAddr (k.proc.currProcess + 1) } :
            Console).schedulerRemapVideo (k.proc.currProcess + 1) with phys := phys } := by
  show ∃ phys, (scheduler img fr k.cli).con = _
  by_cases h0 : k.proc.schedPid 0 = 0
  · have h0' : k.cli.proc.schedPid 0 = 0 := h0
    obtain ⟨phys, hphys⟩ := bootShell_con hfits fr (bottomKernal - 4)
      { k.cli with
        proc := { k.cli.proc with schedPid := Function.update k.cli.proc.schedPid 0 1 }
        con := { k.cli.con with videoMem := videoAddr 0 } }
    refine ⟨phys, ?_⟩
    rw [if_pos h0, scheduler, if_pos h0']
    exact hphys
  · have h0' : ¬ k.cli.proc.schedPid 0 = 0 := h0
    rw [scheduler, if_neg h0']
    simp only [if_neg h0]
    by_cases hnext : (k.cli.proc.saveContext fr).schedPid ((k.cli.proc.saveContext fr).currProcess + 1) = 0
    · simp only [if_pos hnext]
      exact bootShell_con hfits fr _ _
    · simp only [if_neg hnext]
      exact ⟨k.con.phys, rfl⟩

/-- The first half of a switch, up to the copy, maps the page of the displayed terminal. -/
theorem saving_shows {c : Console} (hmap : VideoMap c) (u : Fin 3) :
    (c.saving c.currTerminal).Shows u ↔ u = c.currTerminal ∨ c.Shows u := by
  rw [← mapPage_shows c c.currTerminal u (videoAddr c.currTerminal)]
  unfold Console.saving Console.remapVideo
  dsimp only
  simp [Console.Shows, Console.mapUserVideo, Console.mapPage, Console.setTerm, hmap.vidMemAddr]

/-- The second half maps the page of the new one. -/
theorem restoring_shows {c : Console} (hmap : VideoAt none none c) (t u : Fin 3) :
    (c.restoring t).Shows u ↔ u = t ∨ c.Shows u := by
  rw [← mapPage_shows c t u (videoAddr t)]
  unfold Console.restoring Console.remapVideo
  dsimp only
  simp [Console.Shows, Console.mapUserVideo, Console.mapPage, Console.setTerm, hmap.vidMemAddr]

/-- **`SameCursors c c'`** — no cursor has moved, and no fault was taken. -/
structure SameCursors (c c' : Console) : Prop where
  term : ∀ u, (c'.termArr u).screenX = (c.termArr u).screenX ∧
    (c'.termArr u).screenY = (c.termArr u).screenY
  global : c'.screenX = c.screenX ∧ c'.screenY = c.screenY
  fault : c'.fault = c.fault

theorem SameCursors.trans {c c' c'' : Console} (h : SameCursors c c') (h' : SameCursors c' c'') :
    SameCursors c c'' where
  term u := ⟨(h'.term u).1.trans (h.term u).1, (h'.term u).2.trans (h.term u).2⟩
  global := ⟨h'.global.1.trans h.global.1, h'.global.2.trans h.global.2⟩
  fault := h'.fault.trans h.fault

theorem SameCursors.cursorsOn {c c' : Console} (h : SameCursors c c') (hc : c.CursorsOn) :
    c'.CursorsOn where
  term u := by
    rw [(h.term u).1, (h.term u).2]
    exact hc.term u
  global := by
    rw [h.global.1, h.global.2]
    exact hc.global

theorem SameCursors.saving (c : Console) : SameCursors c (c.saving c.currTerminal) where
  term u := ⟨saving_field (fun _ _ => rfl) (fun _ _ => rfl) c _ u,
    saving_field (fun _ _ => rfl) (fun _ _ => rfl) c _ u⟩
  global := ⟨rfl, rfl⟩
  fault := rfl

theorem SameCursors.restoring (c : Console) (t : Fin 3) : SameCursors c (c.restoring t) where
  term u := ⟨restoring_field (fun _ _ => rfl) c t u, restoring_field (fun _ _ => rfl) c t u⟩
  global := ⟨rfl, rfl⟩
  fault := rfl

/-- A copy between two pages that are both mapped takes no fault. -/
theorem memcpy_boot {c : Console} {dst src p q : Nat}
    (hdst : ∀ i < screenBytes, c.translate (dst + i) = some (4096 * p + i))
    (hsrc : ∀ i < screenBytes, c.translate (src + i) = some (4096 * q + i)) :
    SameCursors c (c.memcpy dst src screenBytes) ∧
    ∀ u, (c.memcpy dst src screenBytes).Shows u ↔ c.Shows u := by
  rw [memcpy_eq (by decide) hdst hsrc]
  exact ⟨⟨fun _ => ⟨rfl, rfl⟩, ⟨rfl, rfl⟩, rfl⟩, fun _ => Iff.rfl⟩

/-- **The first half of a switch.** -/
theorem terminalSaveState_boot {c : Console} (hmap : VideoMap c) :
    VideoAt none none (c.terminalSaveState c.currTerminal) ∧
    SameCursors c (c.terminalSaveState c.currTerminal) ∧
    ∀ u, (c.terminalSaveState c.currTerminal).Shows u ↔ u = c.currTerminal ∨ c.Shows u := by
  have hsaving : VideoAt none none (c.saving c.currTerminal) := hmap.saving
  have hpres : (c.saving c.currTerminal).Shows c.currTerminal := (saving_shows hmap _).mpr (Or.inl rfl)
  obtain ⟨hsame, hshows⟩ := memcpy_boot (c := c.saving c.currTerminal) (p := 0xB9 + c.currTerminal.val)
    (q := 0xB8)
    (fun i hi => (hsaving.translate _ hpres (Nat.lt_trans hi (by decide))).trans
      (by rw [if_neg (Option.some_ne_none _)]))
    fun i hi => hsaving.translate_text (Nat.lt_trans hi (by decide))
  rw [terminalSaveState_eq, hsaving.vidMemAddr]
  exact ⟨hsaving.memory (.memcpy ..), (SameCursors.saving c).trans hsame,
    fun u => (hshows u).trans (saving_shows hmap u)⟩

/-- **The second half.** -/
theorem terminalRestoreState_boot {c : Console} (hmap : VideoAt none none c) (t : Fin 3) :
    VideoAt none (some t) (c.terminalRestoreState t) ∧ SameCursors c (c.terminalRestoreState t) ∧
    ∀ u, (c.terminalRestoreState t).Shows u ↔ u = t ∨ c.Shows u := by
  have hrestoring : VideoAt none (some t) (c.restoring t) := hmap.restoring t
  have hpres : (c.restoring t).Shows t := (restoring_shows hmap t t).mpr (Or.inl rfl)
  obtain ⟨hsame, hshows⟩ := memcpy_boot (c := c.restoring t) (p := 0xB8) (q := 0xB9 + t.val)
    (fun i hi => hrestoring.translate_text (Nat.lt_trans hi (by decide)))
    fun i hi => (hrestoring.translate _ hpres (Nat.lt_trans hi (by decide))).trans
      (by rw [if_neg (Option.some_ne_none _)])
  rw [terminalRestoreState_eq, hrestoring.vidMemAddr]
  exact ⟨hrestoring.memory (.memcpy ..), (SameCursors.restoring c t).trans hsame,
    fun u => (hshows u).trans (restoring_shows hmap t u)⟩

/-- The last assignments of a switch. -/
theorem switchEnd_boot (c : Console) (t : Fin 3) :
    SameCursors c ((c.updateCursor.mapPage (videoAddr t) videoMemAddr).mapUserVideo videoMemAddr) ∧
    ∀ u, ((c.updateCursor.mapPage (videoAddr t) videoMemAddr).mapUserVideo videoMemAddr).Shows u ↔
      u = t ∨ c.Shows u := by
  constructor
  · simp only [Console.mapUserVideo, Console.mapPage, Console.updateCursor]
    exact ⟨fun _ => ⟨rfl, rfl⟩, ⟨rfl, rfl⟩, rfl⟩
  · intro u
    rw [mapUserVideo_shows, mapPage_shows, updateCursor_shows]

/-- **A switch to another terminal**: it maps the pages of both, and takes no fault. -/
theorem terminalSwitch_boot {c : Console} (hmap : VideoMap c) {t : Fin 3} (ht : t ≠ c.currTerminal) :
    (∀ u, (c.terminalSwitch t).1.Shows u ↔ u = t ∨ u = c.currTerminal ∨ c.Shows u) ∧
    SameCursors c (c.terminalSwitch t).1 := by
  obtain ⟨hmap1, hsame1, hshows1⟩ := terminalSaveState_boot hmap
  obtain ⟨hmap2, hsame2, hshows2⟩ := terminalRestoreState_boot hmap1 t
  obtain ⟨hsame3, hshows3⟩ := switchEnd_boot
    ((c.terminalSaveState c.currTerminal).terminalRestoreState t) t
  rw [terminalSwitch_eq c ht]
  dsimp only
  rw [hmap2.updateCursor.vidMemAddr t]
  refine ⟨fun u => ?_, (hsame1.trans hsame2).trans hsame3⟩
  rw [hshows3, hshows2, hshows1]
  exact or_self_left

/-- **`BootScreens n switched k`** — the console after `n` ticks, with or without a switch so far. -/
structure BootScreens (n : Nat) (switched : Bool) (k : Kernel) : Prop where
  table : Started n k.proc
  map : VideoMap k.con
  cursors : k.con.CursorsOn
  first : k.con.Shows 0 ↔ switched = true ∨ 4 ≤ n
  second : 2 ≤ n → k.con.Shows 1
  third : 3 ≤ n → k.con.Shows 2
  displayed : switched = false → k.con.currTerminal = 0

theorem entry_cursorsOn (k : Kernel) : (entry k).con.CursorsOn where
  term u := by
    have hcols : (0 : Nat) < numCols ∧ (0 : Nat) < numRows := by decide
    by_cases hu : u = 0
    · subst hu
      exact hcols
    · have hterm : ((entry k).con.termArr u).screenX = 0 ∧ ((entry k).con.termArr u).screenY = 0 := by
        simp [entry, Console.initTerminal, Console.setTerm, hu]
      rw [hterm.1, hterm.2]
      exact hcols
  global := by
    show (0 : Nat) < numCols ∧ (0 : Nat) < numRows
    decide

theorem entry_shows (k : Kernel) (t : Fin 3) : ¬ (entry k).con.Shows t := by
  have hne : 0xB9 + t.val ≠ 0xB8 := by omega
  have habsent : (entry k).con.pageTable (0xB9 + t.val) = .zero := by
    simp only [entry, Console.initTerminal, Console.setTerm, Console.pagingInitialize, Console.mapPage]
    exact Function.update_of_ne hne _ _
  rw [Console.Shows, habsent]
  decide

theorem BootScreens.of_zeroed {k : Kernel} (h : Zeroed k) : BootScreens 0 false (entry k) where
  table := .of_zeroed h
  map := VideoMap.initial k.con.resetUnpaged
  cursors := entry_cursorsOn k
  first := by
    have habsent := entry_shows k 0
    simp [habsent]
  second hn := absurd hn (by decide)
  third hn := absurd hn (by decide)
  displayed _ := rfl

/-- The terminal of the process that runs after `n` ticks has its page, but for the very first
shell. -/
theorem BootScreens.shows_iff {n : Nat} {switched : Bool} {k : Kernel} (h : BootScreens n switched k)
    (hn : 0 < n) : k.con.Shows k.proc.currProcess ↔ ¬ (n = 1 ∧ switched = false) := by
  have hcurr := h.table.currProcess
  have hself : ∀ t : Fin 3, t.val = (n - 1) % 3 → k.proc.currProcess = t := fun t ht =>
    Fin.ext (hcurr.trans ht.symm)
  have hcases : (n - 1) % 3 = 0 ∨ (n - 1) % 3 = 1 ∨ (n - 1) % 3 = 2 := by omega
  rcases hcases with h0 | h1 | h2
  · rw [hself 0 h0.symm, h.first]
    cases switched with
    | true => simp
    | false =>
        simp only [Bool.false_eq_true, false_or, and_true]
        omega
  · rw [hself 1 h1.symm]
    exact ⟨fun _ hone => by omega, fun _ => h.second (by omega)⟩
  · rw [hself 2 h2.symm]
    exact ⟨fun _ hone => by omega, fun _ => h.third (by omega)⟩

/-- **A tick**: the page of the slot it moves to is mapped; the first tick moves to none. -/
theorem BootScreens.tick {img : Image} (hfits : ShellFits img) (fr : Frame) {n : Nat} {switched : Bool}
    {k : Kernel} (h : BootScreens n switched k) :
    BootScreens (n + 1) switched (pitInterruptHandler img fr k) ∧
    (pitInterruptHandler img fr k).con.fault = k.con.fault := by
  have htable : Started (n + 1) (pitInterruptHandler img fr k).proc := h.table.tick hfits.loads
  have hmap := h.map.tick img fr
  obtain ⟨phys, hcon⟩ := tick_boot_con hfits fr k
  generalize pitInterruptHandler img fr k = k' at htable hmap hcon
  by_cases h0 : n = 0
  · subst h0
    have hzero : k.proc.schedPid 0 = 0 := h.table.schedPid 0
    rw [if_pos hzero] at hcon
    have hshows : ∀ t, k'.con.Shows t ↔ k.con.Shows t := by
      intro t
      rw [hcon]
      exact Iff.rfl
    refine ⟨⟨htable, hmap, ?_, ?_, fun hn => absurd hn (by decide), fun hn => absurd hn (by decide), ?_⟩, ?_⟩
    · rw [hcon]
      exact ⟨h.cursors.term, h.cursors.global⟩
    · rw [hshows, h.first]
      simp
    · rw [hcon]
      exact h.displayed
    · rw [hcon]
  · have hne : ¬ k.proc.schedPid 0 = 0 := by
      have hpos : ((0 : Fin 3) : Nat) < n := Nat.pos_of_ne_zero h0
      rw [h.table.schedPid 0, if_pos hpos]
      exact Nat.one_ne_zero
    rw [if_neg hne] at hcon
    have hshows : ∀ t, k'.con.Shows t ↔ t = k.proc.currProcess + 1 ∨ k.con.Shows t := by
      intro t
      have hmapped := schedulerRemapVideo_shows
        { k.con with videoMem := videoAddr (k.proc.currProcess + 1) } (k.proc.currProcess + 1) t
      rw [hcon]
      exact hmapped
    have hnext : (k.proc.currProcess + 1).val = n % 3 := by
      have hval := h.table.currProcess
      rw [Fin.val_add, hval]
      show ((n - 1) % 3 + 1) % 3 = n % 3
      omega
    have hslot : ∀ t : Fin 3, t = k.proc.currProcess + 1 ↔ t.val = n % 3 := fun t =>
      ⟨fun heq => heq ▸ hnext, fun heq => Fin.ext (heq.trans hnext.symm)⟩
    refine ⟨⟨htable, hmap, ?_, ?_, fun hn => ?_, fun hn => ?_, ?_⟩, ?_⟩
    · rw [hcon]
      exact ⟨h.cursors.term, h.cursors.global⟩
    · rw [hshows, hslot, h.first]
      show 0 = n % 3 ∨ _ ↔ _
      constructor
      · rintro (h3 | hs | h4)
        · exact Or.inr (by omega)
        · exact Or.inl hs
        · exact Or.inr (by omega)
      · rintro (hs | h4)
        · exact Or.inr (Or.inl hs)
        · by_cases h3 : n = 3
          · exact Or.inl (by omega)
          · exact Or.inr (Or.inr (by omega))
    · rw [hshows, hslot]
      by_cases h1 : n = 1
      · exact Or.inl (by subst h1; rfl)
      · exact Or.inr (h.second (by omega))
    · rw [hshows, hslot]
      by_cases h2 : n = 2
      · exact Or.inl (by subst h2; rfl)
      · exact Or.inr (h.third (by omega))
    · rw [hcon]
      exact h.displayed
    · rw [hcon]
      rfl

/-- **A switch**: to terminal 1 or 2 it is the first one away from terminal 0, or there was one before. -/
theorem BootScreens.terminalSwitch {n : Nat} {switched : Bool} {k : Kernel}
    (h : BootScreens n switched k) (idx : Nat) :
    BootScreens n (switched || (idx == 1 || idx == 2)) { k with con := (k.con.terminalSwitch idx).1 } ∧
    (k.con.terminalSwitch idx).1.fault = k.con.fault := by
  have hmap := h.map.terminalSwitch idx
  by_cases hnone : idx = k.con.currTerminal.val ∨ 3 ≤ idx
  · -- nothing happens; if `idx` is 1 or 2, that terminal is displayed already
    have hsame : (switched || (idx == 1 || idx == 2)) = switched := by
      cases hsw : switched with
      | true => rfl
      | false =>
          have h0 := congrArg Fin.val (h.displayed hsw)
          have hidx : idx ≠ 1 ∧ idx ≠ 2 := by
            rcases hnone with heq | hge
            · have h0' : k.con.currTerminal.val = 0 := h0
              omega
            · omega
          simp [hidx]
    rw [hsame, terminalSwitch_of_not hnone]
    exact ⟨h, rfl⟩
  · obtain ⟨t, rfl⟩ : ∃ t : Fin 3, t.val = idx := ⟨⟨idx, by omega⟩, rfl⟩
    have ht : t ≠ k.con.currTerminal := fun heq => hnone (Or.inl (congrArg Fin.val heq))
    obtain ⟨hshows, hsame⟩ := terminalSwitch_boot h.map ht
    have hfirst : (k.con.terminalSwitch t).1.Shows 0 := by
      rw [hshows]
      cases hsw : switched with
      | true => exact Or.inr (Or.inr (h.first.mpr (Or.inl hsw)))
      | false => exact Or.inr (Or.inl (h.displayed hsw).symm)
    have hswitched : (switched || (t.val == 1 || t.val == 2)) = true := by
      cases hsw : switched with
      | true => rfl
      | false =>
          have hval : t.val ≠ 0 := fun h0 => ht ((Fin.ext h0).trans (h.displayed hsw).symm)
          have hcases : t.val = 1 ∨ t.val = 2 := by omega
          rcases hcases with h1 | h2
          · simp [h1]
          · simp [h2]
    rw [hswitched]
    refine ⟨⟨h.table, hmap, hsame.cursorsOn h.cursors, ?_, fun hn => ?_, fun hn => ?_, fun hf => ?_⟩,
      hsame.fault⟩
    · exact ⟨fun _ => Or.inl rfl, fun _ => hfirst⟩
    · exact (hshows 1).mpr (Or.inr (Or.inr (h.second hn)))
    · exact (hshows 2).mpr (Or.inr (Or.inr (h.third hn)))
    · cases hf

/-- **A write of text**: it faults exactly in the window. -/
theorem BootScreens.terminalWrite {n : Nat} {switched : Bool} {k : Kernel} (h : BootScreens n switched k)
    (hn : 0 < n) {buf : List UInt8} (hbuf : ∃ ch ∈ buf, Plain ch) :
    BootScreens n switched
      { k with con := (k.con.terminalWrite k.proc.currProcess buf).1, proc := k.proc.sti } ∧
    (k.con.terminalWrite k.proc.currProcess buf).1.fault =
      (k.con.fault || (n == 1 && !switched)) := by
  have hout := Draws.terminalWrite (h.map.permits (t := k.proc.currProcess)) (fun _ => trivial) buf
  have hshows : ∀ t, (k.con.terminalWrite k.proc.currProcess buf).1.Shows t ↔ k.con.Shows t := by
    intro t
    rw [Console.Shows, hout.kept.pageTable, Console.Shows]
  refine ⟨⟨h.table.retabled (.of_flag _ true), hout.videoMap h.map, hout.cursorsOn h.cursors, ?_, fun hn => ?_,
    fun hn => ?_, fun hsw => hout.kept.currTerminal.trans (h.displayed hsw)⟩, ?_⟩
  · rw [hshows]
    exact h.first
  · exact (hshows 1).mpr (h.second hn)
  · exact (hshows 2).mpr (h.third hn)
  · have hiff := h.shows_iff hn
    by_cases hwindow : n = 1 ∧ switched = false
    · have habsent : ¬ k.con.Shows k.proc.currProcess := fun hs => hiff.mp hs hwindow
      obtain ⟨rfl, rfl⟩ := hwindow
      rw [terminalWrite_fault h.map h.cursors habsent hbuf]
      simp
    · rw [hout.quiet (hiff.mpr hwindow) (h.map.vidMemAddr _) h.cursors]
      have hfalse : (n == 1 && !switched) = false := by
        cases switched with
        | true => simp
        | false =>
            have hne : n ≠ 1 := fun heq => hwindow ⟨heq, rfl⟩
            simp [hne]
      rw [hfalse, Bool.or_false]

/-! ## Runs -/

/-- The timer ticks among some events. -/
def screenTicks (es : List ScreenEvent) : Nat :=
  (es.filter fun e => match e with
    | .tick _ => true
    | _ => false).length

/-- A switch to terminal 1 or 2 is among the events. -/
def switchedAway (es : List ScreenEvent) : Bool :=
  es.any fun e => match e with
    | .terminalSwitch idx => idx == 1 || idx == 2
    | _ => false

/-- **`InWindow before`** — one tick has started the first shell, and no switch has mapped its page. -/
def InWindow (before : List ScreenEvent) : Prop := screenTicks before = 1 ∧ switchedAway before = false

/-- The run lemma, from any point of the boot. -/
theorem BootScreens.run {img : Image} (hfits : ShellFits img) {n : Nat} {switched : Bool} {k k' : Kernel}
    {es : List ScreenEvent} (h : BootScreens n switched k) (hrun : Run (ScreenStep img) k es k')
    (hwrites : ∀ before buf after, es = before ++ .terminalWrite buf :: after →
      0 < n + screenTicks before ∧ ∃ ch ∈ buf, Plain ch) :
    k'.con.fault = false ↔ k.con.fault = false ∧
      ∀ before buf after, es = before ++ .terminalWrite buf :: after →
        ¬ (n + screenTicks before = 1 ∧ (switched || switchedAway before) = false) := by
  induction es generalizing n switched k with
  | nil =>
      obtain rfl := hrun
      refine ⟨fun hf => ⟨hf, fun before buf after hes => ?_⟩, fun hf => hf.1⟩
      exact absurd hes.symm (by simp)
  | cons e es ih =>
      obtain ⟨m, hm, hrest⟩ := hrun
      -- a write of the rest is one of the whole, with `e` in front of its prefix
      have hcons : ∀ before buf after, es = before ++ .terminalWrite buf :: after →
          e :: es = (e :: before) ++ .terminalWrite buf :: after := fun before buf after hes => by
        rw [hes, List.cons_append]
      have hsplit : ∀ {P : List ScreenEvent → List UInt8 → Prop},
          (∀ before buf after, e :: es = before ++ .terminalWrite buf :: after → P before buf) ↔
          (∀ buf, e = .terminalWrite buf → P [] buf) ∧
            ∀ before buf after, es = before ++ .terminalWrite buf :: after → P (e :: before) buf := by
        intro P
        constructor
        · exact fun hall => ⟨fun buf he => hall [] buf es (by rw [he]; rfl),
            fun before buf after hes => hall _ buf after (hcons before buf after hes)⟩
        · rintro ⟨hfirst, hlater⟩ before buf after hes
          cases before with
          | nil => exact hfirst buf (List.cons.inj hes).1
          | cons b before =>
              obtain ⟨hb, htail⟩ := List.cons.inj hes
              subst hb
              exact hlater before buf after htail
      rw [hsplit]
      obtain ⟨hfirst, hlater⟩ := hsplit.mp hwrites
      cases e with
      | tick fr =>
          obtain rfl := hm
          obtain ⟨hnext, hfault⟩ := h.tick hfits fr
          have hticks : ∀ before : List ScreenEvent,
              n + screenTicks (.tick fr :: before) = n + 1 + screenTicks before := by
            intro before
            show n + (screenTicks before + 1) = n + 1 + screenTicks before
            omega
          rw [ih hnext hrest fun before buf after hes => hticks before ▸ hlater before buf after hes, hfault]
          refine and_congr_right fun _ => ⟨fun hall => ⟨fun buf he => ScreenEvent.noConfusion he,
            fun before buf after hes => ?_⟩, fun hall before buf after hes => ?_⟩
          · rw [hticks]
            exact hall before buf after hes
          · have hone := hall.2 before buf after hes
            rw [hticks] at hone
            exact hone
      | terminalSwitch idx =>
          obtain rfl := hm
          obtain ⟨hnext, hfault⟩ := h.terminalSwitch idx
          have haway : ∀ before : List ScreenEvent,
              (switched || switchedAway (.terminalSwitch idx :: before)) =
                ((switched || (idx == 1 || idx == 2)) || switchedAway before) := by
            intro before
            rw [Bool.or_assoc]
            rfl
          rw [ih hnext hrest hlater]
          show (k.con.terminalSwitch idx).1.fault = false ∧ _ ↔ _
          rw [hfault]
          refine and_congr_right fun _ => ⟨fun hall => ⟨fun buf he => ScreenEvent.noConfusion he,
            fun before buf after hes => ?_⟩, fun hall before buf after hes => ?_⟩
          · rw [haway]
            exact hall before buf after hes
          · have hone := hall.2 before buf after hes
            rw [haway] at hone
            exact hone
      | terminalWrite buf =>
          obtain rfl := hm
          obtain ⟨hpos, hbuf⟩ := hfirst buf rfl
          obtain ⟨hnext, hfault⟩ := h.terminalWrite hpos hbuf
          rw [ih hnext hrest hlater]
          show (k.con.terminalWrite k.proc.currProcess buf).1.fault = false ∧ _ ↔ _
          rw [hfault]
          have hhere : (k.con.fault || (n == 1 && !switched)) = false ↔
              k.con.fault = false ∧ ¬ (n = 1 ∧ switched = false) := by
            cases k.con.fault with
            | true => simp
            | false =>
                cases switched with
                | true => simp
                | false => simp
          rw [hhere, and_assoc]
          refine and_congr_right fun _ => and_congr ?_ Iff.rfl
          constructor
          · intro hnot buf' _
            show ¬ (n + 0 = 1 ∧ (switched || false) = false)
            rw [Bool.or_false]
            exact hnot
          · intro hall
            have hnot : ¬ (n + 0 = 1 ∧ (switched || false) = false) := hall buf rfl
            rw [Bool.or_false] at hnot
            exact hnot

/-- **The boot window.**  From power-on, with a shell that fits its page, along every run of ticks,
terminal switches and writes of text by the processes there are: the kernel takes no page fault exactly
if no write falls between the first tick and the second before the first switch to terminal 1 or 2. -/
theorem first_output_iff {img : Image} {k k' : Kernel} {es : List ScreenEvent} (hzero : Zeroed k)
    (hfault : k.con.fault = false) (hfits : ShellFits img)
    (hrun : Run (ScreenStep img) (entry k) es k')
    (hwrites : ∀ before buf after, es = before ++ .terminalWrite buf :: after →
      0 < screenTicks before ∧ ∃ ch ∈ buf, Plain ch) :
    k'.con.fault = false ↔
      ∀ before buf after, es = before ++ .terminalWrite buf :: after → ¬ InWindow before := by
  have hstart : (entry k).con.fault = false := hfault
  rw [(BootScreens.of_zeroed hzero).run hfits hrun fun before buf after hes => by
    rw [Nat.zero_add]
    exact hwrites before buf after hes]
  simp only [hstart, true_and, Nat.zero_add, Bool.false_or, InWindow]

/-- The four bytes of "shell" and the one behind them are in the user page. -/
theorem shellFits_shellImage : ShellFits shellImage := by
  have hname : readDentryByName shellImage (parseName shellName).1 = some (shellImage.dentry 0) := by decide
  have hloads : Loads shellImage (shellImage.dentry 0).inodeNum 0
      (programStores shellImage (shellImage.dentry 0).inodeNum) := loads_file (by decide) (by decide)
  refine ⟨_, _, hname, by decide, hloads.loadLoop (Nat.le_add_left _ _), fun s hs => ?_⟩
  obtain ⟨j, hj, rfl⟩ := List.mem_map.mp hs
  have hlength : shellImage.inodeLength (shellImage.dentry 0).inodeNum = 4 := by decide
  have hj := List.mem_range.mp hj
  rw [hlength] at hj
  show (virtualAddr + j) / pageSize = 32
  unfold virtualAddr pageSize
  omega

/-- The first shell writes "a" after a switch to terminal 1. -/
theorem first_output_switched :
    ∃ k', Run (ScreenStep shellImage) (entry loadedKernel)
        [.tick (.at 0 0), .terminalSwitch 1, .terminalWrite [97]] k' ∧ k'.con.fault = false := by
  have hrun : Run (ScreenStep shellImage) (entry loadedKernel)
      [.tick (.at 0 0), .terminalSwitch 1, .terminalWrite [97]] _ := ⟨_, rfl, _, rfl, _, rfl, rfl⟩
  have hsplit : ∀ (before : List ScreenEvent) (buf : List UInt8) (after : List ScreenEvent),
      [.tick (.at 0 0), .terminalSwitch 1, .terminalWrite [97]] = before ++ .terminalWrite buf :: after →
      before = [.tick (.at 0 0), .terminalSwitch 1] ∧ buf = [97] := by
    intro before buf after hes
    match before, hes with
    | [], hes => cases (List.cons.inj hes).1
    | [_], hes => cases (List.cons.inj (List.cons.inj hes).2).1
    | [_, _], hes => cases hes; exact ⟨rfl, rfl⟩
    | _ :: _ :: _ :: before, hes =>
        have hlen := congrArg List.length hes
        simp only [List.length_cons, List.length_append, List.length_nil] at hlen
        omega
  refine ⟨_, hrun, (first_output_iff zeroed_loadedKernel rfl shellFits_shellImage hrun ?_).mpr ?_⟩
  · intro before buf after hes
    obtain ⟨rfl, rfl⟩ := hsplit before buf after hes
    exact ⟨by decide, 97, by decide, by decide, by decide, by decide⟩
  · intro before buf after hes
    obtain ⟨rfl, rfl⟩ := hsplit before buf after hes
    exact fun h => absurd h.2 (by decide)

end Ece391
