/-
# Ece391.Terminals.Drawing — what the console routines may change.

The routines of `lib.c`, `terminal.c` and `keyboard.c` that draw are put together from a few kinds of
assignments: the cursor and the other globals of `lib.c`, the cursor and the character count of a terminal,
a byte behind the page table, an `enterFlag`, the line buffer.  `Draws P` relates two consoles if a
sequence of such assignments leads from one to the other, where `P` says which of the last three are
reached.

There is one lemma for each routine, with the least it needs.  What is to be shown about all of them (that
the saved line buffers stay, that memory changes below 8 MB only, that no absent page is stored to) is
shown for the kinds of assignments alone, and `Draws.lift` carries it to the routines.
-/
import Mathlib.Logic.Relation
import Ece391.Kernel.Keyboard
import Ece391.Terminals.Mapping

open Ece391.Lib

namespace Ece391

/-! ## The order of scrolling -/

/-- The cells that `vert_scroll` visits are on the screen. -/
theorem mem_scrollOrder {kl : Nat × Nat} (h : kl ∈ Console.scrollOrder) :
    1 ≤ kl.1 ∧ kl.1 < numRows ∧ kl.2 < numCols := by
  simp only [Console.scrollOrder, List.mem_flatMap, List.mem_range, List.mem_map] at h
  obtain ⟨k, hk, l, hl, rfl⟩ := h
  refine ⟨by omega, ?_, hl⟩
  show k + 1 < numRows
  omega

/-- `vert_scroll` over any list of cells; the source's list is `scrollOrder`. -/
def Console.scrollWith (c : Console) (t : Fin 3) (cells : List (Nat × Nat)) : Console :=
  let c := c.loadCursor t
  let c :=
    if c.screenY = numRows - 1 ∧ c.scrollFlag = 1 then
      { cells.foldl (Console.scrollCell t) c with scrollFlag := 0 }
    else c
  let c := c.updateCursor
  c.setTerm t fun term => { term with screenX := c.screenX % 256 }

/-! ## Assignments -/

/-- The cursors of all terminals, and the globals, are on the screen. -/
structure Console.CursorsOn (c : Console) : Prop where
  term : ∀ u, (c.termArr u).screenX < numCols ∧ (c.termArr u).screenY < numRows
  global : c.screenX < numCols ∧ c.screenY < numRows

/-- What an assignment reaches besides the cursors. -/
inductive Reach
  | byte (va : Nat)
  | enterFlag
  | line

/-- **`DrawStep P c c'`** — one assignment, of what `P` permits.  Cursors that are on the screen stay
there. -/
inductive DrawStep (P : Console → Reach → Prop) (c : Console) : Console → Prop
  | globals {x y : Nat} (scrollFlag videoMem vgaCursor : Nat)
      (h : c.CursorsOn → x < numCols ∧ y < numRows) :
      DrawStep P c { c with
        screenX := x, screenY := y, scrollFlag := scrollFlag, videoMem := videoMem
        vgaCursor := vgaCursor }
  | cursor (t : Fin 3) {x y : Nat} (newlineTracker : Nat)
      (h : c.CursorsOn → x < numCols ∧ y < numRows) :
      DrawStep P c (c.setTerm t fun term =>
        { term with screenX := x, screenY := y, newlineTracker := newlineTracker })
  | byte {va : Nat} (v : UInt8) (h : P c (.byte va)) : DrawStep P c (c.storeByte va v)
  | enterFlag (t : Fin 3) (v : Nat) (h : P c .enterFlag) :
      DrawStep P c (c.setTerm t fun term => { term with enterFlag := v })
  | line (keys : Nat → UInt8) (index : Int) (h : P c .line) :
      DrawStep P c { c with keyBuffer := keys, keyBufferIndex := index }

/-- **`Draws P c c'`** — a sequence of them. -/
def Draws (P : Console → Reach → Prop) : Console → Console → Prop := Relation.ReflTransGen (DrawStep P)

namespace Draws

variable {P Q : Console → Reach → Prop} {t : Fin 3} {c c' c'' : Console}

theorem refl (c : Console) : Draws P c c := Relation.ReflTransGen.refl

theorem trans (h : Draws P c c') (h' : Draws P c' c'') : Draws P c c'' := Relation.ReflTransGen.trans h h'

theorem step (h : DrawStep P c c') : Draws P c c' := .single h

theorem mono (hPQ : ∀ c r, P c r → Q c r) (h : Draws P c c') : Draws Q c c' := by
  refine Relation.ReflTransGen.mono (fun c c' hs => ?_) _ _ h
  cases hs with
  | globals scrollFlag videoMem vgaCursor h => exact .globals scrollFlag videoMem vgaCursor h
  | cursor t n h => exact .cursor t n h
  | byte v h => exact .byte v (hPQ _ _ h)
  | enterFlag t v h => exact .enterFlag t v (hPQ _ _ h)
  | line keys index h => exact .line keys index (hPQ _ _ h)

/-- **The rule**: a relation that composes, and holds of each assignment, holds of the routines. -/
theorem lift {R : Console → Console → Prop} (hrefl : ∀ c, R c c)
    (htrans : ∀ c c' c'', R c c' → R c' c'' → R c c'') (hstep : ∀ c c', DrawStep P c c' → R c c')
    (h : Draws P c c') : R c c' := by
  induction h with
  | refl => exact hrefl c
  | tail _ hs ih => exact htrans _ _ _ ih (hstep _ _ hs)

/-- A part of the console that each assignment leaves alone. -/
theorem frame {β : Type*} {f : Console → β} (hstep : ∀ c c', DrawStep P c c' → f c' = f c)
    (h : Draws P c c') : f c' = f c :=
  h.lift (R := fun c c' => f c' = f c) (fun _ => rfl) (fun _ _ _ h h' => h'.trans h) hstep

/-- A list of steps. -/
theorem foldl {α : Type*} {f : Console → α → Console} {as : List α}
    (hf : ∀ c, ∀ a ∈ as, Draws P c (f c a)) (c : Console) : Draws P c (as.foldl f c) := by
  induction as generalizing c with
  | nil => exact refl c
  | cons a as ih =>
      exact (hf c a (by simp)).trans (ih (fun c b hb => hf c b (by simp [hb])) _)

/-! ## What no assignment reaches -/

/-- The terminal displayed, the page tables, and what `term_arr` has besides cursors and flags. -/
structure Kept (c c' : Console) : Prop where
  currTerminal : c'.currTerminal = c.currTerminal
  pageTable : c'.pageTable = c.pageTable
  pageVirtualMem : c'.pageVirtualMem = c.pageVirtualMem
  visible : ∀ u, (c'.termArr u).visible = (c.termArr u).visible
  vidMemAddr : ∀ u, (c'.termArr u).vidMemAddr = (c.termArr u).vidMemAddr
  keyBuf : ∀ u, (c'.termArr u).keyBuf = (c.termArr u).keyBuf

theorem Kept.setTerm (t : Fin 3) {f : Terminal → Terminal}
    (hvis : (f (c.termArr t)).visible = (c.termArr t).visible)
    (hvid : (f (c.termArr t)).vidMemAddr = (c.termArr t).vidMemAddr)
    (hbuf : (f (c.termArr t)).keyBuf = (c.termArr t).keyBuf) : Kept c (c.setTerm t f) :=
  ⟨rfl, rfl, rfl, Console.setTerm_field _ hvis, Console.setTerm_field _ hvid,
    Console.setTerm_field _ hbuf⟩

theorem kept (h : Draws P c c') : Kept c c' := by
  refine h.lift (fun c => ⟨rfl, rfl, rfl, fun _ => rfl, fun _ => rfl, fun _ => rfl⟩) ?_ ?_
  · intro c c' c'' h h'
    exact ⟨h'.currTerminal.trans h.currTerminal, h'.pageTable.trans h.pageTable,
      h'.pageVirtualMem.trans h.pageVirtualMem, fun u => (h'.visible u).trans (h.visible u),
      fun u => (h'.vidMemAddr u).trans (h.vidMemAddr u), fun u => (h'.keyBuf u).trans (h.keyBuf u)⟩
  · intro c c' hs
    cases hs with
    | globals => exact ⟨rfl, rfl, rfl, fun _ => rfl, fun _ => rfl, fun _ => rfl⟩
    | cursor t => exact .setTerm t rfl rfl rfl
    | @byte va v =>
        obtain ⟨phys, fault, hm⟩ := Console.MemoryOf.storeByte c va v
        rw [hm]
        exact ⟨rfl, rfl, rfl, fun _ => rfl, fun _ => rfl, fun _ => rfl⟩
    | enterFlag t => exact .setTerm t rfl rfl rfl
    | line => exact ⟨rfl, rfl, rfl, fun _ => rfl, fun _ => rfl, fun _ => rfl⟩

theorem videoMap (h : Draws P c c') (hmap : VideoMap c) : VideoMap c' := by
  rw [VideoMap, h.kept.currTerminal]
  exact ⟨h.kept.pageTable ▸ hmap.text, fun u => h.kept.pageTable ▸ hmap.pages u,
    fun u => (h.kept.visible u).trans (hmap.visible u),
    fun u => (h.kept.vidMemAddr u).trans (hmap.vidMemAddr u)⟩

theorem cursorsOn (h : Draws P c c') : c.CursorsOn → c'.CursorsOn := by
  have hterm : ∀ (c : Console) (t : Fin 3) (f : Terminal → Terminal), c.CursorsOn →
      ((f (c.termArr t)).screenX < numCols ∧ (f (c.termArr t)).screenY < numRows) →
      (c.setTerm t f).CursorsOn := by
    intro c t f hc hf
    refine ⟨fun u => ?_, hc.global⟩
    by_cases hu : u = t
    · simpa only [hu, Console.setTerm, Function.update_self] using hf
    · simpa only [Console.setTerm, Function.update_of_ne hu] using hc.term u
  refine h.lift (R := fun c c' => c.CursorsOn → c'.CursorsOn) (fun _ => id) (fun _ _ _ h h' => h' ∘ h)
    fun c c' hs hc => ?_
  cases hs with
  | globals scrollFlag videoMem vgaCursor h => exact ⟨hc.term, h hc⟩
  | cursor t n h => exact hterm c t _ hc (h hc)
  | @byte va v =>
      obtain ⟨phys, fault, hm⟩ := Console.MemoryOf.storeByte c va v
      rw [hm]
      exact ⟨hc.term, hc.global⟩
  | enterFlag t v => exact hterm c t _ hc (hc.term t)
  | line => exact ⟨hc.term, hc.global⟩

/-- The line buffer, unless it is reached. -/
theorem keys (h : Draws P c c') (hP : ∀ c, ¬ P c .line) :
    c'.keyBuffer = c.keyBuffer ∧ c'.keyBufferIndex = c.keyBufferIndex := by
  have hframe : (c'.keyBuffer, c'.keyBufferIndex) = (c.keyBuffer, c.keyBufferIndex) := by
    refine h.frame (f := fun c => (c.keyBuffer, c.keyBufferIndex)) fun c c' hs => ?_
    cases hs with
    | @byte va v =>
        obtain ⟨phys, fault, hm⟩ := Console.MemoryOf.storeByte c va v
        rw [hm]
    | line keys index hline => exact absurd hline (hP c)
    | globals | cursor | enterFlag => rfl
  exact ⟨congrArg Prod.fst hframe, congrArg Prod.snd hframe⟩

/-- The flags, unless they are reached. -/
theorem flags (h : Draws P c c') (hP : ∀ c, ¬ P c .enterFlag) (u : Fin 3) :
    (c'.termArr u).enterFlag = (c.termArr u).enterFlag := by
  refine h.frame (f := fun c => (c.termArr u).enterFlag) fun c c' hs => ?_
  cases hs with
  | cursor t => exact Console.setTerm_field Terminal.enterFlag rfl u
  | @byte va v =>
      obtain ⟨phys, fault, hm⟩ := Console.MemoryOf.storeByte c va v
      rw [hm]
  | enterFlag t v hflag => exact absurd hflag (hP c)
  | globals | line => rfl

/-- A page fault is not forgotten. -/
theorem fault (h : Draws P c c') : c.fault = true → c'.fault = true := by
  refine h.lift (R := fun c c' => c.fault = true → c'.fault = true) (fun _ => id)
    (fun _ _ _ h h' => h' ∘ h) fun c c' hs hf => ?_
  cases hs with
  | byte v =>
      unfold Console.storeByte
      split
      · exact hf
      · rfl
  | globals | cursor | enterFlag | line => exact hf

/-! ## What is reached -/

/-- Everything. -/
def anything : Console → Reach → Prop := fun _ _ => True

theorem any (h : Draws P c c') : Draws anything c c' := h.mono fun _ _ _ => trivial

/-- Bytes of memory. -/
def bytes : Console → Reach → Prop
  | _, .byte _ => True
  | _, _ => False

/-- Bytes of the page of terminal `t`, as long as the cursors are on the screen. -/
def page (t : Fin 3) : Console → Reach → Prop
  | c, .byte va => (c.termArr t).vidMemAddr = videoAddr t → c.CursorsOn →
      ∃ i < 4096, va = videoAddr t + i
  | _, _ => False

/-! ## Cursors -/

theorem loadCursor (c : Console) (t : Fin 3) : Draws P c (c.loadCursor t) :=
  step (.globals c.scrollFlag c.videoMem c.vgaCursor fun hc => hc.term t)

theorem loadPage (c : Console) (t : Fin 3) :
    Draws P c { c with videoMem := (c.termArr t).vidMemAddr } :=
  step (.globals c.scrollFlag (c.termArr t).vidMemAddr c.vgaCursor fun hc => hc.global)

theorem updateCursor (c : Console) : Draws P c c.updateCursor :=
  step (.globals c.scrollFlag c.videoMem _ fun hc => hc.global)

/-- The global cursor is moved. -/
theorem setCursor (c : Console) {x y : Nat} (h : c.CursorsOn → x < numCols ∧ y < numRows) :
    Draws P c { c with screenX := x, screenY := y } :=
  step (.globals c.scrollFlag c.videoMem c.vgaCursor h)

theorem saveCursor (c : Console) (t : Fin 3) : Draws P c (c.saveCursor t) := by
  refine step (.cursor t (c.termArr t).newlineTracker fun hc => ?_)
  obtain ⟨hx, hy⟩ := hc.global
  exact ⟨Nat.lt_of_le_of_lt (Nat.mod_le _ _) hx, Nat.lt_of_le_of_lt (Nat.mod_le _ _) hy⟩

theorem tracker (c : Console) (t : Fin 3) (g : Nat → Nat) :
    Draws P c (c.setTerm t fun term => { term with newlineTracker := g term.newlineTracker }) :=
  step (.cursor t (g (c.termArr t).newlineTracker) fun hc => hc.term t)

theorem enterAt (c : Console) (t : Fin 3) : Draws P c (c.enterAt t) := by
  have hcols : (0 : Nat) < numCols := by decide
  unfold Console.enterAt
  dsimp only
  refine trans ?_ (saveCursor _ t)
  split
  · exact (loadCursor c t).trans (step (.globals 1 c.videoMem c.vgaCursor fun hc => ⟨hcols, hc.global.2⟩))
  next hne =>
    refine (loadCursor c t).trans (step (.globals 0 c.videoMem c.vgaCursor fun hc => ⟨hcols, ?_⟩))
    have hy : (c.loadCursor t).screenY < numRows := hc.global.2
    show (c.loadCursor t).screenY + 1 < numRows
    omega

theorem newlineCheckAt (c : Console) (t : Fin 3) : Draws P c (c.newlineCheckAt t) := by
  have hcols : (0 : Nat) < numCols := by decide
  unfold Console.newlineCheckAt
  dsimp only
  refine trans ?_ (saveCursor _ t)
  split
  · exact (loadCursor c t).trans (step (.globals 1 c.videoMem c.vgaCursor fun hc => ⟨hcols, hc.global.2⟩))
  · exact (loadCursor c t).trans (setCursor _ fun hc => ⟨hcols, hc.global.2⟩)

/-! ## The screen -/

/-- A cell of the screen is in its page. -/
theorem cell_lt {k l i : Nat} (hk : k < numRows) (hl : l < numCols) (hi : i ≤ 1) :
    2 * (numCols * k + l) + i < 4096 := by
  unfold numRows numCols at *
  omega

/-- The two stores of a turn of `vert_scroll`. -/
theorem scrollCell_body {kl : Nat × Nat} (hkl : kl ∈ Console.scrollOrder) {m : Console}
    (hmem : m.videoMem = (m.termArr t).vidMemAddr) :
    let i := numCols * kl.1 + kl.2
    let m' := if m.loadByte (m.videoMem + 2 * i) ≠ 0 then
      m.storeByte (m.videoMem + 2 * (numCols * (kl.1 - 1) + kl.2)) (m.loadByte (m.videoMem + 2 * i)) else m
    Draws (page t) m (if kl.1 = numRows - 1 then m'.storeByte (m'.videoMem + 2 * i) space else m') := by
  obtain ⟨h1, hrow, hcol⟩ := mem_scrollOrder hkl
  have hcell : ∀ (m : Console) (a : Nat) (v : UInt8), m.videoMem = (m.termArr t).vidMemAddr →
      (a = numCols * kl.1 + kl.2 ∨ a = numCols * (kl.1 - 1) + kl.2) →
      Draws (page t) m (m.storeByte (m.videoMem + 2 * a) v) := by
    intro m a v hmem ha
    refine step (.byte v fun hv _ => ?_)
    rw [hmem, hv]
    rcases ha with rfl | rfl
    · exact ⟨_, cell_lt hrow hcol (Nat.zero_le 1), rfl⟩
    · exact ⟨_, cell_lt (Nat.lt_of_le_of_lt (Nat.sub_le _ _) hrow) hcol (Nat.zero_le 1), rfl⟩
  intro i m'
  have hcopy : Draws (page t) m m' ∧ m'.videoMem = (m'.termArr t).vidMemAddr := by
    by_cases hnul : m.loadByte (m.videoMem + 2 * i) ≠ 0
    · have heq : m' = m.storeByte (m.videoMem + 2 * (numCols * (kl.1 - 1) + kl.2))
          (m.loadByte (m.videoMem + 2 * i)) := if_pos hnul
      obtain ⟨phys, fault, hm⟩ := Console.MemoryOf.storeByte m
        (m.videoMem + 2 * (numCols * (kl.1 - 1) + kl.2)) (m.loadByte (m.videoMem + 2 * i))
      refine ⟨heq ▸ hcell m _ _ hmem (Or.inr rfl), ?_⟩
      rw [heq, hm]
      exact hmem
    · have heq : m' = m := if_neg hnul
      rw [heq]
      exact ⟨refl m, hmem⟩
  split
  · exact hcopy.1.trans (hcell m' _ _ hcopy.2 (Or.inl rfl))
  · exact hcopy.1

theorem scrollCell {kl : Nat × Nat} (hkl : kl ∈ Console.scrollOrder) (c : Console) (t : Fin 3) :
    Draws (page t) c (Console.scrollCell t c kl) :=
  (loadPage c t).trans (scrollCell_body hkl rfl)

/-- `vert_scroll` over any list of cells; the source's list is `scrollOrder`. -/
theorem scrollWith {cells : List (Nat × Nat)} (hcells : ∀ kl ∈ cells, kl ∈ Console.scrollOrder)
    (c : Console) (t : Fin 3) : Draws (page t) c (c.scrollWith t cells) := by
  unfold Console.scrollWith
  dsimp only
  have hscroll : Draws (page t) (c.loadCursor t)
      (if (c.loadCursor t).screenY = numRows - 1 ∧ (c.loadCursor t).scrollFlag = 1 then
        { cells.foldl (Console.scrollCell t) (c.loadCursor t) with scrollFlag := 0 }
      else c.loadCursor t) := by
    split
    · have hcleared := foldl (fun m kl hkl => scrollCell (hcells kl hkl) m t) (c.loadCursor t)
      exact hcleared.trans (step (.globals 0 _ _ fun hc => hc.global))
    · exact refl _
  refine (((loadCursor c t).trans hscroll).trans (updateCursor _)).trans
    (step (.cursor t (Terminal.newlineTracker _) fun hc => ?_))
  exact ⟨Nat.lt_of_le_of_lt (Nat.mod_le _ _) hc.global.1, (hc.term t).2⟩

theorem vertScrollAt (c : Console) (t : Fin 3) : Draws (page t) c (c.vertScrollAt t) :=
  scrollWith (fun _ hkl => hkl) c t

/-- The end of `putc`. -/
theorem putEnd {c : Console} {x y : Nat} (h : c.CursorsOn → x < numCols ∧ y < numRows) :
    Draws P c (({ c with screenX := x, screenY := y } : Console).saveCursor t).updateCursor :=
  ((setCursor c h).trans (saveCursor _ t)).trans (updateCursor _)

theorem putcAt (c : Console) (t : Fin 3) (ch : UInt8) : Draws (page t) c (c.putcAt t ch) := by
  have hcols : (0 : Nat) < numCols := by decide
  unfold Console.putcAt
  dsimp only
  refine ((loadPage c t).trans (loadCursor _ t)).trans ?_
  generalize hm : ({ c with videoMem := (c.termArr t).vidMemAddr } : Console).loadCursor t = m
  have hmem : m.videoMem = (m.termArr t).vidMemAddr := by
    subst hm
    rfl
  split
  · refine putEnd fun hc => ⟨hcols, ?_⟩
    have hy := hc.global.2
    split <;> omega
  · have hcell : Draws (page t) m
        (m.storeByte (m.videoMem + 2 * (numCols * m.screenY + m.screenX)) ch) := by
      refine step (.byte ch fun hv hc => ?_)
      rw [hmem, hv]
      exact ⟨_, cell_lt hc.global.2 hc.global.1 (Nat.zero_le 1), rfl⟩
    obtain ⟨phys, fault, hs⟩ := Console.MemoryOf.storeByte m
      (m.videoMem + 2 * (numCols * m.screenY + m.screenX)) ch
    refine (hcell.trans (step (.byte attrib fun hv hc => ?_))).trans (putEnd fun hc => ?_)
    · rw [hs] at hv hc
      rw [hmem, hv]
      exact ⟨_, cell_lt hc.global.2 hc.global.1 (Nat.le_refl 1), Nat.add_assoc _ _ _⟩
    · exact ⟨Nat.mod_lt _ hcols, Nat.mod_lt _ (by decide)⟩

theorem printText (c : Console) (cur : Fin 3) (text : List UInt8) :
    Draws (page cur) c (c.printText cur text) :=
  (foldl (fun c ch _ => putcAt c cur ch) c).trans (updateCursor _)

/-! ## `terminal_write` -/

/-- `P` permits the pages `terminal_write` draws on for terminal `t`, by either copy of the routines it may
call. -/
structure Permits (P : Console → Reach → Prop) (t : Fin 3) (c : Console) : Prop where
  own : ∀ c r, page t c r → P c r
  displayed : (c.termArr t).visible ≠ 0 → ∀ c' r, page c.currTerminal c' r → P c' r

theorem Permits.draws (hP : Permits P t c) (h : Draws Q c c') : Permits P t c' where
  own := hP.own
  displayed hvis := by
    rw [h.kept.visible] at hvis
    rw [h.kept.currTerminal]
    exact hP.displayed hvis

theorem bytes_of_page {c : Console} {r : Reach} (h : page t c r) : bytes c r := by
  cases r with
  | byte va => trivial
  | enterFlag => exact h
  | line => exact h

theorem toBytes (h : Draws (page t) c c') : Draws bytes c c' := h.mono fun _ _ => bytes_of_page

theorem permits_bytes (t : Fin 3) (c : Console) : Permits bytes t c :=
  ⟨fun _ _ => bytes_of_page, fun _ _ _ => bytes_of_page⟩

theorem permits_anything (t : Fin 3) (c : Console) : Permits anything t c :=
  ⟨fun _ _ _ => trivial, fun _ _ _ _ => trivial⟩

theorem enterUser (hP : ∀ c, P c .enterFlag) (c : Console) : Draws P c c.enterUser :=
  (enterAt c _).trans (step (.enterFlag c.currTerminal 1 (hP _)))

/-- `vert_scroll_user`, behind a routine for the displayed terminal. -/
theorem vertScrollUser (h : Draws P c c') : Draws (page c.currTerminal) c' c'.vertScrollUser := by
  rw [Console.vertScrollUser, h.kept.currTerminal]
  exact vertScrollAt c' c.currTerminal

/-- The newline of `terminal_write`, whichever copy of the routines it calls. -/
theorem writeNewline (hP : Permits P t c) (ch : UInt8) :
    Draws P c
      (if ch = newLine ∧ (c.termArr t).visible = 1 then
        c.newlineCheckUser.vertScrollUser.setTerm c.newlineCheckUser.vertScrollUser.currTerminal
          fun term => { term with newlineTracker := 0 }
      else if ch = newLine then
        ((c.newlineCheck t).vertScroll t).setTerm t fun term => { term with newlineTracker := 0 }
      else c) := by
  split
  next hvis =>
    have hshown := hP.displayed (by rw [hvis.2]; decide)
    have hcheck : Draws P c c.newlineCheckUser := newlineCheckAt c _
    exact (hcheck.trans (hcheck.vertScrollUser.mono hshown)).trans (tracker _ _ fun _ => 0)
  next =>
    split
    · exact ((newlineCheckAt c t).trans ((vertScrollAt _ t).mono hP.own)).trans (tracker _ _ fun _ => 0)
    · exact refl c

/-- The character itself. -/
theorem writePut (hP : Permits P t c) (ch : UInt8) :
    Draws P c (if (c.termArr t).visible = 0 then c.putc t ch else c.putcUser ch) := by
  split
  · exact (putcAt c t ch).mono hP.own
  next hvis => exact (putcAt c c.currTerminal ch).mono (hP.displayed hvis)

/-- The end of a line of 80 characters. -/
theorem writeBreak (hP : Permits P t c) (hflag : ∀ c, P c .enterFlag) :
    Draws P c
      (if s8 (c.termArr t).newlineTracker ≥ numCols then
        if (c.termArr t).visible = 0 then
          ((c.enter t).vertScroll t).setTerm t fun term => { term with newlineTracker := 0 }
        else
          c.enterUser.vertScrollUser.setTerm c.enterUser.vertScrollUser.currTerminal
            fun term => { term with newlineTracker := 0 }
      else c) := by
  split
  · split
    · exact ((enterAt c t).trans ((vertScrollAt _ t).mono hP.own)).trans (tracker _ _ fun _ => 0)
    next hvis =>
      have henter : Draws P c c.enterUser := enterUser hflag c
      exact (henter.trans (henter.vertScrollUser.mono (hP.displayed hvis))).trans (tracker _ _ fun _ => 0)
  · exact refl c

theorem writeByte (hP : Permits P t c) (hflag : ∀ c, P c .enterFlag) (ch : UInt8) :
    Draws P c (Console.writeByte t c ch) := by
  unfold Console.writeByte
  split
  · unfold Console.writeChar
    dsimp only
    have hnewline := writeNewline hP ch
    generalize (if ch = newLine ∧ (c.termArr t).visible = 1 then _ else _) = c1 at hnewline
    have hput := hnewline.trans (writePut (hP.draws hnewline) ch)
    generalize (if (c1.termArr t).visible = 0 then c1.putc t ch else c1.putcUser ch) = c2 at hput
    have hcount := (hput.trans (updateCursor c2)).trans (tracker _ t fun n => (n + 1) % 256)
    exact hcount.trans (writeBreak (hP.draws hcount) hflag)
  · exact refl c

theorem writeBytes (hP : Permits P t c) (hflag : ∀ c, P c .enterFlag) (buf : List UInt8) :
    Draws P c (buf.foldl (Console.writeByte t) c) := by
  induction buf generalizing c with
  | nil => exact refl c
  | cons ch buf ih =>
      have hfirst := writeByte hP hflag ch
      exact hfirst.trans (ih (hP.draws hfirst))

/-- What `terminal_write` has done when its loop starts. -/
theorem writeStart (hflag : ∀ c, P c .enterFlag) (c : Console) (t : Fin 3) :
    Draws P c ((c.loadCursor t).setTerm t fun term => { term with newlineTracker := 0, enterFlag := 0 }) := by
  refine ((loadCursor c t).trans (tracker _ t fun _ => 0)).trans (step ?_)
  have hclear := DrawStep.enterFlag (c := (c.loadCursor t).setTerm t fun term =>
    { term with newlineTracker := 0 }) t 0 (hflag _)
  simpa only [Console.setTerm, Function.update_self, Function.update_idem] using hclear

/-- **`terminal_write`.** -/
theorem terminalWrite (hP : Permits P t c) (hflag : ∀ c, P c .enterFlag) (buf : List UInt8) :
    Draws P c (c.terminalWrite t buf).1 := by
  have hstart := writeStart hflag c t
  exact (hstart.trans (writeBytes (hP.draws hstart) hflag buf)).trans (saveCursor _ t)

/-! ## The keyboard -/

theorem storeKey (c : Console) (i : Int) (v : UInt8) : Draws anything c (c.storeKey i v) := by
  unfold Console.storeKey
  split
  · exact step (.line _ c.keyBufferIndex trivial)
  · exact refl c

theorem pushKey (c : Console) (v : UInt8) : Draws anything c (c.pushKey v) :=
  (storeKey c c.keyBufferIndex v).trans (step (.line _ (c.keyBufferIndex + 1) trivial))

theorem dropKey (c : Console) :
    Draws anything c { c.storeKey c.keyBufferIndex 0 with keyBufferIndex := c.keyBufferIndex - 1 } :=
  (storeKey c c.keyBufferIndex 0).trans (step (.line _ (c.keyBufferIndex - 1) trivial))

theorem clearKeys (c : Console) : Draws anything c c.clearKeys := step (.line _ 0 trivial)

theorem moveBack (c : Console) : Draws P c c.moveBack := by
  unfold Console.moveBack
  split
  next h =>
    exact setCursor c fun hc => ⟨(by decide : numCols - 1 < numCols),
      Nat.lt_of_le_of_lt (Nat.sub_le _ _) hc.global.2⟩
  split
  · exact setCursor c fun hc => ⟨Nat.lt_of_le_of_lt (Nat.sub_le _ _) hc.global.1, hc.global.2⟩
  · exact setCursor c fun _ => ⟨by decide, by decide⟩

theorem backspace (c : Console) : Draws bytes c c.backspace := by
  unfold Console.backspace
  dsimp only
  exact ((((loadCursor c _).trans (loadPage _ c.currTerminal)).trans (step (.byte 0 trivial))).trans
    (moveBack _)).trans (saveCursor _ _)

/-- `reset` over any list of cells. -/
theorem resetWith (c : Console) (cells : List Nat) : Draws bytes c
    (({ cells.foldl Console.blankCell (c.loadCursor c.currTerminal) with
      screenX := 0, screenY := 0 } : Console).saveCursor
        (cells.foldl Console.blankCell (c.loadCursor c.currTerminal)).currTerminal) := by
  have hcells : Draws bytes (c.loadCursor c.currTerminal)
      (cells.foldl Console.blankCell (c.loadCursor c.currTerminal)) :=
    foldl (fun c i _ => (step (.byte space trivial)).trans (step (.byte attrib trivial))) _
  have hblank := (loadCursor c c.currTerminal).trans hcells
  exact (hblank.trans (setCursor _ fun _ => ⟨by decide, by decide⟩)).trans (saveCursor _ _)

theorem reset (c : Console) : Draws bytes c c.reset := resetWith c (List.range (numRows * numCols))

theorem keyPressEnd (c : Console) : Draws anything c c.keyPressEnd := by
  unfold Console.keyPressEnd
  refine trans ?_ (updateCursor _)
  split
  · exact storeKey ..
  · exact refl c

theorem typeChar (c : Console) (cur : Fin 3) (ch : UInt8) : Draws anything c (c.typeChar cur ch) := by
  unfold Console.typeChar
  dsimp only
  have hwrap : Draws anything c (if c.Wraps then c.wrapLine cur else c) := by
    split
    · exact (((pushKey c newLine).trans (enterAt _ cur)).trans (vertScrollAt _ cur).any).trans
        (updateCursor _)
    · exact refl c
  exact ((hwrap.trans (putcAt _ _ ch).any).trans (pushKey _ ch)).trans (keyPressEnd _)

theorem keyPress (c : Console) (kb : Keyboard) (cur : Fin 3) (key : UInt8) :
    Draws anything c (c.keyPress kb cur key) := by
  unfold Console.keyPress
  dsimp only
  split
  · exact refl c
  split
  · split
    · exact refl c
    split
    · exact (reset c).any.trans (clearKeys _)
    split
    · exact refl c
    · exact typeChar ..
  · exact keyPressEnd c

theorem backspaceCase (c : Console) : Draws anything c c.backspaceCase := by
  unfold Console.backspaceCase
  dsimp only
  refine trans ?_ (updateCursor _)
  split
  · refine trans (trans ?_ (backspace _).any) (dropKey _)
    split
    · exact dropKey c
    · exact refl c
  · exact refl c

theorem enterCase (c : Console) : Draws anything c c.enterCase := by
  have henter : Draws anything c c.enterUser := enterUser (fun _ => trivial) c
  exact ((henter.trans henter.vertScrollUser.any).trans (pushKey _ newLine)).trans (updateCursor _)

end Draws

end Ece391
