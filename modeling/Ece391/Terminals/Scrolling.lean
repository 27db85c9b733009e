/-
# Ece391.Terminals.Scrolling — `vert_scroll` on a screen with NULs in it.

`vert_scroll` copies each character of the rows 1 .. 24 to the cell above it, in place; a cell is read
before anything is stored into it (`Screen.scroll_cell`).  But a NUL is not copied, so a cell above a NUL
keeps the character it had.  The NULs are those `backspace` leaves, and those of a page that was never
written.
-/
import Ece391.Terminals.Echo

open Ece391.Lib

namespace Ece391

/-! ## The screen, one row up -/

/-- **`ShiftsUp t c c'`** — on the screen of terminal `t` every row holds the characters of the row below
it and the last one is blank; the scroll flag is cleared and the other screens are as they were. -/
structure ShiftsUp (t : Fin 3) (c c' : Console) : Prop where
  rows : ∀ r < numRows - 1, ∀ l < numCols,
    (c'.logical t).char (numCols * r + l) = (c.logical t).char (numCols * (r + 1) + l)
  last : ∀ l < numCols, (c'.logical t).char (numCols * (numRows - 1) + l) = space
  flag : c'.scrollFlag = 0
  screens : ∀ u ≠ t, c'.logical u = c.logical u

/-- Above a NUL there is a NUL. -/
def NulsReachUp (s : Screen) : Prop :=
  ∀ r < numRows - 1, ∀ l < numCols, s.char (numCols * (r + 1) + l) = 0 → s.char (numCols * r + l) = 0

section Scroll

variable {t : Fin 3} {c : Console}

/-- The scroll flag is cleared by the loop. -/
theorem vertScrollAt_scrollFlag (hrow : (c.termArr t).screenY = numRows - 1) (hflag : c.scrollFlag = 1) :
    (c.vertScrollAt t).scrollFlag = 0 := by
  have hscroll : (c.loadCursor t).screenY = numRows - 1 ∧ (c.loadCursor t).scrollFlag = 1 := ⟨hrow, hflag⟩
  unfold Console.vertScrollAt
  dsimp only
  rw [if_pos hscroll]
  rfl

/-- Scrolling shifts the characters up exactly if no NUL lies below another character. -/
theorem scroll_shifts_iff (s : Screen) :
    (∀ r < numRows - 1, ∀ l < numCols, s.scroll.char (numCols * r + l) = s.char (numCols * (r + 1) + l)) ↔
      NulsReachUp s := by
  have hcell : ∀ r < numRows - 1, ∀ l < numCols, s.scroll.char (numCols * r + l) =
      if s.char (numCols * (r + 1) + l) ≠ 0 then s.char (numCols * (r + 1) + l)
      else s.char (numCols * r + l) := by
    intro r hr l hl
    have hscroll := s.scroll_cell (Nat.lt_of_lt_pred hr) hl
    rwa [if_neg (Nat.ne_of_lt hr)] at hscroll
  constructor
  · intro h r hr l hl hnul
    have hsame := h r hr l hl
    rw [hcell r hr l hl, if_neg (not_not.mpr hnul), hnul] at hsame
    exact hsame
  · intro h r hr l hl
    rw [hcell r hr l hl]
    split
    · rfl
    next hnul =>
      rw [h r hr l hl (not_not.mp hnul), not_not.mp hnul]

/-- The body the two routines share. -/
theorem vertScrollAt_shifts_iff (h : Multiplexed c) (hrow : (c.termArr t).screenY = numRows - 1)
    (hflag : c.scrollFlag = 1) : ShiftsUp t c (c.vertScrollAt t) ↔ NulsReachUp (c.logical t) := by
  have hacts := (vertScrollAt_acts (t := t) h).1
  have hscreen : (c.vertScrollAt t).logical t = (c.logical t).scroll := by
    have hy : (c.logical t).y = numRows - 1 := hrow
    have hown := congrArg Prod.fst hacts.own
    exact hown.trans (if_pos ⟨hy, hflag⟩)
  rw [← scroll_shifts_iff, ← hscreen]
  refine ⟨fun hshifts => hshifts.rows, fun hrows => ⟨hrows, fun l hl => ?_, ?_, hacts.others⟩⟩
  · rw [hscreen, Screen.char, Screen.scroll_cell _ (by decide) hl, if_pos rfl]
  · exact vertScrollAt_scrollFlag hrow hflag

/-- **When scrolling shifts the screen up by one row.**  For every screen content of a terminal whose
cursor is on the last row with the scroll flag set, `vert_scroll` (and for the displayed terminal
`vert_scroll_user`) does, if and only if every cell above a NUL holds a NUL. -/
theorem vert_scroll_shifts_iff (h : Multiplexed c) (hrow : (c.termArr t).screenY = numRows - 1)
    (hflag : c.scrollFlag = 1) :
    (ShiftsUp t c (c.vertScroll t) ↔ NulsReachUp (c.logical t)) ∧
    (t = c.currTerminal → (ShiftsUp t c c.vertScrollUser ↔ NulsReachUp (c.logical t))) := by
  refine ⟨vertScrollAt_shifts_iff h hrow hflag, fun hcur => ?_⟩
  rw [Console.vertScrollUser, ← hcur]
  exact vertScrollAt_shifts_iff h hrow hflag

end Scroll

/-- `enter_user` on the last row: the cursor goes to column 0 and the scroll flag is set. -/
theorem enterUser_bottom {c : Console} (h : Multiplexed c)
    (hbottom : (c.logical c.currTerminal).y = numRows - 1) :
    Multiplexed c.enterUser ∧ c.enterUser.currTerminal = c.currTerminal ∧ c.enterUser.scrollFlag = 1 ∧
    c.enterUser.logical c.currTerminal = { c.logical c.currTerminal with x := 0 } := by
  obtain ⟨henter, hflag⟩ := enterAt_acts (t := c.currTerminal) h
  have hraise := henter.trans (enterFlag_acts henter.mux 1)
  refine ⟨hraise.mux, hraise.currTerminal, hflag.trans (if_pos hbottom), ?_⟩
  refine (congrArg Prod.fst hraise.own).trans ?_
  show ({ c.logical c.currTerminal with
    x := 0, y := if (c.logical c.currTerminal).y = numRows - 1 then numRows - 1
      else (c.logical c.currTerminal).y + 1 } : Screen) = _
  rw [if_pos hbottom, ← hbottom]

/-- Three lines at the bottom of the screen, each longer than the one above it. -/
def threeLines : List UInt8 :=
  List.replicate 22 newLine ++ [97, newLine, 98, 99, newLine, 100, 101, 102]

/-- Enter behind the last one scrolls them up. -/
theorem three_lines_shift :
    ∃ s c, DeskStep shellImage bootedDesk (.terminalWrite threeLines) s ∧ c = s.k.con.enterUser ∧
      (c.logical 0).char (80 * 22) = 97 ∧ (c.logical 0).char (80 * 23 + 1) = 99 ∧
      (c.logical 0).char (80 * 24 + 2) = 102 ∧ ShiftsUp 0 c (c.vertScroll 0) ∧ ShiftsUp 0 c c.vertScrollUser := by
  obtain ⟨s, hs⟩ : ∃ s, DeskStep shellImage bootedDesk (.terminalWrite threeLines) s := ⟨_, rfl⟩
  have hsound : s.Sound := (bootedDesk_sound.step hs).1
  obtain ⟨-, hcon⟩ := hs.terminalWrite
  have hcon : s.k.con = (bootedKernel.con.terminalWrite 0 threeLines).1 := hcon
  have hscreen : s.k.con.logical 0 = (bootedKernel.con.logical 0).write threeLines := by
    rw [hcon]
    exact (terminalWrite_logical bootedKernel_multiplexed).1
  have hcurr : s.k.con.currTerminal = 0 := by
    have hinput := Console.input_terminalWrite bootedKernel_multiplexed 0 threeLines
    rw [← hcon] at hinput
    exact congrArg Input.currTerminal hinput
  have hcells : ((bootedKernel.con.logical 0).write threeLines).y = numRows - 1 ∧
      NulsReachUp ((bootedKernel.con.logical 0).write threeLines) ∧
      ((bootedKernel.con.logical 0).write threeLines).char (80 * 22) = 97 ∧
      ((bootedKernel.con.logical 0).write threeLines).char (80 * 23 + 1) = 99 ∧
      ((bootedKernel.con.logical 0).write threeLines).char (80 * 24 + 2) = 102 := by
    unfold NulsReachUp
    decide +kernel
  rw [← hscreen] at hcells
  obtain ⟨hbottom, hnuls, hfirst, hsecond, hthird⟩ := hcells
  obtain ⟨hmux, hcurr', hflag, hentered⟩ := enterUser_bottom hsound.1.mux (by rw [hcurr]; exact hbottom)
  rw [hcurr] at hcurr' hentered
  have hrow : (s.k.con.enterUser.termArr 0).screenY = numRows - 1 :=
    (congrArg Screen.y hentered).trans hbottom
  have hnuls' : NulsReachUp (s.k.con.enterUser.logical 0) := by
    rw [hentered]
    exact hnuls
  obtain ⟨hshifts, huser⟩ := vert_scroll_shifts_iff hmux hrow hflag
  refine ⟨s, s.k.con.enterUser, hs, rfl, ?_, ?_, ?_, hshifts.mpr hnuls', (huser hcurr'.symm).mpr hnuls'⟩
  · rw [hentered]
    exact hfirst
  · rw [hentered]
    exact hsecond
  · rw [hentered]
    exact hthird

/-- The events before the Enter of the next theorem: an `a` on the first row, an `a` typed on the second
and erased, and the cursor on the last row. -/
def erasedBelow : List DeskEvent :=
  [.terminalWrite [97, newLine], .key keyA, .key backspaceKey, .terminalWrite (List.replicate 23 newLine)]

/-- The screen after them. -/
def erasedScreen : Screen :=
  ((((bootedKernel.con.logical 0).write [97, newLine]).put 97).backspace).write (List.replicate 23 newLine)

/-- After them the Enter key does not shift the screen up: the erased cell leaves the `a` above it. -/
theorem erased_cell_not_shifted :
    ∃ s, Run (DeskStep shellImage) bootedDesk erasedBelow s ∧
      Multiplexed s.k.con.enterUser ∧ (s.k.con.enterUser.termArr 0).screenY = numRows - 1 ∧
      s.k.con.enterUser.scrollFlag = 1 ∧
      ¬ ShiftsUp 0 s.k.con.enterUser s.k.con.enterUser.vertScrollUser := by
  obtain ⟨s1, hs1⟩ : ∃ s1, DeskStep shellImage bootedDesk (.terminalWrite [97, newLine]) s1 := ⟨_, rfl⟩
  obtain ⟨s2, hs2⟩ : ∃ s2, DeskStep shellImage s1 (.key keyA) s2 := ⟨_, rfl⟩
  obtain ⟨s3, hs3⟩ : ∃ s3, DeskStep shellImage s2 (.key backspaceKey) s3 := ⟨_, rfl⟩
  obtain ⟨s, hs⟩ : ∃ s, DeskStep shellImage s3 (.terminalWrite (List.replicate 23 newLine)) s := ⟨_, rfl⟩
  have hsound1 := (bootedDesk_sound.step hs1).1
  have hsound2 := (hsound1.step hs2).1
  have hsound3 := (hsound2.step hs3).1
  -- the console and the terminal of the running process, step by step
  obtain ⟨hkb1, hcon1⟩ := hs1.terminalWrite
  have hcon1 : s1.k.con = (bootedKernel.con.terminalWrite 0 [97, newLine]).1 := hcon1
  have hproc1 : s1.k.proc.currProcess = 0 := by
    obtain rfl := hs1
    rfl
  have hinput1 := Console.input_terminalWrite bootedKernel_multiplexed 0 [97, newLine]
  rw [← hcon1] at hinput1
  have hindex1 : s1.k.con.keyBufferIndex = 0 := congrArg Input.keyBufferIndex hinput1
  have hcurr1 : s1.k.con.currTerminal = 0 := congrArg Input.currTerminal hinput1
  obtain ⟨hproc2, hcon2⟩ := hs2.key
  have hwrites : s1.kb.Writes keyA := hkb1 ▸ keyA_writes
  have htyped : s1.kb.typed keyA = 97 := by
    rw [hkb1]
    decide
  rw [handler_writes _ hwrites (by rw [hindex1]; decide), htyped] at hcon2
  obtain ⟨-, hcurr2, hlogical2, hindex2, -⟩ := typeChar_unwrapped hsound1.1 s1.k.proc.currProcess 97
    (by rw [hindex1]; decide) fun hwrap => hwrap.1 hindex1
  rw [← hcon2] at hcurr2 hlogical2 hindex2
  rw [hcurr1] at hcurr2 hlogical2
  rw [hindex1] at hindex2
  obtain ⟨hproc3, hcon3⟩ := hs3.key
  rw [handler_backspace _ _ (by rw [hindex2]; decide)] at hcon3
  have hlogical3 := (backspaceCase_effect hsound2.1 (by rw [hindex2]; decide)).1
  rw [← hcon3, hcurr2] at hlogical3
  obtain ⟨-, hcon⟩ := hs.terminalWrite
  rw [hproc3, hproc2, hproc1] at hcon
  have hscreen : s.k.con.logical 0 = erasedScreen := by
    rw [hcon, (terminalWrite_logical hsound3.1.mux).1, hlogical3, Function.update_self, hlogical2,
      Function.update_self, hcon1, (terminalWrite_logical bootedKernel_multiplexed).1]
    rfl
  -- the Enter that scrolls, on this screen
  have hsound : s.Sound := (hsound3.step hs).1
  have hcurr : s.k.con.currTerminal = 0 := by
    have hinput := Console.input_terminalWrite hsound3.1.mux 0 (List.replicate 23 newLine)
    rw [← hcon] at hinput
    exact (congrArg Input.currTerminal hinput).trans
      ((hcon3 ▸ (backspaceCase_touches hsound2.1).currTerminal).trans hcurr2)
  have hcells : erasedScreen.char 80 = 0 ∧ erasedScreen.char 0 = 97 ∧ erasedScreen.y = numRows - 1 := by
    decide +kernel
  rw [← hscreen] at hcells
  obtain ⟨hmux, hcurr', hflag, hentered⟩ := enterUser_bottom hsound.1.mux
    (by rw [hcurr]; exact hcells.2.2)
  rw [hcurr] at hcurr' hentered
  have hrow : (s.k.con.enterUser.termArr 0).screenY = numRows - 1 := by
    have hy := congrArg Screen.y hentered
    exact hy.trans hcells.2.2
  refine ⟨s, ⟨s1, hs1, s2, hs2, s3, hs3, s, hs, rfl⟩, hmux, hrow, hflag, fun hshifts => ?_⟩
  rw [Console.vertScrollUser, hcurr', vertScrollAt_shifts_iff hmux hrow hflag, hentered] at hshifts
  have hnul := hshifts 0 (by decide) 0 (by decide) hcells.1
  exact absurd (hcells.2.1.symm.trans hnul) (by decide)

end Ece391
