/-
# Ece391.Terminals.Isolation — which terminals the keyboard and `terminal_read` touch.

The keyboard interrupt works for the displayed terminal and `terminal_read` for the caller's, but three
call sites reach another one: the line wrap of `key_press` calls `enter` and `vert_scroll`, which are
about the running terminal; `reset` (Ctrl-L) blanks whatever `video_mem` points at, which the scheduler
sets to the running terminal on every tick; and `terminal_read` saves the global cursor, which any
output routine may have left at another terminal's.

`Desk` is the kernel with its keyboard, moved by ticks, writes, reads and keyboard interrupts.
`isolation_iff` says for every step of every run exactly when it respects the other terminals.
-/
import Ece391.Kernel.Keyboard
import Ece391.Terminals.Screens

open Ece391.Lib

namespace Ece391

/-! ## When scrolling changes nothing -/

namespace Screen

/-- Every character on the screen is a space. -/
def Empty (s : Screen) : Prop := ∀ k < numRows, ∀ l < numCols, s.cell (2 * (numCols * k + l)) = space

/-- The order in which `vert_scroll` visits the cells. -/
def before (a b : Nat × Nat) : Prop := a.1 < b.1 ∨ a.1 = b.1 ∧ a.2 < b.2

theorem scrollOrder_pairwise : Console.scrollOrder.Pairwise before := by
  unfold Console.scrollOrder
  rw [List.pairwise_flatMap]
  constructor
  · intro k _
    rw [List.pairwise_map]
    exact List.pairwise_lt_range.imp fun h => Or.inr ⟨rfl, h⟩
  · refine List.pairwise_lt_range.imp fun {k k'} h => ?_
    intro a ha b hb
    obtain ⟨l, -, rfl⟩ := List.mem_map.mp ha
    obtain ⟨l', -, rfl⟩ := List.mem_map.mp hb
    exact Or.inl (Nat.succ_lt_succ h)

theorem mem_scrollOrder_iff {k l : Nat} :
    (k, l) ∈ Console.scrollOrder ↔ 1 ≤ k ∧ k < numRows ∧ l < numCols := by
  simp only [Console.scrollOrder, List.mem_flatMap, List.mem_range, List.mem_map, Prod.mk.injEq]
  constructor
  · rintro ⟨k', hk', l', hl', rfl, rfl⟩
    exact ⟨by omega, by unfold numRows at *; omega, hl'⟩
  · rintro ⟨h1, hk, hl⟩
    exact ⟨k - 1, by omega, l, hl, by omega, rfl⟩

/-- A step moves at most one character up, and blanks its own cell on the last row. -/
theorem scrollCell_cell (s : Screen) {kl : Nat × Nat} (h1 : 1 ≤ kl.1) {k l : Nat} (hl : l < numCols)
    (hcol : kl.2 < numCols) (hup : kl ≠ (k + 1, l)) (hlast : k = numRows - 1 → kl ≠ (k, l)) :
    (s.scrollCell kl).cell (2 * (numCols * k + l)) = s.cell (2 * (numCols * k + l)) := by
  obtain ⟨k', l'⟩ := kl
  have hj : 2 * (numCols * k + l) ≠ 2 * (numCols * (k' - 1) + l') := by
    intro heq
    apply hup
    dsimp only at *
    unfold numCols at *
    exact Prod.ext (by dsimp only; omega) (by dsimp only; omega)
  have hi : k' = numRows - 1 → 2 * (numCols * k + l) ≠ 2 * (numCols * k' + l') := by
    intro hk' heq
    dsimp only at *
    have hkk : k = k' := by unfold numCols at *; omega
    have hll : l = l' := by unfold numCols at *; omega
    exact hlast (hkk.trans hk') (by rw [hkk, hll])
  unfold scrollCell
  dsimp only
  split
  next hk' =>
    split
    · rw [set_cell_of_ne _ (hi hk'), set_cell_of_ne _ hj]
    · rw [set_cell_of_ne _ (hi hk')]
  next =>
    split
    · rw [set_cell_of_ne _ hj]
    · rfl

/-- The cells a part of the scrolling does not touch. -/
theorem scrollCells_cell {cells : List (Nat × Nat)}
    (hcells : ∀ kl ∈ cells, kl ∈ Console.scrollOrder) {k l : Nat} (hl : l < numCols)
    (hup : (k + 1, l) ∉ cells) (hlast : k = numRows - 1 → (k, l) ∉ cells) (s : Screen) :
    (cells.foldl scrollCell s).cell (2 * (numCols * k + l)) = s.cell (2 * (numCols * k + l)) := by
  induction cells generalizing s with
  | nil => rfl
  | cons kl cells ih =>
      obtain ⟨h1, -, hcol⟩ := mem_scrollOrder (hcells kl (by simp))
      rw [List.foldl_cons, ih (fun a ha => hcells a (by simp [ha])) (fun h => hup (by simp [h]))
        fun hk h => hlast hk (by simp [h])]
      exact scrollCell_cell s h1 hl hcol (fun heq => hup (by simp [heq]))
        fun hk heq => hlast hk (by simp [heq])

/-- Scrolling is one split of the visiting order: what comes before a cell, the cell, the rest. -/
theorem scrollOrder_split {k l : Nat} (h : (k, l) ∈ Console.scrollOrder) :
    ∃ pre post, Console.scrollOrder = pre ++ (k, l) :: post ∧
      (∀ a ∈ pre, before a (k, l)) ∧ ∀ a ∈ post, before (k, l) a := by
  obtain ⟨pre, post, hsplit⟩ := List.append_of_mem h
  have hpair := scrollOrder_pairwise
  rw [hsplit, List.pairwise_append, List.pairwise_cons] at hpair
  exact ⟨pre, post, hsplit, fun a ha => hpair.2.2 a ha _ (by simp), hpair.2.1.1⟩

/-- **Scrolling, row by row**: row `k` takes the characters of row `k + 1` that are not NUL, and the
last row is blanked. -/
theorem scroll_cell (s : Screen) {k l : Nat} (hk : k < numRows) (hl : l < numCols) :
    s.scroll.cell (2 * (numCols * k + l)) =
      if k = numRows - 1 then space
      else if s.cell (2 * (numCols * (k + 1) + l)) ≠ 0 then s.cell (2 * (numCols * (k + 1) + l))
      else s.cell (2 * (numCols * k + l)) := by
  by_cases hlast : k = numRows - 1
  · rw [if_pos hlast]
    obtain ⟨pre, post, hsplit, -, hpost⟩ := scrollOrder_split
      (mem_scrollOrder_iff.mpr ⟨by unfold numRows at *; omega, hk, hl⟩ : (k, l) ∈ _)
    have hmem : ∀ a ∈ post, a ∈ Console.scrollOrder := fun a ha => by rw [hsplit]; simp [ha]
    rw [scroll, hsplit, List.foldl_append, List.foldl_cons, scrollCells_cell hmem hl]
    · simp only [scrollCell, if_pos hlast]
      exact set_cell_self ..
    · intro hin
      have := (mem_scrollOrder_iff.mp (hmem _ hin)).2.1
      omega
    · intro _ hin
      rcases hpost _ hin with h | ⟨-, h⟩ <;> exact Nat.lt_irrefl _ h
  · rw [if_neg hlast]
    have hnext : k + 1 < numRows := by omega
    obtain ⟨pre, post, hsplit, hpre, hpost⟩ := scrollOrder_split
      (mem_scrollOrder_iff.mpr ⟨by omega, hnext, hl⟩ : (k + 1, l) ∈ _)
    have hmemPre : ∀ a ∈ pre, a ∈ Console.scrollOrder := fun a ha => by rw [hsplit]; simp [ha]
    have hmemPost : ∀ a ∈ post, a ∈ Console.scrollOrder := fun a ha => by rw [hsplit]; simp [ha]
    have hnot : (k + 1, l) ∉ pre := fun h => by
      rcases hpre _ h with h | ⟨-, h⟩ <;> exact Nat.lt_irrefl _ h
    have hnot' : (k + 1, l) ∉ post := fun h => by
      rcases hpost _ h with h | ⟨-, h⟩ <;> exact Nat.lt_irrefl _ h
    have hlater : (k + 1 + 1, l) ∉ pre := fun h => by
      rcases hpre _ h with h | ⟨h, -⟩ <;> dsimp only at h <;> omega
    rw [scroll, hsplit, List.foldl_append, List.foldl_cons,
      scrollCells_cell hmemPost hl hnot' fun h => absurd h hlast]
    -- when its turn comes, the cell still holds what it held, and so does the one above
    have hown := scrollCells_cell hmemPre hl hlater (fun _ => hnot) s
    have habove := scrollCells_cell hmemPre hl hnot (fun h => absurd h hlast) s
    generalize pre.foldl scrollCell s = s' at hown habove
    have hne : 2 * (numCols * k + l) ≠ 2 * (numCols * (k + 1) + l) := by unfold numCols; omega
    simp only [scrollCell, Nat.add_sub_cancel, hown]
    split
    · rw [set_cell_of_ne _ hne]
      split
      · exact set_cell_self ..
      · exact habove
    · split
      · exact set_cell_self ..
      · exact habove

theorem scroll_cursor (s : Screen) : s.scroll.x = s.x ∧ s.scroll.y = s.y := by
  have hcell : ∀ (s : Screen) kl, (s.scrollCell kl).x = s.x ∧ (s.scrollCell kl).y = s.y := by
    intro s kl
    unfold scrollCell
    dsimp only
    split <;> split <;> exact ⟨rfl, rfl⟩
  have hfold : ∀ (cells : List (Nat × Nat)) (s : Screen),
      (cells.foldl scrollCell s).x = s.x ∧ (cells.foldl scrollCell s).y = s.y := by
    intro cells
    induction cells with
    | nil => exact fun s => ⟨rfl, rfl⟩
    | cons kl cells ih =>
        intro s
        rw [List.foldl_cons, (ih _).1, (ih _).2]
        exact hcell s kl
  exact hfold _ s

theorem set_eq_self {s : Screen} {i : Nat} {v : UInt8} (h : s.cell i = v) : s.set i v = s := by
  rw [set, ← h, Function.update_eq_self]

/-- **Scrolling changes nothing exactly on a screen without characters.** -/
theorem scroll_eq_self_iff (s : Screen) : s.scroll = s ↔ s.Empty := by
  constructor
  · intro h
    -- from the last row, which is blanked, upwards
    have hrow : ∀ n < numRows, ∀ l < numCols, s.cell (2 * (numCols * (numRows - 1 - n) + l)) = space := by
      intro n hn l hl
      induction n with
      | zero =>
          have hcell := scroll_cell s (k := numRows - 1) (by decide) hl
          rw [h, if_pos rfl] at hcell
          exact hcell
      | succ n ih =>
          have hcell := scroll_cell s (k := numRows - 1 - (n + 1)) (by omega) hl
          have hbelow := ih (by omega)
          have hrow : numRows - 1 - (n + 1) + 1 = numRows - 1 - n := by omega
          rw [h, if_neg (by omega), hrow, hbelow, if_pos (by decide)] at hcell
          exact hcell
    intro k hk l hl
    have hk' : numRows - 1 - (numRows - 1 - k) = k := by omega
    simpa only [hk'] using hrow (numRows - 1 - k) (by omega) l hl
  · intro h
    have hcell : ∀ kl ∈ Console.scrollOrder, s.scrollCell kl = s := by
      intro kl hkl
      obtain ⟨h1, hrow, hcol⟩ := mem_scrollOrder hkl
      have hi := h kl.1 hrow kl.2 hcol
      have hj := h (kl.1 - 1) (by omega) kl.2 hcol
      simp only [scrollCell, hi, set_eq_self hj]
      split
      · exact set_eq_self hi
      · rfl
    have hfold : ∀ cells : List (Nat × Nat), (∀ kl ∈ cells, kl ∈ Console.scrollOrder) →
        cells.foldl scrollCell s = s := by
      intro cells hcells
      induction cells with
      | nil => rfl
      | cons kl cells ih =>
          rw [List.foldl_cons, hcell kl (hcells kl (by simp))]
          exact ih fun a ha => hcells a (by simp [ha])
    exact hfold _ fun _ h => h

/-- **When a line feed changes nothing**: at the start of the last row of a screen without
characters. -/
theorem enter_eq_self_iff (s : Screen) :
    s.enter = s ↔ s.x = 0 ∧ s.y = numRows - 1 ∧ s.Empty := by
  have hx : ({ s with x := 0 } : Screen).Empty ↔ s.Empty := Iff.rfl
  by_cases hy : s.y = numRows - 1
  · have henter : s.enter = ({ s with x := 0 } : Screen).scroll := if_pos hy
    rw [henter, ← hx, ← scroll_eq_self_iff]
    constructor
    · intro h
      have hzero : s.x = 0 := by
        have hcur := (scroll_cursor { s with x := 0 }).1
        rw [h] at hcur
        exact hcur
      have hself : ({ s with x := 0 } : Screen) = s := Screen.ext rfl hzero.symm rfl
      exact ⟨hzero, hy, by rw [hself] at h ⊢; exact h⟩
    · rintro ⟨hzero, -, h⟩
      have hself : ({ s with x := 0 } : Screen) = s := Screen.ext rfl hzero.symm rfl
      rw [hself] at h ⊢
      exact h
  · have henter : s.enter = { s with x := 0, y := s.y + 1 } := if_neg hy
    rw [henter]
    constructor
    · intro h
      have hrow : s.y + 1 = s.y := congrArg Screen.y h
      omega
    · rintro ⟨-, hlast, -⟩
      exact absurd hlast hy

end Screen

/-! ## A blank screen -/

namespace Screen

/-- The byte `reset` stores at position `i`. -/
def blankByte (i : Nat) : UInt8 := if i % 2 = 0 then space else attrib

/-- **`Blank s`** — the screen `reset` leaves. -/
def Blank (s : Screen) : Prop := ∀ i < screenBytes, s.cell i = blankByte i

/-- The first `n` cells blanked. -/
def blank (s : Screen) (n : Nat) : Screen :=
  (List.range n).foldl (fun s i => (s.set (2 * i) space).set (2 * i + 1) attrib) s

theorem blank_succ (s : Screen) (n : Nat) :
    s.blank (n + 1) = ((s.blank n).set (2 * n) space).set (2 * n + 1) attrib := by
  simp [blank, List.range_succ]

theorem blank_cursor (s : Screen) (n : Nat) : (s.blank n).x = s.x ∧ (s.blank n).y = s.y := by
  induction n with
  | zero => exact ⟨rfl, rfl⟩
  | succ n ih =>
      rw [blank_succ]
      exact ih

theorem blank_cell (s : Screen) (n j : Nat) :
    (s.blank n).cell j = if j < 2 * n then blankByte j else s.cell j := by
  induction n with
  | zero => simp [blank]
  | succ n ih =>
      rw [blank_succ]
      by_cases hodd : j = 2 * n + 1
      · subst hodd
        rw [set_cell_self, if_pos (by omega), blankByte, if_neg (by omega)]
      · rw [set_cell_of_ne _ hodd]
        by_cases heven : j = 2 * n
        · subst heven
          rw [set_cell_self, if_pos (by omega), blankByte, if_pos (by omega)]
        · rw [set_cell_of_ne _ heven, ih]
          by_cases hj : j < 2 * n
          · rw [if_pos hj, if_pos (by omega)]
          · rw [if_neg hj, if_neg (by omega)]

/-- The cell before cell `n` is cleared; before the first there is none. -/
def eraseBefore (s : Screen) (n : Nat) : Screen := if n = 0 then s else s.set (2 * n - 2) 0

end Screen

/-- The cursor position before `(x, y)`; before the corner it is the corner. -/
def backCursor (x y : Nat) : Nat × Nat :=
  if x = 0 ∧ y ≠ 0 then (numCols - 1, y - 1) else if x ≠ 0 then (x - 1, y) else (0, 0)

/-- The character before the cursor is cleared and the cursor moves back. -/
def Screen.backspace (s : Screen) : Screen :=
  { s.eraseBefore (numCols * s.y + s.x) with
    x := (backCursor s.x s.y).1
    y := (backCursor s.x s.y).2 }

/-! ## The routines of the keyboard -/

/-- **`Console.Sound c`** — the screens are multiplexed, `video_mem` is on one of them, and the global
cursor is on the screen. -/
structure Console.Sound (c : Console) : Prop where
  mux : Multiplexed c
  videoMem : c.OnScreen
  cursor : c.screenX < numCols ∧ c.screenY < numRows

/-- **`Touches t c c'`** — going from `c` to `c'` no screen and no cursor but those of `t` change. -/
structure Touches (t : Fin 3) (c c' : Console) : Prop where
  sound : c'.Sound
  currTerminal : c'.currTerminal = c.currTerminal
  others : ∀ u ≠ t, c'.logical u = c.logical u

section Routines

variable {t : Fin 3} {c c' c'' : Console}

theorem Touches.trans (h : Touches t c c') (h' : Touches t c' c'') : Touches t c c'' where
  sound := h'.sound
  currTerminal := h'.currTerminal.trans h.currTerminal
  others u hu := (h'.others u hu).trans (h.others u hu)

/-- Changes the screens do not see. -/
theorem Touches.of_same (h : c.Sound) (hcurr : c'.currTerminal = c.currTerminal)
    (hpages : c'.pageTable = c.pageTable) (hterm : c'.termArr = c.termArr) (hphys : c'.phys = c.phys)
    (hvideo : c'.videoMem = c.videoMem)
    (hcursor : c'.screenX = c.screenX ∧ c'.screenY = c.screenY) : Touches t c c' := by
  have hacts : Acts t id c c' := .globals h.mux hcurr hpages hterm hphys (Or.inl hvideo)
  refine ⟨⟨hacts.mux, hacts.videoMem h.videoMem, ?_⟩, hacts.currTerminal, hacts.others⟩
  rw [hcursor.1, hcursor.2]
  exact h.cursor

theorem Touches.refl (h : c.Sound) : Touches t c c := .of_same h rfl rfl rfl rfl rfl ⟨rfl, rfl⟩

theorem Touches.updateCursor (h : c.Sound) : Touches t c c.updateCursor :=
  .of_same h rfl rfl rfl rfl rfl ⟨rfl, rfl⟩

theorem Touches.clearKeys (h : c.Sound) : Touches t c c.clearKeys :=
  .of_same h rfl rfl rfl rfl rfl ⟨rfl, rfl⟩

theorem Touches.storeKey (h : c.Sound) (i : Int) (v : UInt8) : Touches t c (c.storeKey i v) := by
  unfold Console.storeKey
  split
  · exact .of_same h rfl rfl rfl rfl rfl ⟨rfl, rfl⟩
  · exact .refl h

theorem Touches.pushKey (h : c.Sound) (v : UInt8) : Touches t c (c.pushKey v) := by
  have hstore := Touches.storeKey (t := t) h c.keyBufferIndex v
  exact hstore.trans (.of_same hstore.sound rfl rfl rfl rfl rfl ⟨rfl, rfl⟩)

theorem pushKey_logical (c : Console) (v : UInt8) : (c.pushKey v).logical = c.logical := by
  unfold Console.pushKey Console.storeKey
  split <;> rfl

theorem Touches.keyPressEnd (h : c.Sound) : Touches t c c.keyPressEnd := by
  unfold Console.keyPressEnd
  split
  · have hstore := Touches.storeKey (t := t) h c.keyBufferIndex newLine
    exact hstore.trans (.updateCursor hstore.sound)
  · exact .updateCursor h

/-- An output routine that leaves the cursor of its terminal loaded. -/
theorem Acts.touches {f : Screen × Nat → Screen × Nat} (h : Acts t f c c') (hload : c'.Loaded t)
    (hvideo : c.OnScreen) : Touches t c c' := by
  refine ⟨⟨h.mux, h.videoMem hvideo, ?_⟩, h.currTerminal, h.others⟩
  rw [hload.1, hload.2]
  exact h.mux.cursor t

theorem putcUser_touches (h : c.Sound) (ch : UInt8) : Touches c.currTerminal c (c.putcUser ch) := by
  obtain ⟨hacts, hload⟩ := putcAt_acts (t := c.currTerminal) h.mux ch
  exact hacts.touches hload h.videoMem

/-- `enter` and `vert_scroll`, as the line wrap calls them. -/
theorem enter_vertScroll_acts (h : c.Sound) :
    Acts t (fun st => (st.1.enter, st.2)) c ((c.enter t).vertScroll t) ∧
    ((c.enter t).vertScroll t).Loaded t := by
  obtain ⟨henter, hflag⟩ := enterAt_acts (t := t) h.mux
  exact vertScroll_of_entered henter hflag

theorem enterCase_touches (h : c.Sound) : Touches c.currTerminal c c.enterCase := by
  obtain ⟨hacts, hload⟩ := enterUser_vertScroll_acts h.mux rfl
  have hscroll := hacts.touches hload h.videoMem
  have hpush := hscroll.trans (.pushKey hscroll.sound newLine)
  exact hpush.trans (.updateCursor hpush.sound)

/-- A store past the end of a screen. -/
theorem storeByte_pastEnd (h : Multiplexed c) {va p i : Nat}
    (htrans : c.translate va = some (4096 * p + i)) (hi : screenBytes ≤ i) (hi' : i < 4096)
    (v : UInt8) : Acts t id c (c.storeByte va v) := by
  have hlogical : (c.storeByte va v).logical = c.logical := by
    rw [Console.storeByte, htrans]
    refine funext fun u => Screen.ext (funext fun j => ?_) rfl rfl
    show (if j < screenBytes then Function.update c.phys (4096 * p + i) v
      (4096 * c.screenPage u + j) else 0) = if j < screenBytes then _ else 0
    split
    next hj => exact Function.update_of_ne (by omega) ..
    next => rfl
  obtain ⟨phys, fault, hm⟩ := Console.MemoryOf.storeByte c va v
  refine ⟨h.memory ⟨phys, fault, hm⟩, ?_, ?_, ?_, fun u _ => by rw [hlogical]⟩
  · rw [hm]
    exact id
  · rw [hm]
  · rw [Console.output, hlogical, hm]
    rfl

/-- The cell before the cursor, on the screen or just before it. -/
theorem backspaceStore_acts (h : Multiplexed c) (hx : c.screenX < numCols) (hy : c.screenY < numRows)
    (hvideo : c.videoMem = videoAddr t) :
    Acts t (fun st => (st.1.eraseBefore (numCols * c.screenY + c.screenX), st.2)) c
      (c.storeByte (c.videoMem + 2 * (numCols * c.screenY + c.screenX) - 2) 0) := by
  by_cases hcorner : numCols * c.screenY + c.screenX = 0
  · -- the page before that of the terminal: the text page or that of the terminal before
    have hva : c.videoMem + 2 * (numCols * c.screenY + c.screenX) - 2 =
        videoMemAddr + kb4 * t.val + 4094 := by
      rw [hcorner, hvideo, videoAddr]
      unfold videoMemAddr kb4
      omega
    have hpast : Acts t id c (c.storeByte (videoMemAddr + kb4 * t.val + 4094) 0) := by
      by_cases hfirst : t.val = 0
      · rw [hfirst, Nat.mul_zero, Nat.add_zero]
        exact storeByte_pastEnd h (h.map.translate_text (by decide)) (by decide) (by decide) 0
      · obtain ⟨u, hu⟩ : ∃ u : Fin 3, u.val + 1 = t.val := ⟨⟨t.val - 1, by omega⟩, by simp; omega⟩
        have haddr : videoMemAddr + kb4 * t.val = videoAddr u := by rw [videoAddr, hu]
        rw [haddr]
        exact storeByte_pastEnd h (h.translate u (by decide)) (by decide) (by decide) 0
    rw [hva]
    refine hpast.congr ?_
    rw [hcorner]
    rfl
  · have hi : 2 * (numCols * c.screenY + c.screenX) - 2 < screenBytes := by
      unfold screenBytes numRows numCols at *
      omega
    have hva : c.videoMem + 2 * (numCols * c.screenY + c.screenX) - 2 =
        videoAddr t + (2 * (numCols * c.screenY + c.screenX) - 2) := by
      rw [hvideo]
      omega
    rw [hva]
    refine (Acts.store h hi 0).congr ?_
    simp only [Screen.eraseBefore, if_neg hcorner]

theorem moveBack_eq (c : Console) :
    c.moveBack = { c with
      screenX := (backCursor c.screenX c.screenY).1
      screenY := (backCursor c.screenX c.screenY).2 } := by
  unfold Console.moveBack backCursor
  split
  · rfl
  split
  · rfl
  · rfl

theorem backCursor_lt {x y : Nat} (hx : x < numCols) (hy : y < numRows) :
    (backCursor x y).1 < numCols ∧ (backCursor x y).2 < numRows := by
  unfold backCursor
  split
  · exact ⟨show numCols - 1 < numCols by decide, Nat.lt_of_le_of_lt (Nat.sub_le y 1) hy⟩
  split
  · exact ⟨Nat.lt_of_le_of_lt (Nat.sub_le x 1) hx, hy⟩
  · exact ⟨by decide, by decide⟩

/-- `backspace`, once the cursor and the page of the terminal are loaded. -/
theorem Acts.backspace (h : Acts t id c c') (hload : c'.Loaded t) (hpage : c'.videoMem = videoAddr t) :
    Acts t (fun st => (st.1.backspace, st.2)) c
      ((c'.storeByte (c'.videoMem + 2 * (numCols * c'.screenY + c'.screenX) - 2)
        0).moveBack.saveCursor t) ∧
    ((c'.storeByte (c'.videoMem + 2 * (numCols * c'.screenY + c'.screenX) - 2)
      0).moveBack.saveCursor t).Loaded t := by
  obtain ⟨hx, hy⟩ := h.mux.cursor t
  rw [← hload.1] at hx
  rw [← hload.2] at hy
  have hscreen : (c.output t).1.x = c'.screenX ∧ (c.output t).1.y = c'.screenY := by
    have hsame : c'.output t = c.output t := h.own
    rw [hload.1, hload.2, ← hsame]
    exact ⟨rfl, rfl⟩
  have hstore := backspaceStore_acts h.mux hx hy hpage
  obtain ⟨phys, fault, hm⟩ := Console.MemoryOf.storeByte c'
    (c'.videoMem + 2 * (numCols * c'.screenY + c'.screenX) - 2) 0
  generalize c'.storeByte (c'.videoMem + 2 * (numCols * c'.screenY + c'.screenX) - 2) 0 = c1
    at hstore hm
  have hx1 : c1.screenX = c'.screenX := by rw [hm]
  have hy1 : c1.screenY = c'.screenY := by rw [hm]
  obtain ⟨hbx, hby⟩ := backCursor_lt hx hy
  rw [moveBack_eq, hx1, hy1]
  have hmove : Acts t id c1 { c1 with
      screenX := (backCursor c'.screenX c'.screenY).1
      screenY := (backCursor c'.screenX c'.screenY).2 } :=
    .globals hstore.mux rfl rfl rfl rfl (Or.inl rfl)
  obtain ⟨hsave, hsaved⟩ := saveCursor_acts (t := t) hmove.mux hbx hby
  refine ⟨(((h.trans hstore).trans hmove).trans hsave).congr ?_, hsaved⟩
  simp only [Function.comp, id, Screen.backspace, hscreen]

/-- **`backspace`**, on the displayed terminal. -/
theorem backspace_acts (h : Multiplexed c) :
    Acts c.currTerminal (fun st => (st.1.backspace, st.2)) c c.backspace ∧
    c.backspace.Loaded c.currTerminal := by
  have hstart : Acts c.currTerminal id c { c.loadCursor c.currTerminal with
      videoMem := (c.termArr c.currTerminal).vidMemAddr } :=
    .globals h rfl rfl rfl rfl (Or.inr ⟨c.currTerminal, rfl⟩)
  exact hstart.backspace ⟨rfl, rfl⟩ (h.map.vidMemAddr c.currTerminal)

theorem backspace_touches (h : c.Sound) : Touches c.currTerminal c c.backspace := by
  obtain ⟨hacts, hload⟩ := backspace_acts h.mux
  exact hacts.touches hload h.videoMem

theorem backspaceCase_touches (h : c.Sound) : Touches c.currTerminal c c.backspaceCase := by
  -- one more character is dropped if the buffer holds a newline at the insertion point
  have hdrop : ∀ c' : Console, Touches c.currTerminal c c' →
      Touches c.currTerminal c
        { c'.storeKey c'.keyBufferIndex 0 with keyBufferIndex := c'.keyBufferIndex - 1 } := by
    intro c' hc'
    have hstore := Touches.storeKey (t := c.currTerminal) hc'.sound c'.keyBufferIndex 0
    exact (hc'.trans hstore).trans (.of_same hstore.sound rfl rfl rfl rfl rfl ⟨rfl, rfl⟩)
  have hback : ∀ c' : Console, Touches c.currTerminal c c' → Touches c.currTerminal c c'.backspace := by
    intro c' hc'
    have hstep := backspace_touches hc'.sound
    rw [hc'.currTerminal] at hstep
    exact hc'.trans hstep
  have hrefl : Touches c.currTerminal c c := .refl h
  unfold Console.backspaceCase
  dsimp only
  split
  · split
    · have hall := hdrop _ (hback _ (hdrop _ hrefl))
      exact hall.trans (.updateCursor hall.sound)
    · have hall := hdrop _ (hback _ hrefl)
      exact hall.trans (.updateCursor hall.sound)
  · exact .updateCursor h

/-- The loop of `reset`, through a `video_mem` that leads to the screen of `t`. -/
theorem blankCells_acts (h : Multiplexed c)
    (htrans : ∀ i < 4096, c.translate (c.videoMem + i) = some (4096 * c.screenPage t + i)) {n : Nat}
    (hn : 2 * n ≤ screenBytes) :
    Acts t (fun st => (st.1.blank n, st.2)) c ((List.range n).foldl Console.blankCell c) ∧
    c.MemoryOf ((List.range n).foldl Console.blankCell c) := by
  induction n with
  | zero => exact ⟨Acts.refl h, .refl c⟩
  | succ n ih =>
      obtain ⟨hacts, hmem⟩ := ih (by omega)
      rw [List.range_succ, List.foldl_append, List.foldl_cons, List.foldl_nil]
      generalize (List.range n).foldl Console.blankCell c = c1 at hacts hmem
      obtain ⟨phys, fault, rfl⟩ := hmem
      have hbytes : screenBytes < 4096 := by decide
      have hchar := Acts.storeAt (t := t) hacts.mux (htrans (2 * n) (by omega)) (by omega) space
      obtain ⟨phys', fault', hm'⟩ := Console.MemoryOf.storeByte
        ({ c with phys := phys, fault := fault } : Console) (c.videoMem + 2 * n) space
      have hattr : Acts t (fun st => (st.1.set (2 * n + 1) attrib, st.2))
          (({ c with phys := phys, fault := fault } : Console).storeByte (c.videoMem + 2 * n) space)
          ((({ c with phys := phys, fault := fault } : Console).storeByte (c.videoMem + 2 * n)
            space).storeByte (c.videoMem + 2 * n + 1) attrib) := by
        refine Acts.storeAt hchar.mux ?_ (by omega) attrib
        rw [hm', Nat.add_assoc]
        exact htrans (2 * n + 1) (by omega)
      refine ⟨((hacts.trans hchar).trans hattr).congr ?_, ?_⟩
      · simp only [Function.comp, Screen.blank_succ]
      · exact .trans ⟨phys, fault, rfl⟩ (.trans (.storeByte ..) (.storeByte ..))

/-- The end of `reset`: the cursor of the displayed terminal goes home. -/
theorem reset_end {n : Nat} (h : Acts t (fun st => (st.1.blank n, st.2)) c c')
    (hvideo : c.OnScreen) (hc'' : c'' = ({ c' with screenX := 0, screenY := 0 } : Console).saveCursor
      c'.currTerminal) :
    c''.Sound ∧ c''.currTerminal = c.currTerminal ∧
    (∀ u, (c''.logical u).cell = if u = t then ((c.logical u).blank n).cell else (c.logical u).cell) ∧
    ∀ u ≠ c.currTerminal, (c''.logical u).x = (c.logical u).x ∧
      (c''.logical u).y = (c.logical u).y := by
  rw [h.currTerminal] at hc''
  have hzero : Acts c.currTerminal id c' { c' with screenX := 0, screenY := 0 } :=
    .globals h.mux rfl rfl rfl rfl (Or.inl rfl)
  obtain ⟨hsave, hloaded⟩ := saveCursor_acts (t := c.currTerminal) hzero.mux
    (show 0 < numCols by decide) (show 0 < numRows by decide)
  have hend := hzero.trans hsave
  have htouch := hend.touches hloaded (h.videoMem hvideo)
  rw [h.currTerminal, ← hc''] at hend htouch
  have hcells : ∀ u, (c''.logical u).cell = (c'.logical u).cell := by
    intro u
    by_cases hu : u = c.currTerminal
    · rw [hu]
      exact congrArg (fun st => st.1.cell) hend.own
    · rw [hend.others u hu]
  have hscreen : ∀ u, c'.logical u = if u = t then (c.logical u).blank n else c.logical u := by
    intro u
    split
    next hu =>
      rw [hu]
      exact congrArg Prod.fst h.own
    next hu => exact h.others u hu
  refine ⟨htouch.sound, htouch.currTerminal.trans h.currTerminal, fun u => ?_, fun u hu => ?_⟩
  · rw [hcells u, hscreen u]
    split <;> rfl
  · rw [hend.others u hu, hscreen u]
    split
    · exact Screen.blank_cursor ..
    · exact ⟨rfl, rfl⟩

/-- **`reset`** blanks the screen `video_mem` leads to and moves the cursor of the displayed
terminal. -/
theorem reset_effect (h : c.Sound)
    (htrans : ∀ i < 4096, c.translate (c.videoMem + i) = some (4096 * c.screenPage t + i)) :
    c.reset.Sound ∧ c.reset.currTerminal = c.currTerminal ∧
    (∀ u, (c.reset.logical u).cell =
      if u = t then ((c.logical u).blank (numRows * numCols)).cell else (c.logical u).cell) ∧
    ∀ u ≠ c.currTerminal, (c.reset.logical u).x = (c.logical u).x ∧
      (c.reset.logical u).y = (c.logical u).y := by
  have hload : Acts t id c (c.loadCursor c.currTerminal) := .globals h.mux rfl rfl rfl rfl (Or.inl rfl)
  obtain ⟨hblank, -⟩ := blankCells_acts (n := numRows * numCols) hload.mux htrans (by decide)
  exact reset_end ((hload.trans hblank).congr rfl) h.videoMem rfl

end Routines

/-! ## One keyboard interrupt -/

/-- The key asks for a terminal switch. -/
def Keyboard.Switches (kb : Keyboard) (input : UInt8) : Prop :=
  kb.altPressed = true ∧ (switchKey input).isSome = true

/-- The key is Ctrl-L. -/
def Keyboard.CtrlL (kb : Keyboard) (input : UInt8) : Prop :=
  kb.ctrlPressed = true ∧ isL (kb.typed input) = true

/-- The key puts a character into the line. -/
def Keyboard.Writes (kb : Keyboard) (input : UInt8) : Prop :=
  kb.typed input ≠ 0 ∧ ¬ (kb.ctrlPressed = true ∧ (isL (kb.typed input) ∨ isC (kb.typed input)))

/-- Ctrl-L is served (the line is not full) and `video_mem` leads to the displayed screen; or the
screens concerned are blank already. -/
def Console.ResetsOwn (c : Console) : Prop :=
  (c.keyBufferIndex < 126 ∧ (c.videoMem = videoMemAddr ∨ c.videoMem = videoAddr c.currTerminal)) ∨
  ((c.logical c.currTerminal).Blank ∧
    (126 ≤ c.keyBufferIndex ∨ ∀ u ≠ c.currTerminal, c.videoMem = videoAddr u → (c.logical u).Blank))

/-- The running terminal is the displayed one, or a line feed does not change its screen. -/
def Console.WrapsOwn (c : Console) (cur : Fin 3) : Prop :=
  cur = c.currTerminal ∨
  ((c.logical cur).x = 0 ∧ (c.logical cur).y = numRows - 1 ∧ (c.logical cur).Empty)

/-- **The keys that touch only the displayed terminal.** -/
def KeyOwn (kb : Keyboard) (cur : Fin 3) (input : UInt8) (c : Console) : Prop :=
  (kb.CtrlL input → c.ResetsOwn) ∧
  (kb.Writes input → c.keyBufferIndex < 126 → c.Wraps → c.WrapsOwn cur)

/-- **What a keyboard interrupt must leave alone**: the screens and cursors of the terminals that are
not displayed; and Ctrl-L blanks the displayed one. -/
def KeyRespects (kb : Keyboard) (input : UInt8) (c c' : Console) : Prop :=
  (∀ u ≠ c.currTerminal, c'.logical u = c.logical u) ∧
  (kb.CtrlL input → (c'.logical c.currTerminal).Blank)

section Keys

variable {c c' : Console} {kb : Keyboard} (cur : Fin 3) {input : UInt8}

theorem not_ctrlL_of_untyped (h : kb.typed input = 0) : ¬ kb.CtrlL input := by
  rintro ⟨-, hl⟩
  rw [h] at hl
  cases hl

theorem keyOwn_of_untyped (h : kb.typed input = 0) : KeyOwn kb cur input c :=
  ⟨fun hl => absurd hl (not_ctrlL_of_untyped h), fun hw => absurd h hw.1⟩

/-- `key_press` of a key without a character. -/
theorem keyPress_untyped_touches {t : Fin 3} (h : c.Sound) (hch : kb.typed input = 0) :
    Touches t c (c.keyPress kb cur input) := by
  unfold Keyboard.typed at hch
  unfold Console.keyPress
  split at hch
  next hbig =>
    rw [if_pos hbig]
    exact .refl h
  next hbig =>
    rw [if_neg hbig, hch, if_pos rfl]
    split
    · exact .refl h
    · exact .keyPressEnd h

theorem Touches.respects (h : Touches c.currTerminal c c') (hl : ¬ kb.CtrlL input) :
    KeyRespects kb input c c' :=
  ⟨h.others, fun hl' => absurd hl' hl⟩

/-- The terminal whose screen `video_mem` leads to. -/
theorem Console.Sound.target (h : c.Sound) :
    ∃ v, (∀ i < 4096, c.translate (c.videoMem + i) = some (4096 * c.screenPage v + i)) ∧
      (v = c.currTerminal ↔ c.videoMem = videoMemAddr ∨ c.videoMem = videoAddr c.currTerminal) ∧
      (v ≠ c.currTerminal → c.videoMem = videoAddr v) := by
  have hne : ∀ u, videoAddr u ≠ videoMemAddr := by
    intro u
    unfold videoAddr kb4
    omega
  have hinj : ∀ u v, videoAddr u = videoAddr v → u = v := by
    intro u v huv
    unfold videoAddr kb4 at huv
    exact Fin.ext (by omega)
  rcases h.videoMem with htext | ⟨v, hv⟩
  · refine ⟨c.currTerminal, ?_, ⟨fun _ => Or.inl htext, fun _ => rfl⟩, fun hne => absurd rfl hne⟩
    intro i hi
    rw [htext, h.mux.map.translate_text hi, Console.screenPage, if_pos rfl]
  · refine ⟨v, ?_, ?_, fun _ => hv⟩
    · intro i hi
      rw [hv]
      exact h.mux.translate v hi
    · constructor
      · rintro rfl
        exact Or.inr hv
      · rintro (htext | hcur)
        · exact absurd (hv.symm.trans htext) (hne v)
        · exact hinj v _ (hv.symm.trans hcur)

/-- Blanking a screen: the result is blank, and nothing has changed exactly if it was blank. -/
theorem blank_screen (s : Screen) :
    (s.blank (numRows * numCols)).Blank ∧
    ((s.blank (numRows * numCols)).cell = s.cell ↔ s.Blank) := by
  have hbytes : screenBytes = 2 * (numRows * numCols) := rfl
  have hblank : (s.blank (numRows * numCols)).Blank := by
    intro i hi
    rw [Screen.blank_cell, if_pos (hbytes ▸ hi)]
  refine ⟨hblank, ?_, ?_⟩
  · intro h i hi
    rw [← h]
    exact hblank i hi
  · intro h
    funext i
    rw [Screen.blank_cell]
    split
    next hi => exact (h i (hbytes ▸ hi)).symm
    next => rfl

/-- **Ctrl-L**, when it is served. -/
theorem reset_respects (h : c.Sound) (hindex : c.keyBufferIndex < 126) (hl : kb.CtrlL input) :
    c.reset.clearKeys.Sound ∧ c.reset.clearKeys.currTerminal = c.currTerminal ∧
    (KeyRespects kb input c c.reset.clearKeys ↔ c.ResetsOwn) := by
  obtain ⟨v, htrans, hown, hother⟩ := h.target
  obtain ⟨hsound, hcurr, hcells, hcursor⟩ := reset_effect h htrans
  have hclear := Touches.clearKeys (t := c.currTerminal) hsound
  refine ⟨hclear.sound, hclear.currTerminal.trans hcurr, ?_⟩
  have hrespects : ∀ c1 : Console, KeyRespects kb input c c1.clearKeys ↔ KeyRespects kb input c c1 :=
    fun _ => Iff.rfl
  rw [hrespects c.reset]
  obtain ⟨hblank, hsame⟩ := blank_screen (c.logical v)
  by_cases hv : v = c.currTerminal
  · refine ⟨fun _ => Or.inl ⟨hindex, hown.mp hv⟩, fun _ => ⟨fun u hu => ?_, fun _ => ?_⟩⟩
    · refine Screen.ext ?_ (hcursor u hu).1 (hcursor u hu).2
      rw [hcells u, if_neg (hv ▸ hu)]
    · intro i hi
      rw [hcells, if_pos hv.symm, ← hv]
      exact hblank i hi
  · -- another screen is blanked, and the displayed one is not
    have hnot : ¬ (c.videoMem = videoMemAddr ∨ c.videoMem = videoAddr c.currTerminal) :=
      fun hvid => hv (hown.mpr hvid)
    have hcur : (c.reset.logical c.currTerminal).cell = (c.logical c.currTerminal).cell := by
      rw [hcells, if_neg fun heq => hv heq.symm]
    have hblankCur : (c.reset.logical c.currTerminal).Blank ↔ (c.logical c.currTerminal).Blank := by
      unfold Screen.Blank
      rw [hcur]
    constructor
    · rintro ⟨hothers, hdisplayed⟩
      refine Or.inr ⟨hblankCur.mp (hdisplayed hl), Or.inr fun u hu hvid => ?_⟩
      have huv : u = v := by
        have haddr := hvid.symm.trans (hother hv)
        unfold videoAddr kb4 at haddr
        exact Fin.ext (by omega)
      subst huv
      rw [← hsame]
      have hcell := hcells u
      rw [hothers u hu, if_pos rfl] at hcell
      exact hcell.symm
    · rintro (⟨-, hvid⟩ | ⟨hdisplayed, hfull | hothers⟩)
      · exact absurd hvid hnot
      · omega
      · refine ⟨fun u hu => Screen.ext ?_ (hcursor u hu).1 (hcursor u hu).2, fun _ =>
          hblankCur.mpr hdisplayed⟩
        rw [hcells u]
        split
        next huv =>
          rw [huv]
          exact hsame.mpr (hothers v hv (hother hv))
        next => rfl

/-- **A character**, on the same line or after the wrap. -/
theorem typeChar_respects (h : c.Sound) (ch : UInt8) :
    (c.typeChar cur ch).Sound ∧ (c.typeChar cur ch).currTerminal = c.currTerminal ∧
    ((∀ u ≠ c.currTerminal, (c.typeChar cur ch).logical u = c.logical u) ↔
      (c.Wraps → c.WrapsOwn cur)) := by
  -- what follows the wrap works on the displayed terminal
  have hrest : ∀ c1 : Console, c1.Sound → c1.currTerminal = c.currTerminal →
      Touches c.currTerminal c1 ((c1.putcUser ch).pushKey ch).keyPressEnd := by
    intro c1 h1 hcurr
    have hput := putcUser_touches h1 ch
    rw [hcurr] at hput
    have hpush := hput.trans (.pushKey hput.sound ch)
    exact hpush.trans (.keyPressEnd hpush.sound)
  unfold Console.typeChar
  dsimp only
  by_cases hw : c.Wraps
  · rw [if_pos hw]
    have hpush := Touches.pushKey (t := cur) h newLine
    obtain ⟨hacts, hload⟩ := enter_vertScroll_acts (t := cur) hpush.sound
    have hscroll := hacts.touches hload hpush.sound.videoMem
    have hupdate : Touches cur _ (c.wrapLine cur) := .updateCursor hscroll.sound
    have hcurr : (c.wrapLine cur).currTerminal = c.currTerminal :=
      hupdate.currTerminal.trans (hscroll.currTerminal.trans hpush.currTerminal)
    have hlogical : ∀ u, (c.wrapLine cur).logical u =
        if u = cur then (c.logical u).enter else c.logical u := by
      intro u
      split
      next hu =>
        rw [hu, ← pushKey_logical c newLine]
        exact congrArg Prod.fst hacts.own
      next hu => rw [hupdate.others u hu, hscroll.others u hu, hpush.others u hu]
    have htail := hrest _ hupdate.sound hcurr
    refine ⟨htail.sound, htail.currTerminal.trans hcurr, ?_⟩
    simp only [Console.WrapsOwn, ← Screen.enter_eq_self_iff, hw, true_implies]
    constructor
    · intro hothers
      by_cases hcur : cur = c.currTerminal
      · exact Or.inl hcur
      · right
        have hsame := hothers cur hcur
        rw [htail.others cur hcur, hlogical, if_pos rfl] at hsame
        exact hsame
    · intro hown u hu
      rw [htail.others u hu, hlogical u]
      split
      next huc =>
        rcases hown with hcur | henter
        · exact absurd (huc.trans hcur) hu
        · rw [huc]
          exact henter
      next => rfl
  · rw [if_neg hw]
    have htail := hrest c h rfl
    exact ⟨htail.sound, htail.currTerminal, fun _ hw' => absurd hw' hw, fun _ => htail.others⟩

theorem keyPressEnd_logical (c : Console) : c.keyPressEnd.logical = c.logical := by
  unfold Console.keyPressEnd Console.storeKey
  split
  · split <;> rfl
  · rfl

/-- The keys without a character that are no switch. -/
theorem specialKeys_touches (h : c.Sound) (hswitch : ¬ kb.Switches input) :
    Touches c.currTerminal c (c.specialKeys kb input) := by
  unfold Console.specialKeys
  split
  next t hkey =>
    have halt : ¬ kb.altPressed = true := fun halt => hswitch ⟨halt, by rw [hkey]; rfl⟩
    rw [if_neg halt]
    exact .refl h
  next hkey =>
    split
    · exact backspaceCase_touches h
    split
    · exact enterCase_touches h
    · exact .refl h

/-- `key_press` of a character. -/
theorem keyPress_respects (h : c.Sound) (hch : kb.typed input ≠ 0) :
    (c.keyPress kb cur input).Sound ∧ (c.keyPress kb cur input).currTerminal = c.currTerminal ∧
    (KeyRespects kb input c (c.keyPress kb cur input) ↔ KeyOwn kb cur input c) := by
  rw [keyPress_of_typed hch]
  by_cases hindex : c.keyBufferIndex < 126
  · rw [if_pos hindex]
    by_cases hl : kb.ctrlPressed = true ∧ isL (kb.typed input) = true
    · rw [if_pos hl]
      obtain ⟨hsound, hcurr, hiff⟩ := reset_respects h hindex hl
      refine ⟨hsound, hcurr, hiff.trans ⟨fun hown => ⟨fun _ => hown, fun hw => ?_⟩, fun hown => hown.1 hl⟩⟩
      exact absurd ⟨hl.1, Or.inl hl.2⟩ hw.2
    · rw [if_neg hl]
      by_cases hc : kb.ctrlPressed = true ∧ isC (kb.typed input) = true
      · rw [if_pos hc]
        have hw : ¬ kb.Writes input := fun hw => hw.2 ⟨hc.1, Or.inr hc.2⟩
        exact ⟨h, rfl, fun _ => ⟨fun hl' => absurd hl' hl, fun hw' => absurd hw' hw⟩,
          fun _ => ⟨fun _ _ => rfl, fun hl' => absurd hl' hl⟩⟩
      · rw [if_neg hc]
        have hw : kb.Writes input := by
          refine ⟨hch, ?_⟩
          rintro ⟨hctrl, hl' | hc'⟩
          · exact hl ⟨hctrl, hl'⟩
          · exact hc ⟨hctrl, hc'⟩
        obtain ⟨hsound, hcurr, hiff⟩ := typeChar_respects cur h (kb.typed input)
        refine ⟨hsound, hcurr, ?_⟩
        constructor
        · rintro ⟨hothers, -⟩
          exact ⟨fun hl' => absurd hl' hl, fun _ _ => hiff.mp hothers⟩
        · rintro ⟨-, hown⟩
          exact ⟨hiff.mpr (hown hw hindex), fun hl' => absurd hl' hl⟩
  · -- the line is full: nothing is typed and Ctrl-L is not served
    rw [if_neg hindex]
    have hend := Touches.keyPressEnd (t := c.currTerminal) h
    refine ⟨hend.sound, hend.currTerminal, ?_⟩
    unfold KeyRespects KeyOwn
    rw [keyPressEnd_logical]
    constructor
    · rintro ⟨-, hblank⟩
      exact ⟨fun hl => Or.inr ⟨hblank hl, Or.inl (by omega)⟩, fun _ hlt => absurd hlt hindex⟩
    · rintro ⟨hown, -⟩
      refine ⟨fun _ _ => rfl, fun hl => ?_⟩
      rcases hown hl with ⟨hlt, -⟩ | ⟨hblank, -⟩
      · exact absurd hlt hindex
      · exact hblank

/-- **One keyboard interrupt respects the other terminals exactly if its key is one of `KeyOwn`.** -/
theorem keyboardInterHandler_respects (h : c.Sound) (hswitch : ¬ kb.Switches input) :
    (keyboardInterHandler cur input kb c).2.Sound ∧
    (keyboardInterHandler cur input kb c).2.currTerminal = c.currTerminal ∧
    (KeyRespects kb input c (keyboardInterHandler cur input kb c).2 ↔ KeyOwn kb cur input c) := by
  have hmod : (kb.modifiers input).typed input = kb.typed input := typed_modifiers kb input
  unfold keyboardInterHandler
  dsimp only
  by_cases hch : kb.typed input = 0
  · have hspecial := specialKeys_touches h hswitch
    have hpress := keyPress_untyped_touches (t := c.currTerminal) cur hspecial.sound
      (hmod.trans hch)
    have hall := hspecial.trans hpress
    exact ⟨hall.sound, hall.currTerminal, fun _ => keyOwn_of_untyped cur hch,
      fun _ => hall.respects (not_ctrlL_of_untyped hch)⟩
  · rw [specialKeys_of_typed hch]
    have hctrl := ctrlPressed_modifiers hch
    obtain ⟨hsound, hcurr, hiff⟩ := keyPress_respects cur h (fun h0 => hch (hmod.symm.trans h0))
    refine ⟨hsound, hcurr, ?_⟩
    simp only [KeyRespects, KeyOwn, Keyboard.CtrlL, Keyboard.Writes, hmod, hctrl] at hiff ⊢
    exact hiff

end Keys

/-! ## Runs -/

/-- The kernel with its keyboard. -/
structure Desk where
  k : Kernel
  kb : Keyboard

/-- Ticks, the writes and (completed) reads of the running process, and keyboard interrupts. -/
inductive DeskEvent
  | tick (fr : Frame)
  | terminalWrite (buf : List UInt8)
  | terminalRead (nbytes : Nat)
  | key (input : UInt8)

def DeskStep (img : Image) (s : Desk) : DeskEvent → Desk → Prop
  | .tick fr, s' => s' = ⟨pitInterruptHandler img fr s.k, s.kb⟩
  | .terminalWrite buf, s' =>
      s' = ⟨{ s.k with con := (s.k.con.terminalWrite s.k.proc.currProcess buf).1
                       proc := s.k.proc.sti }, s.kb⟩
  | .terminalRead nbytes, s' => ∃ con copy,
      s.k.con.terminalRead s.k.proc.currProcess nbytes = some (con, copy) ∧
      s' = ⟨{ s.k with con := con, proc := s.k.proc.sti }, s.kb⟩
  | .key input, s' =>
      s' = ⟨{ s.k with con := (keyboardInterHandler s.k.proc.currProcess input s.kb s.k.con).2 },
        (keyboardInterHandler s.k.proc.currProcess input s.kb s.k.con).1⟩

theorem DeskStep.terminalWrite {img : Image} {s s' : Desk} {buf : List UInt8}
    (hs : DeskStep img s (.terminalWrite buf) s') :
    s'.kb = s.kb ∧ s'.k.con = (s.k.con.terminalWrite s.k.proc.currProcess buf).1 := by
  obtain rfl := hs
  exact ⟨rfl, rfl⟩

theorem DeskStep.key {img : Image} {s s' : Desk} {input : UInt8} (hs : DeskStep img s (.key input) s') :
    s'.k.proc = s.k.proc ∧
    s'.k.con = (keyboardInterHandler s.k.proc.currProcess input s.kb s.k.con).2 := by
  obtain rfl := hs
  exact ⟨rfl, rfl⟩

/-- **What a step must leave alone.**  A key other than a switch: the terminals that are not displayed;
a read: all three cursors. -/
def Respects (s : Desk) (e : DeskEvent) (s' : Desk) : Prop :=
  match e with
  | .key input => ¬ s.kb.Switches input → KeyRespects s.kb input s.k.con s'.k.con
  | .terminalRead _ => ∀ u, (s'.k.con.logical u).x = (s.k.con.logical u).x ∧
      (s'.k.con.logical u).y = (s.k.con.logical u).y
  | .tick _ => True
  | .terminalWrite _ => True

/-- **The steps that do**: a key that works on the displayed terminal, a read that finds the global
cursor at that of its own terminal. -/
def OwnTerminal (s : Desk) (e : DeskEvent) : Prop :=
  match e with
  | .key input => ¬ s.kb.Switches input → KeyOwn s.kb s.k.proc.currProcess input s.k.con
  | .terminalRead _ => s.k.con.Loaded s.k.proc.currProcess
  | .tick _ => True
  | .terminalWrite _ => True

/-- The invariant of the runs. -/
def Desk.Sound (s : Desk) : Prop := s.k.con.Sound ∧ Schedulable s.k.proc

theorem terminalSwitch_globals (c : Console) (t : Fin 3) :
    (c.terminalSwitch t).1.videoMem = c.videoMem ∧ (c.terminalSwitch t).1.screenX = c.screenX ∧
    (c.terminalSwitch t).1.screenY = c.screenY := by
  by_cases ht : t = c.currTerminal
  · rw [terminalSwitch_of_not (Or.inl (congrArg Fin.val ht))]
    exact ⟨rfl, rfl, rfl⟩
  · obtain ⟨phys, fault, hsave⟩ := Console.MemoryOf.memcpy (c.saving c.currTerminal)
      ((c.saving c.currTerminal).termArr c.currTerminal).vidMemAddr videoMemAddr
      (numCols * numRows * 2)
    rw [← terminalSaveState_eq] at hsave
    obtain ⟨phys', fault', hrestore⟩ := Console.MemoryOf.memcpy
      ((c.terminalSaveState c.currTerminal).restoring t) videoMemAddr
      (((c.terminalSaveState c.currTerminal).restoring t).termArr t).vidMemAddr
      (numCols * numRows * 2)
    rw [← terminalRestoreState_eq, hsave] at hrestore
    rw [terminalSwitch_eq c ht, hsave, hrestore]
    exact ⟨rfl, rfl, rfl⟩

theorem Console.Sound.terminalSwitch {c : Console} (h : c.Sound) (t : Fin 3) :
    (c.terminalSwitch t).1.Sound := by
  obtain ⟨hvideo, hx, hy⟩ := terminalSwitch_globals c t
  refine ⟨(h.mux.terminalSwitch t).1, ?_, by rw [hx, hy]; exact h.cursor⟩
  rw [Console.OnScreen, hvideo]
  exact h.videoMem

/-- A keyboard interrupt keeps the console sound, whatever the key. -/
theorem Console.Sound.key {c : Console} (h : c.Sound) (cur : Fin 3) (kb : Keyboard) (input : UInt8) :
    (keyboardInterHandler cur input kb c).2.Sound := by
  by_cases hswitch : kb.Switches input
  · obtain ⟨halt, hsome⟩ := hswitch
    obtain ⟨t, hkey⟩ := Option.isSome_iff_exists.mp hsome
    have huntyped : (kb.modifiers input).typed input = 0 := (switchKey_untyped _ hkey).1
    have hspecial : c.specialKeys kb input = (c.terminalSwitch t).1 := by
      simp only [Console.specialKeys, hkey, if_pos halt]
    unfold keyboardInterHandler
    dsimp only
    rw [hspecial]
    exact (keyPress_untyped_touches (t := t) cur (h.terminalSwitch t) huntyped).sound
  · exact (keyboardInterHandler_respects cur h hswitch).1

/-- The read saves the global cursor as that of its terminal. -/
theorem terminalRead_effect {c con : Console} (h : c.Sound) {cur : Fin 3} {nbytes : Nat} {copy : Copy}
    (hread : c.terminalRead cur nbytes = some (con, copy)) :
    con.Sound ∧ (con.logical cur).x = c.screenX ∧ (con.logical cur).y = c.screenY ∧
    ∀ u ≠ cur, con.logical u = c.logical u := by
  unfold Console.terminalRead at hread
  split at hread
  · obtain ⟨rfl, -⟩ := Prod.mk.inj (Option.some.inj hread)
    have hclear : Touches cur c { c with
        keyBuffer := fun i => if i < maxInputLength then 0 else c.keyBuffer i
        keyBufferIndex := 0 } := .of_same h rfl rfl rfl rfl rfl ⟨rfl, rfl⟩
    obtain ⟨hsave, hload⟩ := saveCursor_acts (t := cur) hclear.sound.mux h.cursor.1 h.cursor.2
    have htouch := hclear.trans (hsave.touches hload hclear.sound.videoMem)
    exact ⟨htouch.sound, congrArg (fun st => st.1.x) hsave.own, congrArg (fun st => st.1.y) hsave.own,
      htouch.others⟩
  · cases hread

/-- **The step lemma**: a step keeps the desk sound, and respects the other terminals exactly if it is
one of `OwnTerminal`. -/
theorem Desk.Sound.step {img : Image} {s s' : Desk} {e : DeskEvent} (h : s.Sound)
    (hs : DeskStep img s e s') : s'.Sound ∧ (Respects s e s' ↔ OwnTerminal s e) := by
  obtain ⟨hsound, hsched⟩ := h
  have hsti : Schedulable s.k.proc.sti := by
    rcases hsched with hall | hboot
    · exact Or.inl hall
    · exact Or.inr (hboot.congr rfl rfl rfl)
  cases e with
  | tick fr =>
      obtain rfl := hs
      obtain ⟨hmux, -, hsched'⟩ := hsound.mux.tick img fr hsched
      refine ⟨⟨⟨hmux, ?_, ?_⟩, hsched'⟩, Iff.rfl⟩
      · rcases tick_console img fr s.k with ⟨⟨phys, fault, hm⟩, -⟩ | ⟨⟨phys, fault, hm⟩, -⟩
        · rw [Console.OnScreen, hm]
          exact Or.inr ⟨0, rfl⟩
        · rw [Console.OnScreen, hm]
          exact Or.inr ⟨_, rfl⟩
      · rcases tick_console img fr s.k with ⟨⟨phys, fault, hm⟩, -⟩ | ⟨⟨phys, fault, hm⟩, -⟩
        · rw [hm]
          exact hsound.cursor
        · rw [hm]
          exact hsound.cursor
  | terminalWrite buf =>
      obtain rfl := hs
      obtain ⟨hmux, -, hvideo, hload⟩ := terminalWrite_acts hsound.mux s.k.proc.currProcess buf
      refine ⟨⟨⟨hmux, hvideo hsound.videoMem, ?_⟩, hsti⟩, Iff.rfl⟩
      dsimp only
      rw [hload.1, hload.2]
      exact hmux.cursor s.k.proc.currProcess
  | terminalRead nbytes =>
      obtain ⟨con, copy, hread, rfl⟩ := hs
      obtain ⟨hsound', hx, hy, hothers⟩ := terminalRead_effect hsound hread
      refine ⟨⟨hsound', hsti⟩, fun hrespects => ?_, fun hload u => ?_⟩
      · have hown := hrespects s.k.proc.currProcess
        exact ⟨hx.symm.trans hown.1, hy.symm.trans hown.2⟩
      · by_cases hu : u = s.k.proc.currProcess
        · rw [hu]
          exact ⟨hx.trans hload.1, hy.trans hload.2⟩
        · show (con.logical u).x = _ ∧ (con.logical u).y = _
          rw [hothers u hu]
          exact ⟨rfl, rfl⟩
  | key input =>
      obtain rfl := hs
      refine ⟨⟨hsound.key _ _ _, hsched⟩, ?_⟩
      by_cases hswitch : s.kb.Switches input
      · exact ⟨fun _ h => absurd hswitch h, fun _ h => absurd hswitch h⟩
      · have hiff := (keyboardInterHandler_respects s.k.proc.currProcess hsound hswitch).2.2
        exact ⟨fun hrespects _ => hiff.mp (hrespects hswitch), fun hown _ => hiff.mpr (hown hswitch)⟩

/-- **Keyboard events and reads touch only their own terminal, exactly when they find it.**  In every
state reached from a sound desk by ticks, writes, reads and keyboard interrupts, the next step leaves
the other terminals' screens and cursors alone, Ctrl-L blanks the displayed screen and a read moves no
cursor, if and only if: a wrap happens while the displayed terminal is running (or on an empty last
line), Ctrl-L is served with `video_mem` on the displayed screen (or on blank screens), and a read
finds the global cursor at its terminal's. -/
theorem isolation_iff (img : Image) {s s' s'' : Desk} {es : List DeskEvent} {e : DeskEvent}
    (hstart : s.Sound) (hrun : Run (DeskStep img) s es s') (hstep : DeskStep img s' e s'') :
    Respects s' e s'' ↔ OwnTerminal s' e := by
  have h : s'.Sound := hrun.invariant hstart fun _ _ _ h hs => (h.step hs).1
  exact (h.step hstep).2

/-- The kernel and its keyboard after boot. -/
def bootedDesk : Desk := ⟨bootedKernel, ⟨0, false, false⟩⟩

theorem bootedDesk_sound : bootedDesk.Sound :=
  ⟨⟨bootedKernel_multiplexed, Or.inl rfl, by decide, by decide⟩, Or.inl fun t => Nat.succ_ne_zero t.val⟩

/-- The scan code of the key `l`. -/
def keyL : UInt8 := 0x26

theorem keyL_ctrlL : (Keyboard.mk 0 true false).CtrlL keyL := by
  unfold Keyboard.CtrlL
  decide

/-- Pressing the control key only sets the flag. -/
theorem DeskStep.ctrl (img : Image) {s : Desk} (h : s.k.con.keyBufferIndex < 126) :
    DeskStep img s (.key lctrlPressed) ⟨s.k, { s.kb with ctrlPressed := true }⟩ := by
  show Desk.mk _ _ = Desk.mk _ _
  rw [keyboardInterHandler_lctrlPressed _ _ h]

/-- Ctrl-L right after boot blanks the displayed terminal. -/
theorem ctrlL_after_boot :
    ∃ s' s'', Run (DeskStep shellImage) bootedDesk [.key lctrlPressed] s' ∧
      DeskStep shellImage s' (.key keyL) s'' ∧ Respects s' (.key keyL) s'' := by
  have hrun : Run (DeskStep shellImage) bootedDesk [.key lctrlPressed]
      ⟨bootedKernel, ⟨0, true, false⟩⟩ :=
    ⟨_, DeskStep.ctrl shellImage (show bootedKernel.con.keyBufferIndex < 126 by decide), rfl⟩
  obtain ⟨s'', hstep⟩ : ∃ s'', DeskStep shellImage ⟨bootedKernel, ⟨0, true, false⟩⟩ (.key keyL) s'' :=
    ⟨_, rfl⟩
  refine ⟨_, s'', hrun, hstep, (isolation_iff shellImage bootedDesk_sound hrun hstep).mpr ?_⟩
  refine fun _ => ⟨fun _ => Or.inl ⟨?_, Or.inl rfl⟩, fun hwrites => absurd ?_ hwrites.2⟩
  · show bootedKernel.con.keyBufferIndex < 126
    decide
  · exact ⟨keyL_ctrlL.1, Or.inl keyL_ctrlL.2⟩

/-- Ctrl-L after one tick: terminal 1 runs, so its screen is blanked and the displayed one is not. -/
theorem ctrlL_blanks_running :
    ∃ s' s'', Run (DeskStep shellImage) bootedDesk [.tick (.at 0 0), .key lctrlPressed] s' ∧
      DeskStep shellImage s' (.key keyL) s'' ∧ s'.k.con.currTerminal = 0 ∧
      s'.k.proc.currProcess = 1 ∧ ¬ Respects s' (.key keyL) s'' := by
  have hsched : ∀ t, bootedKernel.proc.schedPid t ≠ 0 := fun t => Nat.succ_ne_zero t.val
  obtain ⟨k, hk⟩ : ∃ k, k = pitInterruptHandler shellImage (.at 0 0) bootedKernel := ⟨_, rfl⟩
  have hcon : k.con = ({ bootedKernel.con with videoMem := videoAddr 1 } :
      Console).schedulerRemapVideo 1 := hk ▸ tick_con hsched
  have hproc : k.proc.currProcess = 1 := by
    rw [hk, tick_proc hsched]
    rfl
  have hsound : (Desk.mk k ⟨0, false, false⟩).Sound := (bootedDesk_sound.step (e := .tick (.at 0 0))
    (show DeskStep shellImage bootedDesk _ _ from hk ▸ rfl)).1
  have hindex : k.con.keyBufferIndex < 126 := by
    rw [hcon]
    decide
  have hcurr : k.con.currTerminal = 0 := by rw [hcon]; rfl
  have hvideo : k.con.videoMem = videoAddr 1 := by rw [hcon]; rfl
  have hrun : Run (DeskStep shellImage) bootedDesk [.tick (.at 0 0), .key lctrlPressed]
      ⟨k, ⟨0, true, false⟩⟩ :=
    ⟨⟨k, ⟨0, false, false⟩⟩, by rw [hk]; rfl, _, DeskStep.ctrl shellImage hindex, rfl⟩
  have hsound' : (Desk.mk k ⟨0, true, false⟩).Sound := hsound
  obtain ⟨s'', hstep⟩ : ∃ s'', DeskStep shellImage ⟨k, ⟨0, true, false⟩⟩ (.key keyL) s'' := ⟨_, rfl⟩
  refine ⟨_, s'', hrun, hstep, hcurr, hproc, fun hrespects => ?_⟩
  have hown := ((hsound'.step hstep).2.mp hrespects (by rintro ⟨halt, -⟩; cases halt)).1 keyL_ctrlL
  -- `video_mem` is at terminal 1, and the displayed screen is not blank: its first byte is NUL
  rcases hown with ⟨-, htext | hdisp⟩ | ⟨hblank, -⟩
  · have heq : videoAddr 1 = videoMemAddr := hvideo.symm.trans htext
    exact absurd heq (by decide)
  · have heq : videoAddr 1 = videoAddr 0 := hvideo.symm.trans (hdisp.trans (congrArg videoAddr hcurr))
    exact absurd heq (by decide)
  · have hcell : (k.con.logical k.con.currTerminal).cell 0 = 0 := by
      rw [hcon]
      rfl
    have hspace := hblank 0 (by decide)
    exact absurd (hcell.symm.trans hspace) (by decide)

end Ece391
