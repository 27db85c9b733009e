/-
# Ece391.Terminals.Layout — where `terminal_write` puts the characters, and how many it reports.

Three pieces share the work of going to the next line.  `putc` computes the carry of the column into
the row AFTER it has reduced the column, so it never carries.  `newline_tracker` counts the characters
of this call and knows nothing of the column the call started in.  `enter` moves down when the tracker
reaches 80.  They agree on a call that starts in column 0, and on one that does not reach the end of
its line; `write_cursor` is the cursor after every other call too.

The number of characters written is counted in an `int8_t` (`writeLoop`).
-/
import Mathlib.Data.List.GetD
import Mathlib.Data.List.Induction
import Ece391.Terminals.Screens

open Ece391.Lib

namespace Ece391

/-! ## Characters in cells -/

namespace Screen

/-- The character in cell `p`. -/
def char (s : Screen) (p : Nat) : UInt8 := s.cell (2 * p)

/-- Cell `p`, its character and its attribute, is the same in both. -/
def SameCell (s s' : Screen) (p : Nat) : Prop :=
  s'.cell (2 * p) = s.cell (2 * p) ∧ s'.cell (2 * p + 1) = s.cell (2 * p + 1)

theorem put_cursor {s : Screen} {ch : UInt8} (hnl : ch ≠ newLine) (hcr : ch ≠ carriageReturn) :
    (s.put ch).x = (s.x + 1) % numCols ∧ (s.put ch).y = s.y := by
  have hplain : ¬ (ch = newLine ∨ ch = carriageReturn) := not_or.mpr ⟨hnl, hcr⟩
  rw [put, if_neg hplain]
  exact ⟨rfl, rfl⟩

theorem put_cell {s : Screen} {ch : UInt8} (hnl : ch ≠ newLine) (hcr : ch ≠ carriageReturn) (i : Nat) :
    (s.put ch).cell i =
      if i = 2 * (numCols * s.y + s.x) + 1 then attrib
      else if i = 2 * (numCols * s.y + s.x) then ch
      else s.cell i := by
  have hplain : ¬ (ch = newLine ∨ ch = carriageReturn) := not_or.mpr ⟨hnl, hcr⟩
  rw [put, if_neg hplain, ← set_cell s, ← set_cell]

/-- Above the last row no scrolling is needed. -/
theorem enter_of_ne {s : Screen} (h : s.y ≠ numRows - 1) : s.enter = { s with x := 0, y := s.y + 1 } :=
  if_neg h

end Screen

/-- The bytes that are put into cells. -/
def Plain (ch : UInt8) : Prop := ch ≠ 0 ∧ ch ≠ newLine ∧ ch ≠ carriageReturn

instance (ch : UInt8) : Decidable (Plain ch) := inferInstanceAs (Decidable (_ ∧ _ ∧ _))

/-! ## The cursor during a write -/

/-- **One character of a write**: the last of 80 ends the line, if it is not the last one of the
screen. -/
theorem writeByte_plain {st : Screen × Nat} {ch : UInt8} (hch : Plain ch) (hn : st.2 < numCols)
    (hrow : st.2 + 1 = numCols → st.1.y ≠ numRows - 1) :
    Screen.writeByte st ch =
      if st.2 + 1 = numCols then ({ st.1.put ch with x := 0, y := st.1.y + 1 }, 0)
      else (st.1.put ch, st.2 + 1) := by
  have hcols : numCols = 80 := rfl
  have hsmall : (st.2 + 1) % 256 = st.2 + 1 := Nat.mod_eq_of_lt (by omega)
  have hs8 : s8 (st.2 + 1) = ((st.2 + 1 : Nat) : Int) := by
    unfold s8
    rw [if_pos (by omega), hsmall]
  have hy := (Screen.put_cursor (s := st.1) hch.2.1 hch.2.2).2
  unfold Screen.writeByte
  simp only [if_neg hch.1, if_neg hch.2.1, hsmall, hs8]
  by_cases hend : st.2 + 1 = numCols
  · rw [if_pos hend, if_pos (by omega), Screen.enter_of_ne (hy ▸ hrow hend), hy]
  · rw [if_neg hend, if_neg (by omega)]

/-- The column after `n` characters of a call that started in column `x`. -/
def writeColumn (x n : Nat) : Nat := if n < numCols then (x + n) % numCols else n % numCols

theorem writeColumn_end (x : Nat) {n : Nat} (h : n % numCols + 1 = numCols) : writeColumn x (n + 1) = 0 := by
  unfold writeColumn
  split
  · simp only [numCols] at *
    omega
  · simp only [numCols] at *
    omega

theorem writeColumn_succ (x : Nat) {n : Nat} (h : n % numCols + 1 ≠ numCols) :
    writeColumn x (n + 1) = (writeColumn x n + 1) % numCols := by
  unfold writeColumn
  split
  next hline =>
    rw [if_pos (by omega)]
    simp only [numCols] at *
    omega
  next hline =>
    rw [if_neg (by simp only [numCols] at *; omega)]
    simp only [numCols] at *
    omega

/-- **The cursor after `n` characters**: the first line break comes after 80 of them, wherever the
call started, and until then the column goes round in the same row. -/
theorem write_cursor (s : Screen) (buf : List UInt8) (hplain : ∀ ch ∈ buf, Plain ch)
    (hx : s.x < numCols) (hfit : numCols * s.y + s.x + buf.length < numCols * numRows) :
    (buf.foldl Screen.writeByte (s, 0)).1.x = writeColumn s.x buf.length ∧
    (buf.foldl Screen.writeByte (s, 0)).1.y = s.y + buf.length / numCols ∧
    (buf.foldl Screen.writeByte (s, 0)).2 = buf.length % numCols := by
  induction buf using List.reverseRecOn with
  | nil =>
      refine ⟨?_, rfl, rfl⟩
      rw [List.length_nil, writeColumn, if_pos (by decide)]
      exact (Nat.mod_eq_of_lt hx).symm
  | append_singleton buf ch ih =>
      rw [List.length_append, List.length_singleton] at hfit
      obtain ⟨hxs, hys, hns⟩ := ih (fun c hc => hplain c (List.mem_append_left _ hc)) (by omega)
      have hch := hplain ch (List.mem_append_right _ (List.mem_singleton_self ch))
      rw [List.foldl_append, List.foldl_cons, List.foldl_nil, List.length_append, List.length_singleton]
      generalize buf.foldl Screen.writeByte (s, 0) = st at hxs hys hns
      have hn : st.2 < numCols := by
        rw [hns]
        exact Nat.mod_lt _ (by decide)
      have hrow : st.2 + 1 = numCols → st.1.y ≠ numRows - 1 := by
        simp only [numCols, numRows] at *
        omega
      obtain ⟨hput, hputy⟩ := Screen.put_cursor (s := st.1) hch.2.1 hch.2.2
      rw [writeByte_plain hch hn hrow]
      by_cases hend : st.2 + 1 = numCols
      · rw [if_pos hend, writeColumn_end s.x (hns ▸ hend)]
        refine ⟨rfl, ?_, ?_⟩
        · show st.1.y + 1 = _
          simp only [numCols] at *
          omega
        · simp only [numCols] at *
          omega
      · rw [if_neg hend, writeColumn_succ s.x (hns ▸ hend), ← hxs]
        refine ⟨hput, ?_, ?_⟩
        · simp only [numCols] at *
          omega
        · simp only [numCols] at *
          omega

/-- The cursor is where the text ends exactly if the call started in column 0 or stayed on its line. -/
theorem write_position_iff (s : Screen) (buf : List UInt8) (hplain : ∀ ch ∈ buf, Plain ch)
    (hx : s.x < numCols) (hfit : numCols * s.y + s.x + buf.length < numCols * numRows) :
    numCols * (s.write buf).y + (s.write buf).x = numCols * s.y + s.x + buf.length ↔
      s.x = 0 ∨ s.x + buf.length < numCols := by
  obtain ⟨hxs, hys, -⟩ := write_cursor s buf hplain hx hfit
  rw [Screen.write, hxs, hys, writeColumn]
  split
  · simp only [numCols] at *
    omega
  · simp only [numCols] at *
    omega

/-! ## The cells of a write -/

/-- The cells of `s` with `buf` laid out from cell `p` on. -/
def Screen.lay (s : Screen) (p : Nat) (buf : List UInt8) (i : Nat) : UInt8 :=
  if p ≤ i / 2 ∧ i / 2 < p + buf.length then (if i % 2 = 0 then buf.getD (i / 2 - p) 0 else attrib)
  else s.cell i

/-- One more character. -/
theorem lay_snoc (s : Screen) (p : Nat) (buf : List UInt8) (ch : UInt8) (i : Nat) :
    s.lay p (buf ++ [ch]) i =
      if i = 2 * (p + buf.length) + 1 then attrib
      else if i = 2 * (p + buf.length) then ch
      else s.lay p buf i := by
  unfold Screen.lay
  rw [List.length_append, List.length_singleton]
  by_cases hlast : i / 2 = p + buf.length
  · rw [if_pos (by omega)]
    by_cases heven : i % 2 = 0
    · have hget : (buf ++ [ch]).getD (i / 2 - p) 0 = ch := by
        rw [hlast, Nat.add_sub_cancel_left, List.getD_append_right _ _ _ _ (Nat.le_refl _), Nat.sub_self]
        rfl
      rw [if_pos heven, if_neg (by omega), if_pos (by omega), hget]
    · rw [if_neg heven, if_pos (by omega)]
  · have hchar : ¬ i = 2 * (p + buf.length) := by omega
    have hattr : ¬ i = 2 * (p + buf.length) + 1 := by omega
    rw [if_neg hattr, if_neg hchar]
    by_cases hin : p ≤ i / 2 ∧ i / 2 < p + buf.length
    · rw [if_pos hin, if_pos (by omega), List.getD_append _ _ _ _ (by omega)]
    · rw [if_neg hin, if_neg (by omega)]

/-- **The cells after a write** that started in column 0 or stayed on its line. -/
theorem write_cells (s : Screen) (buf : List UInt8) (hplain : ∀ ch ∈ buf, Plain ch)
    (hx : s.x < numCols) (hfit : numCols * s.y + s.x + buf.length < numCols * numRows)
    (hline : s.x = 0 ∨ s.x + buf.length < numCols) :
    (s.write buf).cell = s.lay (numCols * s.y + s.x) buf := by
  induction buf using List.reverseRecOn with
  | nil =>
      funext i
      rw [Screen.lay, if_neg (by rw [List.length_nil]; omega)]
      rfl
  | append_singleton buf ch ih =>
      have hbefore : ∀ c ∈ buf, Plain c := fun c hc => hplain c (List.mem_append_left _ hc)
      have hch := hplain ch (List.mem_append_right _ (List.mem_singleton_self ch))
      rw [List.length_append, List.length_singleton] at hfit hline
      have hcells := ih hbefore (by omega) (by omega)
      have hpos := (write_position_iff s buf hbefore hx (by omega)).mpr (by omega)
      obtain ⟨-, hys, hns⟩ := write_cursor s buf hbefore hx (by omega)
      unfold Screen.write at hcells hpos ⊢
      rw [List.foldl_append, List.foldl_cons, List.foldl_nil]
      generalize buf.foldl Screen.writeByte (s, 0) = st at hcells hpos hys hns
      have hn : st.2 < numCols := by
        rw [hns]
        exact Nat.mod_lt _ (by decide)
      have hrow : st.2 + 1 = numCols → st.1.y ≠ numRows - 1 := by
        simp only [numCols, numRows] at *
        omega
      have hput : (st.1.put ch).cell = s.lay (numCols * s.y + s.x) (buf ++ [ch]) := by
        funext i
        rw [Screen.put_cell hch.2.1 hch.2.2, hpos, hcells, lay_snoc]
      rw [writeByte_plain hch hn hrow]
      split
      · exact hput
      · exact hput

/-- **`LaysOut c c' t buf`** — from the cursor of terminal `t` on, the cells of its screen hold `buf`
and the cursor is behind it; every other cell, and every other screen, is as it was. -/
structure LaysOut (c c' : Console) (t : Fin 3) (buf : List UInt8) : Prop where
  chars : ∀ k (hk : k < buf.length),
    (c'.logical t).char (numCols * (c.logical t).y + (c.logical t).x + k) = buf[k]
  outside : ∀ p, p < numCols * (c.logical t).y + (c.logical t).x ∨
    numCols * (c.logical t).y + (c.logical t).x + buf.length ≤ p →
      (c.logical t).SameCell (c'.logical t) p
  screens : ∀ u ≠ t, c'.logical u = c.logical u
  column : (c'.logical t).x < numCols
  cursor : numCols * (c'.logical t).y + (c'.logical t).x =
    numCols * (c.logical t).y + (c.logical t).x + buf.length

section Write

variable {c : Console} {t : Fin 3} {buf : List UInt8}

/-- The screen of the writing terminal. -/
theorem terminalWrite_logical (h : Multiplexed c) :
    (c.terminalWrite t buf).1.logical t = (c.logical t).write buf ∧
    ∀ u ≠ t, (c.terminalWrite t buf).1.logical u = c.logical u := by
  obtain ⟨-, hlogical, -⟩ := terminalWrite_acts h t buf
  rw [hlogical]
  exact ⟨Function.update_self .., fun u hu => Function.update_of_ne hu ..⟩

/-- Cells that hold the text. -/
theorem lay_spec (s : Screen) (p : Nat) (buf : List UInt8) :
    (∀ k (hk : k < buf.length), s.lay p buf (2 * (p + k)) = buf[k]) ∧
    ∀ q, q < p ∨ p + buf.length ≤ q →
      s.lay p buf (2 * q) = s.cell (2 * q) ∧ s.lay p buf (2 * q + 1) = s.cell (2 * q + 1) := by
  refine ⟨fun k hk => ?_, fun q hq => ⟨?_, ?_⟩⟩
  · have hindex : 2 * (p + k) / 2 - p = k := by omega
    rw [Screen.lay, if_pos (by omega), if_pos (by omega), hindex, List.getD_eq_getElem _ _ hk]
  · rw [Screen.lay, if_neg (by omega)]
  · rw [Screen.lay, if_neg (by omega)]

/-- **When `terminal_write` lays its text out.**  For every start cursor and every text that fits on the
screen: exactly if it starts in column 0, or does not reach the end of its line. -/
theorem terminal_write_lays_out_iff (h : Multiplexed c) (hplain : ∀ ch ∈ buf, Plain ch)
    (hfit : numCols * (c.logical t).y + (c.logical t).x + buf.length < numCols * numRows) :
    LaysOut c (c.terminalWrite t buf).1 t buf ↔
      (c.logical t).x = 0 ∨ (c.logical t).x + buf.length < numCols := by
  obtain ⟨hown, hothers⟩ : (c.terminalWrite t buf).1.logical t = _ ∧ _ := terminalWrite_logical h
  have hx : (c.logical t).x < numCols := (h.cursor t).1
  have hposition := write_position_iff (c.logical t) buf hplain hx hfit
  constructor
  · intro hlays
    have hcursor := hlays.cursor
    rw [hown] at hcursor
    exact hposition.mp hcursor
  · intro hline
    have hcells := write_cells (c.logical t) buf hplain hx hfit hline
    obtain ⟨hchars, houtside⟩ := lay_spec (c.logical t) (numCols * (c.logical t).y + (c.logical t).x) buf
    refine ⟨fun k hk => ?_, fun p hp => ?_, hothers, ?_, ?_⟩
    · rw [hown, Screen.char, hcells]
      exact hchars k hk
    · rw [hown, Screen.SameCell, hcells]
      exact houtside p hp
    · exact ((terminalWrite_acts h t buf).1.cursor t).1
    · rw [hown]
      exact hposition.mpr hline

end Write

/-- The prompt of the shell, on the screen of a booted terminal. -/
theorem prompt_laid_out :
    LaysOut bootedKernel.con (bootedKernel.con.terminalWrite 0 [51, 57, 49, 79, 83, 62]).1 0
      [51, 57, 49, 79, 83, 62] := by
  refine (terminal_write_lays_out_iff bootedKernel_multiplexed (by decide +kernel) (by decide)).mpr
    (Or.inl ?_)
  rfl

/-- Six characters from column 75: the last of them is written over the first cell of the row. -/
theorem text_over_line_end :
    ∃ c : Console, Multiplexed c ∧ (c.logical 0).x = 75 ∧ (c.logical 0).y = 0 ∧
      ¬ LaysOut c (c.terminalWrite 0 (List.replicate 6 98)).1 0 (List.replicate 6 98) := by
  have hstart := terminalWrite_acts bootedKernel_multiplexed 0 (List.replicate 75 97)
  have hscreen : (bootedKernel.con.terminalWrite 0 (List.replicate 75 97)).1.logical 0 = _ :=
    (terminalWrite_logical bootedKernel_multiplexed).1
  have hcursor := write_cursor (bootedKernel.con.logical 0) (List.replicate 75 97) (by decide +kernel)
    (by decide) (by decide)
  generalize (bootedKernel.con.terminalWrite 0 (List.replicate 75 97)).1 = c at hstart hscreen
  rw [List.length_replicate] at hcursor
  have hx : (c.logical 0).x = 75 := by
    rw [hscreen, Screen.write, hcursor.1]
    rfl
  have hy : (c.logical 0).y = 0 := by
    rw [hscreen, Screen.write, hcursor.2.1]
    rfl
  refine ⟨c, hstart.1, hx, hy, fun hlays => ?_⟩
  have hend := hlays.cursor
  rw [(terminalWrite_logical hstart.1).1, write_position_iff _ _ (by decide +kernel) (by rw [hx]; decide)
    (by rw [hx, hy]; decide), hx] at hend
  rcases hend with hzero | hshort
  · cases hzero
  · exact absurd hshort (by decide)

/-! ## The number of characters written -/

/-- One turn of the loop of `terminal_write` with its counter, an `int8_t`. -/
def Console.writeLoop (cur : Fin 3) (st : Console × BitVec 8) (ch : UInt8) : Console × BitVec 8 :=
  if ch ≠ 0 then (st.1.writeChar cur ch, st.2 + 1) else st

/-- The counter after a whole buffer. -/
theorem writeLoop_foldl (cur : Fin 3) (buf : List UInt8) (c : Console) (n : Nat) :
    buf.foldl (Console.writeLoop cur) (c, BitVec.ofNat 8 n) =
      (buf.foldl (Console.writeByte cur) c, BitVec.ofNat 8 (n + (buf.filter (· ≠ 0)).length)) := by
  induction buf generalizing c n with
  | nil => rfl
  | cons ch buf ih =>
      rw [List.foldl_cons, List.foldl_cons, Console.writeLoop, Console.writeByte]
      by_cases hch : ch ≠ 0
      · have hsucc : BitVec.ofNat 8 n + 1 = BitVec.ofNat 8 (n + 1) := by
          rw [BitVec.ofNat_add]
          rfl
        rw [if_pos hch, if_pos hch, hsucc, ih, List.filter_cons_of_pos (by simpa using hch),
          List.length_cons, Nat.add_assoc, Nat.add_comm 1]
      · rw [if_neg hch, if_neg hch, ih, List.filter_cons_of_neg (by simpa using hch)]

theorem s8_eq_toInt (n : Nat) : s8 n = (BitVec.ofNat 8 n).toInt := by
  rw [BitVec.toInt_eq_toNat_cond, BitVec.toNat_ofNat, s8]
  by_cases h : n % 256 < 128
  · rw [if_pos h, if_pos (by omega)]
  · rw [if_neg h, if_neg (by omega)]
    rfl

/-- `terminal_write` returns the counter of its loop. -/
theorem terminalWrite_eq_loop (c : Console) (cur : Fin 3) (buf : List UInt8) :
    c.terminalWrite cur buf =
      let r := buf.foldl (Console.writeLoop cur)
        ((c.loadCursor cur).setTerm cur fun term => { term with newlineTracker := 0, enterFlag := 0 }, 0)
      (r.1.saveCursor cur, r.2.toInt) := by
  have hloop := writeLoop_foldl cur buf
    ((c.loadCursor cur).setTerm cur fun term => { term with newlineTracker := 0, enterFlag := 0 }) 0
  rw [Nat.zero_add] at hloop
  have hzero : (0 : BitVec 8) = BitVec.ofNat 8 0 := rfl
  simp only [hzero, hloop, Console.terminalWrite, s8_eq_toInt]

/-- The number of bytes other than NUL among `buf[0 .. nbytes)`. -/
def nonNul (buf : Nat → UInt8) (nbytes : Nat) : Nat := ((List.range nbytes).filter (buf · ≠ 0)).length

theorem terminalWrite_count (c : Console) (cur : Fin 3) (buf : Nat → UInt8) (nbytes : Nat) :
    (c.terminalWrite cur ((List.range nbytes).map buf)).2 = s8 (nonNul buf nbytes) := by
  have hzero : (0 : BitVec 8) = BitVec.ofNat 8 0 := rfl
  rw [terminalWrite_eq_loop, hzero, writeLoop_foldl]
  show (BitVec.ofNat 8 _).toInt = _
  rw [← s8_eq_toInt, Nat.zero_add, List.filter_map, List.length_map]
  rfl

/-- **When `terminal_write` reports what it wrote.**  For every console, buffer and `nbytes`: exactly if
at most 127 bytes are not NUL. -/
theorem terminal_write_reports_iff (c : Console) (cur : Fin 3) (buf : Nat → UInt8) (nbytes : Nat) :
    ((c.terminalWrite cur ((List.range nbytes).map buf)).2 = nonNul buf nbytes ∧
      0 ≤ (c.terminalWrite cur ((List.range nbytes).map buf)).2) ↔ nonNul buf nbytes ≤ 127 := by
  rw [terminalWrite_count]
  generalize nonNul buf nbytes = n
  unfold s8
  split
  · omega
  · omega

/-- 255 characters are reported as the failure `-1`. -/
theorem long_write_fails :
    nonNul (fun _ => 97) 255 = 255 ∧
      (bootedKernel.con.terminalWrite 0 ((List.range 255).map fun _ => 97)).2 = -1 := by
  have hcount : nonNul (fun _ => 97) 255 = 255 := by simp [nonNul]
  refine ⟨hcount, ?_⟩
  rw [terminalWrite_count, hcount]
  decide

end Ece391
