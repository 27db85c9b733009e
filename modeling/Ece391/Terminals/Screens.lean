/-
# Ece391.Terminals.Screens — three independent screens behind one text page.

The abstract side is a single `Screen`: 4000 bytes and a cursor, with the writing of a byte string
`Screen.write`.  The concrete side is the console, where the displayed and the background copies of the
output routines store through page-table entries that ticks and switches keep rewriting.

`Multiplexed` is the invariant that makes them agree: the mapping of `Terminals.Mapping` with all three
pages present, and every cursor on the screen.  Under it an output routine for terminal `t` acts on the
abstract screen of `t` and on nothing else (`Acts`), whichever terminal is displayed.
-/
import Ece391.Terminals.Drawing

open Ece391.Lib

namespace Ece391

/-! ## One screen -/

/-- The bytes of a text page in use. -/
def screenBytes : Nat := numCols * numRows * 2

/-- A screen and its cursor. -/
@[ext] structure Screen where
  cell : Nat → UInt8
  x : Nat
  y : Nat

namespace Screen

def set (s : Screen) (i : Nat) (v : UInt8) : Screen := { s with cell := Function.update s.cell i v }

theorem set_cell (s : Screen) (i : Nat) (v : UInt8) (j : Nat) :
    (s.set i v).cell j = if j = i then v else s.cell j := Function.update_apply ..

theorem set_cell_self (s : Screen) (i : Nat) (v : UInt8) : (s.set i v).cell i = v :=
  Function.update_self ..

theorem set_cell_of_ne (s : Screen) {i j : Nat} (h : j ≠ i) (v : UInt8) :
    (s.set i v).cell j = s.cell j := Function.update_of_ne h ..

/-- A character at the cursor, or the start of the next line. -/
def put (s : Screen) (ch : UInt8) : Screen :=
  if ch = newLine ∨ ch = carriageReturn then
    { s with x := 0, y := if s.y = numRows - 1 then numRows - 1 else s.y + 1 }
  else
    { (s.set (2 * (numCols * s.y + s.x)) ch).set (2 * (numCols * s.y + s.x) + 1) attrib with
      x := (s.x + 1) % numCols }

/-- One character moves up a row, unless it is NUL; the last row is blanked. -/
def scrollCell (s : Screen) (kl : Nat × Nat) : Screen :=
  let i := 2 * (numCols * kl.1 + kl.2)
  let j := 2 * (numCols * (kl.1 - 1) + kl.2)
  let s := if s.cell i ≠ 0 then s.set j (s.cell i) else s
  if kl.1 = numRows - 1 then s.set i space else s

def scroll (s : Screen) : Screen := Console.scrollOrder.foldl scrollCell s

/-- What `terminal_write` does before it puts a newline. -/
def newline (s : Screen) : Screen :=
  let s := { s with x := 0 }
  if s.y = numRows - 1 then s.scroll else s

/-- The start of the next line, scrolling at the bottom. -/
def enter (s : Screen) : Screen :=
  let s := { s with x := 0 }
  if s.y = numRows - 1 then s.scroll else { s with y := s.y + 1 }

/-- One byte of a write, with the number of characters since the last newline. -/
def writeByte (st : Screen × Nat) (ch : UInt8) : Screen × Nat :=
  if ch = 0 then st
  else
    let st := if ch = newLine then (st.1.newline, 0) else st
    let s := st.1.put ch
    let n := (st.2 + 1) % 256
    if s8 n ≥ numCols then (s.enter, 0) else (s, n)

/-- **`write`** — a byte string written to a screen. -/
def write (s : Screen) (buf : List UInt8) : Screen := (buf.foldl writeByte (s, 0)).1

end Screen

/-! ## Memory behind the pages -/

theorem VideoAt.translate {shown vis : Option (Fin 3)} {c : Console} (h : VideoAt shown vis c)
    (t : Fin 3) (hpres : (c.pageTable (0xB9 + t.val)).present = true) {i : Nat} (hi : i < 4096) :
    c.translate (videoAddr t + i) =
      some (4096 * (if some t = shown then 0xB8 else 0xB9 + t.val) + i) := by
  have hindex : Console.pageIndex (videoAddr t + i) = 0xB9 + t.val := by
    unfold Console.pageIndex videoAddr videoMemAddr kb4
    omega
  have hoffset : (videoAddr t + i) % 4096 = i := by
    unfold videoAddr videoMemAddr kb4
    omega
  rw [Console.translate, hindex, if_pos hpres, h.pages t hpres, hoffset]

theorem VideoAt.translate_text {shown vis : Option (Fin 3)} {c : Console} (h : VideoAt shown vis c)
    {i : Nat} (hi : i < 4096) : c.translate (videoMemAddr + i) = some (4096 * 0xB8 + i) := by
  have hindex : Console.pageIndex (videoMemAddr + i) = 0xB8 := by
    unfold Console.pageIndex videoMemAddr
    omega
  have hoffset : (videoMemAddr + i) % 4096 = i := by
    unfold videoMemAddr
    omega
  rw [Console.translate, hindex, if_pos h.text.1, h.text.2, hoffset]

/-- Memory after `n` bytes of page `q` have been copied to page `p`. -/
def copyPage (phys : Nat → UInt8) (p q n : Nat) : Nat → UInt8 := fun a =>
  if 4096 * p ≤ a ∧ a < 4096 * p + n then phys (4096 * q + (a - 4096 * p)) else phys a

theorem copyPage_dst (phys : Nat → UInt8) (p q : Nat) {n i : Nat} (hi : i < n) :
    copyPage phys p q n (4096 * p + i) = phys (4096 * q + i) := by
  rw [copyPage, if_pos (by omega), Nat.add_sub_cancel_left]

theorem copyPage_other (phys : Nat → UInt8) {p r : Nat} (q : Nat) {n i : Nat} (hr : r ≠ p)
    (hn : n ≤ 4096) (hi : i < 4096) :
    copyPage phys p q n (4096 * r + i) = phys (4096 * r + i) := by
  rw [copyPage, if_neg (by omega)]

/-- **`memcpy` between two pages**, page `q` to page `p`. -/
theorem memcpy_eq {c : Console} {dst src n p q : Nat} (hn : n ≤ 4096)
    (hdst : ∀ i < n, c.translate (dst + i) = some (4096 * p + i))
    (hsrc : ∀ i < n, c.translate (src + i) = some (4096 * q + i)) :
    c.memcpy dst src n = { c with phys := copyPage c.phys p q n } := by
  induction n with
  | zero =>
      have hphys : copyPage c.phys p q 0 = c.phys := by
        funext a
        exact if_neg (by omega)
      rw [hphys]
      rfl
  | succ n ih =>
      have hstep : c.memcpy dst src (n + 1) =
          (c.memcpy dst src n).storeByte (dst + n) ((c.memcpy dst src n).loadByte (src + n)) := by
        simp [Console.memcpy, List.range_succ]
      rw [hstep, ih (by omega) (fun i hi => hdst i (by omega)) fun i hi => hsrc i (by omega)]
      have hd := hdst n (by omega)
      have hs := hsrc n (by omega)
      rw [Console.translate] at hd hs
      simp only [Console.storeByte, Console.loadByte, Console.translate, hd, hs]
      congr 1
      funext a
      rw [Function.update_apply]
      by_cases ha : a = 4096 * p + n
      · subst ha
        rw [if_pos rfl, copyPage_dst _ _ _ (Nat.lt_succ_self n), copyPage, if_neg (by omega)]
      · rw [if_neg ha, copyPage, copyPage]
        by_cases hin : 4096 * p ≤ a ∧ a < 4096 * p + n
        · rw [if_pos hin, if_pos (by omega)]
        · rw [if_neg hin, if_neg (by omega)]

/-! ## The logical screens -/

namespace Console

/-- The physical page of terminal `t`: the text page if `t` is displayed, else its backing page. -/
def screenPage (c : Console) (t : Fin 3) : Nat := if t = c.currTerminal then 0xB8 else 0xB9 + t.val

/-- **`logical c t`** — the screen and the cursor of terminal `t`. -/
def logical (c : Console) (t : Fin 3) : Screen where
  cell i := if i < screenBytes then c.phys (4096 * c.screenPage t + i) else 0
  x := (c.termArr t).screenX
  y := (c.termArr t).screenY

end Console

/-- **`Multiplexed c`** — the video pages are all mapped, each to the page of its terminal, and every
cursor is on the screen. -/
structure Multiplexed (c : Console) : Prop where
  map : VideoMap c
  present : ∀ t : Fin 3, (c.pageTable (0xB9 + t.val)).present = true
  cursor : ∀ t, (c.termArr t).screenX < numCols ∧ (c.termArr t).screenY < numRows

theorem screenPage_injective (c : Console) {t u : Fin 3} (h : c.screenPage t = c.screenPage u) :
    t = u := by
  unfold Console.screenPage at h
  split at h <;> split at h
  · next ht hu => rw [ht, hu]
  · omega
  · omega
  · exact Fin.ext (by omega)

namespace Multiplexed

variable {c c' : Console}

/-- The invariant is about the displayed terminal, the page table and the terminals. -/
theorem congr (h : Multiplexed c) (hcurr : c'.currTerminal = c.currTerminal)
    (hpages : c'.pageTable = c.pageTable)
    (hvis : ∀ t, (c'.termArr t).visible = (c.termArr t).visible)
    (hvid : ∀ t, (c'.termArr t).vidMemAddr = (c.termArr t).vidMemAddr)
    (hcursor : ∀ t, (c'.termArr t).screenX < numCols ∧ (c'.termArr t).screenY < numRows) :
    Multiplexed c' where
  map := by
    rw [VideoMap, hcurr]
    exact ⟨hpages ▸ h.map.text, fun t => hpages ▸ h.map.pages t, fun t => hvis t ▸ h.map.visible t,
      fun t => hvid t ▸ h.map.vidMemAddr t⟩
  present := hpages ▸ h.present
  cursor := hcursor

theorem memory (h : Multiplexed c) (hm : c.MemoryOf c') : Multiplexed c' := by
  obtain ⟨phys, fault, rfl⟩ := hm
  exact h.congr rfl rfl (fun _ => rfl) (fun _ => rfl) h.cursor

/-- The virtual page of a terminal leads to its screen. -/
theorem translate (h : Multiplexed c) (t : Fin 3) {i : Nat} (hi : i < 4096) :
    c.translate (videoAddr t + i) = some (4096 * c.screenPage t + i) := by
  rw [VideoAt.translate h.map t (h.present t) hi, Console.screenPage]
  simp only [Option.some.injEq]

theorem loadByte (h : Multiplexed c) (t : Fin 3) {i : Nat} (hi : i < screenBytes) :
    c.loadByte (videoAddr t + i) = (c.logical t).cell i := by
  have hi' : i < 4096 := Nat.lt_trans hi (by decide)
  rw [Console.loadByte, h.translate t hi']
  simp only [Console.logical, if_pos hi]

end Multiplexed

/-! ## Acting on one screen -/

/-- The state of an output routine on terminal `t`: its screen and its `newline_tracker`. -/
def Console.output (c : Console) (t : Fin 3) : Screen × Nat :=
  (c.logical t, (c.termArr t).newlineTracker)

/-- `video_mem` is the text page or the page of a terminal. -/
def Console.OnScreen (c : Console) : Prop :=
  c.videoMem = videoMemAddr ∨ ∃ t, c.videoMem = videoAddr t

/-- **`Acts t f c c'`** — going from `c` to `c'`, the screen, cursor and character count of terminal `t`
change by `f`, and the screens and cursors of the others not at all; `video_mem` stays on a screen. -/
structure Acts (t : Fin 3) (f : Screen × Nat → Screen × Nat) (c c' : Console) : Prop where
  mux : Multiplexed c'
  videoMem : c.OnScreen → c'.OnScreen
  currTerminal : c'.currTerminal = c.currTerminal
  own : c'.output t = f (c.output t)
  others : ∀ u ≠ t, c'.logical u = c.logical u

namespace Acts

variable {t : Fin 3} {f g : Screen × Nat → Screen × Nat} {c c' c'' : Console}

theorem trans (h : Acts t f c c') (h' : Acts t g c' c'') : Acts t (g ∘ f) c c'' where
  mux := h'.mux
  videoMem := h'.videoMem ∘ h.videoMem
  currTerminal := h'.currTerminal.trans h.currTerminal
  own := by rw [h'.own, h.own, Function.comp]
  others u hu := (h'.others u hu).trans (h.others u hu)

theorem congr (h : Acts t f c c') (hfg : f (c.output t) = g (c.output t)) : Acts t g c c' :=
  { h with own := h.own.trans hfg }

/-- Changes to the other globals of `lib.c` are not seen. -/
theorem globals (h : Multiplexed c) (hcurr : c'.currTerminal = c.currTerminal)
    (hpages : c'.pageTable = c.pageTable) (hterm : c'.termArr = c.termArr)
    (hphys : c'.phys = c.phys)
    (hvideo : c'.videoMem = c.videoMem ∨ ∃ u, c'.videoMem = (c.termArr u).vidMemAddr) :
    Acts t id c c' := by
  have hlogical : c'.logical = c.logical := by
    funext u
    simp only [Console.logical, Console.screenPage, hcurr, hterm, hphys]
  refine ⟨?_, fun hknown => ?_, hcurr, ?_, fun u _ => by rw [hlogical]⟩
  · exact h.congr hcurr hpages (fun _ => by rw [hterm]) (fun _ => by rw [hterm]) (hterm ▸ h.cursor)
  · rcases hvideo with hsame | ⟨u, hu⟩
    · rw [Console.OnScreen, hsame]
      exact hknown
    · exact Or.inr ⟨u, hu.trans (h.map.vidMemAddr u)⟩
  · rw [Console.output, hlogical, hterm]
    rfl

theorem refl (h : Multiplexed c) : Acts t id c c := globals h rfl rfl rfl rfl (Or.inl rfl)

/-- A store through any address that leads to the screen of `t`. -/
theorem storeAt (h : Multiplexed c) {va i : Nat}
    (htrans : c.translate va = some (4096 * c.screenPage t + i)) (hi : i < screenBytes) (v : UInt8) :
    Acts t (fun st => (st.1.set i v, st.2)) c (c.storeByte va v) := by
  have hi' : i < 4096 := Nat.lt_trans hi (by decide)
  rw [Console.storeByte, htrans]
  refine ⟨h.memory ⟨_, c.fault, rfl⟩, id, rfl, ?_, ?_⟩
  · refine Prod.ext (Screen.ext (funext fun j => ?_) rfl rfl) rfl
    show (if j < screenBytes then Function.update c.phys (4096 * c.screenPage t + i) v
      (4096 * c.screenPage t + j) else 0) = Function.update (c.logical t).cell i v j
    by_cases hj : j = i
    · subst hj
      rw [if_pos hi, Function.update_self, Function.update_self]
    · rw [Function.update_of_ne hj, Function.update_of_ne (by omega)]
      rfl
  · intro u hu
    refine Screen.ext (funext fun j => ?_) rfl rfl
    show (if j < screenBytes then Function.update c.phys (4096 * c.screenPage t + i) v
      (4096 * c.screenPage u + j) else 0) = _
    by_cases hj : j < screenBytes
    · have hpage : c.screenPage u ≠ c.screenPage t := fun heq => hu (screenPage_injective c heq)
      have hj' : j < 4096 := Nat.lt_trans hj (by decide)
      rw [Function.update_of_ne (by omega)]
      rfl
    · simp only [Console.logical, if_neg hj]

/-- A store on the screen of `t`. -/
theorem store (h : Multiplexed c) {i : Nat} (hi : i < screenBytes) (v : UInt8) :
    Acts t (fun st => (st.1.set i v, st.2)) c (c.storeByte (videoAddr t + i) v) :=
  storeAt h (h.translate t (Nat.lt_trans hi (by decide))) hi v

/-- An assignment to fields of `term_arr[t]` other than the mapping; the new cursor is `(x, y)`. -/
theorem setTerm (h : Multiplexed c) (term : Terminal) (hvis : term.visible = (c.termArr t).visible)
    (hvid : term.vidMemAddr = (c.termArr t).vidMemAddr)
    (hcursor : term.screenX < numCols ∧ term.screenY < numRows) :
    Acts t (fun st => ({ st.1 with x := term.screenX, y := term.screenY }, term.newlineTracker)) c
      (c.setTerm t fun _ => term) := by
  have hself : (c.setTerm t fun _ => term).termArr t = term := Function.update_self ..
  have hother : ∀ u ≠ t, (c.setTerm t fun _ => term).termArr u = c.termArr u :=
    fun u hu => Function.update_of_ne hu ..
  refine ⟨h.congr rfl rfl ?_ ?_ ?_, id, rfl, ?_, ?_⟩
  · intro u
    by_cases hu : u = t
    · rw [hu, hself, hvis]
    · rw [hother u hu]
  · intro u
    by_cases hu : u = t
    · rw [hu, hself, hvid]
    · rw [hother u hu]
  · intro u
    by_cases hu : u = t
    · rw [hu, hself]
      exact hcursor
    · rw [hother u hu]
      exact h.cursor u
  · rw [Console.output, Console.logical, hself]
    rfl
  · intro u hu
    rw [Console.logical, hother u hu]
    rfl

/-- A list of actions. -/
theorem foldl {α : Type*} {step : Console → α → Console} {act : Screen → α → Screen}
    {as : List α} (hstep : ∀ c, Multiplexed c → ∀ a ∈ as,
      Acts t (fun st => (act st.1 a, st.2)) c (step c a)) (h : Multiplexed c) :
    Acts t (fun st => (as.foldl act st.1, st.2)) c (as.foldl step c) := by
  induction as generalizing c with
  | nil => exact refl h
  | cons a as ih =>
      have hfirst := hstep c h a (by simp)
      exact hfirst.trans (ih (fun c h b hb => hstep c h b (by simp [hb])) hfirst.mux)

end Acts

/-! ## The output routines -/

/-- The global cursor is that of terminal `t`. -/
def Console.Loaded (c : Console) (t : Fin 3) : Prop :=
  c.screenX = (c.termArr t).screenX ∧ c.screenY = (c.termArr t).screenY

section Routines

variable {t : Fin 3} {c : Console}

/-- The cursor is saved: the abstract one is now the global one. -/
theorem saveCursor_acts (h : Multiplexed c) (hx : c.screenX < numCols) (hy : c.screenY < numRows) :
    Acts t (fun st => ({ st.1 with x := c.screenX, y := c.screenY }, st.2)) c (c.saveCursor t) ∧
    (c.saveCursor t).Loaded t := by
  have hxm : c.screenX % 256 = c.screenX := Nat.mod_eq_of_lt (Nat.lt_trans hx (by decide))
  have hym : c.screenY % 256 = c.screenY := Nat.mod_eq_of_lt (Nat.lt_trans hy (by decide))
  have hset := Acts.setTerm (t := t) h
    { c.termArr t with screenX := c.screenX % 256, screenY := c.screenY % 256 } rfl rfl
    (by rw [hxm, hym]; exact ⟨hx, hy⟩)
  rw [hxm, hym] at hset
  have hsave : c.saveCursor t = c.setTerm t fun _ =>
      { c.termArr t with screenX := c.screenX, screenY := c.screenY } := by
    simp only [Console.saveCursor, Console.setTerm, hxm, hym]
  rw [hsave]
  refine ⟨hset.congr rfl, ?_⟩
  simp [Console.Loaded, Console.setTerm]

theorem loadCursor_acts (h : Multiplexed c) : Acts t id c (c.loadCursor t) :=
  .globals h rfl rfl rfl rfl (Or.inl rfl)

theorem updateCursor_acts (h : Multiplexed c) : Acts t id c c.updateCursor :=
  .globals h rfl rfl rfl rfl (Or.inl rfl)

theorem storeByte_videoMem (c : Console) (va : Nat) (v : UInt8) :
    (c.storeByte va v).videoMem = c.videoMem := by
  obtain ⟨phys, fault, hm⟩ := Console.MemoryOf.storeByte c va v
  rw [hm]

/-- A character copied from `i` to `j`, unless it is NUL. -/
theorem copyCell_acts (h : Multiplexed c) (hmem : c.videoMem = videoAddr t) {i j : Nat}
    (hi : i < screenBytes) (hj : j < screenBytes) :
    let c' := if c.loadByte (c.videoMem + i) ≠ 0 then
      c.storeByte (c.videoMem + j) (c.loadByte (c.videoMem + i)) else c
    Acts t (fun st => (if st.1.cell i ≠ 0 then st.1.set j (st.1.cell i) else st.1, st.2)) c c' ∧
    c'.videoMem = videoAddr t := by
  rw [hmem, h.loadByte t hi]
  by_cases hnull : (c.logical t).cell i ≠ 0
  · rw [if_pos hnull]
    refine ⟨(Acts.store h hj _).congr ?_, (storeByte_videoMem ..).trans hmem⟩
    show _ = (if (c.logical t).cell i ≠ 0 then _ else _, _)
    rw [if_pos hnull]
    rfl
  · rw [if_neg hnull]
    refine ⟨(Acts.refl h).congr ?_, hmem⟩
    show _ = (if (c.logical t).cell i ≠ 0 then _ else _, _)
    rw [if_neg hnull]
    rfl

theorem scrollCell_acts (h : Multiplexed c) {kl : Nat × Nat} (hkl : kl ∈ Console.scrollOrder) :
    Acts t (fun st => (st.1.scrollCell kl, st.2)) c (Console.scrollCell t c kl) := by
  obtain ⟨h1, hrow, hcol⟩ := mem_scrollOrder hkl
  have hi : 2 * (numCols * kl.1 + kl.2) < screenBytes := by
    unfold screenBytes numRows numCols at *
    omega
  have hj : 2 * (numCols * (kl.1 - 1) + kl.2) < screenBytes := by
    unfold screenBytes numRows numCols at *
    omega
  have hstart : Acts t id c { c with videoMem := (c.termArr t).vidMemAddr } :=
    .globals h rfl rfl rfl rfl (Or.inr ⟨t, rfl⟩)
  obtain ⟨hcopy, hmem⟩ := copyCell_acts hstart.mux (h.map.vidMemAddr t) hi hj
  unfold Console.scrollCell
  dsimp only at hcopy hmem ⊢
  by_cases hlast : kl.1 = numRows - 1
  · rw [if_pos hlast, hmem]
    refine ((hstart.trans hcopy).trans (Acts.store hcopy.mux hi space)).congr ?_
    simp only [Screen.scrollCell, if_pos hlast, Function.comp, id]
  · rw [if_neg hlast]
    refine (hstart.trans hcopy).congr ?_
    simp only [Screen.scrollCell, if_neg hlast, Function.comp, id]

/-- `vert_scroll` leaves the cursor globals and the terminals alone while it moves characters. -/
theorem scrollCells_fields (t : Fin 3) (cells : List (Nat × Nat)) (c : Console) :
    ∃ phys fault videoMem, cells.foldl (Console.scrollCell t) c =
      { c with phys := phys, fault := fault, videoMem := videoMem } := by
  induction cells generalizing c with
  | nil => exact ⟨c.phys, c.fault, c.videoMem, rfl⟩
  | cons kl cells ih =>
      have hcell : ∃ phys fault videoMem, Console.scrollCell t c kl =
          { c with phys := phys, fault := fault, videoMem := videoMem } := by
        have hm : ({ c with videoMem := (c.termArr t).vidMemAddr } : Console).MemoryOf
            (Console.scrollCell t c kl) := by
          unfold Console.scrollCell
          dsimp only
          split <;> split
          · exact (Console.MemoryOf.storeByte ..).trans (.storeByte ..)
          · exact .storeByte ..
          · exact .storeByte ..
          · exact .refl _
        obtain ⟨phys, fault, hm⟩ := hm
        exact ⟨phys, fault, _, hm⟩
      obtain ⟨phys, fault, videoMem, hc⟩ := hcell
      obtain ⟨phys', fault', videoMem', hrest⟩ := ih (Console.scrollCell t c kl)
      exact ⟨phys', fault', videoMem', by rw [List.foldl_cons, hrest, hc]⟩

theorem setTerm_eq_self {f : Terminal → Terminal} (h : f (c.termArr t) = c.termArr t) :
    c.setTerm t f = c := by
  rw [Console.setTerm, h, Function.update_eq_self]

/-- The end of `vert_scroll`, with the globals still those of the terminal: only the VGA cursor
moves. -/
theorem scroll_end (hcursor : (c.termArr t).screenX < numCols) (hload : c.Loaded t) :
    c.updateCursor.setTerm t (fun term => { term with screenX := c.updateCursor.screenX % 256 }) =
      c.updateCursor := by
  have hx : c.screenX % 256 = (c.termArr t).screenX := by
    rw [hload.1]
    exact Nat.mod_eq_of_lt (Nat.lt_trans hcursor (by decide))
  apply setTerm_eq_self
  show ({ c.termArr t with screenX := c.screenX % 256 } : Terminal) = c.termArr t
  rw [hx]

theorem scrollWith_acts (h : Multiplexed c) {cells : List (Nat × Nat)}
    (hcells : ∀ kl ∈ cells, kl ∈ Console.scrollOrder) :
    Acts t (fun st => (if st.1.y = numRows - 1 ∧ c.scrollFlag = 1 then
      cells.foldl Screen.scrollCell st.1 else st.1, st.2)) c (c.scrollWith t cells) ∧
    (c.scrollWith t cells).Loaded t := by
  have hload : Acts t id c (c.loadCursor t) := loadCursor_acts h
  unfold Console.scrollWith
  dsimp only
  by_cases hflag : (c.loadCursor t).screenY = numRows - 1 ∧ (c.loadCursor t).scrollFlag = 1
  · rw [if_pos hflag]
    obtain ⟨phys, fault, videoMem, hfields⟩ := scrollCells_fields t cells (c.loadCursor t)
    have hfold := Acts.foldl (t := t) (fun _ h kl hkl => scrollCell_acts h (hcells kl hkl)) hload.mux
    generalize cells.foldl (Console.scrollCell t) (c.loadCursor t) = c' at hfields hfold
    have hclear : Acts t id c' { c' with scrollFlag := 0 } := .globals hfold.mux rfl rfl rfl rfl (Or.inl rfl)
    have hloaded : ({ c' with scrollFlag := 0 } : Console).Loaded t := by
      rw [hfields]
      exact ⟨rfl, rfl⟩
    rw [scroll_end (hclear.mux.cursor t).1 hloaded]
    refine ⟨(((hload.trans hfold).trans hclear).trans (updateCursor_acts hclear.mux)).congr ?_,
      hloaded⟩
    have hbottom : (c.output t).1.y = numRows - 1 ∧ c.scrollFlag = 1 := hflag
    simp only [Function.comp, id, if_pos hbottom]
  · rw [if_neg hflag, scroll_end (hload.mux.cursor t).1 ⟨rfl, rfl⟩]
    refine ⟨(hload.trans (updateCursor_acts hload.mux)).congr ?_, ⟨rfl, rfl⟩⟩
    have hbottom : ¬ ((c.output t).1.y = numRows - 1 ∧ c.scrollFlag = 1) := hflag
    simp only [Function.comp, id, if_neg hbottom]

/-- **`vert_scroll`** — the screen scrolls if the cursor is on the last row and the flag is set. -/
theorem vertScrollAt_acts (h : Multiplexed c) :
    Acts t (fun st => (if st.1.y = numRows - 1 ∧ c.scrollFlag = 1 then st.1.scroll else st.1, st.2)) c
      (c.vertScrollAt t) ∧ (c.vertScrollAt t).Loaded t :=
  scrollWith_acts h fun _ hkl => hkl

/-- **`enter`**, before the scrolling. -/
theorem enterAt_acts (h : Multiplexed c) :
    Acts t (fun st => ({ st.1 with
      x := 0, y := if st.1.y = numRows - 1 then numRows - 1 else st.1.y + 1 }, st.2)) c (c.enterAt t) ∧
    (c.enterAt t).scrollFlag = if (c.termArr t).screenY = numRows - 1 then 1 else 0 := by
  have hy := (h.cursor t).2
  have hcols : (0 : Nat) < numCols := by decide
  have hlogical : (c.output t).1.y = (c.termArr t).screenY := rfl
  unfold Console.enterAt
  dsimp only
  by_cases hbottom : (c.loadCursor t).screenY = numRows - 1
  · have hb : (c.termArr t).screenY = numRows - 1 := hbottom
    have hglobals : Acts t id c
        { ({ c.loadCursor t with scrollFlag := 1 } : Console) with screenX := 0 } :=
      .globals h rfl rfl rfl rfl (Or.inl rfl)
    rw [if_pos hbottom, if_pos hb]
    refine ⟨(hglobals.trans (saveCursor_acts hglobals.mux hcols hy).1).congr ?_, rfl⟩
    simp only [Function.comp, id, hlogical, if_pos hb]
    rw [← hb]
    rfl
  · have hb : ¬ (c.termArr t).screenY = numRows - 1 := hbottom
    have hglobals : Acts t id c
        { ({ c.loadCursor t with
          screenY := (c.loadCursor t).screenY + 1, scrollFlag := 0 } : Console) with screenX := 0 } :=
      .globals h rfl rfl rfl rfl (Or.inl rfl)
    have hnext : (c.termArr t).screenY + 1 < numRows := by omega
    rw [if_neg hbottom, if_neg hb]
    refine ⟨(hglobals.trans (saveCursor_acts hglobals.mux hcols hnext).1).congr ?_, rfl⟩
    simp only [Function.comp, id, hlogical, if_neg hb]
    rfl

/-- **`newline_check`**, before the scrolling. -/
theorem newlineCheckAt_acts (h : Multiplexed c) :
    Acts t (fun st => ({ st.1 with x := 0 }, st.2)) c (c.newlineCheckAt t) ∧
    ((c.termArr t).screenY = numRows - 1 → (c.newlineCheckAt t).scrollFlag = 1) := by
  have hy := (h.cursor t).2
  have hcols : (0 : Nat) < numCols := by decide
  unfold Console.newlineCheckAt
  dsimp only
  by_cases hbottom : (c.loadCursor t).screenY = numRows - 1
  · have hglobals : Acts t id c
        { ({ c.loadCursor t with scrollFlag := 1 } : Console) with screenX := 0 } :=
      .globals h rfl rfl rfl rfl (Or.inl rfl)
    rw [if_pos hbottom]
    exact ⟨(hglobals.trans (saveCursor_acts hglobals.mux hcols hy).1).congr rfl, fun _ => rfl⟩
  · have hglobals : Acts t id c { c.loadCursor t with screenX := 0 } := .globals h rfl rfl rfl rfl (Or.inl rfl)
    rw [if_neg hbottom]
    exact ⟨(hglobals.trans (saveCursor_acts hglobals.mux hcols hy).1).congr rfl,
      fun hb => absurd hb hbottom⟩

/-- `vert_scroll` after the cursor has entered the next line. -/
theorem vertScroll_of_entered {c' : Console}
    (henter : Acts t (fun st => ({ st.1 with
      x := 0, y := if st.1.y = numRows - 1 then numRows - 1 else st.1.y + 1 }, st.2)) c c')
    (hflag : c'.scrollFlag = if (c.termArr t).screenY = numRows - 1 then 1 else 0) :
    Acts t (fun st => (st.1.enter, st.2)) c (c'.vertScrollAt t) ∧ (c'.vertScrollAt t).Loaded t := by
  obtain ⟨hscroll, hloaded⟩ := vertScrollAt_acts (t := t) henter.mux
  refine ⟨(henter.trans hscroll).congr ?_, hloaded⟩
  have hlogical : (c.output t).1.y = (c.termArr t).screenY := rfl
  simp only [Function.comp, hflag, hlogical, Screen.enter]
  by_cases hb : (c.termArr t).screenY = numRows - 1
  · simp only [hb, if_true, and_self]
  · simp only [hb, if_false, Nat.zero_ne_one, and_false]

/-- **`newline_check` and `vert_scroll`.** -/
theorem newlineCheck_vertScroll_acts (h : Multiplexed c) :
    Acts t (fun st => (st.1.newline, st.2)) c ((c.newlineCheckAt t).vertScrollAt t) := by
  obtain ⟨hcheck, hflag⟩ := newlineCheckAt_acts (t := t) h
  have hscroll := (vertScrollAt_acts (t := t) hcheck.mux).1
  refine (hcheck.trans hscroll).congr ?_
  have hlogical : (c.output t).1.y = (c.termArr t).screenY := rfl
  simp only [Function.comp, hlogical, Screen.newline]
  by_cases hb : (c.termArr t).screenY = numRows - 1
  · simp only [hb, hflag hb, if_true, and_self]
  · simp only [hb, if_false, false_and]

/-- The end of `putc`: the cursor `(x, y)` is assigned and saved and the VGA cursor moved. -/
theorem moveCursor_acts (h : Multiplexed c) {x y : Nat} (hx : x < numCols) (hy : y < numRows) :
    Acts t (fun st => ({ st.1 with x := x, y := y }, st.2)) c
      (({ c with screenX := x, screenY := y } : Console).saveCursor t).updateCursor ∧
    (({ c with screenX := x, screenY := y } : Console).saveCursor t).updateCursor.Loaded t := by
  have hglobals : Acts t id c { c with screenX := x, screenY := y } :=
    .globals h rfl rfl rfl rfl (Or.inl rfl)
  obtain ⟨hsave, hloaded⟩ := saveCursor_acts (t := t) hglobals.mux hx hy
  exact ⟨((hglobals.trans hsave).trans (updateCursor_acts hsave.mux)).congr rfl, hloaded⟩

/-- The character and its attribute, and the cursor behind them. -/
theorem putCell_acts (h : Multiplexed c) {x y : Nat} (hx : x < numCols) (hy : y < numRows) (ch : UInt8) :
    let c' := (c.storeByte (videoAddr t + 2 * (numCols * y + x)) ch).storeByte
      (videoAddr t + 2 * (numCols * y + x) + 1) attrib
    Acts t (fun st => ((st.1.set (2 * (numCols * y + x)) ch).set (2 * (numCols * y + x) + 1) attrib,
      st.2)) c c' ∧ c'.screenX = c.screenX ∧ c'.screenY = c.screenY := by
  intro c'
  have hcell : 2 * (numCols * y + x) + 1 < screenBytes := by
    unfold screenBytes numRows numCols at *
    omega
  have hch := Acts.store (t := t) h (Nat.lt_of_succ_lt hcell) ch
  have hattr := Acts.store (t := t) hch.mux hcell attrib
  rw [← Nat.add_assoc] at hattr
  obtain ⟨phys, fault, hm⟩ : c.MemoryOf c' :=
    (Console.MemoryOf.storeByte c _ ch).trans (.storeByte _ _ attrib)
  exact ⟨hch.trans hattr, by rw [hm], by rw [hm]⟩

/-- **`putc`.** -/
theorem putcAt_acts (h : Multiplexed c) (ch : UInt8) :
    Acts t (fun st => (st.1.put ch, st.2)) c (c.putcAt t ch) ∧ (c.putcAt t ch).Loaded t := by
  obtain ⟨hx, hy⟩ := h.cursor t
  have hvid : (c.termArr t).vidMemAddr = videoAddr t := h.map.vidMemAddr t
  have hlogical : (c.output t).1.x = (c.termArr t).screenX ∧ (c.output t).1.y = (c.termArr t).screenY :=
    ⟨rfl, rfl⟩
  unfold Console.putcAt
  dsimp only
  generalize hc0 : ({ c with videoMem := (c.termArr t).vidMemAddr } : Console).loadCursor t = c0
  have h0 : Acts t id c c0 := by
    rw [← hc0]
    exact .globals h rfl rfl rfl rfl (Or.inr ⟨t, rfl⟩)
  have hc0x : c0.screenX = (c.termArr t).screenX := by rw [← hc0]; rfl
  have hc0y : c0.screenY = (c.termArr t).screenY := by rw [← hc0]; rfl
  have hc0m : c0.videoMem = videoAddr t := by rw [← hc0, ← hvid]; rfl
  by_cases hnl : ch = newLine ∨ ch = carriageReturn
  · -- the start of the next line
    rw [if_pos hnl, hc0y]
    have hrow : (if (c.termArr t).screenY = numRows - 1 then numRows - 1
        else (c.termArr t).screenY + 1) < numRows := by
      split <;> omega
    obtain ⟨hend, hloaded⟩ := moveCursor_acts (t := t) h0.mux (show 0 < numCols by decide) hrow
    refine ⟨(h0.trans hend).congr ?_, hloaded⟩
    simp only [Function.comp, id, Screen.put, if_pos hnl, hlogical]
  · -- a character in its cell; the column wraps around, the row stays
    rw [if_neg hnl, hc0m, hc0x, hc0y]
    obtain ⟨hcell, hx1, hy1⟩ := putCell_acts (t := t) h0.mux hx hy ch
    have hmod : ((c.termArr t).screenX + 1) % numCols < numCols := Nat.mod_lt _ (by decide)
    have hrow : ((c.termArr t).screenY + ((c.termArr t).screenX + 1) % numCols / numCols) % numRows =
        (c.termArr t).screenY := by
      rw [Nat.div_eq_of_lt hmod, Nat.add_zero, Nat.mod_eq_of_lt hy]
    rw [hx1, hy1, hc0x, hc0y, hrow]
    obtain ⟨hend, hloaded⟩ := moveCursor_acts (t := t) hcell.mux hmod hy
    refine ⟨((h0.trans hcell).trans hend).congr ?_, hloaded⟩
    simp only [Function.comp, id, Screen.put, if_neg hnl, hlogical]
    rfl

/-! ## `terminal_write` -/

/-- An assignment to `newline_tracker`. -/
theorem tracker_acts (h : Multiplexed c) (g : Nat → Nat) :
    Acts t (fun st => (st.1, g st.2)) c
      (c.setTerm t fun term => { term with newlineTracker := g term.newlineTracker }) :=
  (Acts.setTerm h { c.termArr t with newlineTracker := g (c.termArr t).newlineTracker }
    rfl rfl (h.cursor t)).congr rfl

/-- An assignment to `enterFlag`. -/
theorem enterFlag_acts (h : Multiplexed c) (v : Nat) :
    Acts t id c (c.setTerm t fun term => { term with enterFlag := v }) :=
  (Acts.setTerm h { c.termArr t with enterFlag := v } rfl rfl (h.cursor t)).congr rfl

/-- Assignments that keep the cursor of the terminal keep the globals loaded. -/
theorem Console.Loaded.setTerm (h : c.Loaded t) {f : Terminal → Terminal}
    (hx : ∀ term, (f term).screenX = term.screenX) (hy : ∀ term, (f term).screenY = term.screenY) :
    (c.setTerm t f).Loaded t := by
  have hself : (c.setTerm t f).termArr t = f (c.termArr t) := Function.update_self ..
  rw [Console.Loaded, hself, hx, hy]
  exact h

theorem Multiplexed.visible_iff (h : Multiplexed c) : (c.termArr t).visible = 1 ↔ t = c.currTerminal := by
  rw [h.map.visible t]
  simp

theorem VideoMap.visible_eq_zero (h : VideoMap c) :
    (c.termArr t).visible = 0 ↔ t ≠ c.currTerminal := by
  rw [h.visible t]
  simp

/-- The newline branches of `terminal_write`: the two copies do the same to terminal `t`. -/
theorem writeNewline_acts (h : Multiplexed c) (ch : UInt8) :
    Acts t (fun st => if ch = newLine then (st.1.newline, 0) else st) c
      (if ch = newLine ∧ (c.termArr t).visible = 1 then
        (c.newlineCheckUser.vertScrollUser).setTerm c.newlineCheckUser.vertScrollUser.currTerminal
          fun term => { term with newlineTracker := 0 }
      else if ch = newLine then
        ((c.newlineCheck t).vertScroll t).setTerm t fun term => { term with newlineTracker := 0 }
      else c) := by
  by_cases hnl : ch = newLine
  · have hscroll := newlineCheck_vertScroll_acts (t := t) h
    have hzero := hscroll.trans (tracker_acts hscroll.mux fun _ => 0)
    by_cases hvis : (c.termArr t).visible = 1
    · have hcur := h.visible_iff.mp hvis
      have hcheck : (c.newlineCheckAt t).currTerminal = t :=
        (newlineCheckAt_acts (t := t) h).1.currTerminal.trans hcur.symm
      have huser : c.newlineCheckUser.vertScrollUser = (c.newlineCheckAt t).vertScrollAt t := by
        rw [Console.newlineCheckUser, ← hcur, Console.vertScrollUser, hcheck]
      rw [if_pos ⟨hnl, hvis⟩, huser, hscroll.currTerminal.trans hcur.symm]
      exact hzero.congr (by rw [if_pos hnl]; rfl)
    · rw [if_neg (fun hboth => hvis hboth.2), if_pos hnl]
      exact hzero.congr (by rw [if_pos hnl]; rfl)
  · rw [if_neg (fun hboth => hnl hboth.1), if_neg hnl]
    exact (Acts.refl h).congr (by rw [if_neg hnl]; rfl)

/-- `enter_user` and `vert_scroll_user`, on the displayed terminal. -/
theorem enterUser_vertScroll_acts (h : Multiplexed c) (hcur : t = c.currTerminal) :
    Acts t (fun st => (st.1.enter, st.2)) c c.enterUser.vertScrollUser ∧
    c.enterUser.vertScrollUser.Loaded t := by
  obtain ⟨henter, hflag⟩ := enterAt_acts (t := t) h
  have hraise := henter.trans (enterFlag_acts henter.mux 1)
  have huser : c.enterUser = (c.enterAt t).setTerm t fun term => { term with enterFlag := 1 } := by
    rw [Console.enterUser, ← hcur]
  have hcurr : c.enterUser.currTerminal = t := by
    rw [huser]
    exact hraise.currTerminal.trans hcur.symm
  rw [Console.vertScrollUser, hcurr, huser]
  exact vertScroll_of_entered (hraise.congr rfl) hflag

/-- The line break of `terminal_write` after 80 characters. -/
theorem writeBreak_acts (h : Multiplexed c) (hload : c.Loaded t) :
    let c' :=
      if s8 (c.termArr t).newlineTracker ≥ numCols then
        if (c.termArr t).visible = 0 then
          ((c.enter t).vertScroll t).setTerm t fun term => { term with newlineTracker := 0 }
        else
          (c.enterUser.vertScrollUser).setTerm c.enterUser.vertScrollUser.currTerminal
            fun term => { term with newlineTracker := 0 }
      else c
    Acts t (fun st => if s8 st.2 ≥ numCols then (st.1.enter, 0) else st) c c' ∧ c'.Loaded t := by
  by_cases hfull : s8 (c.termArr t).newlineTracker ≥ numCols
  · rw [if_pos hfull]
    have hfull' : s8 (c.output t).2 ≥ numCols := hfull
    by_cases hvis : (c.termArr t).visible = 0
    · rw [if_pos hvis]
      obtain ⟨henter, hflag⟩ := enterAt_acts (t := t) h
      obtain ⟨hscroll, hloaded⟩ := vertScroll_of_entered henter hflag
      have hzero := hscroll.trans (tracker_acts hscroll.mux fun _ => 0)
      exact ⟨hzero.congr (by rw [if_pos hfull']; rfl), hloaded.setTerm (fun _ => rfl) fun _ => rfl⟩
    · -- the displayed copy also raises `enterFlag`
      have hcur : t = c.currTerminal := by
        by_contra hne
        exact hvis (h.map.visible_eq_zero.mpr hne)
      obtain ⟨hscroll, hloaded⟩ := enterUser_vertScroll_acts h hcur
      have hzero := hscroll.trans (tracker_acts hscroll.mux fun _ => 0)
      rw [if_neg hvis, hscroll.currTerminal, ← hcur]
      exact ⟨hzero.congr (by rw [if_pos hfull']; rfl), hloaded.setTerm (fun _ => rfl) fun _ => rfl⟩
  · rw [if_neg hfull]
    have hfull' : ¬ s8 (c.output t).2 ≥ numCols := hfull
    exact ⟨(Acts.refl h).congr (by rw [if_neg hfull']; rfl), hload⟩

/-- The character of `terminal_write`: both copies of `putc` put it on terminal `t`. -/
theorem writePut_eq (h : VideoMap c) (ch : UInt8) :
    (if (c.termArr t).visible = 0 then c.putc t ch else c.putcUser ch) = c.putcAt t ch := by
  by_cases hvis : (c.termArr t).visible = 0
  · rw [if_pos hvis, Console.putc]
  · have hcur : t = c.currTerminal := by
      by_contra hne
      exact hvis (h.visible_eq_zero.mpr hne)
    rw [if_neg hvis, Console.putcUser, ← hcur]

/-- **One byte of `terminal_write`**, on the displayed terminal or not. -/
theorem writeByte_acts (h : Multiplexed c) (hload : c.Loaded t) (ch : UInt8) :
    Acts t (fun st => Screen.writeByte st ch) c (Console.writeByte t c ch) ∧
    (Console.writeByte t c ch).Loaded t := by
  by_cases hnull : ch = 0
  · subst hnull
    exact ⟨(Acts.refl h).congr rfl, hload⟩
  · have hstep : Console.writeByte t c ch = Console.writeChar t c ch := if_pos hnull
    rw [hstep, Console.writeChar]
    dsimp only
    have hnewline := writeNewline_acts (t := t) h ch
    generalize (if ch = newLine ∧ (c.termArr t).visible = 1 then _ else _ : Console) = c1 at hnewline
    rw [writePut_eq hnewline.mux.map]
    obtain ⟨hput, hloaded⟩ := putcAt_acts (t := t) hnewline.mux ch
    have hupdate := hput.trans (updateCursor_acts hput.mux)
    have hcount := hupdate.trans (tracker_acts hupdate.mux fun n => (n + 1) % 256)
    have hloaded' : ((c1.putcAt t ch).updateCursor.setTerm t fun term =>
        { term with newlineTracker := (term.newlineTracker + 1) % 256 }).Loaded t :=
      Console.Loaded.setTerm hloaded (fun _ => rfl) fun _ => rfl
    obtain ⟨hbreak, hend⟩ := writeBreak_acts hcount.mux hloaded'
    refine ⟨((hnewline.trans hcount).trans hbreak).congr ?_, hend⟩
    simp only [Screen.writeByte, if_neg hnull, Function.comp, id]

theorem writeBytes_acts (h : Multiplexed c) (hload : c.Loaded t) (buf : List UInt8) :
    Acts t (fun st => buf.foldl Screen.writeByte st) c (buf.foldl (Console.writeByte t) c) ∧
    (buf.foldl (Console.writeByte t) c).Loaded t := by
  induction buf generalizing c with
  | nil => exact ⟨Acts.refl h, hload⟩
  | cons ch buf ih =>
      obtain ⟨hfirst, hloaded⟩ := writeByte_acts h hload ch
      obtain ⟨hrest, hend⟩ := ih hfirst.mux hloaded
      exact ⟨hfirst.trans hrest, hend⟩

/-- **`terminal_write` writes to the screen of its caller's terminal**, and to no other. -/
theorem terminalWrite_acts (h : Multiplexed c) (t : Fin 3) (buf : List UInt8) :
    Multiplexed (c.terminalWrite t buf).1 ∧
    (c.terminalWrite t buf).1.logical =
      Function.update c.logical t ((c.logical t).write buf) ∧
    (c.OnScreen → (c.terminalWrite t buf).1.OnScreen) ∧ (c.terminalWrite t buf).1.Loaded t := by
  have hload : Acts t id c (c.loadCursor t) := loadCursor_acts h
  have hreset : Acts t (fun st => (st.1, 0)) (c.loadCursor t) ((c.loadCursor t).setTerm t fun term =>
      { term with newlineTracker := 0, enterFlag := 0 }) :=
    (Acts.setTerm hload.mux { c.termArr t with newlineTracker := 0, enterFlag := 0 } rfl rfl
      (h.cursor t)).congr rfl
  have hloaded : ((c.loadCursor t).setTerm t fun term =>
      { term with newlineTracker := 0, enterFlag := 0 }).Loaded t :=
    Console.Loaded.setTerm ⟨rfl, rfl⟩ (fun _ => rfl) fun _ => rfl
  obtain ⟨hwrite, hend⟩ := writeBytes_acts hreset.mux hloaded buf
  have hchain := (hload.trans hreset).trans hwrite
  rw [Console.terminalWrite]
  dsimp only
  generalize buf.foldl (Console.writeByte t) _ = c' at hwrite hend hchain
  -- the globals are the cursor of the terminal, so saving them changes nothing
  have hcursor := hwrite.mux.cursor t
  obtain ⟨hsave, hloaded'⟩ := saveCursor_acts (t := t) hwrite.mux (by rw [hend.1]; exact hcursor.1)
    (by rw [hend.2]; exact hcursor.2)
  have hsame : Acts t id c' (c'.saveCursor t) := by
    refine hsave.congr ?_
    simp only [hend.1, hend.2]
    rfl
  have hall := hchain.trans hsame
  refine ⟨hall.mux, ?_, hall.videoMem, hloaded'⟩
  funext u
  by_cases hu : u = t
  · subst hu
    rw [Function.update_self]
    exact congrArg Prod.fst hall.own
  · rw [Function.update_of_ne hu, hall.others u hu]

end Routines

/-! ## Ticks and switches -/

/-- A tick of a kernel whose slots all hold a process maps the page of the next slot. -/
theorem tick_con {img : Image} {fr : Frame} {k : Kernel} (hsched : ∀ t, k.proc.schedPid t ≠ 0) :
    (pitInterruptHandler img fr k).con =
      ({ k.con with videoMem := videoAddr (k.proc.currProcess + 1) } : Console).schedulerRemapVideo
        (k.proc.currProcess + 1) := by
  have h0 : ¬ k.cli.proc.schedPid 0 = 0 := hsched 0
  have hnext : ¬ (k.cli.proc.saveContext fr).schedPid
      ((k.cli.proc.saveContext fr).currProcess + 1) = 0 := hsched _
  simp only [pitInterruptHandler, scheduler, if_neg h0, if_neg hnext]
  rfl

/-- Mapping a page leaves no page absent that was present. -/
theorem mapPage_present {c : Console} (va pa : Nat) {i : Nat} (h : (c.pageTable i).present = true) :
    ((c.mapPage va pa).pageTable i).present = true := by
  unfold Console.mapPage
  dsimp only
  rw [Function.update_apply]
  split
  · rfl
  · exact h

section Switch

variable {c : Console} {t : Fin 3}

/-- The page of the terminal that is saved leads to its backing page, and page 0xB8 to the text page,
so the copy is one between two pages. -/
theorem terminalSaveState_phys (h : Multiplexed c) :
    c.terminalSaveState c.currTerminal =
      { c.saving c.currTerminal with
        phys := copyPage c.phys (0xB9 + c.currTerminal.val) 0xB8 screenBytes } := by
  have hmap : VideoAt none none (c.saving c.currTerminal) := h.map.saving
  have hpres : ((c.saving c.currTerminal).pageTable (0xB9 + c.currTerminal.val)).present = true :=
    mapPage_present _ _ (h.present c.currTerminal)
  rw [terminalSaveState_eq, hmap.vidMemAddr]
  refine memcpy_eq (by decide) (fun i hi => ?_) fun i hi => ?_
  · rw [hmap.translate _ hpres (Nat.lt_trans hi (by decide))]
    simp
  · exact hmap.translate_text (Nat.lt_trans hi (by decide))

theorem terminalRestoreState_phys (h : VideoAt none none c)
    (hpres : (c.pageTable (0xB9 + t.val)).present = true) :
    c.terminalRestoreState t =
      { c.restoring t with phys := copyPage c.phys 0xB8 (0xB9 + t.val) screenBytes } := by
  have hmap : VideoAt none (some t) (c.restoring t) := h.restoring t
  have hpres' : ((c.restoring t).pageTable (0xB9 + t.val)).present = true :=
    mapPage_present _ _ hpres
  rw [terminalRestoreState_eq, hmap.vidMemAddr]
  refine memcpy_eq (by decide) (fun i hi => ?_) fun i hi => ?_
  · exact hmap.translate_text (Nat.lt_trans hi (by decide))
  · rw [hmap.translate _ hpres' (Nat.lt_trans hi (by decide))]
    simp

/-- The second half of `terminal_switch`, in closed form. -/
theorem terminalSwitch_restored {c' : Console} (h : VideoAt none none c)
    (hpres : ∀ u : Fin 3, (c.pageTable (0xB9 + u.val)).present = true)
    (hc' : c' = (c.terminalRestoreState t).updateCursor) :
    ((c'.mapPage (c'.termArr t).vidMemAddr videoMemAddr).mapUserVideo videoMemAddr).phys =
      copyPage c.phys 0xB8 (0xB9 + t.val) screenBytes ∧
    (∀ u, (c'.termArr u).screenX = (c.termArr u).screenX ∧
      (c'.termArr u).screenY = (c.termArr u).screenY) ∧
    ∀ u : Fin 3, ((c'.mapPage (c'.termArr t).vidMemAddr videoMemAddr).pageTable
      (0xB9 + u.val)).present = true := by
  rw [terminalRestoreState_phys h (hpres t)] at hc'
  subst hc'
  exact ⟨rfl, fun u => ⟨restoring_field (fun _ _ => rfl) c t u, restoring_field (fun _ _ => rfl) c t u⟩,
    fun u => mapPage_present _ _ (mapPage_present _ _ (hpres u))⟩

/-- The first half. -/
theorem terminalSwitch_saved (h : Multiplexed c) :
    VideoAt none none (c.terminalSaveState c.currTerminal) ∧
    (c.terminalSaveState c.currTerminal).phys =
      copyPage c.phys (0xB9 + c.currTerminal.val) 0xB8 screenBytes ∧
    (∀ u, ((c.terminalSaveState c.currTerminal).termArr u).screenX = (c.termArr u).screenX ∧
      ((c.terminalSaveState c.currTerminal).termArr u).screenY = (c.termArr u).screenY) ∧
    ∀ u : Fin 3,
      ((c.terminalSaveState c.currTerminal).pageTable (0xB9 + u.val)).present = true := by
  rw [terminalSaveState_phys h]
  exact ⟨h.map.saving.memory ⟨_, _, rfl⟩, rfl,
    fun u => ⟨saving_field (fun _ _ => rfl) (fun _ _ => rfl) c _ u,
      saving_field (fun _ _ => rfl) (fun _ _ => rfl) c _ u⟩,
    fun u => mapPage_present _ _ (h.present u)⟩

/-- What a switch does to the memory, the cursors and the presence of the pages. -/
theorem terminalSwitch_effect (h : Multiplexed c) (ht : t ≠ c.currTerminal) :
    (c.terminalSwitch t).1.phys =
      copyPage (copyPage c.phys (0xB9 + c.currTerminal.val) 0xB8 screenBytes) 0xB8 (0xB9 + t.val)
        screenBytes ∧
    (∀ u, ((c.terminalSwitch t).1.termArr u).screenX = (c.termArr u).screenX ∧
      ((c.terminalSwitch t).1.termArr u).screenY = (c.termArr u).screenY) ∧
    ∀ u : Fin 3, ((c.terminalSwitch t).1.pageTable (0xB9 + u.val)).present = true := by
  obtain ⟨hmap, hphys, hcursor, hpres⟩ := terminalSwitch_saved h
  obtain ⟨c', hc'⟩ : ∃ c', c' = ((c.terminalSaveState c.currTerminal).terminalRestoreState
    t).updateCursor := ⟨_, rfl⟩
  obtain ⟨hphys', hcursor', hpres'⟩ := terminalSwitch_restored hmap hpres hc'
  have heq : (c.terminalSwitch t).1 =
      (c'.mapPage (c'.termArr t).vidMemAddr videoMemAddr).mapUserVideo videoMemAddr := by
    rw [terminalSwitch_eq c ht, hc']
  rw [heq]
  refine ⟨by rw [hphys', hphys], fun u => ?_, hpres'⟩
  exact ⟨(hcursor' u).1.trans (hcursor u).1, (hcursor' u).2.trans (hcursor u).2⟩

/-- **A switch changes no screen**: the text page and the backing page trade roles, and their contents
with them. -/
theorem Multiplexed.terminalSwitch (h : Multiplexed c) (idx : Nat) :
    Multiplexed (c.terminalSwitch idx).1 ∧ (c.terminalSwitch idx).1.logical = c.logical := by
  by_cases hnone : idx = c.currTerminal.val ∨ 3 ≤ idx
  · rw [terminalSwitch_of_not hnone]
    exact ⟨h, rfl⟩
  · obtain ⟨t, rfl⟩ : ∃ t : Fin 3, t.val = idx := ⟨⟨idx, by omega⟩, rfl⟩
    have ht : t ≠ c.currTerminal := fun heq => hnone (Or.inl (congrArg Fin.val heq))
    have hmap := h.map.terminalSwitch t.val
    have hcurr := terminalSwitch_currTerminal c t
    obtain ⟨hphys, hcursor, hpres⟩ := terminalSwitch_effect h ht
    generalize (c.terminalSwitch t.val).1 = c' at hmap hcurr hphys hcursor hpres
    refine ⟨⟨hmap, hpres, fun u => ?_⟩, funext fun u => Screen.ext (funext fun i => ?_)
      (hcursor u).1 (hcursor u).2⟩
    · rw [(hcursor u).1, (hcursor u).2]
      exact h.cursor u
    · show (if i < screenBytes then c'.phys (4096 * c'.screenPage u + i) else 0) =
        if i < screenBytes then c.phys (4096 * c.screenPage u + i) else 0
      by_cases hi : i < screenBytes
      · have hi' : i < 4096 := Nat.lt_trans hi (by decide)
        rw [if_pos hi, if_pos hi, hphys, Console.screenPage, Console.screenPage, hcurr]
        by_cases hu : u = t
        · -- restored: the backing page is on the text page now
          subst hu
          rw [if_pos rfl, if_neg ht, copyPage_dst _ _ _ hi,
            copyPage_other _ _ (fun heq => ht (Fin.ext (by omega))) (by decide) hi']
        · rw [if_neg hu, copyPage_other _ _ (by omega) (by decide) hi']
          by_cases hcu : u = c.currTerminal
          · -- saved: the text page was copied to the backing page
            rw [if_pos hcu, ← hcu, copyPage_dst _ _ _ hi]
          · rw [if_neg hcu, copyPage_other _ _ (fun heq => hcu (Fin.ext (by omega))) (by decide) hi']
      · rw [if_neg hi, if_neg hi]

end Switch

/-! ## Ticks that boot a shell -/

/-- `c'` is `c` with another memory above the kernel's. -/
def Console.UserMemoryOf (c c' : Console) : Prop :=
  ∃ phys fault, c' = { c with phys := phys, fault := fault } ∧ ∀ a < bottomKernal, phys a = c.phys a

/-- The frame of a slot lies above the kernel. -/
theorem storeUser_userMemory {page : PageEntry} (hpage : 2 ≤ page.frame) (c : Console)
    (s : Nat × UInt8) : c.UserMemoryOf (c.storeUser page s) := by
  unfold Console.storeUser
  split
  · refine ⟨_, c.fault, rfl, fun a ha => Function.update_of_ne ?_ ..⟩
    have hbase : pageSize * 2 ≤ pageSize * page.frame := Nat.mul_le_mul_left pageSize hpage
    unfold bottomKernal at ha
    unfold pageSize at *
    omega
  · exact ⟨c.phys, true, rfl, fun a _ => rfl⟩

theorem storeUser_foldl_userMemory {page : PageEntry} (hpage : 2 ≤ page.frame)
    (stores : List (Nat × UInt8)) (c : Console) :
    c.UserMemoryOf (stores.foldl (Console.storeUser page) c) := by
  induction stores generalizing c with
  | nil => exact ⟨c.phys, c.fault, rfl, fun a _ => rfl⟩
  | cons s stores ih =>
      obtain ⟨phys, fault, heq, hlow⟩ := storeUser_userMemory hpage c s
      obtain ⟨phys', fault', heq', hlow'⟩ := ih (c.storeUser page s)
      refine ⟨phys', fault', ?_, fun a ha => ?_⟩
      · rw [List.foldl_cons, heq', heq]
      · rw [hlow' a ha, heq]
        exact hlow a ha

/-- **An execute that finds a free slot stores above the kernel only.** -/
theorem executeHandler_userMemory (img : Image) (fr : Frame) (command : Option (List UInt8))
    {k : Kernel} {slot : Nat} (hslot : freeSlot k.proc.pidArr = some slot) :
    k.con.UserMemoryOf (executeHandler img fr command k).1.con := by
  have hrefl : k.con.UserMemoryOf k.con := ⟨k.con.phys, k.con.fault, rfl, fun a _ => rfl⟩
  have hlt : slot < programMax := by
    rw [freeSlot, List.find?_range_eq_some] at hslot
    exact List.mem_range.mp hslot.2.1
  have hframe : 2 ≤ (userPageEntry (bottomKernal + pageSize * slot)).frame := by
    have hpage : bottomKernal + pageSize * slot
        = bottomKernal + pageSize * (slot + 1) - pageSize := by
      unfold pageSize
      omega
    rw [hpage, userPageEntry_frame hlt (by omega)]
    omega
  unfold executeHandler
  split
  · exact hrefl
  split
  · exact hrefl
  split
  · exact hrefl
  split
  · unfold Kernel.launch
    split
    · exact hrefl
    · simp only [Kernel.startProgram, openHandler_stdin, openHandler_stdout, Proc.slot, hslot,
        Option.getD_some]
      exact storeUser_foldl_userMemory hframe _ _
  · exact hrefl

/-- **`Booting p`** — the table while the base shells are being started: nothing but the first
`program_count` slots is in use, and these are scheduled. -/
structure Booting (p : Proc) : Prop where
  count : p.programCount ≤ 3
  free : ∀ i, p.programCount ≤ i → i < programMax → p.pidArr i = 0
  scheduled : ∀ t : Fin 3, t.val < p.programCount → p.schedPid t ≠ 0

/-- **`Schedulable p`** — every slot of the scheduler has a process or is waiting for its shell. -/
def Schedulable (p : Proc) : Prop := (∀ t, p.schedPid t ≠ 0) ∨ Booting p

theorem Booting.congr {p p' : Proc} (h : Booting p) (hcount : p'.programCount = p.programCount)
    (hpid : p'.pidArr = p.pidArr) (hsched : p'.schedPid = p.schedPid) : Booting p' :=
  ⟨hcount ▸ h.count, by rw [hcount, hpid]; exact h.free, by rw [hcount, hsched]; exact h.scheduled⟩

theorem Booting.freeSlot {p : Proc} (h : Booting p) : ∃ slot, freeSlot p.pidArr = some slot := by
  cases hfind : Ece391.freeSlot p.pidArr with
  | some slot => exact ⟨slot, rfl⟩
  | none =>
      rw [Ece391.freeSlot, List.find?_eq_none] at hfind
      have hzero := h.free 3 h.count (by decide)
      exact absurd hzero (by simpa using hfind 3 (by decide))

/-- The tables of an execute while the base shells are being started: unchanged if it fails, and with
one more shell if it does not. -/
theorem executeHandler_boot (img : Image) (fr : Frame) (command : List UInt8) {k : Kernel}
    (hcount : k.proc.programCount < 3) :
    let p := (executeHandler img fr (some command) k).1.proc
    (p.programCount = k.proc.programCount ∧ p.pidArr = k.proc.pidArr ∧
      p.schedPid = k.proc.schedPid) ∨
    (p.programCount = k.proc.programCount + 1 ∧
      p.pidArr = Function.update k.proc.pidArr k.proc.programCount 1 ∧
      p.schedPid = Function.update k.proc.schedPid (Fin.ofNat 3 k.proc.programCount)
        (k.proc.programCount + 1)) := by
  intro p
  cases hexec : executeHandler img fr (some command) k with
  | mk k' res =>
      have hp : p = k'.proc := congrArg (fun r => r.1.proc) hexec
      rw [hp]
      cases res with
      | none =>
          obtain ⟨argsFlag, userPage, flag, heq⟩ := executeHandler_none hexec
          rw [heq]
          exact Or.inl ⟨rfl, rfl, rfl⟩
      | some eip =>
          obtain ⟨-, dentry, stores, -, -, -, rfl⟩ := executeHandler_some hexec
          have hsmall : (k.proc.programCount + 1) % 256 = k.proc.programCount + 1 :=
            Nat.mod_eq_of_lt (by omega)
          have hbranch : (((k.cli.noteArgs (parseArgs command)).mapUserPage
              (k.proc.slot fr)).storeProgram stores).proc.programCount < 3 := hcount
          right
          simp only [Kernel.startProgram, if_pos hbranch, openHandler_stdin, openHandler_stdout]
          simp [Kernel.storeProgram, Kernel.mapUserPage, Kernel.noteArgs, Kernel.cli, Proc.cli,
            Proc.sti, Proc.enterProgram, Proc.openTerminal, Proc.bootPcb, Proc.setPcb, hsmall]

theorem Booting.execute {k : Kernel} (h : Booting k.proc) (hcount : k.proc.programCount < 3)
    (img : Image) (fr : Frame) (command : List UInt8) :
    Booting (executeHandler img fr (some command) k).1.proc := by
  rcases executeHandler_boot img fr command hcount with ⟨hn, hpid, hsched⟩ | ⟨hn, hpid, hsched⟩
  · exact h.congr hn hpid hsched
  · refine ⟨by omega, ?_, ?_⟩
    · intro i hi hmax
      rw [hpid, Function.update_of_ne (by omega)]
      exact h.free i (by omega) hmax
    · intro t ht
      rw [hsched, Function.update_apply]
      split
      · omega
      next hne =>
        have hval : (Fin.ofNat 3 k.proc.programCount).val = k.proc.programCount :=
          Nat.mod_eq_of_lt hcount
        exact h.scheduled t (by
          have : t.val ≠ k.proc.programCount := fun heq => hne (Fin.ext (heq.trans hval.symm))
          omega)

/-- Memory above the kernel holds no screen. -/
theorem Multiplexed.userMemory {c c' : Console} (h : Multiplexed c) (hm : c.UserMemoryOf c') :
    Multiplexed c' ∧ c'.logical = c.logical := by
  obtain ⟨phys, fault, rfl, hlow⟩ := hm
  refine ⟨h.memory ⟨phys, fault, rfl⟩, funext fun t => Screen.ext (funext fun i => ?_) rfl rfl⟩
  show (if i < screenBytes then phys (4096 * c.screenPage t + i) else 0) =
    if i < screenBytes then c.phys (4096 * c.screenPage t + i) else 0
  split
  next hi =>
    have hpage : c.screenPage t < 0xBC := by
      unfold Console.screenPage
      split <;> omega
    have hi' : i < 4096 := Nat.lt_trans hi (by decide)
    exact hlow _ (by unfold bottomKernal; omega)
  next => rfl

/-- The console as the scheduler leaves it when it moves to slot `t`. -/
theorem Multiplexed.scheduled {c : Console} (h : Multiplexed c) (addr : Nat) (t : Fin 3) :
    Multiplexed (({ c with videoMem := addr } : Console).schedulerRemapVideo t) := by
  refine ⟨?_, fun u => mapPage_present _ _ (h.present u), h.cursor⟩
  have hmem : VideoMap { c with videoMem := addr } :=
    ⟨h.map.text, h.map.pages, h.map.visible, h.map.vidMemAddr⟩
  exact VideoAt.schedulerRemapVideo hmem _

/-- Starting a base shell changes no screen. -/
theorem Multiplexed.bootShell {k : Kernel} (h : Multiplexed k.con) (hboot : Booting k.proc)
    (hcount : k.proc.programCount < 3) (img : Image) (fr : Frame) (stack : Nat) :
    Multiplexed (bootShell img fr stack k).sti.con ∧
    (bootShell img fr stack k).sti.con.logical = k.con.logical ∧
    Schedulable (bootShell img fr stack k).sti.proc := by
  obtain ⟨slot, hslot⟩ := hboot.freeSlot
  have hboot' : Booting { k.proc with esp := stack, ebp := stack } := hboot.congr rfl rfl rfl
  obtain ⟨hmux, hlogical⟩ := h.userMemory (executeHandler_userMemory img fr (some shellName)
    (k := { k with proc := { k.proc with esp := stack, ebp := stack } }) hslot)
  have hshell := hboot'.execute (k := { k with proc := _ }) hcount img fr shellName
  exact ⟨hmux, hlogical, Or.inr (hshell.congr rfl rfl rfl)⟩

/-- **A tick changes no screen**, whether it switches processes or boots a shell. -/
theorem Multiplexed.tick (img : Image) (fr : Frame) {k : Kernel} (h : Multiplexed k.con)
    (hsched : Schedulable k.proc) :
    Multiplexed (pitInterruptHandler img fr k).con ∧
    (pitInterruptHandler img fr k).con.logical = k.con.logical ∧
    Schedulable (pitInterruptHandler img fr k).proc := by
  by_cases hall : ∀ t, k.proc.schedPid t ≠ 0
  · rw [tick_con hall, tick_proc hall]
    exact ⟨h.scheduled _ _, rfl, Or.inl hall⟩
  · have hboot : Booting k.proc := hsched.resolve_left hall
    unfold pitInterruptHandler scheduler
    split
    next h0 =>
      -- the first tick of all: `sched_pid[0] = 1` and the first shell
      have hcount : k.proc.programCount = 0 := by
        by_contra hne
        exact hboot.scheduled 0 (Nat.pos_of_ne_zero hne) h0
      apply Multiplexed.bootShell
      · exact h.congr rfl rfl (fun _ => rfl) (fun _ => rfl) h.cursor
      · refine ⟨hboot.count, hboot.free, fun t ht => ?_⟩
        have hlt : t.val < k.proc.programCount := ht
        omega
      · show k.proc.programCount < 3
        omega
    next h0 =>
      dsimp only
      split
      next hnext =>
        -- the next slot is empty: its number is reserved and its shell started
        apply Multiplexed.bootShell
        · exact h.scheduled _ _
        · refine ⟨hboot.count, hboot.free, fun t ht => ?_⟩
          dsimp only
          rw [Function.update_apply]
          split
          · omega
          · exact hboot.scheduled t ht
        · show k.proc.programCount < 3
          by_contra hge
          have hlt := (k.proc.currProcess + 1).isLt
          exact hboot.scheduled (k.proc.currProcess + 1) (by omega) hnext
      next =>
        exact ⟨h.scheduled _ _, rfl, Or.inr (hboot.congr rfl rfl rfl)⟩

/-! ## Runs -/

/-- The events of the three screens; a write is issued by a process of the running terminal. -/
inductive ScreenEvent
  | tick (fr : Frame)
  | terminalSwitch (idx : Nat)
  | terminalWrite (buf : List UInt8)

def ScreenStep (img : Image) (k : Kernel) : ScreenEvent → Kernel → Prop
  | .tick fr, k' => k' = pitInterruptHandler img fr k
  | .terminalSwitch idx, k' => k' = { k with con := (k.con.terminalSwitch idx).1 }
  | .terminalWrite buf, k' =>
      k' = { k with con := (k.con.terminalWrite k.proc.currProcess buf).1, proc := k.proc.sti }

/-- **The abstract machine**: three screens, of which an event changes the one written to. -/
def ScreenEvent.act (t : Fin 3) (screens : Fin 3 → Screen) : ScreenEvent → Fin 3 → Screen
  | .terminalWrite buf => Function.update screens t ((screens t).write buf)
  | .tick _ => screens
  | .terminalSwitch _ => screens

/-- What the runs keep. -/
def Screened (k : Kernel) : Prop := Multiplexed k.con ∧ Schedulable k.proc

/-- **The simulation**: one step of the kernel is one step of the abstract machine. -/
theorem Screened.step {img : Image} {k k' : Kernel} {e : ScreenEvent} (h : Screened k)
    (hs : ScreenStep img k e k') :
    Screened k' ∧ k'.con.logical = e.act k.proc.currProcess k.con.logical := by
  obtain ⟨hmux, hsched⟩ := h
  cases e with
  | tick fr =>
      obtain rfl := hs
      obtain ⟨hmux', hlogical, hsched'⟩ := hmux.tick img fr hsched
      exact ⟨⟨hmux', hsched'⟩, hlogical⟩
  | terminalSwitch idx =>
      obtain rfl := hs
      obtain ⟨hmux', hlogical⟩ := hmux.terminalSwitch idx
      exact ⟨⟨hmux', hsched⟩, hlogical⟩
  | terminalWrite buf =>
      obtain rfl := hs
      obtain ⟨hmux', hlogical, -⟩ := terminalWrite_acts hmux k.proc.currProcess buf
      refine ⟨⟨hmux', ?_⟩, hlogical⟩
      rcases hsched with hall | hboot
      · exact Or.inl hall
      · exact Or.inr (hboot.congr rfl rfl rfl)

/-- **Terminal multiplexing refines three independent screens.**  From a state with all three video
pages mapped, along every run of ticks, switches and writes, every event acts on the logical screens and
cursors as the abstract machine does: a write by a process of terminal `t` writes to the screen of `t`,
displayed or not, and nothing else changes a screen or a cursor. -/
theorem screens_independent (img : Image) {k k' k'' : Kernel} {es : List ScreenEvent}
    {e : ScreenEvent} (hmux : Multiplexed k.con) (hsched : Schedulable k.proc)
    (hrun : Run (ScreenStep img) k es k') (hstep : ScreenStep img k' e k'') :
    k''.con.logical = e.act k'.proc.currProcess k'.con.logical := by
  have h : Screened k' := hrun.invariant ⟨hmux, hsched⟩ fun _ _ _ h hs => (h.step hs).1
  exact (h.step hstep).2

theorem forall_terminal {P : Fin 3 → Prop} (h0 : P 0) (h1 : P 1) (h2 : P 2) (t : Fin 3) : P t :=
  Fin.cases h0 (Fin.cases h1 (Fin.cases h2 fun i => i.elim0)) t

theorem bootedKernel_multiplexed : Multiplexed bootedKernel.con where
  map := by
    have hcurr : bootedKernel.con.currTerminal = 0 := rfl
    rw [VideoMap, hcurr]
    refine ⟨⟨rfl, rfl⟩, ?_, ?_, ?_⟩
    · apply forall_terminal <;> exact fun _ => rfl
    · apply forall_terminal <;> rfl
    · apply forall_terminal <;> rfl
  present := by
    apply forall_terminal <;> rfl
  cursor := by
    apply forall_terminal
    · exact ⟨by decide, by decide⟩
    · exact ⟨by decide, by decide⟩
    · exact ⟨by decide, by decide⟩

/-- The shell of terminal 0 writes "a" while terminal 1 is displayed, and terminal 1 stays empty. -/
theorem background_write_screen :
    ∃ k' k'', Run (ScreenStep shellImage) bootedKernel [.terminalSwitch 1] k' ∧
      ScreenStep shellImage k' (.terminalWrite [97]) k'' ∧
      k''.con.logical 1 = k'.con.logical 1 := by
  refine ⟨_, _, ⟨_, rfl, rfl⟩, rfl, ?_⟩
  rw [screens_independent shellImage bootedKernel_multiplexed
    (Or.inl fun t => Nat.succ_ne_zero t.val)
    (show Run (ScreenStep shellImage) bootedKernel [.terminalSwitch 1] _ from ⟨_, rfl, rfl⟩)
    (show ScreenStep shellImage _ (.terminalWrite [97]) _ from rfl)]
  exact Function.update_of_ne (show (1 : Fin 3) ≠ 0 by decide) ..

end Ece391
