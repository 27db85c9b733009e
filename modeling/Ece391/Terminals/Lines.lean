/-
# Ece391.Terminals.Lines — the pending input line of each terminal.

The abstract side is one line per terminal: a key with a character appends it to the line of the
displayed terminal, a backspace drops its last character, nothing else touches a line.  The concrete
side is one `keyBuffer` that `terminal_switch` swaps with the copies in `term_arr[t].keyBuf`, and one
`keyBufferIndex` that it does not swap.

`Saved` is what the switch does keep: the copies hold the lines of the terminals in the background.  So
the pending line is right after a switch exactly if the two lines have the same length
(`pending_line_iff`).
-/
import Ece391.Terminals.Drawing

open Ece391.Lib

namespace Ece391

/-! ## What leaves the line buffers alone -/

/-- Going from `c` to `c'` leaves the line buffer, its index, the saved buffers and the displayed
terminal alone. -/
structure KeysOf (c c' : Console) : Prop where
  keyBuffer : c'.keyBuffer = c.keyBuffer
  keyBufferIndex : c'.keyBufferIndex = c.keyBufferIndex
  currTerminal : c'.currTerminal = c.currTerminal
  keyBuf : ∀ t, (c'.termArr t).keyBuf = (c.termArr t).keyBuf

/-- A routine that does not reach the line buffer. -/
theorem Draws.keysOf {P : Console → Reach → Prop} {c c' : Console} (h : Draws P c c')
    (hP : ∀ c, ¬ P c .line) : KeysOf c c' :=
  ⟨(h.keys hP).1, (h.keys hP).2, h.kept.currTerminal, h.kept.keyBuf⟩

theorem KeysOf.refl (c : Console) : KeysOf c c := ⟨rfl, rfl, rfl, fun _ => rfl⟩

/-! ## A switch, as the line buffers see it -/

/-- `terminal_save_state` copies the line buffer to its terminal. -/
theorem terminalSaveState_keys (c : Console) (t : Fin 3) :
    (c.terminalSaveState t).keyBuffer = c.keyBuffer ∧
    (c.terminalSaveState t).keyBufferIndex = c.keyBufferIndex ∧
    ∀ u, ((c.terminalSaveState t).termArr u).keyBuf =
      if u = t then fun i => if i < maxInputLength then c.keyBuffer i else (c.termArr t).keyBuf i
      else (c.termArr u).keyBuf := by
  obtain ⟨phys, fault, hm⟩ := Console.MemoryOf.memcpy (c.saving t)
    ((c.saving t).termArr t).vidMemAddr videoMemAddr (numCols * numRows * 2)
  rw [terminalSaveState_eq, hm]
  refine ⟨rfl, rfl, fun u => ?_⟩
  by_cases hu : u = t <;> by_cases hc : u = c.currTerminal <;> by_cases ht : t = c.currTerminal <;>
    simp_all [Console.saving, Console.remapVideo, Console.mapUserVideo, Console.mapPage,
      Console.setTerm]

/-- `terminal_restore_state` copies the line buffer of its terminal back. -/
theorem terminalRestoreState_keys (c : Console) (t : Fin 3) :
    (c.terminalRestoreState t).keyBuffer =
      (fun i => if i < maxInputLength then (c.termArr t).keyBuf i else c.keyBuffer i) ∧
    (c.terminalRestoreState t).keyBufferIndex = c.keyBufferIndex ∧
    ∀ u, ((c.terminalRestoreState t).termArr u).keyBuf = (c.termArr u).keyBuf := by
  obtain ⟨phys, fault, hm⟩ := Console.MemoryOf.memcpy (c.restoring t) videoMemAddr
    ((c.restoring t).termArr t).vidMemAddr (numCols * numRows * 2)
  rw [terminalRestoreState_eq, hm]
  refine ⟨?_, rfl, fun u => restoring_field (fun _ _ => rfl) c t u⟩
  simp [Console.restoring, Console.remapVideo, Console.mapUserVideo, Console.mapPage, Console.setTerm]

/-- **A switch swaps the line buffers and leaves the index where it was.** -/
theorem terminalSwitch_keys (c : Console) {t : Fin 3} (ht : t ≠ c.currTerminal) :
    (c.terminalSwitch t).1.keyBuffer =
      (fun i => if i < maxInputLength then (c.termArr t).keyBuf i else c.keyBuffer i) ∧
    (c.terminalSwitch t).1.keyBufferIndex = c.keyBufferIndex ∧
    ∀ u, ((c.terminalSwitch t).1.termArr u).keyBuf =
      if u = c.currTerminal then
        fun i => if i < maxInputLength then c.keyBuffer i else (c.termArr u).keyBuf i
      else (c.termArr u).keyBuf := by
  obtain ⟨hbuffer, hindex, hsaved⟩ := terminalSaveState_keys c c.currTerminal
  obtain ⟨hbuffer', hindex', hsaved'⟩ :=
    terminalRestoreState_keys (c.terminalSaveState c.currTerminal) t
  obtain ⟨c', hc'⟩ : ∃ c', c' = (c.terminalSaveState c.currTerminal).terminalRestoreState t := ⟨_, rfl⟩
  have heq : (c.terminalSwitch t).1 = (c'.updateCursor.mapPage (c'.updateCursor.termArr t).vidMemAddr
      videoMemAddr).mapUserVideo videoMemAddr := by
    rw [terminalSwitch_eq c ht, hc']
  rw [← hc'] at hbuffer' hindex' hsaved'
  rw [heq]
  refine ⟨hbuffer'.trans ?_, hindex'.trans hindex, fun u => (hsaved' u).trans ?_⟩
  · rw [hsaved t, if_neg ht, hbuffer]
  · rw [hsaved u]
    split
    next hu => rw [hu]
    next => rfl

/-! ## Keys without a character -/

/-- **`key_press` of a character**, before the line is as long as the wrap. -/
theorem keyPress_typed {c : Console} {kb : Keyboard} (cur : Fin 3) {input : UInt8}
    (hch : kb.typed input ≠ 0)
    (hctrl : ¬ (kb.ctrlPressed = true ∧ (isL (kb.typed input) ∨ isC (kb.typed input))))
    (h0 : 0 ≤ c.keyBufferIndex) (h73 : c.keyBufferIndex < 73) :
    (c.keyPress kb cur input).keyBuffer =
      Function.update c.keyBuffer c.keyBufferIndex.toNat (kb.typed input) ∧
    (c.keyPress kb cur input).keyBufferIndex = c.keyBufferIndex + 1 ∧
    (c.keyPress kb cur input).currTerminal = c.currTerminal ∧
    ∀ t, ((c.keyPress kb cur input).termArr t).keyBuf = (c.termArr t).keyBuf := by
  have hroom : c.keyBufferIndex < 126 := by omega
  have hwrap : ¬ c.Wraps := by
    rintro ⟨hne, hmod⟩
    have hwidth : ((screenWidth - 7 : Nat) : Int) = 73 := rfl
    rw [hwidth, Int.tmod_eq_emod_of_nonneg h0, Int.emod_eq_of_lt h0 h73] at hmod
    exact hne hmod
  have hl : ¬ (kb.ctrlPressed = true ∧ isL (kb.typed input) = true) := fun h => hctrl ⟨h.1, Or.inl h.2⟩
  have hc : ¬ (kb.ctrlPressed = true ∧ isC (kb.typed input) = true) := fun h => hctrl ⟨h.1, Or.inr h.2⟩
  have hputc : KeysOf c (c.putcUser (kb.typed input)) := (Draws.putcAt c _ _).keysOf fun _ h => h
  rw [keyPress_of_typed hch, if_pos hroom, if_neg hl, if_neg hc, Console.typeChar, if_neg hwrap]
  generalize c.putcUser (kb.typed input) = c' at hputc
  have hend : ¬ (c'.pushKey (kb.typed input)).keyBufferIndex = ((keyBufferSize - 1 : Nat) : Int) := by
    have h127 : ((keyBufferSize - 1 : Nat) : Int) = 127 := rfl
    have hpush : (c'.pushKey (kb.typed input)).keyBufferIndex = c'.keyBufferIndex + 1 := rfl
    rw [hpush, hputc.keyBufferIndex]
    omega
  have hpos : 0 ≤ c'.keyBufferIndex := hputc.keyBufferIndex ▸ h0
  rw [Console.keyPressEnd, if_neg hend, Console.pushKey, Console.storeKey, if_pos hpos,
    ← hputc.keyBuffer, ← hputc.keyBufferIndex, ← hputc.currTerminal]
  exact ⟨rfl, rfl, rfl, hputc.keyBuf⟩

/-- **Backspace**, over a character other than a newline. -/
theorem backspaceCase_keys {c : Console} (hpos : 0 < c.keyBufferIndex)
    (hchar : c.keyBuffer c.keyBufferIndex.toNat ≠ newLine) :
    c.backspaceCase.keyBuffer = Function.update c.keyBuffer c.keyBufferIndex.toNat 0 ∧
    c.backspaceCase.keyBufferIndex = c.keyBufferIndex - 1 ∧
    c.backspaceCase.currTerminal = c.currTerminal ∧
    ∀ t, (c.backspaceCase.termArr t).keyBuf = (c.termArr t).keyBuf := by
  have hback := (Draws.backspace c).keysOf fun _ h => h
  have h0 : 0 ≤ c.backspace.keyBufferIndex := by
    rw [hback.keyBufferIndex]
    omega
  simp only [Console.backspaceCase, if_pos hpos, if_neg hchar]
  generalize c.backspace = c' at hback h0
  rw [Console.storeKey, if_pos h0, ← hback.keyBuffer, ← hback.keyBufferIndex, ← hback.currTerminal]
  exact ⟨rfl, rfl, rfl, hback.keyBuf⟩

/-! ## Typing -/

/-- **The abstract side**: what a key does to the pending line it is typed into. -/
def Keyboard.edit (kb : Keyboard) (input : UInt8) (line : List UInt8) : List UInt8 :=
  if input = backspaceKey then line.dropLast
  else if kb.typed input ≠ 0 then line ++ [kb.typed input]
  else line

/-- The keyboard, the console, and the line each terminal should have. -/
structure Typing where
  kb : Keyboard
  con : Console
  lines : Fin 3 → List UInt8

/-- A keyboard interrupt: the terminal of the process it interrupts and the scan code. -/
abbrev KeyEvent := Fin 3 × UInt8

/-- **One keyboard interrupt.**  The line of the terminal displayed before it is edited. -/
def TypingStep (s : Typing) (e : KeyEvent) (s' : Typing) : Prop :=
  s' = { kb := (keyboardInterHandler e.1 e.2 s.kb s.con).1
         con := (keyboardInterHandler e.1 e.2 s.kb s.con).2
         lines := Function.update s.lines s.con.currTerminal
          (s.kb.edit e.2 (s.lines s.con.currTerminal)) }

/-- The interrupts in question: printable keys, backspaces, switches and modifiers, no Enter, no
control character, and no line longer than the wrap. -/
def Types (s : Typing) (e : KeyEvent) : Prop :=
  e.2 ≠ enterKey ∧
  (s.kb.typed e.2 ≠ 0 → (s.lines s.con.currTerminal).length < screenWidth - 7) ∧
  ¬ (s.kb.ctrlPressed = true ∧ (isL (s.kb.typed e.2) ∨ isC (s.kb.typed e.2)))

/-- `keyBuffer[0 .. keyBufferIndex)`. -/
def Console.pending (c : Console) : List UInt8 :=
  (List.range c.keyBufferIndex.toNat).map c.keyBuffer

/-- **`PendingLine s`** — the line buffer holds the line of the displayed terminal, with the insertion
point at its end. -/
def PendingLine (s : Typing) : Prop :=
  s.con.keyBufferIndex = (s.lines s.con.currTerminal).length ∧
  s.con.pending = s.lines s.con.currTerminal

/-- What a switch keeps: the saved buffers hold the lines of the terminals in the background. -/
structure Saved (s : Typing) : Prop where
  background : ∀ t ≠ s.con.currTerminal,
    (List.range (s.lines t).length).map (s.con.termArr t).keyBuf = s.lines t
  short : ∀ t, (s.lines t).length ≤ screenWidth - 7
  noNewline : ∀ i < maxInputLength, s.con.keyBuffer i ≠ newLine
  noNewlineSaved : ∀ t, ∀ i < maxInputLength, (s.con.termArr t).keyBuf i ≠ newLine

/-- The switches after which the pending line is right: the two lines are equally long. -/
def SwitchesEven (s : Typing) (e : KeyEvent) : Prop :=
  s.kb.altPressed = true → ∀ t, switchKey e.2 = some t →
    (s.lines t).length = (s.lines s.con.currTerminal).length

/-! ## The step lemma -/

/-- A store at or past the end of a prefix is not in it. -/
theorem map_range_update {α : Type*} (f : Nat → α) {n i : Nat} (hi : n ≤ i) (v : α) :
    (List.range n).map (Function.update f i v) = (List.range n).map f := by
  refine List.map_congr_left fun j hj => Function.update_of_ne ?_ ..
  have := List.mem_range.mp hj
  omega

theorem map_range_succ_update {α : Type*} (f : Nat → α) (n : Nat) (v : α) :
    (List.range (n + 1)).map (Function.update f n v) = (List.range n).map f ++ [v] := by
  rw [List.range_succ, List.map_append, map_range_update f (Nat.le_refl n)]
  simp

theorem map_range_dropLast {α : Type*} (f : Nat → α) (n : Nat) :
    ((List.range n).map f).dropLast = (List.range (n - 1)).map f := by
  cases n with
  | zero => rfl
  | succ n => simp [List.range_succ]

section Step

variable {s : Typing} {e : KeyEvent}

theorem PendingLine.index_lt (h : PendingLine s) (hs : Saved s) :
    0 ≤ s.con.keyBufferIndex ∧ s.con.keyBufferIndex ≤ 73 := by
  have hshort : (s.lines s.con.currTerminal).length ≤ 73 := hs.short s.con.currTerminal
  rw [h.1]
  omega

theorem SwitchesEven.of_none (h : s.kb.altPressed = true → switchKey e.2 = none) :
    SwitchesEven s e := by
  intro halt t ht
  cases (h halt).symm.trans ht

/-- What a keyboard interrupt of the domain does, in the four cases: a switch, a backspace, a character,
anything else. -/
theorem handler_cases (h : PendingLine s) (hs : Saved s) (hdom : Types s e) :
    (∃ t, switchKey e.2 = some t ∧ s.kb.altPressed = true ∧
      (keyboardInterHandler e.1 e.2 s.kb s.con).2 = (s.con.terminalSwitch t).1) ∨
    (e.2 = backspaceKey ∧
      (keyboardInterHandler e.1 e.2 s.kb s.con).2 = s.con.backspaceCase) ∨
    (s.kb.typed e.2 ≠ 0 ∧ e.2 ≠ backspaceKey ∧ switchKey e.2 = none ∧
      (keyboardInterHandler e.1 e.2 s.kb s.con).2 =
        s.con.keyPress (s.kb.modifiers e.2) e.1 e.2) ∨
    (s.kb.typed e.2 = 0 ∧ e.2 ≠ backspaceKey ∧ (s.kb.altPressed = true → switchKey e.2 = none) ∧
      (keyboardInterHandler e.1 e.2 s.kb s.con).2 = s.con) := by
  obtain ⟨cur, input⟩ := e
  obtain ⟨hpos, h73⟩ := h.index_lt hs
  have huntyped : s.kb.typed input = 0 → (s.kb.modifiers input).typed input = 0 := by
    rw [typed_modifiers]
    exact id
  show (∃ t, switchKey input = some t ∧ _) ∨ _
  unfold keyboardInterHandler Console.specialKeys
  cases hkey : switchKey input with
  | some t =>
      obtain ⟨hch, hback⟩ := switchKey_untyped s.kb hkey
      by_cases halt : s.kb.altPressed = true
      · refine Or.inl ⟨t, rfl, halt, ?_⟩
        have hindex : ((s.con.terminalSwitch t).1).keyBufferIndex < 126 := by
          by_cases ht : t = s.con.currTerminal
          · rw [terminalSwitch_of_not (Or.inl (congrArg Fin.val ht))]
            omega
          · rw [(terminalSwitch_keys s.con ht).2.1]
            omega
        simp only [halt, if_true]
        exact keyPress_of_untyped cur (huntyped hch) hindex
      · refine Or.inr (Or.inr (Or.inr ⟨hch, hback, fun h => absurd h halt, ?_⟩))
        simp only [if_neg halt]
        exact keyPress_of_untyped cur (huntyped hch) (by omega)
  | none =>
      by_cases hback : input = backspaceKey
      · refine Or.inr (Or.inl ⟨hback, ?_⟩)
        have hindex : s.con.backspaceCase.keyBufferIndex < 126 := by
          by_cases hzero : 0 < s.con.keyBufferIndex
          · rw [(backspaceCase_keys hzero (hs.noNewline _ (by unfold maxInputLength; omega))).2.1]
            omega
          · have hnone : s.con.backspaceCase = s.con.updateCursor := by
              rw [Console.backspaceCase, if_neg hzero]
            rw [hnone]
            show s.con.keyBufferIndex < 126
            omega
        simp only [if_pos hback]
        exact keyPress_of_untyped cur (huntyped (typed_of_special s.kb (by rw [hback]; decide))) hindex
      · simp only [if_neg hback, if_neg hdom.1]
        by_cases hch : s.kb.typed input = 0
        · exact Or.inr (Or.inr (Or.inr ⟨hch, hback, fun _ => trivial,
            keyPress_of_untyped cur (huntyped hch) (by omega)⟩))
        · exact Or.inr (Or.inr (Or.inl ⟨hch, hback, trivial, trivial⟩))

/-- A key without a character edits no line. -/
theorem TypingStep.lines_of_untyped {s' : Typing} (hstep : TypingStep s e s')
    (hch : s.kb.typed e.2 = 0) (hback : e.2 ≠ backspaceKey) : s'.lines = s.lines := by
  rw [hstep, Keyboard.edit, if_neg hback, if_neg (not_not.mpr hch), Function.update_eq_self]

theorem TypingStep.kb_eq {s' : Typing} (hstep : TypingStep s e s') : s'.kb = s.kb.modifiers e.2 := by
  rw [hstep]
  rfl

/-- An interrupt that changes no line buffer and no line. -/
theorem PendingLine.keep {s' : Typing} (h : PendingLine s) (hs : Saved s)
    (hkeys : KeysOf s.con s'.con) (hlines : s'.lines = s.lines) : PendingLine s' ∧ Saved s' := by
  refine ⟨?_, ?_, hlines ▸ hs.short, hkeys.keyBuffer ▸ hs.noNewline, fun t => ?_⟩
  · rw [PendingLine, Console.pending, hkeys.keyBufferIndex, hkeys.keyBuffer, hkeys.currTerminal, hlines]
    exact h
  · rw [hkeys.currTerminal, hlines]
    intro t ht
    rw [hkeys.keyBuf t]
    exact hs.background t ht
  · rw [hkeys.keyBuf t]
    exact hs.noNewlineSaved t

/-- A switch to a terminal in the background. -/
theorem PendingLine.switch {t : Fin 3} {s' : Typing} (h : PendingLine s) (hs : Saved s)
    (ht : t ≠ s.con.currTerminal) (hcon : s'.con = (s.con.terminalSwitch t).1)
    (hlines : s'.lines = s.lines) :
    (PendingLine s' ↔ (s.lines t).length = (s.lines s.con.currTerminal).length) ∧ Saved s' := by
  obtain ⟨hbuffer, hindex, hsaved⟩ := terminalSwitch_keys s.con ht
  have hcurr := terminalSwitch_currTerminal s.con t
  rw [← hcon] at hbuffer hindex hsaved hcurr
  have hrestored : ∀ n ≤ 73, (List.range n).map s'.con.keyBuffer =
      (List.range n).map (s.con.termArr t).keyBuf := by
    intro n hn
    refine List.map_congr_left fun i hi => ?_
    have hlt := List.mem_range.mp hi
    rw [hbuffer]
    exact if_pos (by unfold maxInputLength; omega)
  have hshort : (s.lines t).length ≤ 73 := hs.short t
  refine ⟨?_, ?_, hlines ▸ hs.short, ?_, ?_⟩
  · rw [PendingLine, Console.pending, hindex, hcurr, hlines, h.1, Int.toNat_natCast]
    constructor
    · rintro ⟨hlen, -⟩
      exact_mod_cast hlen.symm
    · intro hlen
      rw [← hlen, hrestored _ hshort]
      exact ⟨rfl, hs.background t ht⟩
  · intro u hu
    rw [hcurr] at hu
    rw [hsaved u, hlines]
    split
    next hcu =>
      -- the line just saved
      have hline : (List.range (s.lines u).length).map s.con.keyBuffer = s.lines u := by
        have hpend := h.2
        rw [Console.pending, h.1, Int.toNat_natCast, ← hcu] at hpend
        exact hpend
      have hlt : (s.lines u).length ≤ 73 := hs.short u
      rw [← hline, List.length_map, List.length_range]
      refine List.map_congr_left fun i hi => if_pos ?_
      have := List.mem_range.mp hi
      unfold maxInputLength
      omega
    next hcu => exact hs.background u hcu
  · intro i hi
    rw [hbuffer]
    dsimp only
    rw [if_pos hi]
    exact hs.noNewlineSaved t i hi
  · intro u i hi
    rw [hsaved u]
    split
    · dsimp only
      rw [if_pos hi]
      exact hs.noNewline i hi
    · exact hs.noNewlineSaved u i hi

/-- A change at the end of the line of the displayed terminal. -/
theorem PendingLine.edit {s' : Typing} {line : List UInt8} (hs : Saved s) {v : UInt8} {i : Nat}
    (hv : v ≠ newLine) (hbuffer : s'.con.keyBuffer = Function.update s.con.keyBuffer i v)
    (hindex : s'.con.keyBufferIndex = line.length)
    (hcurr : s'.con.currTerminal = s.con.currTerminal)
    (hsaved : ∀ t, (s'.con.termArr t).keyBuf = (s.con.termArr t).keyBuf)
    (hlines : s'.lines = Function.update s.lines s.con.currTerminal line)
    (hshort : line.length ≤ 73)
    (hline : (List.range line.length).map s'.con.keyBuffer = line) : PendingLine s' ∧ Saved s' := by
  have hown : s'.lines s.con.currTerminal = line := by rw [hlines, Function.update_self]
  have hother : ∀ t ≠ s.con.currTerminal, s'.lines t = s.lines t := by
    intro t ht
    rw [hlines, Function.update_of_ne ht]
  refine ⟨?_, ?_, ?_, ?_, ?_⟩
  · rw [PendingLine, Console.pending, hindex, hcurr, hown, Int.toNat_natCast]
    exact ⟨rfl, hline⟩
  · intro t ht
    rw [hcurr] at ht
    rw [hsaved t, hother t ht]
    exact hs.background t ht
  · intro t
    by_cases ht : t = s.con.currTerminal
    · rw [ht, hown]
      exact hshort
    · rw [hother t ht]
      exact hs.short t
  · intro j hj
    rw [hbuffer, Function.update_apply]
    split
    · exact hv
    · exact hs.noNewline j hj
  · intro t
    rw [hsaved t]
    exact hs.noNewlineSaved t

theorem PendingLine.toNat (h : PendingLine s) :
    s.con.keyBufferIndex.toNat = (s.lines s.con.currTerminal).length := by
  rw [h.1, Int.toNat_natCast]

theorem PendingLine.cells (h : PendingLine s) :
    (List.range (s.lines s.con.currTerminal).length).map s.con.keyBuffer =
      s.lines s.con.currTerminal := by
  rw [← h.toNat]
  exact h.2

/-- A backspace. -/
theorem PendingLine.backspace {s' : Typing} (h : PendingLine s) (hs : Saved s)
    (hcon : s'.con = s.con.backspaceCase)
    (hlines : s'.lines = Function.update s.lines s.con.currTerminal
      (s.lines s.con.currTerminal).dropLast) : PendingLine s' ∧ Saved s' := by
  obtain ⟨hpos, h73⟩ := h.index_lt hs
  have hlen := h.toNat
  by_cases hzero : 0 < s.con.keyBufferIndex
  · obtain ⟨hbuffer, hindex, hcurr, hsaved⟩ :=
      backspaceCase_keys hzero (hs.noNewline _ (by unfold maxInputLength; omega))
    rw [← hcon] at hbuffer hindex hcurr hsaved
    have hdrop : ((s.lines s.con.currTerminal).dropLast.length : Int) = s.con.keyBufferIndex - 1 := by
      rw [List.length_dropLast, h.1]
      omega
    have hline : (List.range (s.lines s.con.currTerminal).dropLast.length).map s'.con.keyBuffer =
        (s.lines s.con.currTerminal).dropLast := by
      rw [hbuffer, map_range_update _ (by rw [hlen, List.length_dropLast]; omega),
        List.length_dropLast, ← map_range_dropLast, h.cells]
    exact PendingLine.edit hs (by decide) hbuffer (hindex.trans hdrop.symm) hcurr hsaved hlines
      (by omega) hline
  · -- an empty line stays empty
    have hnil : s.lines s.con.currTerminal = [] := List.length_eq_zero_iff.mp (by omega)
    have hlines' : s'.lines = s.lines := by
      rw [hlines, hnil, List.dropLast_nil, ← hnil, Function.update_eq_self]
    have hnone : s'.con = s.con.updateCursor := by
      rw [hcon, Console.backspaceCase, if_neg hzero]
    exact h.keep hs (hnone ▸ ⟨rfl, rfl, rfl, fun _ => rfl⟩) hlines'

/-- A character typed before the wrap. -/
theorem PendingLine.character {s' : Typing} {kb : Keyboard} {cur : Fin 3} {input : UInt8}
    (h : PendingLine s) (hs : Saved s) (hch : kb.typed input ≠ 0)
    (hctrl : ¬ (kb.ctrlPressed = true ∧ (isL (kb.typed input) ∨ isC (kb.typed input))))
    (hroom : (s.lines s.con.currTerminal).length < screenWidth - 7)
    (hcon : s'.con = s.con.keyPress kb cur input)
    (hlines : s'.lines = Function.update s.lines s.con.currTerminal
      (s.lines s.con.currTerminal ++ [kb.typed input])) : PendingLine s' ∧ Saved s' := by
  obtain ⟨hpos, -⟩ := h.index_lt hs
  have hroom : (s.lines s.con.currTerminal).length < 73 := hroom
  obtain ⟨hbuffer, hindex, hcurr, hsaved⟩ := keyPress_typed cur hch hctrl hpos (by rw [h.1]; omega)
  rw [h.toNat] at hbuffer
  rw [← hcon] at hbuffer hindex hcurr hsaved
  have hline : (List.range (s.lines s.con.currTerminal ++ [kb.typed input]).length).map
      s'.con.keyBuffer = s.lines s.con.currTerminal ++ [kb.typed input] := by
    rw [List.length_append, List.length_singleton, hbuffer, map_range_succ_update, h.cells]
  have hlength : s'.con.keyBufferIndex =
      ((s.lines s.con.currTerminal ++ [kb.typed input]).length : Nat) := by
    rw [hindex, h.1, List.length_append, List.length_singleton]
    rfl
  exact PendingLine.edit hs (typed_ne_newLine kb input) hbuffer hlength hcurr hsaved hlines
    (by rw [List.length_append, List.length_singleton]; omega) hline

/-- **The step lemma.**  A keyboard interrupt of the domain keeps the pending line right exactly if it
is no switch between lines of different lengths; the saved buffers are right in any case. -/
theorem PendingLine.step {s' : Typing} (h : PendingLine s) (hs : Saved s) (hdom : Types s e)
    (hstep : TypingStep s e s') : (PendingLine s' ↔ SwitchesEven s e) ∧ Saved s' := by
  have hcon : s'.con = (keyboardInterHandler e.1 e.2 s.kb s.con).2 := by rw [hstep]
  have hlines : s'.lines = Function.update s.lines s.con.currTerminal
      (s.kb.edit e.2 (s.lines s.con.currTerminal)) := by rw [hstep]
  have hsame : s.kb.typed e.2 = 0 → e.2 ≠ backspaceKey → s'.lines = s.lines :=
    hstep.lines_of_untyped
  -- everything but a switch keeps both
  have hkept : SwitchesEven s e → PendingLine s' ∧ Saved s' →
      (PendingLine s' ↔ SwitchesEven s e) ∧ Saved s' := fun heven hkeep =>
    ⟨iff_of_true hkeep.1 heven, hkeep.2⟩
  rcases handler_cases h hs hdom with ⟨t, hkey, halt, hh⟩ | ⟨hback, hh⟩ | ⟨hch, hback, hkey, hh⟩ |
    ⟨hch, hback, hkey, hh⟩
  · -- a switch
    rw [hh] at hcon
    obtain ⟨hch, hback⟩ := switchKey_untyped s.kb hkey
    have heven : SwitchesEven s e ↔ (s.lines t).length = (s.lines s.con.currTerminal).length := by
      constructor
      · intro heven
        exact heven halt t hkey
      · intro hlen _ u hu
        rw [hkey] at hu
        rw [← Option.some.inj hu, hlen]
    rw [heven]
    by_cases ht : t = s.con.currTerminal
    · rw [terminalSwitch_of_not (Or.inl (congrArg Fin.val ht))] at hcon
      have hkeep := h.keep hs (hcon ▸ KeysOf.refl s.con) (hsame hch hback)
      rw [ht]
      exact ⟨⟨fun _ => rfl, fun _ => hkeep.1⟩, hkeep.2⟩
    · exact h.switch hs ht hcon (hsame hch hback)
  · -- a backspace
    apply hkept (.of_none fun _ => by rw [hback]; rfl)
    apply h.backspace hs (hcon.trans hh)
    rw [hlines, Keyboard.edit, if_pos hback]
  · -- a character
    have hmod : (s.kb.modifiers e.2).typed e.2 = s.kb.typed e.2 := typed_modifiers s.kb e.2
    apply hkept (.of_none fun _ => hkey)
    apply h.character hs (hmod.symm ▸ hch) ?_ (hdom.2.1 hch) (hcon.trans hh)
    · rw [hlines, Keyboard.edit, if_neg hback, if_pos hch, hmod]
    · rw [hmod, ctrlPressed_modifiers hch]
      exact hdom.2.2
  · -- a key without effect
    apply hkept (.of_none hkey)
    exact h.keep hs (hcon.trans hh ▸ KeysOf.refl s.con) (hsame hch hback)

/-- Only a switch with Alt down changes the terminal displayed. -/
theorem PendingLine.currTerminal {s' : Typing} (h : PendingLine s) (hs : Saved s) (hdom : Types s e)
    (hstep : TypingStep s e s') : s'.con.currTerminal =
      if s.kb.altPressed then (switchKey e.2).getD s.con.currTerminal else s.con.currTerminal := by
  have hcon : s'.con = (keyboardInterHandler e.1 e.2 s.kb s.con).2 := by rw [hstep]
  obtain ⟨hpos, h73⟩ := h.index_lt hs
  rcases handler_cases h hs hdom with ⟨t, hkey, halt, hh⟩ | ⟨hback, hh⟩ | ⟨hch, hback, hkey, hh⟩ |
    ⟨hch, hback, hkey, hh⟩
  · rw [hcon, hh, terminalSwitch_currTerminal, hkey, if_pos halt]
    rfl
  · have hnone : switchKey e.2 = none := by rw [hback]; rfl
    rw [hcon, hh, hnone, Option.getD_none, ite_self]
    by_cases hzero : 0 < s.con.keyBufferIndex
    · exact (backspaceCase_keys hzero (hs.noNewline _ (by unfold maxInputLength; omega))).2.2.1
    · rw [Console.backspaceCase, if_neg hzero]
      rfl
  · have hmod : (s.kb.modifiers e.2).typed e.2 = s.kb.typed e.2 := typed_modifiers s.kb e.2
    have hroom : (s.lines s.con.currTerminal).length < 73 := hdom.2.1 hch
    rw [hcon, hh, hkey, Option.getD_none, ite_self]
    refine (keyPress_typed e.1 (hmod.symm ▸ hch) ?_ hpos (by rw [h.1]; omega)).2.2.1
    rw [hmod, ctrlPressed_modifiers hch]
    exact hdom.2.2
  · rw [hcon, hh]
    by_cases halt : s.kb.altPressed = true
    · rw [hkey halt, Option.getD_none, ite_self]
    · rw [if_neg halt]

end Step

/-! ## Even runs -/

/-- What the abstract side has of a state: the keyboard, the terminal displayed, and the lines. -/
structure Lines where
  kb : Keyboard
  displayed : Fin 3
  lines : Fin 3 → List UInt8

namespace Lines

/-- A key, as the abstract side sees it. -/
def press (v : Lines) (input : UInt8) : Lines where
  kb := v.kb.modifiers input
  displayed := if v.kb.altPressed then (switchKey input).getD v.displayed else v.displayed
  lines := Function.update v.lines v.displayed (v.kb.edit input (v.lines v.displayed))

/-- A key of the domain that is no switch between lines of different lengths. -/
def Even (v : Lines) (input : UInt8) : Prop :=
  (input ≠ enterKey ∧ (v.kb.typed input ≠ 0 → (v.lines v.displayed).length < screenWidth - 7) ∧
    ¬ (v.kb.ctrlPressed = true ∧ (isL (v.kb.typed input) ∨ isC (v.kb.typed input)))) ∧
  (v.kb.altPressed = true →
    (v.lines ((switchKey input).getD v.displayed)).length = (v.lines v.displayed).length)

instance (v : Lines) (input : UInt8) : Decidable (v.Even input) := by
  unfold Even
  infer_instance

/-- Every key is even at the lines it finds. -/
def AllEven (v : Lines) : List UInt8 → Bool
  | [] => true
  | input :: keys => decide (v.Even input) && (v.press input).AllEven keys

end Lines

/-- What the abstract side has of `s`. -/
def Typing.view (s : Typing) : Lines := ⟨s.kb, s.con.currTerminal, s.lines⟩

/-- **Whether a run is even is decided by its keys**, from the lines it starts with. -/
theorem PendingLine.allEven {s : Typing} {es : List KeyEvent} (h : PendingLine s) (hs : Saved s)
    (heven : s.view.AllEven (es.map Prod.snd) = true) :
    AllSteps TypingStep Types s es ∧ AllSteps TypingStep SwitchesEven s es := by
  induction es generalizing s with
  | nil => exact ⟨allSteps_nil, allSteps_nil⟩
  | cons e es ih =>
      obtain ⟨hkey, hrest⟩ := Bool.and_eq_true_iff.mp heven
      obtain ⟨hdom, hswitch⟩ := of_decide_eq_true hkey
      have hdom : Types s e := hdom
      have hswitch : SwitchesEven s e := by
        intro halt t ht
        have hlen := hswitch halt
        rw [ht] at hlen
        exact hlen
      have hnext : ∀ s', TypingStep s e s' →
          AllSteps TypingStep Types s' es ∧ AllSteps TypingStep SwitchesEven s' es := by
        intro s' hstep
        obtain ⟨hpending, hsaved⟩ := h.step hs hdom hstep
        have hview : s'.view = s.view.press e.2 := by
          have hcurr := h.currTerminal hs hdom hstep
          rw [Typing.view, hcurr, hstep.kb_eq, hstep]
          rfl
        exact ih (hpending.mpr hswitch) hsaved (hview ▸ hrest)
      exact ⟨.cons hdom fun s' hstep => (hnext s' hstep).1,
        .cons hswitch fun s' hstep => (hnext s' hstep).2⟩

/-! ## Runs -/

/-- Nothing has been typed: the line buffer and the saved ones are empty. -/
structure Untyped (s : Typing) : Prop where
  keyBuffer : ∀ i, s.con.keyBuffer i = 0
  keyBufferIndex : s.con.keyBufferIndex = 0
  keyBuf : ∀ t i, (s.con.termArr t).keyBuf i = 0
  lines : ∀ t, s.lines t = []

theorem Untyped.pendingLine {s : Typing} (h : Untyped s) : PendingLine s ∧ Saved s := by
  have hnewline : (0 : UInt8) ≠ newLine := by decide
  refine ⟨?_, fun t _ => ?_, fun t => ?_, fun i _ => ?_, fun t i _ => ?_⟩
  · rw [PendingLine, Console.pending, h.keyBufferIndex, h.lines]
    exact ⟨rfl, rfl⟩
  · rw [h.lines]
    rfl
  · rw [h.lines]
    exact Nat.zero_le _
  · rw [h.keyBuffer]
    exact hnewline
  · rw [h.keyBuf]
    exact hnewline

/-- **Each terminal keeps its own pending line exactly along even switches.**  From the untyped state,
along any run of printable keys, backspaces, modifiers and switches (no Enter, no line longer than the
wrap), the pending line is right in every state visited exactly if every switch is between terminals
whose lines are equally long. -/
theorem pending_line_iff {s : Typing} {es : List KeyEvent} (hinit : Untyped s)
    (hdom : AllSteps TypingStep Types s es) :
    AllStates TypingStep PendingLine s es ↔ AllSteps TypingStep SwitchesEven s es :=
  allStates_iff_allSteps (R := TypingStep) (fun _ _ => ⟨_, rfl⟩)
    (fun _ _ _ hs h hdom hstep _ => (h.step hs hdom hstep).2)
    (fun _ _ _ hs h hdom hstep => (h.step hs hdom hstep).1) hinit.pendingLine.2 hinit.pendingLine.1 hdom

/-- The keyboard after boot. -/
def bootedTyping : Typing := ⟨⟨0, false, false⟩, bootedKernel.con, fun _ => []⟩

theorem bootedTyping_untyped : Untyped bootedTyping where
  keyBuffer _ := rfl
  keyBufferIndex := rfl
  keyBuf t _ := by
    match t with
    | 0 => rfl
    | 1 => rfl
    | 2 => rfl
  lines _ := rfl

/-- The scan code of the key `a`. -/
def keyA : UInt8 := 0x1E

/-- A letter typed and erased, Alt-F2, two letters typed and erased there, F1 with Alt still down, and a
letter again. -/
def erasedBeforeSwitches : List KeyEvent :=
  [(0, keyA), (0, backspaceKey), (0, laltPressed), (2, f2), (1, keyA), (1, keyA), (0, backspaceKey),
    (1, backspaceKey), (0, f1), (2, keyA)]

/-- Each switch finds as many characters on the terminal it leaves as on the one it shows: none, since
no run of even switches from empty lines leaves a character behind. -/
theorem pending_line_after_switch : AllStates TypingStep PendingLine bootedTyping erasedBeforeSwitches := by
  obtain ⟨hpending, hsaved⟩ := bootedTyping_untyped.pendingLine
  have heven : bootedTyping.view.AllEven (erasedBeforeSwitches.map Prod.snd) = true := by decide +kernel
  obtain ⟨hdom, hswitches⟩ := hpending.allEven hsaved heven
  exact (pending_line_iff bootedTyping_untyped hdom).mpr hswitches

/-- An `a` and then Alt-F2: terminal 1 has typed nothing, but the insertion point is behind the first
character of its line. -/
theorem pending_line_lost_by_switch :
    Untyped bootedTyping ∧
    AllSteps TypingStep Types bootedTyping [(0, keyA), (0, laltPressed), (0, f2)] ∧
    ∃ s, Run TypingStep bootedTyping [(0, keyA), (0, laltPressed), (0, f2)] s ∧
      s.con.currTerminal = 1 ∧ s.lines 1 = [] ∧ s.con.keyBufferIndex = 1 ∧ ¬ PendingLine s := by
  obtain ⟨s1, h1⟩ : ∃ s1, TypingStep bootedTyping (0, keyA) s1 := ⟨_, rfl⟩
  obtain ⟨s2, h2⟩ : ∃ s2, TypingStep s1 (0, laltPressed) s2 := ⟨_, rfl⟩
  obtain ⟨s3, h3⟩ : ∃ s3, TypingStep s2 (0, f2) s3 := ⟨_, rfl⟩
  have hkb1 : s1.kb = ⟨0, false, false⟩ := h1.kb_eq
  have hkb2 : s2.kb = ⟨0, false, true⟩ := h2.kb_eq.trans (by rw [hkb1]; rfl)
  have hlines1 : s1.lines = Function.update (fun _ => []) 0 [97] := by
    rw [h1]
    rfl
  have hlines2 : s2.lines = s1.lines := h2.lines_of_untyped (by rw [hkb1]; decide) (by decide)
  have hlines3 : s3.lines = s2.lines := h3.lines_of_untyped rfl (by decide)
  have hcon1 : s1.con.currTerminal = 0 ∧ s1.con.keyBufferIndex = 1 := by
    obtain ⟨-, hindex, hcurr, -⟩ := keyPress_typed (c := bootedKernel.con) 0
      (show (Keyboard.mk 0 false false).typed keyA ≠ 0 by decide) (by decide) (by decide) (by decide)
    rw [h1]
    exact ⟨hcurr, hindex⟩
  have hcon2 : s2.con = s1.con := by
    rw [h2, hkb1]
    have hroom : s1.con.keyBufferIndex < 126 := by rw [hcon1.2]; decide
    exact keyPress_of_untyped 0 (show (Keyboard.mk 0 false true).typed laltPressed = 0 by decide) hroom
  have hcon3 : s3.con = (s2.con.terminalSwitch (1 : Fin 3)).1 := by
    rw [h3, hkb2]
    rfl
  have hne : (1 : Fin 3) ≠ s2.con.currTerminal := by
    rw [hcon2, hcon1.1]
    decide
  have hdom : AllSteps TypingStep Types bootedTyping [(0, keyA), (0, laltPressed), (0, f2)] := by
    refine .cons ⟨by decide, by decide, by decide⟩ fun s1' h1' => .cons ?_ fun s2' h2' => .cons ?_
      fun _ _ => allSteps_nil
    · obtain rfl : s1' = s1 := h1'.trans h1.symm
      exact ⟨by decide, fun h => absurd (by rw [hkb1]; decide) h, by rw [hkb1]; decide⟩
    · obtain rfl : s1' = s1 := h1'.trans h1.symm
      obtain rfl : s2' = s2 := h2'.trans h2.symm
      exact ⟨by decide, fun h => absurd rfl h, by rw [hkb2]; decide⟩
  have hcurr : s3.con.currTerminal = 1 := by rw [hcon3, terminalSwitch_currTerminal]
  have hindex : s3.con.keyBufferIndex = 1 := by
    rw [hcon3, (terminalSwitch_keys s2.con hne).2.1, hcon2, hcon1.2]
  have hline : s3.lines 1 = [] := by rw [hlines3, hlines2, hlines1]; rfl
  refine ⟨bootedTyping_untyped, hdom, s3, ⟨s1, h1, s2, h2, s3, h3, rfl⟩, hcurr, hline, hindex, ?_⟩
  rintro ⟨hlength, -⟩
  rw [hcurr, hline, hindex] at hlength
  cases hlength

end Ece391
