/-
# Ece391.Terminals.LineEditing — from the keys typed to the line a process reads.

The abstract side is a line editor: shift, caps lock and a list of characters.  On the other side are
`keyboard_inter_handler`, which edits `keyBuffer`, and `terminal_read`, which copies its characters
index to index and clears it.  The link is `Tracks`: the line is `keyBuffer[0 .. keyBufferIndex)`, the
cell at the insertion point may hold what the last backspace took away, and every cell behind it is NUL.

That works up to the column where `key_press` wraps.  There it puts a newline INTO the buffer, which
`terminal_read` skips without closing the gap, so the 74th character is delivered one place too far.
`Placed` is what can still be said then, whatever is typed and erased: the buffer holds at least as many
characters as the line, and the newline is in the buffer of every line that is longer than the wrap.
-/
import Ece391.Terminals.LineBuffer

open Ece391.Lib

namespace Ece391

/-! ## The editor -/

/-- **The abstract side**: the state of the shift and caps lock keys, and the line. -/
structure Editor where
  shift : Bool
  caps : Bool
  line : List UInt8
  deriving DecidableEq, Repr

/-- The row of `keys_map` in force. -/
def Editor.mode (ed : Editor) : Nat := (if ed.caps then 1 else 0) + (if ed.shift then 2 else 0)

/-- The character of a key, NUL if it has none. -/
def Editor.char (ed : Editor) (input : UInt8) : UInt8 :=
  (keysMap.getD ed.mode []).getD input.toNat 0

/-- A key: shift holds from a press to a release of either shift key, caps lock changes with each press,
a backspace deletes the last character, and a key with a character appends it. -/
def Editor.press (ed : Editor) (input : UInt8) : Editor :=
  if input = lshiftPressed ∨ input = rshiftPressed then { ed with shift := true }
  else if input = lshiftReleased ∨ input = rshiftReleased then { ed with shift := false }
  else if input = capsPressed then { ed with caps := !ed.caps }
  else if input = backspaceKey then { ed with line := ed.line.dropLast }
  else if ed.char input ≠ 0 then { ed with line := ed.line ++ [ed.char input] }
  else ed

/-- The keyboard, the console, and the editor beside them. -/
structure Editing where
  kb : Keyboard
  con : Console
  ed : Editor

/-- **One keyboard interrupt.** -/
def EditStep (s : Editing) (e : KeyEvent) (s' : Editing) : Prop :=
  s' = { kb := (keyboardInterHandler e.1 e.2 s.kb s.con).1
         con := (keyboardInterHandler e.1 e.2 s.kb s.con).2
         ed := s.ed.press e.2 }

/-- The keys that edit a line: all but Enter, Ctrl and Alt. -/
def EditingKey (input : UInt8) : Prop :=
  input ≠ enterKey ∧ input ≠ lctrlPressed ∧ input ≠ laltPressed

instance (input : UInt8) : Decidable (EditingKey input) := inferInstanceAs (Decidable (_ ∧ _ ∧ _))

section Editor

variable {kb : Keyboard} {ed : Editor}

theorem keysMap_row_length (m : BitVec 2) : (keysMap.getD m.toNat []).length = keySize := by
  revert m
  decide

/-- The two sides agree on the character of a key. -/
theorem typed_eq_char (hmode : kb.mode.toNat = ed.mode) (input : UInt8) :
    kb.typed input = ed.char input := by
  unfold Keyboard.typed Keyboard.keyValue Editor.char
  rw [← hmode]
  split
  next hbig =>
    have hnone : (keysMap.getD kb.mode.toNat [])[input.toNat]? = none := by
      apply List.getElem?_eq_none
      rw [keysMap_row_length]
      exact hbig
    rw [List.getD_eq_getElem?_getD, hnone, Option.getD_none]
  next => rfl

/-- The two sides agree on the modifiers after a key. -/
theorem modifiers_mode (hmode : kb.mode.toNat = ed.mode) (input : UInt8) :
    (kb.modifiers input).mode.toNat = (ed.press input).mode := by
  have hbits : ∀ (m : BitVec 2) (caps shift : Bool),
      m.toNat = (if caps then 1 else 0) + (if shift then 2 else 0) →
      (m ||| 2).toNat = (if caps then 1 else 0) + 2 ∧
      (m &&& ~~~2).toNat = (if caps then 1 else 0) ∧
      (m ^^^ 1).toNat = (if !caps then 1 else 0) + (if shift then 2 else 0) := by decide
  obtain ⟨hor, hand, hxor⟩ := hbits kb.mode ed.caps ed.shift hmode
  unfold Keyboard.modifiers Editor.press
  split
  · exact hor
  split
  · exact hand
  split
  · exact hxor
  -- no other key changes the mode on either side
  have hrest : ∀ kb' : Keyboard, kb'.mode = kb.mode → kb'.mode.toNat =
      (if input = backspaceKey then { ed with line := ed.line.dropLast }
        else if ed.char input ≠ 0 then { ed with line := ed.line ++ [ed.char input] }
        else ed : Editor).mode := by
    intro kb' hkb'
    rw [hkb', hmode]
    split
    · rfl
    split
    · rfl
    · rfl
  apply hrest
  split_ifs <;> rfl

/-- Neither Ctrl nor Alt is held after an editing key, if none was before. -/
theorem modifiers_released {input : UInt8} (hkey : EditingKey input) (hctrl : kb.ctrlPressed = false)
    (halt : kb.altPressed = false) :
    (kb.modifiers input).ctrlPressed = false ∧ (kb.modifiers input).altPressed = false := by
  unfold Keyboard.modifiers
  rw [if_neg hkey.2.1, if_neg hkey.2.2]
  split_ifs <;> simp [hctrl, halt]

/-- The keys of the editor's modifiers and its backspace have no character. -/
theorem Editor.char_of_special (ed : Editor) {code : UInt8} (h : code ∈ specialCodes) :
    ed.char code = 0 := by
  have hrow : ∀ (caps shift : Bool), ∀ code ∈ specialCodes,
      (keysMap.getD ((if caps then 1 else 0) + (if shift then 2 else 0)) []).getD code.toNat 0 = 0 := by
    decide +kernel
  exact hrow ed.caps ed.shift code h

theorem Editor.char_backspace (ed : Editor) : ed.char backspaceKey = 0 :=
  ed.char_of_special (by decide)

/-- A key with a character appends it. -/
theorem Editor.press_of_char {ed : Editor} {input : UInt8} (hch : ed.char input ≠ 0) :
    ed.press input = { ed with line := ed.line ++ [ed.char input] } := by
  have hne : ∀ code ∈ specialCodes, input ≠ code := by
    rintro code hcode rfl
    exact hch (ed.char_of_special hcode)
  have hl := hne lshiftPressed (by decide)
  have hr := hne rshiftPressed (by decide)
  have hl' := hne lshiftReleased (by decide)
  have hr' := hne rshiftReleased (by decide)
  have hcaps := hne capsPressed (by decide)
  have hback := hne backspaceKey (by decide)
  simp only [Editor.press, hl, hr, hl', hr', hcaps, hback, hch, or_self, if_false, ne_eq,
    not_false_eq_true, if_true]

/-- The keys that are neither leave the line alone. -/
theorem Editor.press_line {ed : Editor} {input : UInt8} (hback : input ≠ backspaceKey)
    (hch : ed.char input = 0) : (ed.press input).line = ed.line := by
  unfold Editor.press
  rw [if_neg hback, if_neg (not_not.mpr hch)]
  split_ifs <;> rfl

end Editor

/-! ## The line in the buffer -/

/-- **`Pending i text`** — the line `text` is `keyBuffer[0 .. keyBufferIndex)`.  The cell at the
insertion point may be stale, those behind it are NUL. -/
structure Pending (i : Input) (text : List UInt8) : Prop where
  index : i.keyBufferIndex = text.length
  cells : (List.range text.length).map i.keyBuffer = text
  stale : i.keyBuffer text.length ≠ newLine
  clear : ∀ j, text.length < j → j < maxInputLength → i.keyBuffer j = 0
  chars : ∀ ch ∈ text, ch ≠ 0 ∧ ch ≠ newLine
  short : text.length ≤ screenWidth - 7

section Pending

variable {i : Input} {text : List UInt8}

theorem Pending.toNat (h : Pending i text) : i.keyBufferIndex.toNat = text.length := by
  rw [h.index, Int.toNat_natCast]

/-- A cell of the line. -/
theorem Pending.cell (h : Pending i text) {j : Nat} (hj : j < text.length) :
    i.keyBuffer j = text[j] := by
  have hget : ((List.range text.length).map i.keyBuffer)[j]? = some (i.keyBuffer j) := by
    simp [hj]
  rw [h.cells, List.getElem?_eq_getElem hj] at hget
  exact (Option.some.inj hget).symm

/-- Only the index and the array count. -/
theorem Pending.congr {i' : Input} (h : Pending i text) (hindex : i'.keyBufferIndex = i.keyBufferIndex)
    (hbuffer : ∀ j < maxInputLength, i'.keyBuffer j = i.keyBuffer j) : Pending i' text := by
  have hmax : maxInputLength = 127 := rfl
  have hshort : text.length ≤ 73 := h.short
  refine ⟨hindex.trans h.index, ?_, ?_, fun j hj hj' => ?_, h.chars, h.short⟩
  · refine Eq.trans (List.map_congr_left fun j hj => ?_) h.cells
    have hlt := List.mem_range.mp hj
    exact hbuffer j (by omega)
  · rw [hbuffer _ (by omega)]
    exact h.stale
  · rw [hbuffer j hj']
    exact h.clear j hj hj'

/-- There is no newline in the buffer. -/
theorem Pending.noNewline (h : Pending i text) : ∀ j < maxInputLength, i.keyBuffer j ≠ newLine := by
  intro j hj
  rcases Nat.lt_trichotomy j text.length with hlt | rfl | hgt
  · rw [h.cell hlt]
    exact (h.chars _ (List.getElem_mem hlt)).2
  · exact h.stale
  · rw [h.clear j hgt hj]
    decide

/-- A character typed. -/
theorem Pending.push (h : Pending i text) {ch : UInt8} (hch : ch ≠ 0 ∧ ch ≠ newLine)
    (hlt : text.length < screenWidth - 7) : Pending (i.push ch) (text ++ [ch]) := by
  have hwidth : screenWidth - 7 = 73 := rfl
  have hmax : maxInputLength = 127 := rfl
  have hbuffer : (i.push ch).keyBuffer = Function.update i.keyBuffer text.length ch := by
    rw [Input.push, h.toNat]
  have hlen : (text ++ [ch]).length = text.length + 1 := by simp
  refine ⟨?_, ?_, ?_, ?_, ?_, by omega⟩
  · rw [hlen, Input.push, h.index]
    rfl
  · rw [hlen, hbuffer, map_range_succ_update, h.cells]
  · rw [hlen, hbuffer, Function.update_of_ne (by omega), h.clear _ (by omega) (by omega)]
    decide
  · intro j hj hj'
    rw [hlen] at hj
    rw [hbuffer, Function.update_of_ne (by omega), h.clear j (by omega) hj']
  · intro ch' hmem
    rcases List.mem_append.mp hmem with hmem | hmem
    · exact h.chars ch' hmem
    · rw [List.mem_singleton.mp hmem]
      exact hch

/-- A character erased: it stays in its cell, which is now the one at the insertion point. -/
theorem Pending.erase (h : Pending i text) (hne : text ≠ []) : Pending i.erase text.dropLast := by
  have hpos := List.length_pos_iff.mpr hne
  have hshort := h.short
  have hbuffer : i.erase.keyBuffer = Function.update i.keyBuffer text.length 0 := by
    rw [Input.erase, h.toNat]
  have hlen : text.dropLast.length = text.length - 1 := List.length_dropLast
  refine ⟨?_, ?_, ?_, ?_, ?_, by omega⟩
  · rw [hlen, Input.erase, h.index]
    simp only
    omega
  · rw [hlen, hbuffer, map_range_update _ (by omega), ← map_range_dropLast, h.cells]
  · rw [hlen, hbuffer, Function.update_of_ne (by omega), h.cell (by omega)]
    exact (h.chars _ (List.getElem_mem _)).2
  · intro j hj hj'
    rw [hlen] at hj
    rw [hbuffer, Function.update_apply]
    split
    · rfl
    · exact h.clear j (by omega) hj'
  · intro ch hmem
    exact h.chars ch (List.dropLast_subset text hmem)

end Pending

/-! ## One key -/

/-- Ctrl and Alt are not held, and the keyboard's mode is the editor's. -/
structure Unheld (s : Editing) : Prop where
  ctrl : s.kb.ctrlPressed = false
  alt : s.kb.altPressed = false
  mode : s.kb.mode.toNat = s.ed.mode

/-- **`Tracks s`** — the console holds the editor's line, and the displayed terminal is the visible
one. -/
structure Tracks (s : Editing) : Prop where
  unheld : Unheld s
  visible : s.con.input.visible s.con.input.currTerminal = 1
  pending : Pending s.con.input s.ed.line

/-- Typing stays before the wrap: a character is only typed into a line shorter than it. -/
def BelowWrap (s : Editing) (e : KeyEvent) : Prop :=
  s.ed.char e.2 ≠ 0 → s.ed.line.length < screenWidth - 7

section Step

variable {s s' : Editing} {e : KeyEvent}

theorem EditStep.ed_eq (hstep : EditStep s e s') : s'.ed = s.ed.press e.2 := by rw [hstep]

/-- No editing key is a newline. -/
theorem Unheld.char_ne_newLine (h : Unheld s) (input : UInt8) : s.ed.char input ≠ newLine :=
  typed_eq_char h.mode input ▸ typed_ne_newLine s.kb input

theorem Unheld.step (h : Unheld s) (hkey : EditingKey e.2) (hstep : EditStep s e s') : Unheld s' := by
  have hkb : s'.kb = s.kb.modifiers e.2 := by
    rw [hstep]
    rfl
  obtain ⟨hctrl, halt⟩ := modifiers_released hkey h.ctrl h.alt
  refine ⟨hkb ▸ hctrl, hkb ▸ halt, ?_⟩
  rw [hkb, hstep.ed_eq]
  exact modifiers_mode h.mode e.2

/-- **One interrupt on the line buffer.** -/
theorem Unheld.input_eq (h : Unheld s) (hkey : EditingKey e.2) (hstep : EditStep s e s')
    (h0 : 0 ≤ s.con.input.keyBufferIndex) (h126 : s.con.input.keyBufferIndex ≤ 126) :
    s'.con.input = s.con.input.key (s.ed.char e.2) e.2 := by
  have hinput := handler_input e.1 hkey.1 h.ctrl h.alt h0 h126
  rw [typed_eq_char h.mode] at hinput
  rw [hstep]
  exact hinput

theorem Input.key_frame (i : Input) (ch input : UInt8) :
    (i.key ch input).currTerminal = i.currTerminal ∧ (i.key ch input).visible = i.visible := by
  unfold Input.key Input.backspace Input.type
  split_ifs <;> exact ⟨rfl, rfl⟩

/-- The three kinds of editing keys: a character, a backspace, and those without effect on the line. -/
theorem edit_cases (s : Editing) (input : UInt8) (i : Input) :
    (s.ed.char input ≠ 0 ∧ i.key (s.ed.char input) input = i.type (s.ed.char input) ∧
      (s.ed.press input).line = s.ed.line ++ [s.ed.char input]) ∨
    (s.ed.char input = 0 ∧ i.key (s.ed.char input) input = i.backspace ∧
      (s.ed.press input).line = s.ed.line.dropLast) ∨
    (s.ed.char input = 0 ∧ i.key (s.ed.char input) input = i ∧
      (s.ed.press input).line = s.ed.line) := by
  unfold Input.key
  by_cases hback : input = backspaceKey
  · rw [hback]
    exact Or.inr (Or.inl ⟨Editor.char_backspace s.ed, if_pos rfl, rfl⟩)
  · rw [if_neg hback]
    by_cases hch : s.ed.char input = 0
    · exact Or.inr (Or.inr ⟨hch, if_neg (not_not.mpr hch), Editor.press_line hback hch⟩)
    · exact Or.inl ⟨hch, if_pos hch, by rw [Editor.press_of_char hch]⟩

/-- The index is within the part of the buffer before the wrap. -/
theorem Tracks.index_le (h : Tracks s) :
    0 ≤ s.con.input.keyBufferIndex ∧ s.con.input.keyBufferIndex ≤ 73 := by
  have hindex := h.pending.index
  have hshort : s.ed.line.length ≤ 73 := h.pending.short
  omega

/-- **The step lemma.**  An editing key below the wrap keeps the two sides together. -/
theorem Tracks.step (h : Tracks s) (hkey : EditingKey e.2) (hbelow : BelowWrap s e)
    (hstep : EditStep s e s') : Tracks s' := by
  obtain ⟨h0, h73⟩ := h.index_le
  have hindex := h.pending.index
  have hinput := h.unheld.input_eq hkey hstep h0 (by omega)
  have hframe := s.con.input.key_frame (s.ed.char e.2) e.2
  rw [← hinput] at hframe
  refine ⟨h.unheld.step hkey hstep, by rw [hframe.1, hframe.2]; exact h.visible, ?_⟩
  rw [hstep.ed_eq, hinput]
  rcases edit_cases s e.2 s.con.input with ⟨hch, hkind, hline⟩ | ⟨-, hkind, hline⟩ | ⟨-, hkind, hline⟩
  · -- a character
    have hlt : s.ed.line.length < 73 := hbelow hch
    rw [hkind, hline, Input.type, if_pos (by omega), if_neg (by omega)]
    exact h.pending.push ⟨hch, h.unheld.char_ne_newLine e.2⟩ hlt
  · -- a backspace
    rw [hkind, hline, Input.backspace]
    by_cases hnil : s.ed.line = []
    · rw [hnil, List.dropLast_nil, ← hnil, if_neg (by rw [hindex, hnil]; decide)]
      exact h.pending
    · have hpos := List.length_pos_iff.mpr hnil
      have hstale := h.pending.stale
      rw [← h.pending.toNat] at hstale
      rw [if_pos (by omega), if_neg hstale]
      exact h.pending.erase hnil
  · rw [hkind, hline]
    exact h.pending

end Step

/-! ## Enter, and the read -/

/-- Enter, while a process of terminal `cur` runs, and then a `terminal_read` of a process of the
displayed terminal. -/
def Editing.enterAndRead (s : Editing) (cur : Fin 3) (nbytes : Nat) : Option (Console × Copy) :=
  let c := (keyboardInterHandler cur enterKey s.kb s.con).2
  c.terminalRead c.currTerminal nbytes

/-- A read that finds a line copies it and clears the buffer. -/
theorem terminalRead_of_ready {c : Console} {cur : Fin 3} (h : c.LineReady cur) (nbytes : Nat) :
    ∃ c' loads, c.terminalRead cur nbytes =
        some (c', ⟨s8 (c.keyCopy nbytes).length, c.keyCopy nbytes, loads⟩) ∧
      (∀ i < maxInputLength, c'.keyBuffer i = 0) ∧ c'.keyBufferIndex = 0 := by
  rw [Console.terminalRead, if_pos h]
  refine ⟨_, _, rfl, fun i hi => ?_, rfl⟩
  exact if_pos hi

/-- What is stored nowhere stays. -/
theorem overlay_of_not_mem {stores : List (Nat × UInt8)} {j : Nat} (h : ∀ s ∈ stores, s.1 ≠ j)
    (buf : Nat → UInt8) : overlay buf stores j = buf j := by
  unfold overlay
  induction stores generalizing buf with
  | nil => rfl
  | cons s stores ih =>
      rw [List.foldl_cons, ih fun s' hs' => h s' (List.mem_cons_of_mem _ hs')]
      exact Function.update_of_ne (h s (List.mem_cons_self ..)).symm ..

section Read

variable {s s' : Editing} {e : KeyEvent}

/-- The line is ready for the displayed terminal after Enter. -/
theorem Input.enter_ready {c : Console} {i : Input} (hc : c.input = i.enter)
    (hvis : i.visible i.currTerminal = 1) (hfirst : i.enter.keyBuffer 0 ≠ 0) :
    c.LineReady c.currTerminal := by
  have hcurr : c.currTerminal = i.currTerminal := congrArg Input.currTerminal hc
  have hbuffer : c.keyBuffer = i.enter.keyBuffer := congrArg Input.keyBuffer hc
  have hflag : (c.termArr c.currTerminal).enterFlag = i.enter.enterFlag c.currTerminal :=
    congrFun (congrArg Input.enterFlag hc) c.currTerminal
  have hvisible : (c.termArr c.currTerminal).visible = i.visible c.currTerminal :=
    congrFun (congrArg Input.visible hc) c.currTerminal
  refine ⟨?_, by rwa [hbuffer], by rw [hvisible, hcurr, hvis]⟩
  rw [hflag, hcurr]
  show Function.update i.enterFlag i.currTerminal 1 i.currTerminal ≠ 0
  rw [Function.update_self]
  exact Nat.one_ne_zero

/-- The copy loop finds a line at the start of the buffer, if there are no characters behind it. -/
theorem Console.keyCopy_eq {c : Console} {text : List UInt8} {nbytes : Nat}
    (hlen : text.length ≤ maxInputLength) (hcell : ∀ j < text.length, c.keyBuffer j = text[j]?.getD 0)
    (hchars : ∀ ch ∈ text, ch ≠ 0 ∧ ch ≠ newLine)
    (hrest : ∀ j, text.length ≤ j → j < max nbytes maxInputLength →
      c.keyBuffer j = 0 ∨ c.keyBuffer j = newLine) :
    c.keyCopy nbytes = (List.range text.length).map fun j => (j, text[j]?.getD 0) := by
  have hmax : max nbytes maxInputLength =
      text.length + (max nbytes maxInputLength - text.length) := by omega
  have hinside : (List.range text.length).filter
      (fun j => c.keyBuffer j ≠ 0 ∧ c.keyBuffer j ≠ newLine) = List.range text.length := by
    apply List.filter_eq_self.mpr
    intro j hj
    have hj := List.mem_range.mp hj
    rw [hcell j hj, List.getElem?_eq_getElem hj, Option.getD_some]
    exact decide_eq_true (hchars _ (List.getElem_mem hj))
  have hbehind : ((List.range (max nbytes maxInputLength - text.length)).map (text.length + ·)).filter
      (fun j => c.keyBuffer j ≠ 0 ∧ c.keyBuffer j ≠ newLine) = [] := by
    apply List.filter_eq_nil_iff.mpr
    intro j hj
    obtain ⟨k, hk, rfl⟩ := List.mem_map.mp hj
    have hk := List.mem_range.mp hk
    rw [decide_eq_true_eq]
    rintro ⟨hzero, hnewline⟩
    rcases hrest (text.length + k) (by omega) (by omega) with h | h
    · exact hzero h
    · exact hnewline h
  rw [Console.keyCopy]
  nth_rewrite 1 [hmax]
  rw [List.range_add, List.filter_append, hinside, hbehind, List.append_nil]
  apply List.map_congr_left
  intro j hj
  rw [hcell j (List.mem_range.mp hj)]

/-- The read then delivers the line, all of it and nothing else. -/
theorem Console.keyCopy_delivers {c : Console} {text : List UInt8} {nbytes : Nat}
    (hlen : text.length ≤ maxInputLength)
    (hcopy : c.keyCopy nbytes = (List.range text.length).map fun j => (j, text[j]?.getD 0)) :
    s8 (c.keyCopy nbytes).length = text.length ∧
    ∀ (buf : Nat → UInt8) (i : Nat), overlay buf (c.keyCopy nbytes) i = text[i]?.getD (buf i) := by
  have hmax : maxInputLength = 127 := rfl
  constructor
  · rw [hcopy, List.length_map, List.length_range]
    simp only [s8]
    rw [if_pos (by omega)]
    omega
  · intro buf i
    rw [hcopy, overlay_range]
    split
    next hi => rw [List.getElem?_eq_getElem hi, Option.getD_some, Option.getD_some]
    next hi => rw [List.getElem?_eq_none (by omega), Option.getD_none]

/-- The copy loop after Enter. -/
theorem Pending.keyCopy {i : Input} {text : List UInt8} (h : Pending i text) {c : Console}
    (hc : c.input = i.enter) {nbytes : Nat} (hn : nbytes ≤ maxInputLength) :
    c.keyCopy nbytes = (List.range text.length).map fun j => (j, text[j]?.getD 0) := by
  have hshort : text.length ≤ 73 := h.short
  have h127 : maxInputLength = 127 := rfl
  have hbuffer : ∀ j < maxInputLength,
      c.keyBuffer j = Function.update i.keyBuffer text.length newLine j := by
    intro j hj
    have hcell := i.enter_keyBuffer hj
    rwa [h.toNat, ← hc] at hcell
  apply Console.keyCopy_eq (by omega) ?_ h.chars
  · intro j hj hj'
    rw [Nat.max_eq_right hn] at hj'
    rw [hbuffer _ hj', Function.update_apply]
    split
    · exact Or.inr rfl
    · exact Or.inl (h.clear j (by omega) hj')
  · intro j hj
    rw [hbuffer j (by omega), Function.update_of_ne (by omega), h.cell hj, List.getElem?_eq_getElem hj,
      Option.getD_some]

/-- **What is tracked is read back**: the line, all of it and nothing else, and the buffer is empty
again. -/
theorem Tracks.read (h : Tracks s) (cur : Fin 3) {nbytes : Nat} (hn : nbytes ≤ maxInputLength) :
    ∃ c copy, s.enterAndRead cur nbytes = some (c, copy) ∧
      copy.ret = s.ed.line.length ∧
      (∀ (buf : Nat → UInt8) (i : Nat), overlay buf copy.stores i = s.ed.line[i]?.getD (buf i)) ∧
      (∀ i < maxInputLength, c.keyBuffer i = 0) ∧ c.keyBufferIndex = 0 := by
  obtain ⟨h0, h73⟩ := h.index_le
  have hshort : s.ed.line.length ≤ 73 := h.pending.short
  have hinput := handler_enter cur s.kb h0 (Int.le_trans h73 (by decide))
  have hfirst : s.con.input.enter.keyBuffer 0 ≠ 0 := by
    rw [Input.enter_keyBuffer _ (by decide), h.pending.toNat, Function.update_apply]
    split
    · decide
    next hne =>
      rw [h.pending.cell (by omega)]
      exact (h.pending.chars _ (List.getElem_mem _)).1
  have hready := Input.enter_ready hinput h.visible hfirst
  obtain ⟨c, loads, hread, hclear, hzero⟩ := terminalRead_of_ready hready nbytes
  obtain ⟨hret, hstores⟩ := Console.keyCopy_delivers (Nat.le_trans hshort (by decide))
    (h.pending.keyCopy hinput hn)
  exact ⟨c, _, hread, hret, hstores, hclear, hzero⟩

/-- **`Delivers s`** — if Enter were pressed now, a read into 127 bytes would return the length of the
line and leave the line in the buffer, contiguously and in order. -/
def Editing.Delivers (s : Editing) : Prop :=
  ∀ cur, ∃ c copy, s.enterAndRead cur maxInputLength = some (c, copy) ∧
    copy.ret = s.ed.line.length ∧
    ∀ (buf : Nat → UInt8), ∀ i < s.ed.line.length, overlay buf copy.stores i = s.ed.line[i]?.getD 0

theorem Tracks.delivers (h : Tracks s) : s.Delivers := by
  intro cur
  obtain ⟨c, copy, hread, hret, hstores, -⟩ := h.read cur (Nat.le_refl _)
  refine ⟨c, copy, hread, hret, fun buf i hi => ?_⟩
  rw [hstores buf i, List.getElem?_eq_getElem hi, Option.getD_some, Option.getD_some]

/-- **The gap.**  With a newline in `keyBuffer[73]` nothing is stored at `buf[73]`, so no line that has a
character there is delivered. -/
theorem not_delivers_of_newline (hcell : s.con.input.keyBuffer 73 = newLine)
    (h0 : 0 ≤ s.con.input.keyBufferIndex) (h126 : s.con.input.keyBufferIndex ≤ 126)
    (hlong : 73 < s.ed.line.length) : ¬ s.Delivers := by
  intro hdelivers
  obtain ⟨c, copy, hread, -, hbuf⟩ := hdelivers 0
  have hinput := handler_enter 0 s.kb h0 h126
  unfold Editing.enterAndRead at hread
  generalize (keyboardInterHandler 0 enterKey s.kb s.con).2 = c1 at hread hinput
  have hnewline : c1.keyBuffer 73 = newLine := by
    have henter := s.con.input.enter_keyBuffer (j := 73) (by decide)
    rw [← hinput, Function.update_apply, hcell, ite_self] at henter
    exact henter
  have hstores : copy.stores = c1.keyCopy maxInputLength := by
    simp only [Console.terminalRead] at hread
    split at hread
    · rw [← (Prod.mk.inj (Option.some.inj hread)).2]
    · cases hread
  have hnone : ∀ st ∈ copy.stores, st.1 ≠ 73 := by
    intro st hst heq
    rw [hstores, Console.keyCopy] at hst
    obtain ⟨j, hj, rfl⟩ := List.mem_map.mp hst
    obtain rfl : j = 73 := heq
    have hkept := (List.mem_filter.mp hj).2
    rw [decide_eq_true_eq, hnewline] at hkept
    exact hkept.2 rfl
  -- a buffer that held something else there before the read still does
  have hchar := hbuf (fun _ => s.ed.line[73]?.getD 0 + 1) 73 hlong
  rw [overlay_of_not_mem hnone] at hchar
  exact absurd hchar (by simp)

end Read

/-! ## Beyond the wrap -/

/-- **`Place`** — where the index can be once lines may be longer than the wrap, for a line of `len`
characters: before the wrap, behind the newline, or, after erasing back over it, at the newline. -/
inductive Place (i : Input) (len : Nat) : Prop
  | before (hcell : i.keyBuffer 73 ≠ newLine) (hlen : len ≤ i.keyBufferIndex)
      (hle : i.keyBufferIndex ≤ 73)
  | behind (hcell : i.keyBuffer 73 = newLine) (hlen : len + 1 ≤ i.keyBufferIndex)
      (hge : 74 ≤ i.keyBufferIndex) (hle : i.keyBufferIndex ≤ 126)
  | atNewline (hcell : i.keyBuffer 73 = newLine) (hlen : len ≤ 72) (heq : i.keyBufferIndex = 73)

/-- **`Placed s`** — the invariant of all editing of lines of at most 125 characters. -/
structure Placed (s : Editing) : Prop where
  unheld : Unheld s
  noNewline : ∀ j < maxInputLength, j ≠ 73 → s.con.input.keyBuffer j ≠ newLine
  place : Place s.con.input s.ed.line.length

section Beyond

variable {s s' : Editing} {e : KeyEvent} {i : Input} {len : Nat}

theorem Place.index_le (h : Place i len) : 0 ≤ i.keyBufferIndex ∧ i.keyBufferIndex ≤ 126 := by
  cases h with
  | before _ hlen hle => omega
  | behind _ hlen _ hle => omega
  | atNewline _ _ heq => omega

theorem Place.type (h : Place i len) (ch : UInt8) (hlen : len < 125) :
    Place (i.type ch) (len + 1) := by
  unfold Input.type
  cases h with
  | before hcell hlen hle =>
      rw [if_pos (by omega)]
      split
      next h73 =>
        refine .behind ?_ ?_ ?_ ?_
        · simp [Input.push, h73]
        all_goals
          simp only [Input.push]
          omega
      next h73 =>
        refine .before ?_ ?_ ?_
        · show Function.update i.keyBuffer i.keyBufferIndex.toNat ch 73 ≠ newLine
          rwa [Function.update_of_ne (by omega)]
        all_goals
          simp only [Input.push]
          omega
  | behind hcell hlen hge hle =>
      split
      next h126 =>
        rw [if_neg (by omega)]
        refine .behind ?_ ?_ ?_ ?_
        · show Function.update i.keyBuffer i.keyBufferIndex.toNat ch 73 = newLine
          rwa [Function.update_of_ne (by omega)]
        all_goals
          simp only [Input.push]
          omega
      next h126 => exact .behind hcell (by omega) hge hle
  | atNewline hcell hlen heq =>
      rw [if_pos (by omega), if_pos heq]
      refine .behind ?_ ?_ ?_ ?_
      · simp [Input.push, heq]
      all_goals
        simp only [Input.push]
        omega

theorem Place.backspace (h : Place i len)
    (hclean : ∀ j < maxInputLength, j ≠ 73 → i.keyBuffer j ≠ newLine) :
    Place i.backspace (len - 1) := by
  have hmax : maxInputLength = 127 := rfl
  have hzero : (0 : UInt8) ≠ newLine := by decide
  unfold Input.backspace
  cases h with
  | before hcell hlen hle =>
      split
      next hpos =>
        have hchar : ¬ i.keyBuffer i.keyBufferIndex.toNat = newLine := by
          by_cases h73 : i.keyBufferIndex.toNat = 73
          · rwa [h73]
          · exact hclean _ (by omega) h73
        rw [if_neg hchar]
        refine .before ?_ ?_ ?_
        · show Function.update i.keyBuffer i.keyBufferIndex.toNat 0 73 ≠ newLine
          rw [Function.update_apply]
          split
          · exact hzero
          · exact hcell
        all_goals
          simp only [Input.erase]
          omega
      next hpos => exact .before hcell (by omega) hle
  | behind hcell hlen hge hle =>
      have hchar : ¬ i.keyBuffer i.keyBufferIndex.toNat = newLine := hclean _ (by omega) (by omega)
      have hkept : i.erase.keyBuffer 73 = newLine := by
        show Function.update i.keyBuffer i.keyBufferIndex.toNat 0 73 = newLine
        rwa [Function.update_of_ne (by omega)]
      rw [if_pos (by omega), if_neg hchar]
      by_cases h74 : i.keyBufferIndex = 74
      · exact .atNewline hkept (by omega) (by simp only [Input.erase]; omega)
      · refine .behind hkept ?_ ?_ ?_
        all_goals
          simp only [Input.erase]
          omega
  | atNewline hcell hlen heq =>
      have hchar : i.keyBuffer i.keyBufferIndex.toNat = newLine := by
        rw [heq]
        exact hcell
      rw [if_pos (by omega), if_pos hchar]
      refine .before ?_ ?_ ?_
      · simp [Input.erase, heq, newLine]
      all_goals
        simp only [Input.erase]
        omega

/-- The newline of the wrap is the only one a key stores. -/
theorem Input.key_noNewline {ch : UInt8} (hch : ch ≠ newLine) (input : UInt8)
    (hclean : ∀ j < maxInputLength, j ≠ 73 → i.keyBuffer j ≠ newLine) :
    ∀ j < maxInputLength, j ≠ 73 → (i.key ch input).keyBuffer j ≠ newLine := by
  intro j hj hne
  have hstore : ∀ (k : Nat → UInt8) (p : Nat) (v : UInt8), v ≠ newLine → k j ≠ newLine →
      Function.update k p v j ≠ newLine := by
    intro k p v hv hk
    rw [Function.update_apply]
    split
    · exact hv
    · exact hk
  have hzero : (0 : UInt8) ≠ newLine := by decide
  have hkept := hclean j hj hne
  unfold Input.key
  split
  · unfold Input.backspace
    split
    · split
      · exact hstore _ _ 0 hzero (hstore _ _ 0 hzero hkept)
      · exact hstore _ _ 0 hzero hkept
    · exact hkept
  split
  · unfold Input.type
    split
    · split
      next h73 =>
        refine hstore _ _ ch hch ?_
        show Function.update i.keyBuffer i.keyBufferIndex.toNat newLine j ≠ newLine
        rwa [Function.update_of_ne (by omega)]
      next => exact hstore _ _ ch hch hkept
    · exact hkept
  · exact hkept

/-- **The step lemma beyond the wrap.** -/
theorem Placed.step (h : Placed s) (hkey : EditingKey e.2) (hstep : EditStep s e s')
    (hline : s'.ed.line.length ≤ 125) : Placed s' := by
  obtain ⟨h0, h126⟩ := h.place.index_le
  have hinput := h.unheld.input_eq hkey hstep h0 h126
  refine ⟨h.unheld.step hkey hstep, ?_, ?_⟩
  · rw [hinput]
    exact Input.key_noNewline (h.unheld.char_ne_newLine e.2) e.2 h.noNewline
  · rw [hstep.ed_eq] at hline ⊢
    rw [hinput]
    rcases edit_cases s e.2 s.con.input with ⟨-, hkind, hedit⟩ | ⟨-, hkind, hedit⟩ | ⟨-, hkind, hedit⟩
    · rw [hedit, List.length_append, List.length_singleton] at hline ⊢
      rw [hkind]
      exact h.place.type _ (by omega)
    · rw [hkind, hedit, List.length_dropLast]
      exact h.place.backspace h.noNewline
    · rw [hkind, hedit]
      exact h.place

/-- **No line longer than the wrap is delivered whole.** -/
theorem Placed.not_delivers (h : Placed s) (hlong : screenWidth - 7 < s.ed.line.length) :
    ¬ s.Delivers := by
  have hlong : 73 < s.ed.line.length := hlong
  obtain ⟨h0, h126⟩ := h.place.index_le
  cases h.place with
  | before _ hlen hle => omega
  | behind hcell _ _ _ => exact not_delivers_of_newline hcell h0 h126 hlong
  | atNewline _ hlen _ => omega

theorem Tracks.placed (h : Tracks s) : Placed s := by
  obtain ⟨h0, h73⟩ := h.index_le
  have hclean := h.pending.noNewline
  refine ⟨h.unheld, fun j hj _ => hclean j hj, ?_⟩
  exact .before (hclean 73 (by decide)) (Int.le_of_eq h.pending.index.symm) h73

end Beyond

/-! ## Runs -/

/-- Nothing has been typed into the displayed terminal; Ctrl and Alt are not held. -/
structure Editing.Cleared (s : Editing) : Prop where
  keyBuffer : ∀ i < maxInputLength, s.con.keyBuffer i = 0
  keyBufferIndex : s.con.keyBufferIndex = 0
  ctrl : s.kb.ctrlPressed = false
  alt : s.kb.altPressed = false
  mode : s.kb.mode.toNat = s.ed.mode
  visible : (s.con.termArr s.con.currTerminal).visible = 1
  line : s.ed.line = []

section Runs

variable {s s' : Editing} {es : List KeyEvent}

theorem Editing.Cleared.tracks (h : s.Cleared) : Tracks s := by
  refine ⟨⟨h.ctrl, h.alt, h.mode⟩, h.visible, ?_⟩
  rw [h.line]
  refine ⟨h.keyBufferIndex, rfl, ?_, ?_, by simp, by decide⟩
  · show s.con.keyBuffer 0 ≠ newLine
    rw [h.keyBuffer 0 (by decide)]
    decide
  · exact fun j _ hj => h.keyBuffer j hj

/-- **The run lemma.** -/
theorem Tracks.run (h : Tracks s) (hkeys : ∀ e ∈ es, EditingKey e.2)
    (hbelow : AllSteps EditStep BelowWrap s es) (hrun : Run EditStep s es s') : Tracks s' := by
  have hok := (allSteps_of_mem (R := EditStep) (s := s) hkeys).and hbelow
  apply (hrun.restrict_of_allSteps hok).invariant h
  rintro m e m' hm ⟨⟨hkey, hbelow⟩, hstep⟩
  exact hm.step hkey hbelow hstep

/-- The run lemma beyond the wrap. -/
theorem Placed.run (h : Placed s) (hkeys : ∀ e ∈ es, EditingKey e.2)
    (hline : AllStates EditStep (fun s => s.ed.line.length ≤ 125) s es) (hrun : Run EditStep s es s') :
    Placed s' := by
  have hok := (allSteps_of_mem (R := EditStep) (s := s) hkeys).and hline.steps
  apply (hrun.restrict_of_allSteps hok).invariant h
  rintro m e m' hm ⟨⟨hkey, hline⟩, hstep⟩
  exact hm.step hkey hstep (hline m' hstep)

theorem editRun_exists (s : Editing) (es : List KeyEvent) : ∃ s', Run EditStep s es s' := by
  induction es generalizing s with
  | nil => exact ⟨s, rfl⟩
  | cons e es ih =>
      obtain ⟨s', hrun⟩ := ih ⟨_, _, s.ed.press e.2⟩
      exact ⟨s', _, rfl, hrun⟩

/-- The editor does not depend on the console. -/
theorem editRun_ed (hrun : Run EditStep s es s') :
    s'.ed = es.foldl (fun ed e => ed.press e.2) s.ed := by
  induction es generalizing s with
  | nil => exact hrun ▸ rfl
  | cons e es ih =>
      obtain ⟨m, hm, hrest⟩ := hrun
      rw [ih hrest, List.foldl_cons, hm]

theorem editStates_of_ed {P : Editor → Prop}
    (h : ∀ n ≤ es.length, P ((es.take n).foldl (fun ed e => ed.press e.2) s.ed)) :
    AllStates EditStep (fun s => P s.ed) s es := by
  intro before after m hes hrun
  have hpre := h before.length (by rw [hes, List.length_append]; omega)
  rw [hes, List.take_left' rfl] at hpre
  show P m.ed
  rwa [editRun_ed hrun]

/-- A line that never exceeds 73 characters is never typed into at the wrap. -/
theorem belowWrap_of_lines
    (hline : AllStates EditStep (fun s => s.ed.line.length ≤ screenWidth - 7) s es) :
    AllSteps EditStep BelowWrap s es := by
  intro before e after m hes hrun hch
  obtain ⟨m', hm'⟩ : ∃ m', EditStep m e m' := ⟨_, rfl⟩
  have hnext : m'.ed.line.length ≤ screenWidth - 7 := hline.steps before e after m hes hrun m' hm'
  rw [hm'.ed_eq, Editor.press_of_char hch, List.length_append, List.length_singleton] at hnext
  omega

/-- **Line editing round trip.** Start with an empty buffer.  For every sequence of keys without Enter,
Ctrl and Alt during which the line never exceeds 73 characters, Enter and a read of at most 127 bytes:
the read returns the length of the line, the buffer holds the line and is otherwise unchanged, and
`keyBuffer` is empty again. -/
theorem line_round_trip (hstart : s.Cleared) (hkeys : ∀ e ∈ es, EditingKey e.2)
    (hline : AllStates EditStep (fun s => s.ed.line.length ≤ screenWidth - 7) s es)
    (hrun : Run EditStep s es s') (cur : Fin 3) {nbytes : Nat} (hn : nbytes ≤ maxInputLength) :
    ∃ c copy, s'.enterAndRead cur nbytes = some (c, copy) ∧
      copy.ret = s'.ed.line.length ∧
      (∀ (buf : Nat → UInt8) (i : Nat), overlay buf copy.stores i = s'.ed.line[i]?.getD (buf i)) ∧
      (∀ i < maxInputLength, c.keyBuffer i = 0) ∧ c.keyBufferIndex = 0 :=
  (hstart.tracks.run hkeys (belowWrap_of_lines hline) hrun).read cur hn

/-- **Long lines.** Along any sequence of editing keys the line is delivered whole in every state exactly
if no character is typed into a line of 73 characters.  And as long as no line exceeds 125 characters,
whatever has been typed and erased before: a line of more than 73 is not delivered whole. -/
theorem delivered_whole_iff (hstart : s.Cleared) (hkeys : ∀ e ∈ es, EditingKey e.2) :
    (AllStates EditStep Editing.Delivers s es ↔ AllSteps EditStep BelowWrap s es) ∧
    ∀ s', Run EditStep s es s' → AllStates EditStep (fun s => s.ed.line.length ≤ 125) s es →
      screenWidth - 7 < s'.ed.line.length → ¬ s'.Delivers := by
  have hdom : AllSteps EditStep (fun _ e => EditingKey e.2) s es := allSteps_of_mem hkeys
  have htracks := hstart.tracks
  have hiff : ∀ m e m', Tracks m → m.Delivers → EditingKey e.2 → EditStep m e m' →
      (m'.Delivers ↔ BelowWrap m e) := by
    intro m e m' h _ hkey hstep
    constructor
    · intro hdelivers hch
      by_contra hge
      -- the line has become one character longer than the wrap
      have hshort := h.pending.short
      have hlen : m'.ed.line.length = screenWidth - 7 + 1 := by
        rw [hstep.ed_eq, Editor.press_of_char hch, List.length_append, List.length_singleton]
        omega
      have hplaced := h.placed.step hkey hstep (by rw [hlen]; decide)
      exact hplaced.not_delivers (by omega) hdelivers
    · intro hbelow
      exact (h.step hkey hbelow hstep).delivers
  refine ⟨?_, ?_⟩
  · refine allStates_iff_allSteps (R := EditStep) (fun _ _ => ⟨_, rfl⟩) ?_ hiff htracks
      htracks.delivers hdom
    intro m e m' h hdelivers hkey hstep hdelivers'
    exact h.step hkey ((hiff m e m' h hdelivers hkey hstep).mp hdelivers') hstep
  · intro s' hrun hline hlong
    exact (htracks.placed.run hkeys hline hrun).not_delivers hlong

end Runs

/-! ## After boot -/

/-- The keyboard after boot, and an empty editor. -/
def bootedEditing : Editing := ⟨⟨0, false, false⟩, bootedKernel.con, ⟨false, false, []⟩⟩

theorem bootedEditing_cleared : bootedEditing.Cleared where
  keyBuffer _ _ := rfl
  keyBufferIndex := rfl
  ctrl := rfl
  alt := rfl
  mode := rfl
  visible := rfl
  line := rfl

/-- `a`, shift and `a`, then an `a` that is taken back: the process reads "aA". -/
theorem booted_round_trip :
    ∃ s' c copy, Run EditStep bootedEditing [(0, keyA), (1, lshiftPressed), (0, keyA),
        (2, lshiftReleased), (0, keyA), (0, backspaceKey)] s' ∧
      s'.enterAndRead 0 maxInputLength = some (c, copy) ∧ copy.ret = 2 ∧
      ∀ buf, overlay buf copy.stores 0 = 97 ∧ overlay buf copy.stores 1 = 65 ∧
        overlay buf copy.stores 2 = buf 2 := by
  obtain ⟨s', hrun⟩ := editRun_exists bootedEditing [(0, keyA), (1, lshiftPressed), (0, keyA),
    (2, lshiftReleased), (0, keyA), (0, backspaceKey)]
  have hed : s'.ed = ⟨false, false, [97, 65]⟩ := (editRun_ed hrun).trans (by decide +kernel)
  obtain ⟨c, copy, hread, hret, hstores, -⟩ := line_round_trip bootedEditing_cleared
    (by decide +kernel)
    (editStates_of_ed (P := fun ed => ed.line.length ≤ screenWidth - 7) (by decide +kernel)) hrun 0
    (Nat.le_refl _)
  rw [hed] at hret hstores
  exact ⟨s', c, copy, hrun, hread, hret, fun buf => ⟨hstores buf 0, hstores buf 1, hstores buf 2⟩⟩

/-- How many of the keys have a character; shift and caps lock do not change whether one has. -/
def charPresses (es : List KeyEvent) : Nat :=
  es.countP fun e => (Editor.mk false false []).char e.2 ≠ 0

/-- 74 characters, each taken back at once. -/
def typedAndErased : List KeyEvent := (List.replicate 74 [(0, keyA), (0, backspaceKey)]).flatten

theorem typedAndErased_delivered :
    charPresses typedAndErased = 74 ∧
      AllStates EditStep Editing.Delivers bootedEditing typedAndErased := by
  refine ⟨by decide +kernel, ?_⟩
  refine (delivered_whole_iff bootedEditing_cleared (by decide +kernel)).1.mpr ?_
  apply belowWrap_of_lines
  apply editStates_of_ed (P := fun ed => ed.line.length ≤ screenWidth - 7)
  decide +kernel

/-- 74 times the key `a`. -/
def longLine : List KeyEvent := List.replicate 74 (0, keyA)

/-- The last character of it is delivered to `buf[74]`. -/
theorem long_line_not_delivered :
    (bootedEditing.Cleared ∧ (∀ e ∈ longLine, EditingKey e.2) ∧ charPresses longLine = 74 ∧
      AllStates EditStep (fun s => s.ed.line.length ≤ 125) bootedEditing longLine) ∧
    ∃ s', Run EditStep bootedEditing longLine s' ∧ s'.ed.line.length = 74 ∧ ¬s'.Delivers := by
  obtain ⟨s', hrun⟩ := editRun_exists bootedEditing longLine
  have hkeys : ∀ e ∈ longLine, EditingKey e.2 := by decide +kernel
  have hpresses : charPresses longLine = 74 := by decide +kernel
  have hline : AllStates EditStep (fun s => s.ed.line.length ≤ 125) bootedEditing longLine := by
    apply editStates_of_ed (P := fun ed => ed.line.length ≤ 125)
    decide +kernel
  have hlength : s'.ed.line.length = 74 := by
    rw [editRun_ed hrun]
    decide +kernel
  have hlong : screenWidth - 7 < s'.ed.line.length := by
    rw [hlength]
    decide
  have hplaced := bootedEditing_cleared.tracks.placed.run hkeys hline hrun
  exact ⟨⟨bootedEditing_cleared, hkeys, hpresses, hline⟩, s', hrun, hlength, hplaced.not_delivers hlong⟩

end Ece391
