/-
# Ece391.Terminals.LineBuffer — the keyboard's line buffer on its own.

`keyBuffer`, `keyBufferIndex` and the flags `terminal_read` looks at are a small part of the console.
`Console.input` is that part; the screen routines leave it alone, and a key acts on it through
`Input.type`, `Input.backspace` and `Input.enter` (`handler_input`, `handler_enter`).  What is proved
about lines below is proved about these three.

Two things are kept that a tidier buffer would not have.  At index 73 `key_press` stores a newline in
front of the character; and a backspace clears the cell AT the index, then steps back, so the character
it deletes stays in its cell.
-/
import Ece391.Terminals.Lines
import Ece391.Terminals.Screens

open Ece391.Lib

namespace Ece391

/-! ## The input side of the console -/

/-- What the keyboard and `terminal_read` look at. -/
@[ext] structure Input where
  keyBuffer : Nat → UInt8
  keyBufferIndex : Int
  currTerminal : Fin 3
  visible : Fin 3 → Nat
  enterFlag : Fin 3 → Nat

/-- The input side of a console. -/
def Console.input (c : Console) : Input where
  keyBuffer := c.keyBuffer
  keyBufferIndex := c.keyBufferIndex
  currTerminal := c.currTerminal
  visible t := (c.termArr t).visible
  enterFlag t := (c.termArr t).enterFlag

namespace Console

variable (c : Console)

theorem MemoryOf.input_eq {c c' : Console} (h : c.MemoryOf c') : c'.input = c.input := by
  obtain ⟨phys, fault, rfl⟩ := h
  rfl

theorem input_updateCursor : c.updateCursor.input = c.input := rfl

end Console

/-- `term_arr[t].enterFlag = v;` -/
def Input.setFlag (i : Input) (t : Fin 3) (v : Nat) : Input :=
  { i with enterFlag := Function.update i.enterFlag t v }

theorem Input.setFlag_setFlag (i : Input) (t : Fin 3) (v w : Nat) :
    (i.setFlag t v).setFlag t w = i.setFlag t w := by
  simp only [Input.setFlag, Function.update_idem]

/-- An assignment to a flag. -/
theorem Console.input_setFlag (c : Console) (t : Fin 3) (v : Nat) :
    (c.setTerm t fun term => { term with enterFlag := v }).input = c.input.setFlag t v := by
  refine Input.ext rfl rfl rfl (funext (Console.setTerm_field Terminal.visible rfl)) (funext fun u => ?_)
  show (Function.update c.termArr t { c.termArr t with enterFlag := v } u).enterFlag =
    Function.update (fun u => (c.termArr u).enterFlag) t v u
  by_cases hu : u = t
  · rw [hu, Function.update_self, Function.update_self]
  · rw [Function.update_of_ne hu, Function.update_of_ne hu]

/-- A routine that reaches neither the line buffer nor the flags. -/
theorem Draws.input_eq {P : Console → Reach → Prop} {c c' : Console} (h : Draws P c c')
    (hline : ∀ c, ¬ P c .line) (hflag : ∀ c, ¬ P c .enterFlag) : c'.input = c.input :=
  Input.ext (h.keys hline).1 (h.keys hline).2 h.kept.currTerminal (funext h.kept.visible)
    (funext (h.flags hflag))

namespace Console

variable (c : Console) (t : Fin 3)

theorem input_saveCursor : (c.saveCursor t).input = c.input :=
  (Draws.saveCursor (P := Draws.bytes) c t).input_eq (fun _ h => h) fun _ h => h

theorem input_enterAt : (c.enterAt t).input = c.input :=
  (Draws.enterAt (P := Draws.bytes) c t).input_eq (fun _ h => h) fun _ h => h

theorem input_vertScrollAt : (c.vertScrollAt t).input = c.input :=
  (Draws.vertScrollAt c t).input_eq (fun _ h => h) fun _ h => h

theorem input_putcAt (ch : UInt8) : (c.putcAt t ch).input = c.input :=
  (Draws.putcAt c t ch).input_eq (fun _ h => h) fun _ h => h

theorem input_backspace : c.backspace.input = c.input :=
  (Draws.backspace c).input_eq (fun _ h => h) fun _ h => h

theorem input_tracker (g : Nat → Nat) :
    (c.setTerm t fun term => { term with newlineTracker := g term.newlineTracker }).input = c.input :=
  (Draws.tracker (P := Draws.bytes) c t g).input_eq (fun _ h => h) fun _ h => h

end Console

/-! ## What the keys do to it -/

namespace Input

variable (i : Input)

/-- `keyBuffer[keyBufferIndex] = v; keyBufferIndex++;` -/
def push (v : UInt8) : Input :=
  { i with
    keyBuffer := Function.update i.keyBuffer i.keyBufferIndex.toNat v
    keyBufferIndex := i.keyBufferIndex + 1 }

/-- `keyBuffer[keyBufferIndex] = NULL; keyBufferIndex--;` -/
def erase : Input :=
  { i with
    keyBuffer := Function.update i.keyBuffer i.keyBufferIndex.toNat 0
    keyBufferIndex := i.keyBufferIndex - 1 }

/-- A character: refused at the end of the buffer, with a newline before it at the wrap. -/
def type (ch : UInt8) : Input :=
  if i.keyBufferIndex < 126 then
    if i.keyBufferIndex = 73 then (i.push newLine).push ch else i.push ch
  else i

/-- A backspace: a newline at the index goes with the character before it. -/
def backspace : Input :=
  if 0 < i.keyBufferIndex then
    if i.keyBuffer i.keyBufferIndex.toNat = newLine then i.erase.erase else i.erase
  else i

/-- Enter: the newline, the flag of the displayed terminal and, at the end of the buffer, the newline
`key_press` adds behind it. -/
def enter : Input :=
  { i.push newLine with
    keyBuffer :=
      if i.keyBufferIndex = 126 then Function.update (i.push newLine).keyBuffer 127 newLine
      else (i.push newLine).keyBuffer
    enterFlag := Function.update i.enterFlag i.currTerminal 1 }

/-- In the array, Enter stores one newline. -/
theorem enter_keyBuffer {j : Nat} (hj : j < maxInputLength) :
    i.enter.keyBuffer j = Function.update i.keyBuffer i.keyBufferIndex.toNat newLine j := by
  have hmax : maxInputLength = 127 := rfl
  unfold enter push
  dsimp only
  split
  · rw [Function.update_of_ne (by omega)]
  · rfl

/-- A key other than Enter with character `ch`, NUL if it has none. -/
def key (ch input : UInt8) : Input :=
  if input = backspaceKey then i.backspace else if ch ≠ 0 then i.type ch else i

end Input

namespace Console

variable {c : Console}

theorem input_storeKey {j : Int} (h0 : 0 ≤ j) (v : UInt8) :
    (c.storeKey j v).input =
      { c.input with keyBuffer := Function.update c.input.keyBuffer j.toNat v } := by
  rw [storeKey, if_pos h0]
  rfl

theorem input_pushKey (h0 : 0 ≤ c.keyBufferIndex) (v : UInt8) :
    (c.pushKey v).input = c.input.push v := by
  rw [pushKey, storeKey, if_pos h0]
  rfl

theorem input_keyPressEnd (h : c.keyBufferIndex ≠ 127) : c.keyPressEnd.input = c.input := by
  have hend : ¬ c.keyBufferIndex = ((keyBufferSize - 1 : Nat) : Int) := h
  rw [keyPressEnd, if_neg hend]
  rfl

/-- Within the buffer the wrap is at index 73 only. -/
theorem wraps_iff (h0 : 0 ≤ c.keyBufferIndex) (h126 : c.keyBufferIndex < 126) :
    c.Wraps ↔ c.keyBufferIndex = 73 := by
  have hwidth : ((screenWidth - 7 : Nat) : Int) = 73 := rfl
  unfold Wraps
  rw [hwidth, Int.tmod_eq_emod_of_nonneg h0]
  omega

/-- A character shown and stored. -/
theorem input_putPush (ch : UInt8) (h0 : 0 ≤ c.keyBufferIndex) (h126 : c.keyBufferIndex < 126) :
    ((c.putcUser ch).pushKey ch).keyPressEnd.input = c.input.push ch := by
  have hput : (c.putcUser ch).input = c.input := c.input_putcAt c.currTerminal ch
  have hindex : (c.putcUser ch).keyBufferIndex = c.keyBufferIndex :=
    congrArg Input.keyBufferIndex hput
  have hend : ((c.putcUser ch).pushKey ch).keyBufferIndex ≠ 127 := by
    show (c.putcUser ch).keyBufferIndex + 1 ≠ 127
    omega
  rw [input_keyPressEnd hend, input_pushKey (by omega), hput]

theorem input_wrapLine (cur : Fin 3) (h0 : 0 ≤ c.keyBufferIndex) :
    (c.wrapLine cur).input = c.input.push newLine := by
  rw [wrapLine, input_updateCursor, vertScroll, input_vertScrollAt, enter, input_enterAt,
    input_pushKey h0]

/-- `key_press` of a character. -/
theorem input_typeChar (cur : Fin 3) (ch : UInt8) (h0 : 0 ≤ c.keyBufferIndex)
    (h126 : c.keyBufferIndex < 126) : (c.typeChar cur ch).input = c.input.type ch := by
  have hroom : c.input.keyBufferIndex < 126 := h126
  rw [Input.type, if_pos hroom]
  by_cases h73 : c.keyBufferIndex = 73
  · have hline := input_wrapLine cur h0
    have hindex : (c.wrapLine cur).keyBufferIndex = c.keyBufferIndex + 1 :=
      congrArg Input.keyBufferIndex hline
    rw [typeChar, if_pos ((wraps_iff h0 h126).mpr h73), input_putPush ch (by omega) (by omega), hline]
    exact (if_pos h73).symm
  · rw [typeChar, if_neg (mt (wraps_iff h0 h126).mp h73), input_putPush ch h0 h126]
    exact (if_neg h73).symm

theorem input_storeKey_zero (h0 : 0 ≤ c.keyBufferIndex) :
    ({ c.storeKey c.keyBufferIndex 0 with keyBufferIndex := c.keyBufferIndex - 1 } : Console).input =
      c.input.erase := by
  rw [storeKey, if_pos h0]
  rfl

theorem input_backspaceCase : c.backspaceCase.input = c.input.backspace := by
  -- what happens once the newline is out of the way
  have hback : ∀ c : Console, 0 ≤ c.keyBufferIndex →
      ({ c.backspace.storeKey c.backspace.keyBufferIndex 0 with
        keyBufferIndex := c.backspace.keyBufferIndex - 1 } : Console).input = c.input.erase := by
    intro c h0
    have hinput := c.input_backspace
    have hindex : c.backspace.keyBufferIndex = c.keyBufferIndex :=
      congrArg Input.keyBufferIndex hinput
    rw [input_storeKey_zero (by omega), hinput]
  unfold backspaceCase Input.backspace
  dsimp only
  rw [input_updateCursor]
  by_cases hpos : 0 < c.keyBufferIndex
  · rw [if_pos hpos, if_pos (show 0 < c.input.keyBufferIndex from hpos)]
    by_cases hchar : c.keyBuffer c.keyBufferIndex.toNat = newLine
    · have hfirst := input_storeKey_zero (c := c) (by omega)
      have hsecond := hback { c.storeKey c.keyBufferIndex 0 with
        keyBufferIndex := c.keyBufferIndex - 1 } (by show 0 ≤ c.keyBufferIndex - 1; omega)
      simp only [if_pos hchar]
      rw [hsecond, hfirst]
      exact (if_pos hchar).symm
    · simp only [if_neg hchar]
      rw [hback c (by omega)]
      exact (if_neg hchar).symm
  · rw [if_neg hpos, if_neg (show ¬ 0 < c.input.keyBufferIndex from hpos)]

theorem input_enterUser (c : Console) : c.enterUser.input = c.input.setFlag c.currTerminal 1 := by
  rw [enterUser, input_setFlag, input_enterAt]

/-- `case ENTER`. -/
theorem input_enterCase (h0 : 0 ≤ c.keyBufferIndex) :
    c.enterCase.input =
      { c.input.push newLine with
        enterFlag := Function.update c.input.enterFlag c.input.currTerminal 1 } := by
  have hscroll : c.enterUser.vertScrollUser.input = c.enterUser.input :=
    c.enterUser.input_vertScrollAt c.enterUser.currTerminal
  have hindex : c.enterUser.vertScrollUser.keyBufferIndex = c.keyBufferIndex := by
    have := congrArg Input.keyBufferIndex hscroll
    rwa [input_enterUser] at this
  rw [enterCase, input_updateCursor, input_pushKey (by omega), hscroll, input_enterUser]
  rfl

/-- `key_press` of a key without a character. -/
theorem input_keyPress_untyped {kb : Keyboard} (cur : Fin 3) {input : UInt8} (hch : kb.typed input = 0)
    (h126 : c.keyBufferIndex ≤ 126) : (c.keyPress kb cur input).input = c.input := by
  by_cases hroom : c.keyBufferIndex < 126
  · rw [keyPress_of_untyped cur hch hroom]
  · have hfull : ¬ c.keyBufferIndex < ((keyBufferSize - spacingSet : Nat) : Int) := hroom
    rw [keyPress, if_neg hfull]
    split
    · rfl
    · exact input_keyPressEnd (by omega)

end Console

/-! ## One keyboard interrupt -/

theorem Input.backspace_index_le (i : Input) : i.backspace.keyBufferIndex ≤ i.keyBufferIndex := by
  unfold Input.backspace
  split
  · split
    · show i.keyBufferIndex - 1 - 1 ≤ i.keyBufferIndex
      omega
    · show i.keyBufferIndex - 1 ≤ i.keyBufferIndex
      omega
  · exact Int.le_refl _

/-- **A key other than Enter**, with Ctrl and Alt up, acts on the line buffer alone. -/
theorem handler_input (cur : Fin 3) {input : UInt8} {kb : Keyboard} {c : Console}
    (henter : input ≠ enterKey) (hctrl : kb.ctrlPressed = false) (halt : kb.altPressed = false)
    (h0 : 0 ≤ c.keyBufferIndex) (h126 : c.keyBufferIndex ≤ 126) :
    (keyboardInterHandler cur input kb c).2.input = c.input.key (kb.typed input) input := by
  unfold Input.key
  by_cases hch : kb.typed input = 0
  · have huntyped : (kb.modifiers input).typed input = 0 := by rw [typed_modifiers, hch]
    unfold keyboardInterHandler
    dsimp only
    by_cases hback : input = backspaceKey
    · have hspecial : c.specialKeys kb input = c.backspaceCase := by
        rw [hback]
        rfl
      have hcase := Console.input_backspaceCase (c := c)
      have hindex : c.backspaceCase.keyBufferIndex = c.input.backspace.keyBufferIndex :=
        congrArg Input.keyBufferIndex hcase
      have hle : c.input.backspace.keyBufferIndex ≤ c.keyBufferIndex := c.input.backspace_index_le
      rw [hspecial, Console.input_keyPress_untyped cur huntyped (by omega), hcase, if_pos hback]
    · have hspecial : c.specialKeys kb input = c := by
        unfold Console.specialKeys
        split
        · rw [halt, if_neg Bool.false_ne_true]
        · rw [if_neg hback, if_neg henter]
      rw [hspecial, Console.input_keyPress_untyped cur huntyped h126, if_neg hback,
        if_neg (not_not.mpr hch)]
  · obtain ⟨-, hback, -⟩ := unserved_of_typed hch
    rw [handler_of_typed hch, if_neg hback, if_pos hch]
    by_cases hroom : c.keyBufferIndex < 126
    · simp only [if_pos hroom, hctrl, Bool.false_eq_true, false_and, if_false]
      exact Console.input_typeChar cur _ h0 hroom
    · rw [if_neg hroom, Console.input_keyPressEnd (by omega), Input.type]
      exact (if_neg hroom).symm

/-- **Enter.** -/
theorem handler_enter (cur : Fin 3) (kb : Keyboard) {c : Console} (h0 : 0 ≤ c.keyBufferIndex)
    (h126 : c.keyBufferIndex ≤ 126) :
    (keyboardInterHandler cur enterKey kb c).2.input = c.input.enter := by
  have hspecial : c.specialKeys kb enterKey = c.enterCase := rfl
  have huntyped : (kb.modifiers enterKey).typed enterKey = 0 := typed_of_special _ (by decide)
  have hcase := Console.input_enterCase h0
  have hindex : c.enterCase.keyBufferIndex = c.keyBufferIndex + 1 :=
    congrArg Input.keyBufferIndex hcase
  rw [keyboardInterHandler, hspecial]
  by_cases hfull : c.keyBufferIndex = 126
  · -- `key_press` finds the buffer full
    have hend : c.enterCase.keyBufferIndex = ((keyBufferSize - 1 : Nat) : Int) := by
      rw [hindex, hfull]
      rfl
    have hroom : ¬ c.enterCase.keyBufferIndex < ((keyBufferSize - spacingSet : Nat) : Int) := by
      rw [hindex, hfull]
      decide
    have hbig : ¬ enterKey.toNat ≥ keySize := by decide
    have hinput : c.input.keyBufferIndex = 126 := hfull
    rw [Console.keyPress, if_neg hbig, if_neg hroom, Console.keyPressEnd, if_pos hend,
      Console.input_updateCursor, Console.input_storeKey (by omega), hcase, hindex, hfull, Input.enter,
      if_pos hinput]
    rfl
  · have hinput : ¬ c.input.keyBufferIndex = 126 := hfull
    rw [Console.input_keyPress_untyped cur huntyped (by omega), hcase, Input.enter, if_neg hinput]

/-! ## Output -/

/-- The character count of `terminal_write` behind a byte other than NUL, before the line break. -/
def countUp (n : Nat) (ch : UInt8) : Nat := ((if ch = newLine then 0 else n) + 1) % 256

/-- Whether the byte is followed by the line break of `terminal_write`. -/
def breaksAfter (n : Nat) (ch : UInt8) : Bool := ch != 0 && decide (s8 (countUp n ch) ≥ numCols)

/-- The character count behind a byte. -/
def countAfter (n : Nat) (ch : UInt8) : Nat :=
  if ch = 0 then n else if breaksAfter n ch then 0 else countUp n ch

/-- Whether a write has a line break, with `n` characters since the last newline. -/
def breaksLine : List UInt8 → Nat → Bool
  | [], _ => false
  | ch :: buf, n => breaksAfter n ch || breaksLine buf (countAfter n ch)

/-- It is the count of the abstract write. -/
theorem writeByte_count (st : Screen × Nat) (ch : UInt8) :
    (Screen.writeByte st ch).2 = countAfter st.2 ch := by
  unfold Screen.writeByte countAfter breaksAfter countUp
  by_cases h0 : ch = 0
  · rw [if_pos h0, if_pos h0]
  · by_cases hnl : ch = newLine
    · simp only [hnl, if_true]
      rfl
    · simp only [if_neg h0, if_neg hnl, bne_iff_ne.mpr h0, Bool.true_and, decide_eq_true_eq]
      split <;> rfl

namespace Console

variable {c : Console} {t : Fin 3}

/-- The newline branches of `terminal_write`. -/
theorem input_writeNewline (c : Console) (t : Fin 3) (ch : UInt8) :
    (if ch = newLine ∧ (c.termArr t).visible = 1 then
        (c.newlineCheckUser.vertScrollUser).setTerm c.newlineCheckUser.vertScrollUser.currTerminal
          fun term => { term with newlineTracker := 0 }
      else if ch = newLine then
        ((c.newlineCheck t).vertScroll t).setTerm t fun term => { term with newlineTracker := 0 }
      else c).input = c.input :=
  (Draws.writeNewline (Draws.permits_bytes t c) ch).input_eq (fun _ h => h) fun _ h => h

/-- The line break of `terminal_write`: on the displayed terminal it raises the flag. -/
theorem input_writeBreak (h : Multiplexed c) :
    (if s8 (c.termArr t).newlineTracker ≥ numCols then
        if (c.termArr t).visible = 0 then
          ((c.enter t).vertScroll t).setTerm t fun term => { term with newlineTracker := 0 }
        else
          (c.enterUser.vertScrollUser).setTerm c.enterUser.vertScrollUser.currTerminal
            fun term => { term with newlineTracker := 0 }
      else c).input =
      if s8 (c.termArr t).newlineTracker ≥ numCols ∧ t = c.currTerminal then
        c.input.setFlag t 1
      else c.input := by
  by_cases hfull : s8 (c.termArr t).newlineTracker ≥ numCols
  · rw [if_pos hfull]
    by_cases hcur : t = c.currTerminal
    · have hvis : ¬ (c.termArr t).visible = 0 := fun hvis => h.map.visible_eq_zero.mp hvis hcur
      rw [if_neg hvis, if_pos ⟨hfull, hcur⟩, input_tracker _ _ fun _ => 0, vertScrollUser,
        input_vertScrollAt, input_enterUser, hcur]
    · rw [if_pos (h.map.visible_eq_zero.mpr hcur), if_neg fun hboth => hcur hboth.2,
        input_tracker _ _ fun _ => 0, vertScroll, input_vertScrollAt, enter, input_enterAt]
  · rw [if_neg hfull, if_neg fun hboth => hfull hboth.1]

/-- **One byte of `terminal_write`** leaves the line alone; a line break raises the flag. -/
theorem input_writeByte (h : Multiplexed c) (ch : UInt8) :
    (writeByte t c ch).input =
      if breaksAfter (c.termArr t).newlineTracker ch = true ∧ t = c.currTerminal then
        c.input.setFlag t 1
      else c.input := by
  by_cases h0 : ch = 0
  · subst h0
    rfl
  · have hstep : writeByte t c ch = writeChar t c ch := if_pos h0
    rw [hstep, writeChar]
    dsimp only
    have hnewline := writeNewline_acts (t := t) h ch
    have hinput := c.input_writeNewline t ch
    generalize (if ch = newLine ∧ (c.termArr t).visible = 1 then _ else _ : Console) = c1
      at hnewline hinput
    rw [writePut_eq hnewline.mux.map]
    have hput := (putcAt_acts (t := t) hnewline.mux ch).1
    have hupdate := hput.trans (updateCursor_acts hput.mux)
    have hcount := hupdate.trans (tracker_acts hupdate.mux fun n => (n + 1) % 256)
    have hinput' : ((c1.putcAt t ch).updateCursor.setTerm t fun term =>
        { term with newlineTracker := (term.newlineTracker + 1) % 256 }).input = c.input := by
      rw [input_tracker _ _ fun n => (n + 1) % 256, input_updateCursor, input_putcAt, hinput]
    have htracker : (((c1.putcAt t ch).updateCursor.setTerm t fun term =>
        { term with newlineTracker := (term.newlineTracker + 1) % 256 }).termArr t).newlineTracker =
        countUp (c.termArr t).newlineTracker ch := by
      have hown := congrArg Prod.snd (hnewline.trans hcount).own
      refine hown.trans ?_
      simp only [Function.comp, id, countUp]
      split <;> rfl
    have hcurr : ((c1.putcAt t ch).updateCursor.setTerm t fun term =>
        { term with newlineTracker := (term.newlineTracker + 1) % 256 }).currTerminal =
        c.currTerminal := (hnewline.trans hcount).currTerminal
    rw [input_writeBreak hcount.mux, htracker, hcurr, hinput']
    simp only [breaksAfter, bne_iff_ne.mpr h0, Bool.true_and, decide_eq_true_eq]

/-- A buffer of bytes. -/
theorem input_writeBytes (h : Multiplexed c) (hload : c.Loaded t) (buf : List UInt8) :
    (buf.foldl (writeByte t) c).input =
      if breaksLine buf (c.termArr t).newlineTracker = true ∧ t = c.currTerminal then
        c.input.setFlag t 1
      else c.input := by
  induction buf generalizing c with
  | nil => rfl
  | cons ch buf ih =>
      obtain ⟨hfirst, hloaded⟩ := writeByte_acts h hload ch
      have hinput := input_writeByte (t := t) h ch
      have hcount : ((writeByte t c ch).termArr t).newlineTracker =
          countAfter (c.termArr t).newlineTracker ch :=
        (congrArg Prod.snd hfirst.own).trans (writeByte_count ..)
      rw [List.foldl_cons, ih hfirst.mux hloaded, hcount, hfirst.currTerminal, hinput, breaksLine]
      by_cases hfirstBreak : breaksAfter (c.termArr t).newlineTracker ch = true ∧ t = c.currTerminal
      · -- once raised, the flag stays up
        have hall : (breaksAfter (c.termArr t).newlineTracker ch ||
            breaksLine buf (countAfter (c.termArr t).newlineTracker ch)) = true ∧ t = c.currTerminal :=
          ⟨by rw [hfirstBreak.1, Bool.true_or], hfirstBreak.2⟩
        rw [if_pos hfirstBreak, if_pos hall]
        split
        · rw [Input.setFlag_setFlag]
        · rfl
      · rw [if_neg hfirstBreak]
        refine if_congr ?_ rfl rfl
        rw [Bool.or_eq_true]
        tauto

/-- **`terminal_write` on the input side**: the flag of its terminal is cleared, and raised again by a
line break on the displayed terminal. -/
theorem input_terminalWrite (h : Multiplexed c) (t : Fin 3) (buf : List UInt8) :
    (c.terminalWrite t buf).1.input =
      c.input.setFlag t (if breaksLine buf 0 = true ∧ t = c.currTerminal then 1 else 0) := by
  have hload : Acts t id c (c.loadCursor t) := loadCursor_acts h
  have hreset : Acts t (fun st => (st.1, 0)) (c.loadCursor t) ((c.loadCursor t).setTerm t fun term =>
      { term with newlineTracker := 0, enterFlag := 0 }) :=
    (Acts.setTerm hload.mux { c.termArr t with newlineTracker := 0, enterFlag := 0 } rfl rfl
      (h.cursor t)).congr rfl
  have hloaded : ((c.loadCursor t).setTerm t fun term =>
      { term with newlineTracker := 0, enterFlag := 0 }).Loaded t :=
    Console.Loaded.setTerm ⟨rfl, rfl⟩ (fun _ => rfl) fun _ => rfl
  have hstart : ((c.loadCursor t).setTerm t fun term =>
      { term with newlineTracker := 0, enterFlag := 0 }).input =
      c.input.setFlag t 0 := by
    have hflag := input_setFlag ((c.loadCursor t).setTerm t fun term => { term with newlineTracker := 0 }) t 0
    have hload : (c.loadCursor t).input = c.input := rfl
    rw [input_tracker (c.loadCursor t) t fun _ => 0, hload] at hflag
    simpa only [setTerm, Function.update_self, Function.update_idem] using hflag
  have hzero : (((c.loadCursor t).setTerm t fun term =>
      { term with newlineTracker := 0, enterFlag := 0 }).termArr t).newlineTracker = 0 :=
    congrArg Prod.snd hreset.own
  have hcurr : ((c.loadCursor t).setTerm t fun term =>
      { term with newlineTracker := 0, enterFlag := 0 }).currTerminal = c.currTerminal := rfl
  rw [terminalWrite]
  dsimp only
  rw [input_saveCursor, input_writeBytes hreset.mux hloaded, hzero, hcurr, hstart]
  split
  · rw [Input.setFlag_setFlag]
  · rfl

end Console

/-- A tick leaves it alone. -/
theorem input_tick (img : Image) (fr : Frame) (k : Kernel) :
    (pitInterruptHandler img fr k).con.input = k.con.input := by
  rcases tick_console img fr k with ⟨hm, -⟩ | ⟨hm, -⟩
  · exact hm.input_eq
  · exact hm.input_eq

end Ece391
