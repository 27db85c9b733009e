/-
# Ece391.Terminals.Accesses — the console routines, with the elements they access.

Two arrays are reached by index: `keyBuffer`, declared with 127 elements, and the 2000 cells of a screen.
The routines of `Kernel.Console` and `Kernel.Keyboard` that touch them are written here once more as
programs that log the index of every access, under the same names; `state_keyboardInterHandler` and
`state_terminalWrite` say that they compute the same consoles.

`blankCell` of `reset` is left out: it runs over the cells 0 .. 1999 by a counter of its own.
-/
import Ece391.Lib.Trace
import Ece391.Terminals.Isolation

open Ece391.Lib

namespace Ece391

/-- An access to `keyBuffer[i]`, or a cell index computed by an output routine. -/
inductive Access
  | keyBuffer (i : Int)
  | cell (i : Int)
  deriving DecidableEq, Repr

/-- A cell of the screen. -/
def Access.OnScreen : Access → Prop
  | .cell i => 0 ≤ i ∧ i < ((numCols * numRows : Nat) : Int)
  | .keyBuffer _ => False

namespace Tracing

open Traced

/-! ## The line buffer -/

/-- `keyBuffer[keyBufferIndex] = v`. -/
def storeKey (v : UInt8) : Traced Console Access :=
  seq [access fun c => [.keyBuffer c.keyBufferIndex], lift fun c => c.storeKey c.keyBufferIndex v]

def pushKey (v : UInt8) : Traced Console Access :=
  seq [storeKey v, lift fun c => { c with keyBufferIndex := c.keyBufferIndex + 1 }]

/-- `keyBuffer[keyBufferIndex] = NULL; keyBufferIndex--;` -/
def dropKey : Traced Console Access :=
  seq [storeKey 0, lift fun c => { c with keyBufferIndex := c.keyBufferIndex - 1 }]

/-- The elements `0 .. n`, by a counter. -/
def keys (n : Nat) : List Access := (List.range n).map fun (k : Nat) => .keyBuffer k

theorem mem_keys {n : Nat} {a : Access} : a ∈ keys n ↔ ∃ k < n, Access.keyBuffer (k : Int) = a := by
  simp only [keys, List.mem_map, List.mem_range]

/-! ## The screen -/

/-- `NUM_COLS * screen_y + screen_x`, with the cursor of terminal `t` loaded. -/
def cursorCell (t : Fin 3) (c : Console) : Int :=
  ((numCols * (c.termArr t).screenY + (c.termArr t).screenX : Nat) : Int)

/-- The cell of `putc`, on terminal `t`. -/
def putCells (t : Fin 3) (ch : UInt8) (c : Console) : List Access :=
  if ch = newLine ∨ ch = carriageReturn then [] else [.cell (cursorCell t c)]

def putc (cur : Fin 3) (ch : UInt8) : Traced Console Access :=
  seq [access (putCells cur ch), lift (·.putc cur ch)]

def putcUser (ch : UInt8) : Traced Console Access :=
  seq [access fun c => putCells c.currTerminal ch c, lift (·.putcUser ch)]

/-- The cells `i` and `j` of each turn of `vert_scroll`, on terminal `t`. -/
def scrollCells (t : Fin 3) (c : Console) : List Access :=
  if (c.termArr t).screenY = numRows - 1 ∧ c.scrollFlag = 1 then
    Console.scrollOrder.flatMap fun kl =>
      [.cell ((numCols * kl.1 + kl.2 : Nat) : Int), .cell ((numCols * (kl.1 - 1) + kl.2 : Nat) : Int)]
  else []

def vertScroll (cur : Fin 3) : Traced Console Access :=
  seq [access (scrollCells cur), lift (·.vertScroll cur)]

def vertScrollUser : Traced Console Access :=
  seq [access fun c => scrollCells c.currTerminal c, lift (·.vertScrollUser)]

def backspace : Traced Console Access :=
  seq [access fun c => [.cell (cursorCell c.currTerminal c - 1)], lift (·.backspace)]

/-! ## `key_press` and `keyboard_inter_handler` -/

def wrapLine (cur : Fin 3) : Traced Console Access :=
  seq [pushKey newLine, lift (·.enter cur), vertScroll cur, lift (·.updateCursor)]

def keyPressEnd : Traced Console Access :=
  seq [cond (fun c => c.keyBufferIndex = ((keyBufferSize - 1 : Nat) : Int)) (storeKey newLine) skip,
    lift (·.updateCursor)]

def typeChar (cur : Fin 3) (ch : UInt8) : Traced Console Access :=
  seq [cond Console.Wraps (wrapLine cur) skip, putcUser ch, pushKey ch, keyPressEnd]

/-- Ctrl-L. -/
def clearLine : Traced Console Access :=
  seq [lift (·.reset), access fun _ => keys keyBufferSize, lift (·.clearKeys)]

def keyPress (kb : Keyboard) (cur : Fin 3) (key : UInt8) : Traced Console Access :=
  if key.toNat ≥ keySize then skip
  else
    cond (fun c => c.keyBufferIndex < ((keyBufferSize - spacingSet : Nat) : Int))
      (if kb.keyValue key = 0 then skip
        else if kb.ctrlPressed ∧ isL (kb.keyValue key) then clearLine
        else if kb.ctrlPressed ∧ isC (kb.keyValue key) then skip
        else typeChar cur (kb.keyValue key))
      keyPressEnd

def backspaceCase : Traced Console Access :=
  seq [cond (fun c => c.keyBufferIndex > 0)
      (seq [access fun c => [.keyBuffer c.keyBufferIndex],
        cond (fun c => c.keyBuffer c.keyBufferIndex.toNat = newLine) dropKey skip, backspace, dropKey])
      skip,
    lift (·.updateCursor)]

def enterCase : Traced Console Access :=
  seq [lift (·.enterUser), vertScrollUser, pushKey newLine, lift (·.updateCursor)]

/-- A switch saves and restores 127 elements, by counters. -/
def terminalSwitch (t : Fin 3) : Traced Console Access :=
  seq [access fun c => if t = c.currTerminal then [] else keys maxInputLength ++ keys maxInputLength,
    lift fun c => (c.terminalSwitch t).1]

/-- The rule for it: what the elements of the array meet and the switch keeps. -/
theorem safe_terminalSwitch {P Q : Console → Prop} {ok : Access → Prop} {t : Fin 3}
    (hkeys : ∀ a ∈ keys maxInputLength, ok a) (hswitch : ∀ c, P c → Q (c.terminalSwitch t).1) :
    Safe P ok Q (terminalSwitch t) := by
  refine .touch (fun c _ a ha => ?_) hswitch
  split at ha
  · cases ha
  · rcases List.mem_append.mp ha with ha | ha
    · exact hkeys a ha
    · exact hkeys a ha

def specialKeys (kb : Keyboard) (input : UInt8) : Traced Console Access :=
  match switchKey input with
  | some t => if kb.altPressed then terminalSwitch t else skip
  | none => if input = backspaceKey then backspaceCase else if input = enterKey then enterCase else skip

/-- **`keyboardInterHandler`**, with its accesses. -/
def keyboardInterHandler (cur : Fin 3) (input : UInt8) (kb : Keyboard) : Traced Console Access :=
  seq [specialKeys kb input, keyPress (kb.modifiers input) cur input]

/-! ## `terminal_write` -/

/-- `newline_tracker = 0`, on terminal `t`. -/
def zeroTracker (t : Fin 3) (c : Console) : Console :=
  c.setTerm t fun term => { term with newlineTracker := 0 }

/-- The three parts of the loop body: the test for a newline, the character, the line break. -/
def writeNewline (cur : Fin 3) (ch : UInt8) : Traced Console Access :=
  cond (fun c => ch = newLine ∧ (c.termArr cur).visible = 1)
    (seq [lift (·.newlineCheckUser), vertScrollUser, lift fun c => zeroTracker c.currTerminal c])
    (if ch = newLine then seq [lift (·.newlineCheck cur), vertScroll cur, lift (zeroTracker cur)] else skip)

def writePut (cur : Fin 3) (ch : UInt8) : Traced Console Access :=
  cond (fun c => (c.termArr cur).visible = 0) (putc cur ch) (putcUser ch)

def writeBreak (cur : Fin 3) : Traced Console Access :=
  cond (fun c => s8 (c.termArr cur).newlineTracker ≥ numCols)
    (cond (fun c => (c.termArr cur).visible = 0)
      (seq [lift (·.enter cur), vertScroll cur, lift (zeroTracker cur)])
      (seq [lift (·.enterUser), vertScrollUser, lift fun c => zeroTracker c.currTerminal c]))
    skip

def writeChar (cur : Fin 3) (ch : UInt8) : Traced Console Access :=
  seq [writeNewline cur ch, writePut cur ch, lift (·.updateCursor),
    lift fun c => c.setTerm cur fun term =>
      { term with newlineTracker := (term.newlineTracker + 1) % 256 },
    writeBreak cur]

def writeByte (cur : Fin 3) (ch : UInt8) : Traced Console Access :=
  if ch ≠ 0 then writeChar cur ch else skip

/-- **`terminalWrite`**, with its accesses. -/
def terminalWrite (cur : Fin 3) (buf : List UInt8) : Traced Console Access :=
  seq [lift (·.loadCursor cur),
    lift fun c => c.setTerm cur fun term => { term with newlineTracker := 0, enterFlag := 0 },
    each buf (writeByte cur), lift (·.saveCursor cur)]

/-! ## The same consoles -/

section State

variable (c : Console)

theorem storeKey_index (i : Int) (v : UInt8) : (c.storeKey i v).keyBufferIndex = c.keyBufferIndex := by
  unfold Console.storeKey
  split
  · rfl
  · rfl

theorem state_pushKey (v : UInt8) : (pushKey v).state c = c.pushKey v := by
  show { c.storeKey c.keyBufferIndex v with
    keyBufferIndex := (c.storeKey c.keyBufferIndex v).keyBufferIndex + 1 } = c.pushKey v
  rw [storeKey_index]
  rfl

theorem state_dropKey : dropKey.state c =
    { c.storeKey c.keyBufferIndex 0 with keyBufferIndex := c.keyBufferIndex - 1 } := by
  show { c.storeKey c.keyBufferIndex 0 with
    keyBufferIndex := (c.storeKey c.keyBufferIndex 0).keyBufferIndex - 1 } = _
  rw [storeKey_index]

theorem state_keyPressEnd : keyPressEnd.state c = c.keyPressEnd := by
  unfold Console.keyPressEnd
  simp only [keyPressEnd, storeKey, state_seq_cons, state_seq_nil, state_cond, state_lift, state_access,
    state_skip]

theorem state_wrapLine (cur : Fin 3) : (wrapLine cur).state c = c.wrapLine cur := by
  simp only [wrapLine, vertScroll, state_seq_cons, state_seq_nil, state_lift, state_access, state_pushKey]
  rfl

theorem state_typeChar (cur : Fin 3) (ch : UInt8) : (typeChar cur ch).state c = c.typeChar cur ch := by
  unfold Console.typeChar
  simp only [typeChar, putcUser, state_seq_cons, state_seq_nil, state_cond, state_skip, state_lift,
    state_access, state_wrapLine, state_pushKey, state_keyPressEnd]

theorem state_keyPress (kb : Keyboard) (cur : Fin 3) (key : UInt8) :
    (keyPress kb cur key).state c = c.keyPress kb cur key := by
  unfold keyPress Console.keyPress
  dsimp only
  split
  · rfl
  rw [state_cond, state_keyPressEnd]
  split
  · by_cases hch : kb.keyValue key = 0
    · rw [if_pos hch, if_pos hch, state_skip]
    rw [if_neg hch, if_neg hch]
    by_cases hl : kb.ctrlPressed = true ∧ isL (kb.keyValue key) = true
    · rw [if_pos hl, if_pos hl]
      rfl
    rw [if_neg hl, if_neg hl]
    by_cases hc : kb.ctrlPressed = true ∧ isC (kb.keyValue key) = true
    · rw [if_pos hc, if_pos hc, state_skip]
    · rw [if_neg hc, if_neg hc, state_typeChar]
  · rfl

theorem state_backspaceCase : backspaceCase.state c = c.backspaceCase := by
  unfold Console.backspaceCase
  simp only [backspaceCase, backspace, state_seq_cons, state_seq_nil, state_cond, state_lift, state_access,
    state_skip, state_dropKey]

theorem state_enterCase : enterCase.state c = c.enterCase := by
  simp only [enterCase, vertScrollUser, state_seq_cons, state_seq_nil, state_lift, state_access,
    state_pushKey]
  rfl

theorem state_specialKeys (kb : Keyboard) (input : UInt8) :
    (specialKeys kb input).state c = c.specialKeys kb input := by
  unfold specialKeys Console.specialKeys
  cases switchKey input with
  | some t =>
      dsimp only
      split
      · rfl
      · rfl
  | none =>
      dsimp only
      split
      · exact state_backspaceCase c
      split
      · exact state_enterCase c
      · rfl

/-- **The handler with its accesses is the handler.** -/
theorem state_keyboardInterHandler (cur : Fin 3) (input : UInt8) (kb : Keyboard) :
    (keyboardInterHandler cur input kb).state c = (Ece391.keyboardInterHandler cur input kb c).2 := by
  unfold keyboardInterHandler Ece391.keyboardInterHandler
  rw [state_seq_cons, state_seq_cons, state_seq_nil, state_specialKeys, state_keyPress]

theorem state_writeNewline (cur : Fin 3) (ch : UInt8) :
    (writeNewline cur ch).state c =
      if ch = newLine ∧ (c.termArr cur).visible = 1 then
        c.newlineCheckUser.vertScrollUser.setTerm c.newlineCheckUser.vertScrollUser.currTerminal
          fun term => { term with newlineTracker := 0 }
      else if ch = newLine then
        ((c.newlineCheck cur).vertScroll cur).setTerm cur fun term => { term with newlineTracker := 0 }
      else c := by
  rw [writeNewline, state_cond]
  by_cases hnl : ch = newLine
  · rw [if_pos hnl, if_pos hnl]
    rfl
  · rw [if_neg hnl, if_neg hnl]
    rfl

theorem state_writePut (cur : Fin 3) (ch : UInt8) :
    (writePut cur ch).state c =
      if (c.termArr cur).visible = 0 then c.putc cur ch else c.putcUser ch := rfl

theorem state_writeBreak (cur : Fin 3) :
    (writeBreak cur).state c =
      if s8 (c.termArr cur).newlineTracker ≥ numCols then
        if (c.termArr cur).visible = 0 then
          ((c.enter cur).vertScroll cur).setTerm cur fun term => { term with newlineTracker := 0 }
        else
          c.enterUser.vertScrollUser.setTerm c.enterUser.vertScrollUser.currTerminal
            fun term => { term with newlineTracker := 0 }
      else c := rfl

theorem state_writeChar (cur : Fin 3) (ch : UInt8) :
    (writeChar cur ch).state c = Console.writeChar cur c ch := by
  simp only [writeChar, state_seq_cons, state_seq_nil, state_lift, state_writeNewline, state_writePut,
    state_writeBreak, Console.writeChar]

/-- **The write with its accesses is the write.** -/
theorem state_terminalWrite (cur : Fin 3) (buf : List UInt8) :
    (terminalWrite cur buf).state c = (c.terminalWrite cur buf).1 := by
  have hbyte : (fun c ch => (writeByte cur ch).state c) = Console.writeByte cur := by
    funext c ch
    unfold writeByte Console.writeByte
    split
    · exact state_writeChar c cur ch
    · rfl
  unfold terminalWrite Console.terminalWrite
  rw [state_seq_cons, state_seq_cons, state_seq_cons, state_seq_cons, state_seq_nil, state_each, hbyte]
  rfl

end State

/-! ## The cells of the output routines -/

section Cells

variable {t : Fin 3} {c : Console}

/-- With every cursor on its screen, so is the cell of a character. -/
theorem putCells_onScreen (h : Multiplexed c) (t : Fin 3) (ch : UInt8) :
    ∀ a ∈ putCells t ch c, a.OnScreen := by
  intro a ha
  unfold putCells at ha
  split at ha
  · cases ha
  · obtain rfl := List.mem_singleton.mp ha
    obtain ⟨hx, hy⟩ := h.cursor t
    show 0 ≤ cursorCell t c ∧ cursorCell t c < ((numCols * numRows : Nat) : Int)
    unfold cursorCell
    simp only [numCols, numRows] at *
    omega

/-- The cells of `vert_scroll` do not depend on the cursor. -/
theorem scrollCells_onScreen (t : Fin 3) (c : Console) : ∀ a ∈ scrollCells t c, a.OnScreen := by
  intro a ha
  unfold scrollCells at ha
  split at ha
  · obtain ⟨kl, hkl, hmem⟩ := List.mem_flatMap.mp ha
    obtain ⟨h1, hk, hl⟩ := mem_scrollOrder hkl
    rcases List.mem_cons.mp hmem with rfl | hmem
    · show 0 ≤ ((numCols * kl.1 + kl.2 : Nat) : Int) ∧ ((numCols * kl.1 + kl.2 : Nat) : Int) <
        ((numCols * numRows : Nat) : Int)
      simp only [numCols, numRows] at *
      omega
    · obtain rfl := List.mem_singleton.mp hmem
      show 0 ≤ ((numCols * (kl.1 - 1) + kl.2 : Nat) : Int) ∧
        ((numCols * (kl.1 - 1) + kl.2 : Nat) : Int) < ((numCols * numRows : Nat) : Int)
      simp only [numCols, numRows] at *
      omega
  · cases ha

theorem safe_putc (t : Fin 3) (ch : UInt8) : Safe Multiplexed Access.OnScreen Multiplexed (putc t ch) :=
  .touch (fun _ h => putCells_onScreen h t ch) fun _ h => (putcAt_acts (t := t) h ch).1.mux

theorem safe_putcUser (ch : UInt8) : Safe Multiplexed Access.OnScreen Multiplexed (putcUser ch) :=
  .touch (fun c h => putCells_onScreen h c.currTerminal ch)
    fun c h => (putcAt_acts (t := c.currTerminal) h ch).1.mux

theorem safe_vertScroll (t : Fin 3) : Safe Multiplexed Access.OnScreen Multiplexed (vertScroll t) :=
  .touch (fun c _ => scrollCells_onScreen t c) fun _ h => (vertScrollAt_acts (t := t) h).1.mux

theorem safe_vertScrollUser : Safe Multiplexed Access.OnScreen Multiplexed vertScrollUser :=
  .touch (fun c _ => scrollCells_onScreen c.currTerminal c)
    fun c h => (vertScrollAt_acts (t := c.currTerminal) h).1.mux

/-- Assignments to fields that the screens do not depend on. -/
theorem multiplexed_tracker (h : Multiplexed c) (t : Fin 3) (g : Nat → Nat) :
    Multiplexed (c.setTerm t fun term => { term with newlineTracker := g term.newlineTracker }) :=
  (tracker_acts (t := t) h g).mux

theorem multiplexed_enterUser (h : Multiplexed c) : Multiplexed c.enterUser :=
  (enterFlag_acts (t := c.currTerminal) (enterAt_acts (t := c.currTerminal) h).1.mux 1).mux

theorem safe_writeChar (cur : Fin 3) (ch : UInt8) :
    Safe Multiplexed Access.OnScreen Multiplexed (writeChar cur ch) := by
  have hzero : ∀ t, Safe Multiplexed Access.OnScreen Multiplexed (lift (zeroTracker t)) := fun t =>
    .lift fun _ h => multiplexed_tracker h t fun _ => 0
  have hzeroUser : Safe Multiplexed Access.OnScreen Multiplexed
      (lift fun c => zeroTracker c.currTerminal c) := .lift fun c h =>
    multiplexed_tracker h c.currTerminal fun _ => 0
  have hnewline : Safe Multiplexed Access.OnScreen Multiplexed (writeNewline cur ch) := by
    refine .cond (Safe.mono (.cons (.lift fun c h => ?_) (.cons safe_vertScrollUser
      (.cons hzeroUser (.nil fun _ h => h)))) (fun _ h => h.1) fun _ h => h) ?_
    · exact (newlineCheckAt_acts (t := c.currTerminal) h).1.mux
    · split
      · exact Safe.mono (.cons (.lift fun c h => (newlineCheckAt_acts (t := cur) h).1.mux)
          (.cons (safe_vertScroll cur) (.cons (hzero cur) (.nil fun _ h => h)))) (fun _ h => h.1)
          fun _ h => h
      · exact Safe.skip.mono (fun _ h => h.1) fun _ h => h
  have hput : Safe Multiplexed Access.OnScreen Multiplexed (writePut cur ch) :=
    .cond ((safe_putc cur ch).mono (fun _ h => h.1) fun _ h => h)
      ((safe_putcUser ch).mono (fun _ h => h.1) fun _ h => h)
  have hbreak : Safe Multiplexed Access.OnScreen Multiplexed (writeBreak cur) := by
    refine .cond (.cond ?_ ?_) (Safe.skip.mono (fun _ h => h.1) fun _ h => h)
    · exact Safe.mono (.cons (.lift fun _ h => (enterAt_acts (t := cur) h).1.mux)
        (.cons (safe_vertScroll cur) (.cons (hzero cur) (.nil fun _ h => h)))) (fun _ h => h.1.1)
        fun _ h => h
    · exact Safe.mono (.cons (.lift fun _ h => multiplexed_enterUser h)
        (.cons safe_vertScrollUser (.cons hzeroUser (.nil fun _ h => h)))) (fun _ h => h.1.1)
        fun _ h => h
  exact .cons hnewline (.cons hput (.cons (.lift fun _ h => (updateCursor_acts (t := cur) h).mux)
    (.cons (.lift fun _ h => multiplexed_tracker h cur fun n => (n + 1) % 256)
      (.cons hbreak (.nil fun _ h => h)))))

/-- **`terminal_write` accesses cells of the screen only.** -/
theorem terminalWrite_onScreen (h : Multiplexed c) (cur : Fin 3) (buf : List UInt8) :
    ∀ a ∈ (terminalWrite cur buf).log c, a.OnScreen := by
  have hbyte : ∀ ch, Safe Multiplexed Access.OnScreen Multiplexed (writeByte cur ch) := by
    intro ch
    unfold writeByte
    split
    · exact safe_writeChar cur ch
    · exact .skip
  have hsafe : Safe Multiplexed Access.OnScreen (fun _ => True) (terminalWrite cur buf) := by
    refine .cons (.lift fun _ h => (loadCursor_acts (t := cur) h).mux) (.cons (.lift fun c h => ?_)
      (.cons (.each fun ch _ => hbyte ch) (.cons (.lift fun _ _ => trivial) (.nil fun _ h => h))))
    exact (Acts.setTerm (t := cur) h { c.termArr cur with newlineTracker := 0, enterFlag := 0 } rfl rfl
      (h.cursor cur)).mux
  exact (hsafe c h).2

end Cells

end Tracing

/-! ## The accesses of a step -/

/-- `terminal_read` tests `keyBuffer[0]`, copies elements up to the larger of `nbytes` and 127, and clears
127. -/
def readAccesses (nbytes : Nat) : List Access :=
  .keyBuffer 0 :: (Tracing.keys (max nbytes maxInputLength) ++ Tracing.keys maxInputLength)

theorem readAccesses_subset (nbytes : Nat) :
    readAccesses nbytes ⊆ Tracing.keys (max nbytes maxInputLength) := by
  intro a ha
  rcases List.mem_cons.mp ha with rfl | ha
  · exact Tracing.mem_keys.mpr ⟨0, Nat.lt_of_lt_of_le (by decide) (Nat.le_max_right ..), rfl⟩
  · rcases List.mem_append.mp ha with ha | ha
    · exact ha
    · obtain ⟨k, hk, rfl⟩ := Tracing.mem_keys.mp ha
      exact Tracing.mem_keys.mpr ⟨k, Nat.lt_of_lt_of_le hk (Nat.le_max_right ..), rfl⟩

/-- **`accesses s e`** — the elements a step of a desk accesses. -/
def accesses (s : Desk) : DeskEvent → List Access
  | .tick _ => []
  | .terminalWrite buf => (Tracing.terminalWrite s.k.proc.currProcess buf).log s.k.con
  | .terminalRead nbytes => readAccesses nbytes
  | .key input => (Tracing.keyboardInterHandler s.k.proc.currProcess input s.kb).log s.k.con

end Ece391
