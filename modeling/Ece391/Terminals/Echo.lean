/-
# Ece391.Terminals.Echo — a character typed and erased again.

`putc_user` moves the cursor right by arithmetic modulo 80, `backspace` moves it left by cases on the
column and the row.  They are inverse to each other in every column but the last: there the echo goes
back to column 0 of the SAME row, and a backspace from column 0 goes to the row above.  In the line
buffer a backspace takes two characters at once if it finds a newline behind the one typed, and it takes
none if the index was -1.
-/
import Ece391.Terminals.Isolation
import Ece391.Terminals.LineBuffer
import Ece391.Terminals.Layout

open Ece391.Lib

namespace Ece391

/-! ## The two keys, on the whole console -/

/-- An output routine, as a change of the screens. -/
theorem Acts.logical_eq {t : Fin 3} {f : Screen → Screen} {c c' : Console}
    (h : Acts t (fun st => (f st.1, st.2)) c c') :
    c'.logical = Function.update c.logical t (f (c.logical t)) := by
  funext u
  by_cases hu : u = t
  · subst hu
    rw [Function.update_self]
    exact congrArg Prod.fst h.own
  · rw [Function.update_of_ne hu, h.others u hu]

/-- A key that writes its character. -/
theorem handler_writes (cur : Fin 3) {input : UInt8} {kb : Keyboard} {c : Console}
    (hw : kb.Writes input) (hroom : c.keyBufferIndex < 126) :
    (keyboardInterHandler cur input kb c).2 = c.typeChar cur (kb.typed input) := by
  obtain ⟨hch, hctrl⟩ := hw
  have hl : ¬ (kb.ctrlPressed = true ∧ isL (kb.typed input) = true) := fun h =>
    hctrl ⟨h.1, Or.inl h.2⟩
  have hc : ¬ (kb.ctrlPressed = true ∧ isC (kb.typed input) = true) := fun h =>
    hctrl ⟨h.1, Or.inr h.2⟩
  rw [handler_of_typed hch, if_pos hroom, if_neg hl, if_neg hc]

/-- The backspace key. -/
theorem handler_backspace (cur : Fin 3) (kb : Keyboard) {c : Console} (h : c.keyBufferIndex ≤ 126) :
    (keyboardInterHandler cur backspaceKey kb c).2 = c.backspaceCase := by
  have hspecial : c.specialKeys kb backspaceKey = c.backspaceCase := rfl
  have hindex : c.backspaceCase.keyBufferIndex = c.input.backspace.keyBufferIndex :=
    congrArg Input.keyBufferIndex Console.input_backspaceCase
  have hlt : c.input.backspace.keyBufferIndex < 126 := by
    have hinput : c.input.keyBufferIndex ≤ 126 := h
    unfold Input.backspace
    split
    · split
      · show c.input.keyBufferIndex - 1 - 1 < 126
        omega
      · show c.input.keyBufferIndex - 1 < 126
        omega
    · omega
  unfold keyboardInterHandler
  dsimp only
  rw [hspecial, keyPress_of_untyped cur (typed_of_special _ (by decide)) (by omega)]

section Keys

variable {c : Console}

/-- **A character typed on its line**: its echo and its place in the buffer. -/
theorem typeChar_unwrapped (h : c.Sound) (cur : Fin 3) (ch : UInt8) (hroom : c.keyBufferIndex < 126)
    (hwrap : ¬ c.Wraps) :
    (c.typeChar cur ch).Sound ∧ (c.typeChar cur ch).currTerminal = c.currTerminal ∧
    (c.typeChar cur ch).logical =
      Function.update c.logical c.currTerminal ((c.logical c.currTerminal).put ch) ∧
    (c.typeChar cur ch).keyBufferIndex = c.keyBufferIndex + 1 ∧
    (0 ≤ c.keyBufferIndex →
      (c.typeChar cur ch).keyBuffer = Function.update c.keyBuffer c.keyBufferIndex.toNat ch) := by
  have hput := putcUser_touches h ch
  have hlogical := Acts.logical_eq (f := (·.put ch)) (putcAt_acts (t := c.currTerminal) h.mux ch).1
  have hpush := hput.trans (.pushKey hput.sound ch)
  have hall := hpush.trans (.keyPressEnd hpush.sound)
  have hkeys : KeysOf c (c.putcUser ch) := (Draws.putcAt c _ ch).keysOf fun _ h => h
  have hindex : ((c.putcUser ch).pushKey ch).keyBufferIndex = c.keyBufferIndex + 1 := by
    show (c.putcUser ch).keyBufferIndex + 1 = _
    rw [hkeys.keyBufferIndex]
  have hend : ¬ ((c.putcUser ch).pushKey ch).keyBufferIndex = ((keyBufferSize - 1 : Nat) : Int) := by
    rw [hindex]
    unfold keyBufferSize
    omega
  rw [Console.typeChar, if_neg hwrap]
  refine ⟨hall.sound, hall.currTerminal, ?_, ?_, fun h0 => ?_⟩
  · rw [keyPressEnd_logical, pushKey_logical]
    exact hlogical
  · rw [Console.keyPressEnd, if_neg hend]
    exact hindex
  · rw [Console.keyPressEnd, if_neg hend]
    show ((c.putcUser ch).pushKey ch).keyBuffer = _
    rw [Console.pushKey, Console.storeKey, hkeys.keyBufferIndex, if_pos h0, ← hkeys.keyBuffer]

/-- **A backspace over a character**: its cell, and the one or two places it takes in the buffer. -/
theorem backspaceCase_effect (h : c.Sound) (hpos : 0 < c.keyBufferIndex) :
    c.backspaceCase.logical =
      Function.update c.logical c.currTerminal (c.logical c.currTerminal).backspace ∧
    c.backspaceCase.keyBufferIndex = c.keyBufferIndex -
      (if c.keyBuffer c.keyBufferIndex.toNat = newLine then 2 else 1) := by
  have hdrop : ∀ c : Console, ({ c.storeKey c.keyBufferIndex 0 with
      keyBufferIndex := c.keyBufferIndex - 1 } : Console).logical = c.logical := by
    intro c
    unfold Console.storeKey
    split <;> rfl
  constructor
  · -- `backspace` comes after the newline is out of the buffer, if there is one
    have hback : ∀ c' : Console, Touches c.currTerminal c c' → c'.logical = c.logical →
        c'.backspace.logical =
          Function.update c.logical c.currTerminal (c.logical c.currTerminal).backspace := by
      intro c' htouch hsame
      have hacts := Acts.logical_eq (f := Screen.backspace) (backspace_acts htouch.sound.mux).1
      rwa [htouch.currTerminal, hsame] at hacts
    unfold Console.backspaceCase
    dsimp only
    rw [if_pos hpos]
    split
    · have hstore := Touches.storeKey (t := c.currTerminal) h c.keyBufferIndex 0
      have hindex : Touches c.currTerminal (c.storeKey c.keyBufferIndex 0)
          { c.storeKey c.keyBufferIndex 0 with keyBufferIndex := c.keyBufferIndex - 1 } :=
        .of_same hstore.sound rfl rfl rfl rfl rfl ⟨rfl, rfl⟩
      exact (hdrop _).trans (hback _ (hstore.trans hindex) (hdrop c))
    · exact (hdrop _).trans (hback c (.refl h) rfl)
  · have hindex := congrArg Input.keyBufferIndex (Console.input_backspaceCase (c := c))
    have hinput : 0 < c.input.keyBufferIndex := hpos
    rw [Input.backspace, if_pos hinput] at hindex
    split
    next hnl =>
      have hnl' : c.input.keyBuffer c.input.keyBufferIndex.toNat = newLine := hnl
      rw [if_pos hnl'] at hindex
      exact hindex.trans (Int.sub_sub ..)
    next hnl =>
      have hnl' : ¬ c.input.keyBuffer c.input.keyBufferIndex.toNat = newLine := hnl
      rw [if_neg hnl'] at hindex
      exact hindex

end Keys

/-! ## On the screen -/

/-- Before the last column, erasing the echo leaves a NUL in its cell and the cursor where it was. -/
theorem put_backspace {s : Screen} {ch : UInt8} (hnl : ch ≠ newLine) (hcr : ch ≠ carriageReturn)
    (hx : s.x < numCols - 1) :
    (s.put ch).backspace.x = s.x ∧ (s.put ch).backspace.y = s.y ∧
    ∀ i, (s.put ch).backspace.cell i =
      if i = 2 * (numCols * s.y + s.x) then 0
      else if i = 2 * (numCols * s.y + s.x) + 1 then attrib
      else s.cell i := by
  obtain ⟨hputx, hputy⟩ := Screen.put_cursor (s := s) hnl hcr
  have hcolumn : (s.x + 1) % numCols = s.x + 1 := Nat.mod_eq_of_lt (by omega)
  rw [hcolumn] at hputx
  have hback : backCursor (s.put ch).x (s.put ch).y = (s.x, s.y) := by
    rw [hputx, hputy, backCursor, if_neg (by omega), if_pos (by omega), Nat.add_sub_cancel]
  refine ⟨congrArg Prod.fst hback, congrArg Prod.snd hback, fun i => ?_⟩
  show ((s.put ch).eraseBefore (numCols * (s.put ch).y + (s.put ch).x)).cell i = _
  have hcell : 2 * (numCols * s.y + (s.x + 1)) - 2 = 2 * (numCols * s.y + s.x) := by omega
  rw [hputx, hputy, Screen.eraseBefore, if_neg (by omega), hcell, Screen.set_cell,
    Screen.put_cell hnl hcr]
  by_cases hchar : i = 2 * (numCols * s.y + s.x)
  · rw [if_pos hchar, if_pos hchar]
  · rw [if_neg hchar, if_neg hchar, if_neg hchar]

/-- In the last column it leaves the row, or the corner. -/
theorem put_backspace_end {s : Screen} {ch : UInt8} (hnl : ch ≠ newLine) (hcr : ch ≠ carriageReturn)
    (hx : s.x = numCols - 1) :
    ¬ ((s.put ch).backspace.x = s.x ∧ (s.put ch).backspace.y = s.y) := by
  obtain ⟨hputx, hputy⟩ := Screen.put_cursor (s := s) hnl hcr
  have hcolumn : (s.x + 1) % numCols = 0 := by
    rw [hx]
    rfl
  rw [hcolumn] at hputx
  rintro ⟨hbx, hby⟩
  have hback : backCursor 0 s.y = (s.x, s.y) := by
    rw [← hputx, ← hputy]
    exact Prod.ext hbx (hby.trans hputy.symm)
  unfold backCursor at hback
  by_cases hrow : s.y = 0
  · rw [if_neg (by omega), if_neg (by omega)] at hback
    have hzero : 0 = s.x := congrArg Prod.fst hback
    rw [hx] at hzero
    exact absurd hzero (by decide)
  · rw [if_pos ⟨rfl, hrow⟩] at hback
    have hup : s.y - 1 = s.y := congrArg Prod.snd hback
    omega

/-! ## Typing and erasing -/

/-- A key and then a backspace, while processes of the terminals `cur` and `cur'` run. -/
def typeAndErase (cur cur' : Fin 3) (input : UInt8) (kb : Keyboard) (c : Console) : Console :=
  let r := keyboardInterHandler cur input kb c
  (keyboardInterHandler cur' backspaceKey r.1 r.2).2

/-- **`Undone c c'`** — the cursor of the displayed terminal and the index of the line buffer are the
same, and so is every cell of the screen but the one at the cursor, which is blank. -/
structure Undone (c c' : Console) : Prop where
  x : (c'.logical c.currTerminal).x = (c.logical c.currTerminal).x
  y : (c'.logical c.currTerminal).y = (c.logical c.currTerminal).y
  index : c'.keyBufferIndex = c.keyBufferIndex
  cells : ∀ p ≠ numCols * (c.logical c.currTerminal).y + (c.logical c.currTerminal).x,
    (c.logical c.currTerminal).SameCell (c'.logical c.currTerminal) p
  echo : (c'.logical c.currTerminal).char
      (numCols * (c.logical c.currTerminal).y + (c.logical c.currTerminal).x) ∈ [0, space]

/-- The cursor is before the last column, the index is in the buffer, and no newline is behind the
place of the character. -/
def Erasable (c : Console) : Prop :=
  (c.logical c.currTerminal).x < numCols - 1 ∧ 0 ≤ c.keyBufferIndex ∧
  c.keyBuffer (c.keyBufferIndex + 1).toNat ≠ newLine

section Undo

variable {c : Console} {kb : Keyboard} {input : UInt8}

/-- **Typing and erasing, in a sound console.** -/
theorem undone_iff (h : c.Sound) (hw : kb.Writes input) (hroom : c.keyBufferIndex < 126)
    (hwrap : ¬ c.Wraps) (cur cur' : Fin 3) :
    Undone c (typeAndErase cur cur' input kb c) ↔ Erasable c := by
  have hnl := typed_ne_newLine kb input
  have hcr := typed_ne_carriageReturn kb input
  obtain ⟨hsound, hcurr, hlogical, hindex, hbuffer⟩ :=
    typeChar_unwrapped h cur (kb.typed input) hroom hwrap
  have hlast : typeAndErase cur cur' input kb c = (c.typeChar cur (kb.typed input)).backspaceCase := by
    unfold typeAndErase
    dsimp only
    rw [handler_writes cur hw hroom, handler_backspace cur' _ (by omega)]
  rw [hlast]
  generalize c.typeChar cur (kb.typed input) = c1 at hsound hcurr hlogical hindex hbuffer
  by_cases h0 : 0 ≤ c.keyBufferIndex
  · obtain ⟨hscreens, hback⟩ := backspaceCase_effect hsound (by omega)
    have hself : c.keyBuffer (c.keyBufferIndex + 1).toNat = c1.keyBuffer c1.keyBufferIndex.toNat := by
      rw [hindex, hbuffer h0, Function.update_of_ne (by omega)]
    have hscreen : c1.backspaceCase.logical c.currTerminal =
        ((c.logical c.currTerminal).put (kb.typed input)).backspace := by
      rw [hscreens, hcurr, Function.update_self, hlogical, Function.update_self]
    constructor
    · intro hundone
      refine ⟨?_, h0, fun hnewline => ?_⟩
      · by_contra hcolumn
        have hlt : (c.logical c.currTerminal).x < numCols := (h.mux.cursor c.currTerminal).1
        apply put_backspace_end hnl hcr (show (c.logical c.currTerminal).x = numCols - 1 by omega)
        rw [← hscreen]
        exact ⟨hundone.x, hundone.y⟩
      · have hsame := hundone.index
        rw [hback, if_pos (hself ▸ hnewline)] at hsame
        omega
    · rintro ⟨hcolumn, -, hnewline⟩
      obtain ⟨hx, hy, hcells⟩ := put_backspace hnl hcr hcolumn
      refine ⟨?_, ?_, ?_, fun p hp => ?_, ?_⟩
      · rw [hscreen, hx]
      · rw [hscreen, hy]
      · rw [hback, if_neg (hself ▸ hnewline)]
        omega
      · rw [hscreen]
        constructor
        · rw [hcells, if_neg (by omega), if_neg (by omega)]
        · rw [hcells, if_neg (by omega), if_neg (by omega)]
      · rw [hscreen, Screen.char, hcells, if_pos rfl]
        decide
  · -- from index -1 the character is stored nowhere and there is nothing to erase
    refine ⟨fun hundone => ?_, fun herasable => absurd herasable.2.1 h0⟩
    have hsame := hundone.index
    have hkept : c1.backspaceCase.keyBufferIndex = c1.keyBufferIndex := by
      have hinput := congrArg Input.keyBufferIndex (Console.input_backspaceCase (c := c1))
      have hnone : ¬ 0 < c1.input.keyBufferIndex := by
        show ¬ 0 < c1.keyBufferIndex
        omega
      rw [Input.backspace, if_neg hnone] at hinput
      exact hinput
    omega

end Undo

/-- **When typing a character and erasing it is the identity.**  In every state reached from a sound desk
by ticks, writes, reads and keyboard interrupts, and for every key that writes a character without a wrap:
exactly if the cursor is before the last column, the index is not -1, and no newline is left in the buffer
behind the place of the character. -/
theorem type_then_erase_iff (img : Image) {s s' : Desk} {es : List DeskEvent} (hstart : s.Sound)
    (hrun : Run (DeskStep img) s es s') {input : UInt8} (hw : s'.kb.Writes input)
    (hroom : s'.k.con.keyBufferIndex < 126) (hwrap : ¬ s'.k.con.Wraps) (cur' : Fin 3) :
    Undone s'.k.con (typeAndErase s'.k.proc.currProcess cur' input s'.kb s'.k.con) ↔
      Erasable s'.k.con := by
  have h : s'.Sound := hrun.invariant hstart fun _ _ _ h hs => (h.step hs).1
  exact undone_iff h.1 hw hroom hwrap s'.k.proc.currProcess cur'

theorem keyA_writes : (Keyboard.mk 0 false false).Writes keyA :=
  ⟨by decide, by rintro ⟨h, -⟩; cases h⟩

/-- An `a` typed and erased on the screen of a booted terminal. -/
theorem booted_type_then_erase :
    Undone bootedKernel.con (typeAndErase 0 1 keyA ⟨0, false, false⟩ bootedKernel.con) := by
  have hwrap : ¬ bootedKernel.con.Wraps := fun h => absurd rfl h.1
  have hrun : Run (DeskStep shellImage) bootedDesk [] bootedDesk := rfl
  exact (type_then_erase_iff shellImage bootedDesk_sound hrun keyA_writes (by decide) hwrap 1).mpr
    ⟨by decide, by decide, by decide⟩

/-- After 79 characters of output, an `a` typed into the last column and erased: the cursor does not come
back. -/
theorem last_column_not_undone :
    ∃ s, Run (DeskStep shellImage) bootedDesk [.terminalWrite (List.replicate 79 97)] s ∧
      s.kb.Writes keyA ∧ s.k.con.keyBufferIndex = 0 ∧ (s.k.con.logical 0).x = 79 ∧
      ¬ Undone s.k.con (typeAndErase 0 0 keyA s.kb s.k.con) := by
  obtain ⟨s, hs⟩ : ∃ s, DeskStep shellImage bootedDesk (.terminalWrite (List.replicate 79 97)) s :=
    ⟨_, rfl⟩
  have hsound : s.Sound := (bootedDesk_sound.step hs).1
  obtain ⟨hkb, hcon⟩ := hs.terminalWrite
  have hcon : s.k.con = (bootedKernel.con.terminalWrite 0 (List.replicate 79 97)).1 := hcon
  have hinput := Console.input_terminalWrite bootedKernel_multiplexed 0 (List.replicate 79 97)
  rw [← hcon] at hinput
  have hindex : s.k.con.keyBufferIndex = 0 := congrArg Input.keyBufferIndex hinput
  have hcurr : s.k.con.currTerminal = 0 := congrArg Input.currTerminal hinput
  have hcursor := write_cursor (bootedKernel.con.logical 0) (List.replicate 79 97) (by decide +kernel)
    (by decide) (by decide)
  rw [List.length_replicate] at hcursor
  have hx : (s.k.con.logical 0).x = 79 := by
    rw [hcon, (terminalWrite_logical bootedKernel_multiplexed).1, Screen.write, hcursor.1]
    rfl
  have hwrap : ¬ s.k.con.Wraps := fun h => h.1 hindex
  have hwrites : s.kb.Writes keyA := hkb ▸ keyA_writes
  refine ⟨s, ⟨s, hs, rfl⟩, hwrites, hindex, hx, fun hundone => ?_⟩
  have hcolumn := ((undone_iff hsound.1 hwrites (by rw [hindex]; decide) hwrap 0 0).mp hundone).1
  rw [hcurr, hx] at hcolumn
  exact absurd hcolumn (by decide)

end Ece391
