/-
# Ece391.Terminals.CellBounds — when the cells the output routines compute are on the screen.

The cursors never leave the screen: all three, and the pair of globals, are part of `Desk.Sound`, which
every step keeps.  So every cell computed FROM a cursor exists, and so do those of the scrolling loops.
The one routine that computes the cell BEFORE its cursor is `backspace`, and `case BACKSPACE` asks the line
buffer whether there is something to erase, not the cursor: with characters in the buffer and the cursor of
the displayed terminal in the top left corner, the cell is -1.
-/
import Ece391.Terminals.Accesses
import Ece391.Terminals.Echo

open Ece391.Lib

namespace Ece391

/-! ## The property and the condition -/

/-- The cell is one of the 80 x 25; elements of `keyBuffer` are not asked about. -/
def Access.CellInBounds : Access → Prop
  | .keyBuffer _ => True
  | .cell i => 0 ≤ i ∧ i < ((numCols * numRows : Nat) : Int)

/-- The cursors of the three terminals and the global one. -/
def Desk.CursorsOnScreen (s : Desk) : Prop :=
  (∀ t, (s.k.con.termArr t).screenX < numCols ∧ (s.k.con.termArr t).screenY < numRows) ∧
  s.k.con.screenX < numCols ∧ s.k.con.screenY < numRows

/-- The cursor of the displayed terminal is in the top left corner. -/
def Console.AtCorner (c : Console) : Prop :=
  (c.termArr c.currTerminal).screenX = 0 ∧ (c.termArr c.currTerminal).screenY = 0

/-- **The steps that stay on the screen**: no backspace with the cursor in the corner while the line
buffer has characters. -/
def EraseGuard (s : Desk) : DeskEvent → Prop
  | .key input => input = backspaceKey → 0 < s.k.con.keyBufferIndex → ¬ s.k.con.AtCorner
  | _ => True

theorem Access.OnScreen.cellInBounds {a : Access} (h : a.OnScreen) : a.CellInBounds := by
  cases a with
  | keyBuffer i => trivial
  | cell i => exact h

/-! ## The routines of the keyboard -/

namespace CellBounds

open Traced

variable {c : Console}

/-- The console is multiplexed before and after, and the cells in between are on the screen. -/
def Keeps (p : Traced Console Access) : Prop := Safe Multiplexed Access.CellInBounds Multiplexed p

theorem Keeps.of_onScreen {p : Traced Console Access} (h : Safe Multiplexed Access.OnScreen Multiplexed p) :
    Keeps p := h.weaken fun _ ha => ha.cellInBounds

/-- An assignment to the line buffer. -/
theorem multiplexed_storeKey (h : Multiplexed c) (i : Int) (v : UInt8) : Multiplexed (c.storeKey i v) := by
  unfold Console.storeKey
  split
  · exact h.congr rfl rfl (fun _ => rfl) (fun _ => rfl) h.cursor
  · exact h

theorem multiplexed_updateCursor (h : Multiplexed c) : Multiplexed c.updateCursor :=
  (updateCursor_acts (t := 0) h).mux

theorem keeps_updateCursor : Keeps (lift (·.updateCursor)) := .lift fun _ h => multiplexed_updateCursor h

theorem keeps_storeKey (v : UInt8) : Keeps (Tracing.storeKey v) := by
  refine .touch (fun c _ a ha => ?_) fun c h => multiplexed_storeKey h _ v
  obtain rfl := List.mem_singleton.mp ha
  trivial

theorem keeps_index (g : Int → Int) :
    Keeps (lift fun c => { c with keyBufferIndex := g c.keyBufferIndex }) :=
  .lift fun _ h => h.congr rfl rfl (fun _ => rfl) (fun _ => rfl) h.cursor

theorem keeps_pushKey (v : UInt8) : Keeps (Tracing.pushKey v) :=
  .cons (keeps_storeKey v) (.cons (keeps_index (· + 1)) (.nil fun _ h => h))

theorem keeps_dropKey : Keeps Tracing.dropKey :=
  .cons (keeps_storeKey 0) (.cons (keeps_index (· - 1)) (.nil fun _ h => h))

theorem keeps_keyPressEnd : Keeps Tracing.keyPressEnd :=
  .cons (.cond ((keeps_storeKey newLine).mono (fun _ h => h.1) fun _ h => h)
    (Safe.skip.mono (fun _ h => h.1) fun _ h => h)) (.cons keeps_updateCursor (.nil fun _ h => h))

theorem keeps_wrapLine (cur : Fin 3) : Keeps (Tracing.wrapLine cur) :=
  .cons (keeps_pushKey newLine) (.cons (.lift fun _ h => (enterAt_acts (t := cur) h).1.mux)
    (.cons (Keeps.of_onScreen (Tracing.safe_vertScroll cur)) (.cons keeps_updateCursor (.nil fun _ h => h))))

theorem keeps_typeChar (cur : Fin 3) (ch : UInt8) : Keeps (Tracing.typeChar cur ch) :=
  .cons (.cond ((keeps_wrapLine cur).mono (fun _ h => h.1) fun _ h => h)
      (Safe.skip.mono (fun _ h => h.1) fun _ h => h))
    (.cons (Keeps.of_onScreen (Tracing.safe_putcUser ch))
      (.cons (keeps_pushKey ch) (.cons keeps_keyPressEnd (.nil fun _ h => h))))

theorem keeps_enterCase : Keeps Tracing.enterCase :=
  .cons (.lift fun _ h => Tracing.multiplexed_enterUser h)
    (.cons (Keeps.of_onScreen Tracing.safe_vertScrollUser)
      (.cons (keeps_pushKey newLine) (.cons keeps_updateCursor (.nil fun _ h => h))))

theorem keys_cellInBounds (n : Nat) : ∀ a ∈ Tracing.keys n, a.CellInBounds := by
  intro a ha
  obtain ⟨k, -, rfl⟩ := Tracing.mem_keys.mp ha
  trivial

theorem keeps_terminalSwitch (t : Fin 3) : Keeps (Tracing.terminalSwitch t) :=
  Tracing.safe_terminalSwitch (keys_cellInBounds _) fun _ h => (h.terminalSwitch t).1

/-- `key_press` has nothing to do after Ctrl-L, so what `reset` leaves is not asked about. -/
theorem safe_keyPress (kb : Keyboard) (cur : Fin 3) (key : UInt8) :
    Safe Multiplexed Access.CellInBounds (fun _ => True) (Tracing.keyPress kb cur key) := by
  unfold Tracing.keyPress
  split
  · exact Safe.skip.mono (fun _ h => h) fun _ _ => trivial
  refine .cond ?_ (keeps_keyPressEnd.mono (fun _ h => h.1) fun _ _ => trivial)
  split
  · exact Safe.skip.mono (fun _ h => h) fun _ _ => trivial
  split
  · exact .cons (.lift fun _ _ => trivial) (.cons (.access fun _ _ => keys_cellInBounds _)
      (.cons (.lift fun _ h => h) (.nil fun _ h => h)))
  split
  · exact Safe.skip.mono (fun _ h => h) fun _ _ => trivial
  · exact (keeps_typeChar cur _).mono (fun _ h => h.1) fun _ _ => trivial

/-! ## `backspace` -/

/-- The cell before the cursor is on the screen unless the cursor is in the corner. -/
theorem before_cursor (h : Multiplexed c) :
    Access.CellInBounds (.cell (Tracing.cursorCell c.currTerminal c - 1)) ↔ ¬ c.AtCorner := by
  obtain ⟨hx, hy⟩ := h.cursor c.currTerminal
  show (0 ≤ Tracing.cursorCell c.currTerminal c - 1 ∧
    Tracing.cursorCell c.currTerminal c - 1 < ((numCols * numRows : Nat) : Int)) ↔ _
  unfold Tracing.cursorCell Console.AtCorner
  simp only [numCols, numRows] at *
  omega

theorem dropKey_atCorner : (Tracing.dropKey.state c).AtCorner ↔ c.AtCorner := by
  rw [Tracing.state_dropKey]
  unfold Console.storeKey
  split
  · rfl
  · rfl

/-- `case BACKSPACE`, outside the corner. -/
theorem safe_backspaceCase :
    Safe (fun c => Multiplexed c ∧ (0 < c.keyBufferIndex → ¬ c.AtCorner)) Access.CellInBounds Multiplexed
      Tracing.backspaceCase := by
  have herase : Safe (fun c => Multiplexed c ∧ ¬ c.AtCorner) Access.CellInBounds Multiplexed
      (seq [Tracing.backspace, Tracing.dropKey]) := by
    refine .cons (.cons (.access ?_) (.cons (.lift ?_) (.nil fun _ h => h)))
      (.cons keeps_dropKey (.nil fun _ h => h))
    · rintro c ⟨h, hcorner⟩ a ha
      obtain rfl := List.mem_singleton.mp ha
      exact (before_cursor h).mpr hcorner
    · rintro c ⟨h, -⟩
      exact (backspace_acts h).1.mux
  refine .cons (.cond (.cons (Q := fun c => Multiplexed c ∧ ¬ c.AtCorner) ?_ (.cons (.cond ?_ ?_) herase))
    (Safe.skip.mono (fun _ h => h.1.1) fun _ h => h)) (.cons keeps_updateCursor (.nil fun _ h => h))
  · rintro c ⟨⟨h, hcorner⟩, hpos⟩
    refine ⟨⟨h, hcorner hpos⟩, fun a ha => ?_⟩
    obtain rfl := List.mem_singleton.mp ha
    trivial
  · rintro c ⟨⟨h, hcorner⟩, -⟩
    obtain ⟨hmux, hlog⟩ := keeps_dropKey c h
    exact ⟨⟨hmux, fun hback => hcorner (dropKey_atCorner.mp hback)⟩, hlog⟩
  · exact Safe.skip.mono (fun _ h => h.1) fun _ h => h

/-- **`case BACKSPACE` in the corner** computes the cell before the screen. -/
theorem backspaceCase_leaves_screen (hpos : 0 < c.keyBufferIndex) (hcorner : c.AtCorner) :
    Access.cell (-1) ∈ Tracing.backspaceCase.log c := by
  -- a newline dropped before does not move the cursor
  have hcell : ∀ c' : Console, c'.AtCorner → Tracing.cursorCell c'.currTerminal c' - 1 = -1 := by
    rintro c' ⟨hx, hy⟩
    simp only [Tracing.cursorCell, hx, hy]
    rfl
  have hback : ∀ c' : Console, c'.AtCorner →
      Access.cell (-1) ∈ (seq [Tracing.backspace, Tracing.dropKey]).log c' := by
    intro c' hc'
    refine List.mem_append_left _ (List.mem_append_left _ ?_)
    show Access.cell (-1) ∈ [Access.cell (Tracing.cursorCell c'.currTerminal c' - 1)]
    rw [hcell c' hc']
    exact List.mem_singleton_self _
  refine List.mem_append_left _ ?_
  rw [log_cond, if_pos hpos]
  refine List.mem_append_right _ (List.mem_append_right _ (hback _ ?_))
  rw [state_cond]
  split
  · exact dropKey_atCorner.mpr hcorner
  · exact hcorner

end CellBounds

/-! ## One keyboard interrupt -/

/-- **The cells of a keyboard interrupt.** -/
theorem handler_cells_iff {c : Console} (h : Multiplexed c) (cur : Fin 3) (input : UInt8) (kb : Keyboard) :
    (∀ a ∈ (Tracing.keyboardInterHandler cur input kb).log c, a.CellInBounds) ↔
      (input = backspaceKey → 0 < c.keyBufferIndex → ¬ c.AtCorner) := by
  constructor
  · rintro hlog rfl hpos hcorner
    have hmem := CellBounds.backspaceCase_leaves_screen hpos hcorner
    have hbad := hlog _ (List.mem_append_left _ hmem)
    exact absurd hbad.1 (by decide)
  · intro hguard
    suffices hspecial : Traced.Safe (· = c) Access.CellInBounds Multiplexed (Tracing.specialKeys kb input) by
      have hpress := CellBounds.safe_keyPress (kb.modifiers input) cur input
      exact (Traced.Safe.cons hspecial (.cons hpress (.nil (Q := fun _ => True) fun _ h => h)) c rfl).2
    have hat : ∀ c', c' = c → Multiplexed c' := fun c' heq => heq ▸ h
    unfold Tracing.specialKeys
    cases switchKey input with
    | some t =>
        dsimp only
        split
        · exact (CellBounds.keeps_terminalSwitch t).mono hat fun _ h => h
        · exact Traced.Safe.skip.mono hat fun _ h => h
    | none =>
        dsimp only
        split
        next hback =>
          refine CellBounds.safe_backspaceCase.mono (fun c' heq => ?_) fun _ h => h
          rw [heq]
          exact ⟨h, hguard hback⟩
        next =>
          split
          · exact CellBounds.keeps_enterCase.mono hat fun _ h => h
          · exact Traced.Safe.skip.mono hat fun _ h => h

/-! ## Runs -/

theorem Desk.Sound.cursorsOnScreen {s : Desk} (h : s.Sound) : s.CursorsOnScreen :=
  ⟨h.1.mux.cursor, h.1.cursor⟩

/-- **The step lemma.** -/
theorem Desk.Sound.cellStep_iff {s : Desk} {e : DeskEvent} (h : s.Sound) :
    (∀ a ∈ accesses s e, a.CellInBounds) ↔ EraseGuard s e := by
  cases e with
  | tick fr => exact iff_of_true (fun a ha => by cases ha) trivial
  | terminalWrite buf =>
      refine iff_of_true (fun a ha => ?_) trivial
      exact (Tracing.terminalWrite_onScreen h.1.mux s.k.proc.currProcess buf a ha).cellInBounds
  | terminalRead nbytes =>
      refine iff_of_true (fun a ha => ?_) trivial
      exact CellBounds.keys_cellInBounds _ a (readAccesses_subset nbytes ha)
  | key input => exact handler_cells_iff h.1.mux s.k.proc.currProcess input s.kb

/-- **When the console stays on the screen.**  For every run of ticks, writes, reads and keyboard
interrupts from a sound desk: all cursors stay within 80 x 25 and every cell computed is one of the 2000,
if and only if no backspace is served with the cursor of the displayed terminal in the top left corner and
characters in the line buffer. -/
theorem cells_on_screen_iff (img : Image) {s : Desk} {es : List DeskEvent} (hstart : s.Sound) :
    (AllStates (DeskStep img) Desk.CursorsOnScreen s es ∧
      AllSteps (DeskStep img) (fun m e => ∀ a ∈ accesses m e, a.CellInBounds) s es) ↔
    AllSteps (DeskStep img) EraseGuard s es := by
  refine allStates_and_allSteps_iff (I := Desk.Sound)
    (fun _ _ _ h _ _ _ hs _ => (h.step hs).1) (fun m e h _ _ => ?_) hstart hstart.cursorsOnScreen allSteps_true
  have hnext : ∀ m', DeskStep img m e m' → m'.CursorsOnScreen := fun m' hs => (h.step hs).1.cursorsOnScreen
  rw [and_iff_left hnext]
  exact h.cellStep_iff

/-- An `a` typed on a booted desk. -/
theorem DeskStep.booted_keyA {img : Image} {s : Desk} (hs : DeskStep img bootedDesk (.key keyA) s) :
    s.k.con.currTerminal = 0 ∧ s.k.con.keyBufferIndex = 1 ∧
    s.k.con.logical = Function.update bootedKernel.con.logical 0 ((bootedKernel.con.logical 0).put 97) := by
  obtain ⟨-, hcurr, hlogical, hindex, -⟩ := typeChar_unwrapped (c := bootedKernel.con)
    bootedDesk_sound.1 0 97 (by decide) fun hwrap => absurd rfl hwrap.1
  have hcon : s.k.con = bootedKernel.con.typeChar 0 97 := by
    rw [hs.key.2]
    exact handler_writes 0 keyA_writes (by decide)
  rw [hcon]
  exact ⟨hcurr, hindex, hlogical⟩

/-- A character typed and erased, after boot. -/
theorem booted_cells_on_screen :
    AllStates (DeskStep shellImage) Desk.CursorsOnScreen bootedDesk [.key keyA, .key backspaceKey] ∧
    AllSteps (DeskStep shellImage) (fun m e => ∀ a ∈ accesses m e, a.CellInBounds) bootedDesk
      [.key keyA, .key backspaceKey] := by
  refine (cells_on_screen_iff shellImage bootedDesk_sound).mpr ?_
  refine .cons (fun hback => absurd hback (by decide)) fun m hm =>
    .cons (fun _ _ hcorner => ?_) fun _ _ => allSteps_nil
  -- the echo of the `a` is in column 0, and the cursor behind it
  obtain ⟨hcurr, -, hlogical⟩ := hm.booted_keyA
  have hx : (m.k.con.logical m.k.con.currTerminal).x = 0 := hcorner.1
  rw [hcurr, hlogical, Function.update_self] at hx
  exact absurd hx (by decide)

/-- An `a` typed on terminal 0, Alt-F2, and a backspace: it is served on the blank screen of terminal 1. -/
theorem erase_after_switch_off_screen :
    ¬ AllSteps (DeskStep shellImage) (fun m e => ∀ a ∈ accesses m e, a.CellInBounds) bootedDesk
      [.key keyA, .key laltPressed, .key f2, .key backspaceKey] := by
  intro hall
  obtain ⟨s1, hs1⟩ : ∃ s1, DeskStep shellImage bootedDesk (.key keyA) s1 := ⟨_, rfl⟩
  obtain ⟨s2, hs2⟩ : ∃ s2, DeskStep shellImage s1 (.key laltPressed) s2 := ⟨_, rfl⟩
  obtain ⟨s3, hs3⟩ : ∃ s3, DeskStep shellImage s2 (.key f2) s3 := ⟨_, rfl⟩
  have hsound1 := (bootedDesk_sound.step hs1).1
  have hsound3 := ((hsound1.step hs2).1.step hs3).1
  have hkb1 : s1.kb = ⟨0, false, false⟩ := by
    rw [hs1]
    rfl
  have hkb2 : s2.kb = ⟨0, false, true⟩ := by
    rw [hs2, hkb1]
    rfl
  obtain ⟨hcurr1, hindex1, hlogical1⟩ := hs1.booted_keyA
  -- Alt has no character, and the switch keeps the index
  have hcon2 : s2.k.con = s1.k.con := by
    rw [hs2.key.2, hkb1]
    have hroom : s1.k.con.keyBufferIndex < 126 := by rw [hindex1]; decide
    exact keyPress_of_untyped _ (show (Keyboard.mk 0 false true).typed laltPressed = 0 by decide) hroom
  have hcon3 : s3.k.con = (s1.k.con.terminalSwitch (1 : Fin 3)).1 := by
    rw [hs3.key.2, hkb2, hcon2]
    rfl
  have hindex3 : s3.k.con.keyBufferIndex = 1 := by
    rw [hcon3, (terminalSwitch_keys s1.k.con (t := 1) (by rw [hcurr1]; decide)).2.1, hindex1]
  have hcurr3 : s3.k.con.currTerminal = 1 := by rw [hcon3, terminalSwitch_currTerminal]
  have hscreen3 : s3.k.con.logical 1 = bootedKernel.con.logical 1 := by
    rw [hcon3, (hsound1.1.mux.terminalSwitch _).2, hlogical1, Function.update_of_ne (by decide)]
  -- so the last step does not meet the condition
  have hlog := hall [.key keyA, .key laltPressed, .key f2] (.key backspaceKey) [] s3 rfl
    ⟨s1, hs1, s2, hs2, s3, hs3, rfl⟩
  refine hsound3.cellStep_iff.mp hlog rfl (by rw [hindex3]; decide) ?_
  unfold Console.AtCorner
  rw [hcurr3]
  exact ⟨congrArg Screen.x hscreen3, congrArg Screen.y hscreen3⟩

end Ece391
