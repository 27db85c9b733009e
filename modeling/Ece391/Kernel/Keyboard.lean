/-
# Ece391.Kernel.Keyboard — `keyboard.c` and the routines of `lib.c` only it calls.

`keyboard_inter_handler` reads a scan code, updates the modifier keys, serves the keys that have no
character (the Alt-Fn switches, backspace, enter) and then hands EVERY scan code to `key_press`, which
ignores those without a character.  Most helpers it uses work on the displayed terminal; the line wrap
of `key_press` calls `enter` and `vert_scroll`, which work on the running one, and `reset` stores
through whatever `video_mem` was left at.

`keyBufferIndex` is signed and can reach -1 (a backspace over a newline in `keyBuffer[1]`).  A store
below the array is outside the model and dropped; no load happens there.
-/
import Ece391.Kernel.Console
import Mathlib.Tactic.SplitIfs

namespace Ece391

/-! ## Scan codes and characters (`keyboard.h`) -/

def keySize : Nat := 59
def spacingSet : Nat := 2
def screenWidth : Nat := 80

def lshiftPressed : UInt8 := 0x2A
def rshiftPressed : UInt8 := 0x36
def lshiftReleased : UInt8 := 0xAA
def rshiftReleased : UInt8 := 0xB6
def capsPressed : UInt8 := 0x3A
def lctrlPressed : UInt8 := 0x1D
def lctrlReleased : UInt8 := 0x9D
def backspaceKey : UInt8 := 0x0E
def enterKey : UInt8 := 0x1C
def laltPressed : UInt8 := 0x38
def laltReleased : UInt8 := 0xB8
def f1 : UInt8 := 0x3B
def f2 : UInt8 := 0x3C
def f3 : UInt8 := 0x3D

/-- The modifier state: `mode` (bit 0 caps, bit 1 shift), `ctrlPressed`, `altPressed`. -/
structure Keyboard where
  mode : BitVec 2
  ctrlPressed : Bool
  altPressed : Bool
  deriving DecidableEq, Repr

/-- The four rows of `keys_map`: regular, caps, shift, caps + shift. -/
def keysMap : List (List UInt8) :=
  [[0, 9, 49, 50, 51, 52, 53, 54, 55, 56, 57, 48, 45, 61, 0,
    0, 113, 119, 101, 114, 116, 121, 117, 105, 111, 112, 91, 93, 0,
    0, 97, 115, 100, 102, 103, 104, 106, 107, 108, 59, 39, 96, 0,
    92, 122, 120, 99, 118, 98, 110, 109, 44, 46, 47,
    0, 42, 0, 32, 0],
   [0, 9, 49, 50, 51, 52, 53, 54, 55, 56, 57, 48, 45, 61, 0,
    0, 81, 87, 69, 82, 84, 89, 85, 73, 79, 80, 91, 93, 0,
    0, 65, 83, 68, 70, 71, 72, 74, 75, 76, 59, 39, 96, 0,
    92, 90, 88, 67, 86, 66, 78, 77, 44, 46, 47,
    0, 42, 0, 32, 0],
   [0, 9, 33, 64, 35, 36, 37, 94, 38, 42, 40, 41, 95, 43, 0,
    0, 81, 87, 69, 82, 84, 89, 85, 73, 79, 80, 123, 125, 0,
    0, 65, 83, 68, 70, 71, 72, 74, 75, 76, 58, 34, 126, 0,
    124, 90, 88, 67, 86, 66, 78, 77, 60, 62, 63,
    0, 42, 0, 32, 0],
   [0, 9, 33, 64, 35, 36, 37, 94, 38, 42, 40, 41, 95, 43, 0,
    0, 113, 119, 101, 114, 116, 121, 117, 105, 111, 112, 123, 125, 0,
    0, 97, 115, 100, 102, 103, 104, 106, 107, 108, 58, 34, 126, 0,
    92, 122, 120, 99, 118, 98, 110, 109, 60, 62, 63,
    0, 42, 0, 32, 0]]

/-- `keys_map[mode][key]`, for a key in range. -/
def Keyboard.keyValue (kb : Keyboard) (key : UInt8) : UInt8 :=
  (keysMap.getD kb.mode.toNat []).getD key.toNat 0

/-- The character is an `l`, of either case. -/
def isL (ch : UInt8) : Bool := ch == 108 || ch == 76
/-- The character is a `c`, of either case. -/
def isC (ch : UInt8) : Bool := ch == 99 || ch == 67

namespace Console

/-! ## The line buffer -/

/-- `keyBuffer[i] = v`. -/
def storeKey (c : Console) (i : Int) (v : UInt8) : Console :=
  if 0 ≤ i then { c with keyBuffer := Function.update c.keyBuffer i.toNat v } else c

/-- The clearing loop of Ctrl-L, over `keyBufferSize` elements. -/
def clearKeys (c : Console) : Console :=
  { c with keyBuffer := fun i => if i < keyBufferSize then 0 else c.keyBuffer i, keyBufferIndex := 0 }

/-- `keyBuffer[keyBufferIndex] = v; keyBufferIndex++;` -/
def pushKey (c : Console) (v : UInt8) : Console :=
  { c.storeKey c.keyBufferIndex v with keyBufferIndex := c.keyBufferIndex + 1 }

/-! ## Screen routines of the keyboard (`lib.c`) -/

/-- One turn of the loop of `reset`: cell `i` becomes a blank. -/
def blankCell (c : Console) (i : Nat) : Console :=
  (c.storeByte (c.videoMem + 2 * i) space).storeByte (c.videoMem + 2 * i + 1) attrib

/-- `reset`. -/
def reset (c : Console) : Console :=
  let c := c.loadCursor c.currTerminal
  let c := (List.range (numRows * numCols)).foldl blankCell c
  { c with screenX := 0, screenY := 0 }.saveCursor c.currTerminal

/-- The cursor moves back by one cell, to the end of the previous row if need be. -/
def moveBack (c : Console) : Console :=
  if c.screenX = 0 ∧ c.screenY ≠ 0 then
    { c with screenX := numCols - 1, screenY := c.screenY - 1 }
  else if c.screenX ≠ 0 then { c with screenX := c.screenX - 1 }
  else { c with screenX := 0, screenY := 0 }

/-- `backspace`.  At the top left corner the cell before the screen is cleared. -/
def backspace (c : Console) : Console :=
  let t := c.currTerminal
  let c : Console := { c.loadCursor t with videoMem := (c.termArr t).vidMemAddr }
  let c := c.storeByte (c.videoMem + 2 * (numCols * c.screenY + c.screenX) - 2) 0
  c.moveBack.saveCursor t

/-! ## `key_press` -/

/-- The condition of the line wrap. -/
def Wraps (c : Console) : Prop :=
  c.keyBufferIndex ≠ 0 ∧ c.keyBufferIndex.tmod ((screenWidth - 7 : Nat) : Int) = 0

instance (c : Console) : Decidable c.Wraps := by unfold Wraps; infer_instance

/-- The line wrap, with the routines of the running terminal `cur`. -/
def wrapLine (c : Console) (cur : Fin 3) : Console :=
  (((c.pushKey newLine).enter cur).vertScroll cur).updateCursor

/-- The last lines of `key_press`. -/
def keyPressEnd (c : Console) : Console :=
  (if c.keyBufferIndex = ((keyBufferSize - 1 : Nat) : Int) then c.storeKey c.keyBufferIndex newLine
    else c).updateCursor

/-- A character typed at the insertion point. -/
def typeChar (c : Console) (cur : Fin 3) (ch : UInt8) : Console :=
  let c := if c.Wraps then c.wrapLine cur else c
  ((c.putcUser ch).pushKey ch).keyPressEnd

/-- **`keyPress`** — `key_press(key)`. -/
def keyPress (c : Console) (kb : Keyboard) (cur : Fin 3) (key : UInt8) : Console :=
  if key.toNat ≥ keySize then c
  else if c.keyBufferIndex < ((keyBufferSize - spacingSet : Nat) : Int) then
    let ch := kb.keyValue key
    if ch = 0 then c
    else if kb.ctrlPressed ∧ isL ch then c.reset.clearKeys
    else if kb.ctrlPressed ∧ isC ch then c
    else c.typeChar cur ch
  else c.keyPressEnd

/-! ## The cases of `keyboard_inter_handler` that act on the console -/

/-- `case BACKSPACE`. -/
def backspaceCase (c : Console) : Console :=
  let c :=
    if c.keyBufferIndex > 0 then
      let c :=
        if c.keyBuffer c.keyBufferIndex.toNat = newLine then
          { c.storeKey c.keyBufferIndex 0 with keyBufferIndex := c.keyBufferIndex - 1 }
        else c
      let c := c.backspace
      { c.storeKey c.keyBufferIndex 0 with keyBufferIndex := c.keyBufferIndex - 1 }
    else c
  c.updateCursor

/-- `case ENTER`. -/
def enterCase (c : Console) : Console :=
  (c.enterUser.vertScrollUser.pushKey newLine).updateCursor

end Console

/-- The terminal an Alt-Fn key asks for. -/
def switchKey (input : UInt8) : Option (Fin 3) :=
  if input = f1 then some 0 else if input = f2 then some 1 else if input = f3 then some 2 else none

/-- The modifier part of the `switch` of `keyboard_inter_handler`. -/
def Keyboard.modifiers (kb : Keyboard) (input : UInt8) : Keyboard :=
  if input = lshiftPressed ∨ input = rshiftPressed then { kb with mode := kb.mode ||| 2 }
  else if input = lshiftReleased ∨ input = rshiftReleased then { kb with mode := kb.mode &&& ~~~2 }
  else if input = capsPressed then { kb with mode := kb.mode ^^^ 1 }
  else if input = lctrlPressed then { kb with ctrlPressed := true }
  else if input = lctrlReleased then { kb with ctrlPressed := false }
  else if input = laltPressed then { kb with altPressed := true }
  else if input = laltReleased then { kb with altPressed := false }
  else kb

/-- The rest of the `switch`. -/
def Console.specialKeys (c : Console) (kb : Keyboard) (input : UInt8) : Console :=
  match switchKey input with
  | some t => if kb.altPressed then (c.terminalSwitch t).1 else c
  | none =>
      if input = backspaceKey then c.backspaceCase
      else if input = enterKey then c.enterCase
      else c

/-- **`keyboardInterHandler`** — `keyboard_inter_handler()` for scan code `input`, interrupting a
process of terminal `cur`. -/
def keyboardInterHandler (cur : Fin 3) (input : UInt8) (kb : Keyboard) (c : Console) :
    Keyboard × Console :=
  (kb.modifiers input, (c.specialKeys kb input).keyPress (kb.modifiers input) cur input)

/-! ## Which keys have a character -/

/-- The character `key_press` finds for a scan code; NUL if there is none. -/
def Keyboard.typed (kb : Keyboard) (input : UInt8) : UInt8 :=
  if input.toNat ≥ keySize then 0 else kb.keyValue input

/-- The keys the handler serves itself, the Alt key and the function keys apart. -/
def specialCodes : List UInt8 :=
  [lshiftPressed, rshiftPressed, lshiftReleased, rshiftReleased, capsPressed, lctrlPressed,
    backspaceKey, enterKey]

/-- They have no character in any mode. -/
theorem typed_of_special (kb : Keyboard) {input : UInt8} (h : input ∈ specialCodes) :
    kb.typed input = 0 := by
  have hrow : ∀ m : BitVec 2, ∀ i ∈ specialCodes, (keysMap.getD m.toNat []).getD i.toNat 0 = 0 := by
    decide +kernel
  unfold Keyboard.typed
  split
  · rfl
  · exact hrow kb.mode input h

theorem typed_modifiers (kb : Keyboard) (input : UInt8) :
    (kb.modifiers input).typed input = kb.typed input := by
  by_cases h : input ∈ specialCodes
  · rw [typed_of_special _ h, typed_of_special _ h]
  · have hmode : (kb.modifiers input).mode = kb.mode := by
      simp only [specialCodes, List.mem_cons, List.not_mem_nil, or_false, not_or] at h
      unfold Keyboard.modifiers
      rw [if_neg (by simp [h]), if_neg (by simp [h]), if_neg h.2.2.2.2.1]
      split_ifs <;> rfl
    simp only [Keyboard.typed, Keyboard.keyValue, hmode]

/-- A key with a character is not the control key. -/
theorem ctrlPressed_modifiers {kb : Keyboard} {input : UInt8} (h : kb.typed input ≠ 0) :
    (kb.modifiers input).ctrlPressed = kb.ctrlPressed := by
  have hpressed : input ≠ lctrlPressed := by
    rintro rfl
    exact h (typed_of_special kb (by decide))
  have hreleased : input ≠ lctrlReleased := by
    rintro rfl
    exact h rfl
  unfold Keyboard.modifiers
  rw [if_neg hpressed, if_neg hreleased]
  split_ifs <;> rfl

/-- A byte in no row of `keys_map` is not typed. -/
theorem typed_ne_of_not_mem (kb : Keyboard) (input : UInt8) {v : UInt8} (hzero : v ≠ 0)
    (h : ∀ row ∈ keysMap, v ∉ row) : kb.typed input ≠ v := by
  unfold Keyboard.typed Keyboard.keyValue
  split
  · exact hzero.symm
  · rw [List.getD_eq_getElem?_getD, List.getD_eq_getElem?_getD]
    cases hrow : keysMap[kb.mode.toNat]? with
    | none => simpa using hzero.symm
    | some row =>
        cases hch : row[input.toNat]? with
        | none => simpa [hch] using hzero.symm
        | some ch =>
            have hmem := h row (List.mem_of_getElem? hrow)
            simp only [Option.getD_some, hch]
            rintro rfl
            exact hmem (List.mem_of_getElem? hch)

/-- No key types a newline. -/
theorem typed_ne_newLine (kb : Keyboard) (input : UInt8) : kb.typed input ≠ newLine :=
  typed_ne_of_not_mem kb input (by decide) (by decide)

theorem typed_ne_carriageReturn (kb : Keyboard) (input : UInt8) : kb.typed input ≠ carriageReturn :=
  typed_ne_of_not_mem kb input (by decide) (by decide)

/-- The function keys have no character either. -/
theorem switchKey_untyped {t : Fin 3} (kb : Keyboard) {input : UInt8} (h : switchKey input = some t) :
    kb.typed input = 0 ∧ input ≠ backspaceKey := by
  have hcase : input = f1 ∨ input = f2 ∨ input = f3 := by
    unfold switchKey at h
    split_ifs at h with h1 h2 h3
    · exact Or.inl h1
    · exact Or.inr (Or.inl h2)
    · exact Or.inr (Or.inr h3)
  rcases hcase with rfl | rfl | rfl
  · exact ⟨rfl, by decide⟩
  · exact ⟨rfl, by decide⟩
  · exact ⟨rfl, by decide⟩

/-- A key with a character is none of those the `switch` serves on the console. -/
theorem unserved_of_typed {kb : Keyboard} {input : UInt8} (hch : kb.typed input ≠ 0) :
    switchKey input = none ∧ input ≠ backspaceKey ∧ input ≠ enterKey := by
  refine ⟨?_, ?_, ?_⟩
  · cases hkey : switchKey input with
    | none => rfl
    | some t => exact absurd (switchKey_untyped kb hkey).1 hch
  · rintro rfl
    exact hch (typed_of_special kb (by decide))
  · rintro rfl
    exact hch (typed_of_special kb (by decide))

theorem specialKeys_of_typed {kb : Keyboard} {input : UInt8} (hch : kb.typed input ≠ 0)
    (c : Console) : c.specialKeys kb input = c := by
  obtain ⟨hkey, hback, henter⟩ := unserved_of_typed hch
  simp only [Console.specialKeys, hkey, if_neg hback, if_neg henter]

/-- **`key_press` of a key with a character**, by its cases. -/
theorem keyPress_of_typed {kb : Keyboard} {input : UInt8} (hch : kb.typed input ≠ 0) (cur : Fin 3)
    (c : Console) :
    c.keyPress kb cur input =
      if c.keyBufferIndex < 126 then
        if kb.ctrlPressed = true ∧ isL (kb.typed input) = true then c.reset.clearKeys
        else if kb.ctrlPressed = true ∧ isC (kb.typed input) = true then c
        else c.typeChar cur (kb.typed input)
      else c.keyPressEnd := by
  have hbig : ¬ input.toNat ≥ keySize := fun hbig => hch (if_pos hbig)
  have hkey : kb.keyValue input = kb.typed input := (if_neg hbig).symm
  have hsize : ((keyBufferSize - spacingSet : Nat) : Int) = 126 := rfl
  rw [Console.keyPress, if_neg hbig, hsize]
  simp only [hkey, if_neg hch]

/-- The handler for such a key. -/
theorem handler_of_typed {kb : Keyboard} {input : UInt8} (hch : kb.typed input ≠ 0) (cur : Fin 3)
    (c : Console) :
    (keyboardInterHandler cur input kb c).2 =
      if c.keyBufferIndex < 126 then
        if kb.ctrlPressed = true ∧ isL (kb.typed input) = true then c.reset.clearKeys
        else if kb.ctrlPressed = true ∧ isC (kb.typed input) = true then c
        else c.typeChar cur (kb.typed input)
      else c.keyPressEnd := by
  have hmod := typed_modifiers kb input
  unfold keyboardInterHandler
  dsimp only
  rw [specialKeys_of_typed hch, keyPress_of_typed (by rwa [hmod]), hmod, ctrlPressed_modifiers hch]

/-- `key_press` of a key without a character moves at most the VGA cursor, as long as the line is not
full. -/
theorem keyPress_of_untyped {c : Console} {kb : Keyboard} (cur : Fin 3) {input : UInt8}
    (hch : kb.typed input = 0) (hindex : c.keyBufferIndex < 126) : c.keyPress kb cur input = c := by
  have hroom : c.keyBufferIndex < ((keyBufferSize - spacingSet : Nat) : Int) := hindex
  unfold Keyboard.typed at hch
  rw [Console.keyPress]
  split at hch
  next hbig => rw [if_pos hbig]
  next hbig => simp only [if_neg hbig, if_pos hroom, hch, if_true]

/-- Pressing the control key. -/
theorem keyboardInterHandler_lctrlPressed (cur : Fin 3) (kb : Keyboard) {c : Console}
    (h : c.keyBufferIndex < 126) :
    keyboardInterHandler cur lctrlPressed kb c = ({ kb with ctrlPressed := true }, c) := by
  have hspecial : c.specialKeys kb lctrlPressed = c := rfl
  have hmod : kb.modifiers lctrlPressed = { kb with ctrlPressed := true } := rfl
  rw [keyboardInterHandler, hspecial, hmod, keyPress_of_untyped cur (typed_of_special _ (by decide)) h]

end Ece391
