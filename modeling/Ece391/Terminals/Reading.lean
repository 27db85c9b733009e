/-
# Ece391.Terminals.Reading — when a read returns one completed line.

The abstract side is a queue of lines for each terminal: Enter completes the line being typed, a read takes
the first one completed.  The code has no queue.  It has one buffer, in which Enter stores a newline, and a
flag that says that a line is complete; the read takes the whole buffer.  The flag is raised by Enter and by
the line break of `terminal_write`, and cleared by `terminal_write` only.

So the two sides agree as long as the buffer holds at most one line and the flag is never up over an
incomplete one.  `LineGuard` is that condition, step by step; `Holds` is what it keeps, for the terminal
displayed and for those in the background.
-/
import Ece391.Terminals.Accesses
import Ece391.Terminals.Echo
import Ece391.Terminals.LineEditing

open Ece391.Lib

namespace Ece391

/-! ## What leaves the saved buffers alone -/

/-- The line buffers of the terminals in the background. -/
def Console.savedKeys (c : Console) (t : Fin 3) : Nat → UInt8 := (c.termArr t).keyBuf

namespace Console

variable (c : Console)

theorem MemoryOf.savedKeys_eq {c c' : Console} (h : c.MemoryOf c') : c'.savedKeys = c.savedKeys := by
  obtain ⟨phys, fault, rfl⟩ := h
  rfl

theorem input_reset : c.reset.input = c.input :=
  (Draws.reset c).input_eq (fun _ h => h) fun _ h => h

theorem input_clearKeys : c.clearKeys.input = { c.input with
    keyBuffer := fun i => if i < keyBufferSize then 0 else c.input.keyBuffer i
    keyBufferIndex := 0 } := rfl

end Console

theorem Draws.savedKeys_eq {P : Console → Reach → Prop} {c c' : Console} (h : Draws P c c') :
    c'.savedKeys = c.savedKeys := funext h.kept.keyBuf

/-! ## The lines of a terminal -/

/-- **The abstract side**: whether Enter was pressed since the last read returned, the lines completed and
not read, and the line being typed. -/
structure LineQueue where
  entered : Bool
  complete : List (List UInt8)
  line : List UInt8
  deriving DecidableEq, Repr

instance (kb : Keyboard) (input : UInt8) : Decidable (kb.CtrlL input) := inferInstanceAs (Decidable (_ ∧ _))

instance (kb : Keyboard) (input : UInt8) : Decidable (kb.Writes input) :=
  inferInstanceAs (Decidable (_ ∧ ¬ _))

namespace LineQueue

variable (q : LineQueue)

def type (ch : UInt8) : LineQueue := { q with line := q.line ++ [ch] }

def backspace : LineQueue := { q with line := q.line.dropLast }

/-- Enter completes the line. -/
def enter : LineQueue := ⟨true, q.complete ++ [q.line], []⟩

/-- Ctrl-L discards the line being typed. -/
def clear : LineQueue := { q with line := [] }

/-- A read takes the first line; what was typed after its Enter is kept. -/
def read : LineQueue := ⟨false, q.complete.tail, q.line⟩

def key (kb : Keyboard) (input : UInt8) : LineQueue :=
  if input = enterKey then q.enter
  else if input = backspaceKey then q.backspace
  else if kb.CtrlL input then q.clear
  else if kb.Writes input then q.type (kb.typed input)
  else q

/-- The characters and newlines of it. -/
def stored : Nat := (q.complete.map fun l => l.length + 1).sum + q.line.length

end LineQueue

/-- The desk, and the lines of the user at each terminal. -/
structure Conversation where
  desk : Desk
  user : Fin 3 → LineQueue

/-- The terminal displayed. -/
def Conversation.shown (s : Conversation) : Fin 3 := s.desk.k.con.currTerminal

/-- The terminal of the running process. -/
def Conversation.running (s : Conversation) : Fin 3 := s.desk.k.proc.currProcess

/-- The lines after an event: a key is for the terminal displayed, a read for that of its process. -/
def Conversation.usersAfter (s : Conversation) : DeskEvent → Fin 3 → LineQueue
  | .key input => Function.update s.user s.shown ((s.user s.shown).key s.desk.kb input)
  | .terminalRead _ => Function.update s.user s.running (s.user s.running).read
  | .tick _ => s.user
  | .terminalWrite _ => s.user

def ConversationStep (img : Image) (s : Conversation) (e : DeskEvent) (s' : Conversation) : Prop :=
  DeskStep img s.desk e s'.desk ∧ s'.user = s.usersAfter e

/-- **A read returns a completed line.**  If the read returns, Enter was pressed on its terminal since the
last read there returned, and it delivers the first line completed: its length, and its characters at the
start of the buffer. -/
def ReadsLine (s : Conversation) : DeskEvent → Prop
  | .terminalRead nbytes => ∀ con copy,
      s.desk.k.con.terminalRead s.running nbytes = some (con, copy) →
      (s.user s.running).entered = true ∧ ∃ text rest, (s.user s.running).complete = text :: rest ∧
        copy.ret = text.length ∧
        ∀ (buf : Nat → UInt8) (i : Nat), overlay buf copy.stores i = text[i]?.getD (buf i)
  | _ => True

/-- The line buffer has a newline. -/
def Console.HoldsLine (c : Console) : Prop := ∃ j < maxInputLength, c.keyBuffer j = newLine

/-- **The steps that keep the two sides together.**
* a character, Enter or Ctrl-L: the buffer holds no newline; for a character, moreover, the flag of the
  terminal is down and the line shorter than the wrap;
* a backspace: it does not find a newline;
* a switch: the terminal it is to has as much input stored as the index says;
* a write with a line break, on the terminal displayed: the buffer is empty, or holds a newline;
* a read: it finds no characters behind the array. -/
def LineGuard (s : Conversation) : DeskEvent → Prop
  | .key input =>
      (input = enterKey ∨ s.desk.kb.CtrlL input ∨ s.desk.kb.Writes input → ¬ s.desk.k.con.HoldsLine) ∧
      (s.desk.kb.Writes input → (s.desk.k.con.termArr s.shown).enterFlag = 0 ∧
        s.desk.k.con.keyBufferIndex < ((screenWidth - 7 : Nat) : Int)) ∧
      (input = backspaceKey → 0 < s.desk.k.con.keyBufferIndex →
        s.desk.k.con.keyBuffer s.desk.k.con.keyBufferIndex.toNat ≠ newLine) ∧
      ∀ t, s.desk.kb.altPressed = true → switchKey input = some t → t ≠ s.shown →
        s.desk.k.con.keyBufferIndex = (s.user t).stored
  | .terminalWrite buf => s.running = s.shown → breaksLine buf 0 = true →
      s.desk.k.con.keyBuffer 0 = 0 ∨ s.desk.k.con.HoldsLine
  | .terminalRead nbytes => ∀ j, maxInputLength ≤ j → j < nbytes →
      s.desk.k.con.keyBuffer j = 0 ∨ s.desk.k.con.keyBuffer j = newLine
  | .tick _ => True

/-! ## One keyboard interrupt -/

/-- What a keyboard interrupt does with room in the buffer, on both sides, by the kind of key. -/
theorem handler_kinds {c : Console} (cur : Fin 3) (kb : Keyboard) (input : UInt8)
    (h0 : 0 ≤ c.keyBufferIndex) (h125 : c.keyBufferIndex < 125) :
    (∃ t, kb.altPressed = true ∧ switchKey input = some t ∧
      (keyboardInterHandler cur input kb c).2 = (c.terminalSwitch t).1 ∧
      ∀ q : LineQueue, q.key kb input = q) ∨
    (input = backspaceKey ∧ (keyboardInterHandler cur input kb c).2 = c.backspaceCase ∧
      ∀ q : LineQueue, q.key kb input = q.backspace) ∨
    (input = enterKey ∧ (keyboardInterHandler cur input kb c).2 = c.enterCase ∧
      ∀ q : LineQueue, q.key kb input = q.enter) ∨
    (kb.CtrlL input ∧ (keyboardInterHandler cur input kb c).2 = c.reset.clearKeys ∧
      ∀ q : LineQueue, q.key kb input = q.clear) ∨
    (kb.Writes input ∧ (keyboardInterHandler cur input kb c).2 = c.typeChar cur (kb.typed input) ∧
      ∀ q : LineQueue, q.key kb input = q.type (kb.typed input)) ∨
    ((keyboardInterHandler cur input kb c).2 = c ∧ ∀ q : LineQueue, q.key kb input = q) := by
  by_cases hch : kb.typed input = 0
  · have hclear : ¬ kb.CtrlL input := not_ctrlL_of_untyped hch
    have hwrites : ¬ kb.Writes input := fun hw => hw.1 hch
    -- `key_press` does nothing after the `switch`
    have hserved : ∀ c', c.specialKeys kb input = c' → c'.keyBufferIndex < 126 →
        (keyboardInterHandler cur input kb c).2 = c' := by
      rintro c' rfl hroom
      exact keyPress_of_untyped cur ((typed_modifiers kb input).trans hch) hroom
    have hsame : input ≠ enterKey → input ≠ backspaceKey → ∀ q : LineQueue, q.key kb input = q := by
      intro henter hback q
      rw [LineQueue.key, if_neg henter, if_neg hback, if_neg hclear, if_neg hwrites]
    cases hkey : switchKey input with
    | some t =>
        have hback : input ≠ backspaceKey := (switchKey_untyped kb hkey).2
        have henter : input ≠ enterKey := by
          rintro rfl
          cases hkey
        by_cases halt : kb.altPressed = true
        · refine Or.inl ⟨t, halt, rfl, hserved _ ?_ ?_, hsame henter hback⟩
          · simp only [Console.specialKeys, hkey, if_pos halt]
          · by_cases ht : t = c.currTerminal
            · rw [terminalSwitch_of_not (Or.inl (congrArg Fin.val ht))]
              omega
            · rw [(terminalSwitch_keys c ht).2.1]
              omega
        · refine Or.inr (Or.inr (Or.inr (Or.inr (Or.inr
            ⟨hserved c ?_ (by omega), hsame henter hback⟩))))
          simp only [Console.specialKeys, hkey, if_neg halt]
    | none =>
        by_cases hback : input = backspaceKey
        · subst hback
          exact Or.inr (Or.inl ⟨rfl, handler_backspace cur kb (by omega), fun _ => rfl⟩)
        by_cases henter : input = enterKey
        · subst henter
          have hindex : c.enterCase.keyBufferIndex = c.keyBufferIndex + 1 :=
            congrArg Input.keyBufferIndex (Console.input_enterCase h0)
          exact Or.inr (Or.inr (Or.inl ⟨rfl, hserved _ rfl (by omega), fun _ => rfl⟩))
        · refine Or.inr (Or.inr (Or.inr (Or.inr (Or.inr
            ⟨hserved c ?_ (by omega), hsame henter hback⟩))))
          simp only [Console.specialKeys, hkey, if_neg hback, if_neg henter]
  · obtain ⟨-, hback, henter⟩ := unserved_of_typed hch
    have hhandler := handler_of_typed hch cur c
    rw [if_pos (by omega)] at hhandler
    have hkey : ∀ q : LineQueue, q.key kb input =
        if kb.CtrlL input then q.clear else if kb.Writes input then q.type (kb.typed input) else q := by
      intro q
      rw [LineQueue.key, if_neg henter, if_neg hback]
    by_cases hl : kb.CtrlL input
    · refine Or.inr (Or.inr (Or.inr (Or.inl ⟨hl, ?_, fun q => by rw [hkey, if_pos hl]⟩)))
      exact hhandler.trans (if_pos hl)
    by_cases hw : kb.Writes input
    · refine Or.inr (Or.inr (Or.inr (Or.inr (Or.inl
        ⟨hw, handler_writes cur hw (by omega), fun q => ?_⟩))))
      rw [hkey, if_neg hl, if_pos hw]
    · -- Ctrl-C
      have hc : kb.ctrlPressed = true ∧ isC (kb.typed input) = true := by
        by_contra hno
        refine hw ⟨hch, ?_⟩
        rintro ⟨hctrl, hisL | hisC⟩
        · exact hl ⟨hctrl, hisL⟩
        · exact hno ⟨hctrl, hisC⟩
      refine Or.inr (Or.inr (Or.inr (Or.inr (Or.inr ⟨?_, fun q => by rw [hkey, if_neg hl, if_neg hw]⟩))))
      exact hhandler.trans ((if_neg hl).trans (if_pos hc))

/-! ## The buffer of one terminal -/

/-- A line in a buffer, with the index left open. -/
def Stored (buffer : Nat → UInt8) (text : List UInt8) : Prop :=
  Pending ⟨buffer, text.length, 0, fun _ => 0, fun _ => 0⟩ text

/-- A line and its newline in a buffer, and nothing behind them. -/
structure Completed (buffer : Nat → UInt8) (text : List UInt8) : Prop where
  cells : ∀ j < text.length, buffer j = text[j]?.getD 0
  newline : buffer text.length = newLine
  clear : ∀ j, text.length < j → j < maxInputLength → buffer j = 0
  chars : ∀ ch ∈ text, ch ≠ 0 ∧ ch ≠ newLine
  short : text.length ≤ screenWidth - 7

/-- **`Holds buffer flag q`** — the buffer of a terminal and its flag, for the lines `q`: the line being
typed, with the flag down unless the buffer is empty, or one completed line. -/
inductive Holds (buffer : Nat → UInt8) (flag : Nat) (q : LineQueue) : Prop
  | typing (hnone : q.complete = []) (hline : Stored buffer q.line) (hflag : flag ≠ 0 → buffer 0 = 0)
  | waiting (line : List UInt8) (hone : q.complete = [line]) (hnew : q.line = [])
      (hentered : q.entered = true) (hline : Completed buffer line)

/-- **`Displays i q`** — the same of the terminal displayed, with the index: it is behind the line being
typed, or behind a completed line or its newline. -/
structure Displays (i : Input) (q : LineQueue) : Prop where
  holds : Holds i.keyBuffer (i.enterFlag i.currTerminal) q
  lower : (q.stored : Int) ≤ i.keyBufferIndex + q.complete.length
  upper : i.keyBufferIndex ≤ q.stored

section Buffer

variable {buffer buffer' : Nat → UInt8} {flag : Nat} {q : LineQueue} {i : Input}

theorem Holds.congr (h : Holds buffer flag q) (hsame : ∀ j < maxInputLength, buffer' j = buffer j) :
    Holds buffer' flag q := by
  have hmax : maxInputLength = 127 := rfl
  cases h with
  | typing hnone hline hflag =>
      exact .typing hnone (Pending.congr hline rfl hsame) fun hup => (hsame 0 (by omega)).trans (hflag hup)
  | waiting line hone hnew hentered hline =>
      have hshort : line.length ≤ 73 := hline.short
      refine .waiting line hone hnew hentered ⟨fun j hj => ?_, ?_, fun j hj hj' => ?_, hline.chars,
        hline.short⟩
      · rw [hsame j (by omega), hline.cells j hj]
      · rw [hsame _ (by omega), hline.newline]
      · rw [hsame j hj', hline.clear j hj hj']

/-- The flag may be raised over an empty buffer or a completed line, and always be cleared. -/
theorem Holds.setFlag (h : Holds buffer flag q) {flag' : Nat}
    (hflag : flag' ≠ 0 → buffer 0 = 0 ∨ ∃ j < maxInputLength, buffer j = newLine) :
    Holds buffer flag' q := by
  cases h with
  | typing hnone hline _ =>
      refine .typing hnone hline fun hup => ?_
      rcases hflag hup with hzero | ⟨j, hj, hnewline⟩
      · exact hzero
      · exact absurd hnewline (Pending.noNewline hline j hj)
  | waiting line hone hnew hentered hline => exact .waiting line hone hnew hentered hline

/-- A line being typed, as it is displayed. -/
theorem Displays.of_pending (hnone : q.complete = []) (h : Pending i q.line)
    (hflag : i.enterFlag i.currTerminal ≠ 0 → i.keyBuffer 0 = 0) : Displays i q := by
  have hindex := h.index
  have hstored : q.stored = q.line.length := by
    rw [LineQueue.stored, hnone]
    exact Nat.zero_add _
  refine ⟨.typing hnone (Pending.congr h hindex.symm fun _ _ => rfl) hflag, ?_, ?_⟩
  · rw [hstored, hnone, hindex]
    exact Int.le_refl _
  · exact Int.le_of_eq (by rw [hstored, hindex])

/-- The index, once it is known whether a line is complete. -/
theorem Displays.stored_typing (h : Displays i q) (hnone : q.complete = []) :
    i.keyBufferIndex = q.line.length := by
  have hlower := h.lower
  have hupper := h.upper
  rw [LineQueue.stored, hnone] at hlower hupper
  simp only [List.map_nil, List.sum_nil, List.length_nil] at hlower hupper
  omega

theorem Displays.stored_waiting (h : Displays i q) {line : List UInt8} (hone : q.complete = [line])
    (hnew : q.line = []) : (line.length : Int) ≤ i.keyBufferIndex ∧ i.keyBufferIndex ≤ line.length + 1 := by
  have hlower := h.lower
  have hupper := h.upper
  rw [LineQueue.stored, hone, hnew] at hlower hupper
  simp only [List.map_cons, List.map_nil, List.sum_cons, List.sum_nil, List.length_cons,
    List.length_nil] at hlower hupper
  omega

/-- Without a newline in the buffer, the line is being typed. -/
theorem Displays.pending (h : Displays i q) (hno : ¬ ∃ j < maxInputLength, i.keyBuffer j = newLine) :
    q.complete = [] ∧ Pending i q.line ∧ (i.enterFlag i.currTerminal ≠ 0 → i.keyBuffer 0 = 0) := by
  cases h.holds with
  | typing hnone hline hflag =>
      exact ⟨hnone, Pending.congr hline (h.stored_typing hnone) fun _ _ => rfl, hflag⟩
  | waiting line _ _ _ hline =>
      have hshort : line.length ≤ 73 := hline.short
      exact absurd ⟨line.length, Nat.lt_of_le_of_lt hshort (by decide), hline.newline⟩ hno

theorem Displays.index_le (h : Displays i q) : 0 ≤ i.keyBufferIndex ∧ i.keyBufferIndex ≤ 74 := by
  cases h.holds with
  | typing hnone hline _ =>
      have hshort : q.line.length ≤ 73 := Pending.short hline
      have hindex := h.stored_typing hnone
      omega
  | waiting line hone hnew _ hline =>
      have hshort : line.length ≤ 73 := hline.short
      have hindex := h.stored_waiting hone hnew
      omega

/-- A character. -/
theorem Displays.type (h : Displays i q) {ch : UInt8} (hch : ch ≠ 0 ∧ ch ≠ newLine)
    (hno : ¬ ∃ j < maxInputLength, i.keyBuffer j = newLine) (hflag : i.enterFlag i.currTerminal = 0)
    (hroom : i.keyBufferIndex < ((screenWidth - 7 : Nat) : Int)) : Displays (i.type ch) (q.type ch) := by
  obtain ⟨hnone, hpending, -⟩ := h.pending hno
  have hindex := hpending.index
  have hlt : i.keyBufferIndex < 73 := hroom
  have htype : i.type ch = i.push ch := by rw [Input.type, if_pos (by omega), if_neg (by omega)]
  rw [htype]
  refine .of_pending hnone (hpending.push hch ?_) fun hup => absurd hflag hup
  show q.line.length < 73
  omega

/-- Enter. -/
theorem Displays.enter (h : Displays i q) (hno : ¬ ∃ j < maxInputLength, i.keyBuffer j = newLine) :
    Displays i.enter q.enter := by
  obtain ⟨hnone, hpending, -⟩ := h.pending hno
  have hmax : maxInputLength = 127 := rfl
  have hshort : q.line.length ≤ 73 := hpending.short
  have hcell : ∀ j < maxInputLength,
      i.enter.keyBuffer j = Function.update i.keyBuffer q.line.length newLine j := by
    intro j hj
    rw [i.enter_keyBuffer hj, hpending.toNat]
  have hone : q.enter.complete = [q.line] := by rw [LineQueue.enter, hnone, List.nil_append]
  have hindex : i.enter.keyBufferIndex = q.line.length + 1 := congrArg (· + 1) hpending.index
  have hstored : q.enter.stored = q.line.length + 1 := by
    rw [LineQueue.stored, hone]
    rfl
  refine ⟨.waiting q.line hone rfl rfl ⟨fun j hj => ?_, ?_, fun j hj hj' => ?_, hpending.chars,
    hpending.short⟩, ?_, ?_⟩
  · rw [hcell j (by omega), Function.update_of_ne (by omega), hpending.cell hj,
      List.getElem?_eq_getElem hj, Option.getD_some]
  · rw [hcell _ (by omega), Function.update_self]
  · rw [hcell j hj', Function.update_of_ne (by omega), hpending.clear j hj hj']
  · rw [hstored, hindex, hone]
    simp only [List.length_singleton]
    omega
  · exact Int.le_of_eq (by rw [hstored, hindex]; rfl)

/-- A backspace: over the last character of the line being typed, or over nothing, back to the newline of
a completed one. -/
theorem Displays.backspace (h : Displays i q)
    (hguard : 0 < i.keyBufferIndex → i.keyBuffer i.keyBufferIndex.toNat ≠ newLine) :
    Displays i.backspace q.backspace := by
  have hmax : maxInputLength = 127 := rfl
  by_cases hpos : 0 < i.keyBufferIndex
  · have herase : i.backspace = i.erase := by rw [Input.backspace, if_pos hpos, if_neg (hguard hpos)]
    rw [herase]
    cases hholds : h.holds with
    | typing hnone hline hflag =>
        have hpending : Pending i q.line := Pending.congr hline (h.stored_typing hnone) fun _ _ => rfl
        have hindex := hpending.index
        have hne : q.line ≠ [] := by
          intro hnil
          rw [hnil] at hindex
          exact absurd hpos (by rw [hindex]; decide)
        refine .of_pending hnone (hpending.erase hne) fun hup => ?_
        show Function.update i.keyBuffer i.keyBufferIndex.toNat 0 0 = 0
        rw [Function.update_of_ne (by omega), hflag hup]
    | waiting line hone hnew hentered hline =>
        obtain ⟨hlower, hupper⟩ := h.stored_waiting hone hnew
        have hshort : line.length ≤ 73 := hline.short
        -- the index is behind the newline, where the buffer is clear already
        have hindex : i.keyBufferIndex = line.length + 1 := by
          by_contra hne
          have heq : i.keyBufferIndex.toNat = line.length := by omega
          exact hguard hpos (by rw [heq, hline.newline])
        have hstored : q.backspace.stored = line.length + 1 := by
          rw [LineQueue.stored, LineQueue.backspace, hone, hnew]
          rfl
        have hbuffer : i.erase.keyBuffer = i.keyBuffer := by
          show Function.update i.keyBuffer i.keyBufferIndex.toNat 0 = i.keyBuffer
          have hclear := hline.clear i.keyBufferIndex.toNat (by omega) (by omega)
          rw [← hclear, Function.update_eq_self]
        refine ⟨?_, ?_, ?_⟩
        · rw [hbuffer]
          refine .waiting line hone ?_ hentered hline
          rw [LineQueue.backspace, hnew]
          rfl
        · rw [hstored]
          show ((line.length + 1 : Nat) : Int) ≤ i.keyBufferIndex - 1 + (q.complete.length : Int)
          rw [hone, List.length_singleton]
          omega
        · rw [hstored]
          show i.keyBufferIndex - 1 ≤ ((line.length + 1 : Nat) : Int)
          omega
  · have hnothing : i.backspace = i := by rw [Input.backspace, if_neg hpos]
    have hnil : q.line = [] := by
      cases h.holds with
      | typing hnone _ _ =>
          have hindex := h.stored_typing hnone
          exact List.length_eq_zero_iff.mp (by omega)
      | waiting _ _ hnew _ _ => exact hnew
    have hsame : q.backspace = q := by
      rw [LineQueue.backspace, hnil, List.dropLast_nil, ← hnil]
    rw [hnothing, hsame]
    exact h

/-- An empty buffer. -/
theorem Displays.of_clear (hzero : ∀ j < maxInputLength, i.keyBuffer j = 0) (hindex : i.keyBufferIndex = 0)
    (hnone : q.complete = []) (hnil : q.line = []) : Displays i q := by
  have hmax : maxInputLength = 127 := rfl
  refine .of_pending hnone ?_ fun _ => hzero 0 (by omega)
  rw [hnil]
  refine ⟨hindex, rfl, ?_, fun j _ hj => hzero j hj, fun ch hch => absurd hch List.not_mem_nil,
    Nat.zero_le _⟩
  show i.keyBuffer 0 ≠ newLine
  rw [hzero 0 (by omega)]
  decide

end Buffer

/-! ## Runs -/

/-- **`Conversing s`** — the invariant: the terminal displayed and those in the background hold their
lines. -/
structure Conversing (s : Conversation) : Prop where
  sound : s.desk.Sound
  displayed : Displays s.desk.k.con.input (s.user s.shown)
  saved : ∀ t ≠ s.shown,
    Holds (s.desk.k.con.savedKeys t) (s.desk.k.con.input.enterFlag t) (s.user t)

/-- A switch leaves the flags alone. -/
theorem terminalSwitch_enterFlag (c : Console) (t u : Fin 3) :
    ((c.terminalSwitch t).1.termArr u).enterFlag = (c.termArr u).enterFlag :=
  terminalSwitch_field (fun _ _ => rfl) (fun _ _ => rfl) c t u

section Steps

variable {img : Image} {s s' : Conversation}

/-- A step that leaves the lines of all terminals and all buffers alone, but for the flag of one. -/
theorem Conversing.setFlag (h : Conversing s) (hsound : s'.desk.Sound) (huser : s'.user = s.user)
    (hsaved : s'.desk.k.con.savedKeys = s.desk.k.con.savedKeys) {u : Fin 3} {v : Nat}
    (hinput : s'.desk.k.con.input = s.desk.k.con.input.setFlag u v)
    (hflag : v ≠ 0 → u = s.shown ∧ (s.desk.k.con.keyBuffer 0 = 0 ∨ s.desk.k.con.HoldsLine)) :
    Conversing s' := by
  have hcurr : s'.shown = s.shown := congrArg Input.currTerminal hinput
  have hflags : ∀ t, (s.desk.k.con.input.setFlag u v).enterFlag t =
      if t = u then v else s.desk.k.con.input.enterFlag t := fun t => Function.update_apply ..
  refine ⟨hsound, ?_, fun t ht => ?_⟩
  · rw [hinput, hcurr, huser]
    refine ⟨?_, h.displayed.lower, h.displayed.upper⟩
    show Holds s.desk.k.con.keyBuffer ((s.desk.k.con.input.setFlag u v).enterFlag s.shown) _
    rw [hflags]
    split
    next heq => exact h.displayed.holds.setFlag fun hup => (hflag hup).2
    next => exact h.displayed.holds
  · rw [hcurr] at ht
    rw [hinput, hsaved, huser, hflags]
    split
    next heq => exact (h.saved t ht).setFlag fun hup => absurd (heq.trans (hflag hup).1) ht
    next => exact h.saved t ht

/-- A step of the terminal displayed alone. -/
theorem Conversing.own (h : Conversing s) (hsound : s'.desk.Sound)
    (hsaved : s'.desk.k.con.savedKeys = s.desk.k.con.savedKeys) (hcurr : s'.shown = s.shown)
    (hflags : ∀ t ≠ s.shown, s'.desk.k.con.input.enterFlag t = s.desk.k.con.input.enterFlag t)
    {q : LineQueue} (huser : s'.user = Function.update s.user s.shown q)
    (hq : Displays s'.desk.k.con.input q) : Conversing s' := by
  refine ⟨hsound, ?_, fun t ht => ?_⟩
  · rw [huser, hcurr, Function.update_self]
    exact hq
  · rw [hcurr] at ht
    rw [hsaved, hflags t ht, huser, Function.update_of_ne ht]
    exact h.saved t ht

/-- A switch to a terminal that has as much input as the index says. -/
theorem Conversing.switch (h : Conversing s) (hsound : s'.desk.Sound) (huser : s'.user = s.user)
    {t : Fin 3} (ht : t ≠ s.shown) (hcon : s'.desk.k.con = (s.desk.k.con.terminalSwitch t).1)
    (heven : s.desk.k.con.keyBufferIndex = (s.user t).stored) : Conversing s' := by
  obtain ⟨hbuffer, hindex, hsaved⟩ := terminalSwitch_keys s.desk.k.con ht
  have hflags := terminalSwitch_enterFlag s.desk.k.con t
  have hcurr := terminalSwitch_currTerminal s.desk.k.con t
  rw [← hcon] at hbuffer hindex hsaved hflags hcurr
  have hshown : s'.shown = t := hcurr
  refine ⟨hsound, ⟨?_, ?_, ?_⟩, fun u hu => ?_⟩
  · -- its saved buffer is in `keyBuffer` now
    rw [hshown, huser]
    show Holds s'.desk.k.con.keyBuffer (s'.desk.k.con.termArr s'.desk.k.con.currTerminal).enterFlag _
    rw [hcurr, hflags t]
    refine (h.saved t ht).congr fun j hj => ?_
    rw [hbuffer]
    exact if_pos hj
  · rw [hshown, huser]
    show ((s.user t).stored : Int) ≤ s'.desk.k.con.keyBufferIndex + _
    rw [hindex, heven]
    omega
  · rw [hshown, huser]
    exact Int.le_of_eq (hindex.trans heven)
  · rw [hshown] at hu
    show Holds (s'.desk.k.con.termArr u).keyBuf (s'.desk.k.con.termArr u).enterFlag (s'.user u)
    rw [hsaved u, hflags u, huser]
    split
    next hcu =>
      -- and the one displayed before is saved
      rw [hcu]
      refine h.displayed.holds.congr fun j hj => ?_
      exact if_pos hj
    next hcu => exact h.saved u hcu

/-- A step that changes neither. -/
theorem Conversing.same (h : Conversing s) (hsound : s'.desk.Sound) (huser : s'.user = s.user)
    (hsaved : s'.desk.k.con.savedKeys = s.desk.k.con.savedKeys)
    (hinput : s'.desk.k.con.input = s.desk.k.con.input) : Conversing s' := by
  apply h.own hsound hsaved (congrArg Input.currTerminal hinput) (q := s.user s.shown)
  · rw [hinput]
    exact fun _ _ => rfl
  · rw [huser, Function.update_eq_self]
  · rw [hinput]
    exact h.displayed

theorem Input.type_frame (i : Input) (ch : UInt8) :
    (i.type ch).currTerminal = i.currTerminal ∧ (i.type ch).enterFlag = i.enterFlag := by
  unfold Input.type
  split_ifs <;> exact ⟨rfl, rfl⟩

theorem Input.backspace_frame (i : Input) :
    i.backspace.currTerminal = i.currTerminal ∧ i.backspace.enterFlag = i.enterFlag := by
  unfold Input.backspace
  split_ifs <;> exact ⟨rfl, rfl⟩

/-- **A key that meets the condition keeps the two sides together.** -/
theorem Conversing.key (h : Conversing s) {input : UInt8} (hguard : LineGuard s (.key input))
    (hs : ConversationStep img s (.key input) s') : Conversing s' := by
  obtain ⟨hnewline, hroom, hback, heven⟩ := hguard
  obtain ⟨h0, h74⟩ := h.displayed.index_le
  have h0 : 0 ≤ s.desk.k.con.keyBufferIndex := h0
  have h74 : s.desk.k.con.keyBufferIndex ≤ 74 := h74
  have hsound : s'.desk.Sound := (h.sound.step hs.1).1
  have hcon := hs.1.key.2
  have huser : s'.user =
      Function.update s.user s.shown ((s.user s.shown).key s.desk.kb input) := hs.2
  rcases handler_kinds s.running s.desk.kb input h0 (by omega) with
    ⟨t, halt, hkey, hh, hq⟩ | ⟨rfl, hh, hq⟩ | ⟨rfl, hh, hq⟩ | ⟨hl, hh, hq⟩ | ⟨hw, hh, hq⟩ | ⟨hh, hq⟩
  · -- a switch
    rw [hq, Function.update_eq_self] at huser
    have hcon := hcon.trans hh
    by_cases ht : t = s.shown
    · rw [terminalSwitch_of_not (Or.inl (congrArg Fin.val ht))] at hcon
      exact h.same hsound huser (congrArg Console.savedKeys hcon) (congrArg Console.input hcon)
    · exact h.switch hsound huser ht hcon (heven t halt hkey ht)
  · -- a backspace
    have hcon := hcon.trans hh
    have hinput : s'.desk.k.con.input = s.desk.k.con.input.backspace := by
      rw [hcon, Console.input_backspaceCase]
    obtain ⟨hcurr, hflags⟩ := s.desk.k.con.input.backspace_frame
    rw [hq] at huser
    apply h.own hsound ?_ ((congrArg Input.currTerminal hinput).trans hcurr) ?_ huser
    · rw [hinput]
      exact h.displayed.backspace (hback rfl)
    · rw [hcon]
      exact (Draws.backspaceCase _).savedKeys_eq
    · rw [hinput, hflags]
      exact fun _ _ => rfl
  · -- Enter
    have hcon := hcon.trans hh
    have hinput : s'.desk.k.con.input = s.desk.k.con.input.enter := by
      rw [hs.1.key.2, handler_enter _ _ h0 (by omega)]
    rw [hq] at huser
    apply h.own hsound ?_ (congrArg Input.currTerminal hinput) ?_ huser
    · rw [hinput]
      exact h.displayed.enter (hnewline (Or.inl rfl))
    · rw [hcon]
      exact (Draws.enterCase _).savedKeys_eq
    · rw [hinput]
      exact fun t ht => Function.update_of_ne ht ..
  · -- Ctrl-L
    have hcon := hcon.trans hh
    have hinput := s.desk.k.con.reset.input_clearKeys
    rw [← hcon, Console.input_reset] at hinput
    rw [hq] at huser
    obtain ⟨hnone, -⟩ := h.displayed.pending (hnewline (Or.inr (Or.inl hl)))
    apply h.own hsound ?_ (congrArg Input.currTerminal hinput) ?_ huser
    · rw [hinput]
      exact .of_clear (fun j hj => if_pos (Nat.lt_trans hj (by decide))) rfl hnone rfl
    · rw [hcon]
      exact ((Draws.reset _).any.trans (Draws.clearKeys _)).savedKeys_eq
    · rw [hinput]
      exact fun _ _ => rfl
  · -- a character
    have hcon := hcon.trans hh
    obtain ⟨hflag, hshort⟩ := hroom hw
    have hinput : s'.desk.k.con.input = s.desk.k.con.input.type (s.desk.kb.typed input) := by
      rw [hcon, Console.input_typeChar _ _ h0 (by omega)]
    obtain ⟨hcurr, hflags⟩ := s.desk.k.con.input.type_frame (s.desk.kb.typed input)
    rw [hq] at huser
    apply h.own hsound ?_ ((congrArg Input.currTerminal hinput).trans hcurr) ?_ huser
    · rw [hinput]
      exact h.displayed.type ⟨hw.1, typed_ne_newLine s.desk.kb input⟩
        (hnewline (Or.inr (Or.inr hw))) hflag hshort
    · rw [hcon]
      exact (Draws.typeChar _ _ _).savedKeys_eq
    · rw [hinput, hflags]
      exact fun _ _ => rfl
  · -- a key without effect
    rw [hq, Function.update_eq_self] at huser
    have hcon := hcon.trans hh
    exact h.same hsound huser (congrArg Console.savedKeys hcon) (congrArg Console.input hcon)

/-- **A read that returns finds a completed line**, and is by a process of the terminal displayed. -/
theorem Conversing.ready (h : Conversing s) (hready : s.desk.k.con.LineReady s.running) :
    s.running = s.shown ∧ ∃ line, (s.user s.shown).complete = [line] ∧ (s.user s.shown).line = [] ∧
      (s.user s.shown).entered = true ∧ Completed s.desk.k.con.keyBuffer line := by
  obtain ⟨hflag, hfirst, hvisible⟩ := hready
  refine ⟨h.sound.1.mux.visible_iff.mp hvisible, ?_⟩
  cases h.displayed.holds with
  | typing _ _ hempty => exact absurd (hempty hflag) hfirst
  | waiting line hone hnew hentered hline => exact ⟨line, hone, hnew, hentered, hline⟩

theorem Conversing.readsLine (h : Conversing s) {e : DeskEvent} (hguard : LineGuard s e) :
    ReadsLine s e := by
  cases e with
  | tick fr => trivial
  | terminalWrite buf => trivial
  | key input => trivial
  | terminalRead nbytes =>
      intro con copy hread
      have hmax : maxInputLength = 127 := rfl
      unfold Console.terminalRead at hread
      split at hread
      next hready =>
        obtain ⟨-, rfl⟩ := Prod.mk.inj (Option.some.inj hread)
        obtain ⟨hcur, line, hone, -, hentered, hline⟩ := h.ready hready
        have hshort : line.length ≤ 73 := hline.short
        rw [hcur]
        refine ⟨hentered, line, [], hone, Console.keyCopy_delivers (by omega)
          (Console.keyCopy_eq (by omega) hline.cells hline.chars fun j hj hj' => ?_)⟩
        -- behind the line: its newline, the rest of the array, and what is behind the array
        by_cases hin : j < maxInputLength
        · rcases Nat.eq_or_lt_of_le hj with rfl | hlt
          · exact Or.inr hline.newline
          · exact Or.inl (hline.clear j hlt hin)
        · exact hguard j (by omega) (by omega)
      next => cases hread

/-- The read leaves an empty buffer. -/
theorem Conversing.read (h : Conversing s) {nbytes : Nat}
    (hs : ConversationStep img s (.terminalRead nbytes) s') : Conversing s' := by
  have hsound : s'.desk.Sound := (h.sound.step hs.1).1
  have huser : s'.user = Function.update s.user s.running (s.user s.running).read := hs.2
  obtain ⟨con, copy, hread, hdesk⟩ := hs.1
  unfold Console.terminalRead at hread
  split at hread
  next hready =>
    obtain ⟨hcur, line, hone, hnew, -⟩ := h.ready hready
    have hcon : s'.desk.k.con = con := by rw [hdesk]
    obtain ⟨rfl, -⟩ := Prod.mk.inj (Option.some.inj hread)
    rw [hcur] at huser
    have hinput : s'.desk.k.con.input = { s.desk.k.con.input with
        keyBuffer := fun i => if i < maxInputLength then 0 else s.desk.k.con.keyBuffer i
        keyBufferIndex := 0 } := by
      rw [hcon, Console.input_saveCursor]
      rfl
    apply h.own hsound ?_ (congrArg Input.currTerminal hinput) ?_ huser
    · rw [hinput]
      refine .of_clear (fun j hj => if_pos hj) rfl ?_ hnew
      rw [LineQueue.read, hone]
      rfl
    · rw [hcon, (Draws.saveCursor (P := Draws.anything) _ _).savedKeys_eq]
      rfl
    · rw [hinput]
      exact fun _ _ => rfl
  next => cases hread

/-- **The step lemma.** -/
theorem Conversing.step (h : Conversing s) {e : DeskEvent} (hguard : LineGuard s e)
    (hs : ConversationStep img s e s') : Conversing s' := by
  have hsound : s'.desk.Sound := (h.sound.step hs.1).1
  cases e with
  | key input => exact h.key hguard hs
  | terminalRead nbytes => exact h.read hs
  | tick fr =>
      have hdesk : s'.desk = ⟨pitInterruptHandler img fr s.desk.k, s.desk.kb⟩ := hs.1
      refine h.same hsound hs.2 ?_ (by rw [hdesk]; exact input_tick img fr s.desk.k)
      rw [hdesk]
      rcases tick_console img fr s.desk.k with ⟨hm, -⟩ | ⟨hm, -⟩
      · exact hm.savedKeys_eq
      · exact hm.savedKeys_eq
  | terminalWrite buf =>
      obtain ⟨-, hcon⟩ := hs.1.terminalWrite
      have hinput := Console.input_terminalWrite h.sound.1.mux s.running buf
      refine h.setFlag hsound hs.2 ?_ (by rw [hcon]; exact hinput) fun hup => ?_
      · rw [hcon]
        exact (Draws.terminalWrite (Draws.permits_anything _ _) (fun _ => trivial) buf).savedKeys_eq
      · split at hup
        next hbreak => exact ⟨hbreak.2, hguard hbreak.2 hbreak.1⟩
        next => exact absurd rfl hup

end Steps

/-- Nothing has been typed on any terminal. -/
structure Conversation.Fresh (s : Conversation) : Prop where
  sound : s.desk.Sound
  keyBuffer : ∀ j < maxInputLength, s.desk.k.con.keyBuffer j = 0
  keyBufferIndex : s.desk.k.con.keyBufferIndex = 0
  keyBuf : ∀ t, ∀ j < maxInputLength, (s.desk.k.con.termArr t).keyBuf j = 0
  user : ∀ t, s.user t = ⟨false, [], []⟩

theorem Conversation.Fresh.conversing {s : Conversation} (h : s.Fresh) : Conversing s := by
  refine ⟨h.sound, ?_, fun t _ => ?_⟩
  · rw [h.user]
    exact .of_clear h.keyBuffer h.keyBufferIndex rfl rfl
  · rw [h.user]
    have hclear : Displays ⟨(s.desk.k.con.termArr t).keyBuf, 0, t, fun _ => 0,
        s.desk.k.con.input.enterFlag⟩ ⟨false, [], []⟩ := .of_clear (h.keyBuf t) rfl rfl rfl
    exact hclear.holds

/-- **When a read returns one completed line.**  In every run of ticks, keyboard interrupts, writes and
reads from a conversation in which nothing was typed, whose steps all meet `LineGuard`: each read that returns
does so after an Enter on its terminal since the last read there, and delivers the first line completed,
whole and with nothing behind it. -/
theorem reads_completed_lines (img : Image) {s : Conversation} {es : List DeskEvent} (hstart : s.Fresh)
    (hguard : AllSteps (ConversationStep img) LineGuard s es) :
    AllSteps (ConversationStep img) ReadsLine s es := by
  intro before e after m hes hrun
  have hbefore : AllSteps (ConversationStep img) LineGuard s before := by
    rw [hes] at hguard
    exact hguard.of_append
  have hm : Conversing m := by
    apply (hrun.restrict_of_allSteps hbefore).invariant hstart.conversing
    rintro m e m' hm ⟨hok, hs⟩
    exact hm.step hok hs
  exact hm.readsLine (hguard before e after m hes hrun)

/-- The desk after boot, and nothing typed. -/
def bootedConversation : Conversation := ⟨bootedDesk, fun _ => ⟨false, [], []⟩⟩

theorem bootedConversation_fresh : bootedConversation.Fresh where
  sound := bootedDesk_sound
  keyBuffer _ _ := rfl
  keyBufferIndex := rfl
  keyBuf t _ _ := forall_terminal (P := fun t => ∀ j, (bootedKernel.con.termArr t).keyBuf j = 0)
    (fun _ => rfl) (fun _ => rfl) (fun _ => rfl) t _
  user _ := rfl

/-- An `a`, on a desk where it is the first character. -/
theorem DeskStep.input_keyA {img : Image} {s s' : Desk} (hs : DeskStep img s (.key keyA) s')
    (hkb : s.kb = ⟨0, false, false⟩) (hindex : s.k.con.keyBufferIndex = 0) :
    s'.k.con.input = s.k.con.input.push 97 := by
  have hwrites : s.kb.Writes keyA := hkb ▸ keyA_writes
  have htyped : s.kb.typed keyA = 97 := by
    rw [hkb]
    decide
  have hinput : s.k.con.input.keyBufferIndex = 0 := hindex
  rw [hs.key.2, handler_writes _ hwrites (by omega), htyped,
    Console.input_typeChar _ _ (by omega) (by omega), Input.type,
    if_pos (by omega), if_neg (by omega)]

/-- An `a`, Enter and a read, after boot. -/
theorem booted_reads_line :
    AllSteps (ConversationStep shellImage) ReadsLine bootedConversation
      [.key keyA, .key enterKey, .terminalRead maxInputLength] := by
  refine reads_completed_lines shellImage bootedConversation_fresh ?_
  refine .cons ⟨fun _ => ?_, fun _ => ⟨rfl, by decide⟩, fun h => absurd h (by decide),
    fun t _ h => absurd h (by cases h)⟩ fun m hm => .cons ⟨fun _ => ?_, fun h => ?_,
      fun h => absurd h (by decide), fun t _ h => absurd h (by cases h)⟩
    fun _ _ => .cons (fun j hj hj' => ?_) fun _ _ => allSteps_nil
  · rintro ⟨j, -, hnewline⟩
    exact absurd (show (0 : UInt8) = newLine from hnewline) (by decide)
  · -- the buffer holds the `a`
    have hbuffer : m.desk.k.con.keyBuffer = Function.update (fun _ => 0) 0 97 :=
      congrArg Input.keyBuffer (hm.1.input_keyA rfl rfl)
    rintro ⟨j, -, hnewline⟩
    rw [hbuffer, Function.update_apply] at hnewline
    split at hnewline
    · exact absurd hnewline (by decide)
    · exact absurd hnewline (by decide)
  · exact absurd (typed_of_special m.desk.kb (by decide)) h.1
  · omega

theorem ConversationStep.exists_write (img : Image) (s : Conversation) (buf : List UInt8) :
    ∃ s', ConversationStep img s (.terminalWrite buf) s' := ⟨⟨_, _⟩, rfl, rfl⟩

theorem ConversationStep.exists_key (img : Image) (s : Conversation) (input : UInt8) :
    ∃ s', ConversationStep img s (.key input) s' := ⟨⟨_, _⟩, rfl, rfl⟩

/-- A write of 80 characters, an `a`, and a read: it returns, and Enter was never pressed. -/
theorem read_without_enter :
    ¬ AllSteps (ConversationStep shellImage) ReadsLine bootedConversation
      [.terminalWrite (List.replicate 80 97), .key keyA, .terminalRead maxInputLength] := by
  intro hall
  obtain ⟨s1, hs1⟩ := ConversationStep.exists_write shellImage bootedConversation (List.replicate 80 97)
  obtain ⟨s2, hs2⟩ := ConversationStep.exists_key shellImage s1 keyA
  -- the line break of the write raises the flag
  have hbreak : breaksLine (List.replicate 80 97) 0 = true := by decide +kernel
  obtain ⟨hkb1, hcon1⟩ := hs1.1.terminalWrite
  have hcon1 : s1.desk.k.con = (bootedKernel.con.terminalWrite 0 (List.replicate 80 97)).1 := hcon1
  have hinput1 := Console.input_terminalWrite bootedKernel_multiplexed 0 (List.replicate 80 97)
  rw [if_pos ⟨hbreak, rfl⟩, ← hcon1] at hinput1
  have hinput2 := hs2.1.input_keyA hkb1 (congrArg Input.keyBufferIndex hinput1)
  rw [hinput1] at hinput2
  -- so the read returns
  have hrunning : s2.running = 0 := by
    rw [Conversation.running, hs2.1.key.1]
    exact congrArg (fun s : Desk => s.k.proc.currProcess) hs1.1
  have hcurr : s2.desk.k.con.currTerminal = 0 := congrArg Input.currTerminal hinput2
  have hready : s2.desk.k.con.LineReady 0 := by
    refine ⟨?_, ?_, ?_⟩
    · rw [hcurr]
      have hflag := congrFun (congrArg Input.enterFlag hinput2) 0
      exact fun hzero => absurd (hflag.symm.trans hzero) (by decide)
    · have hfirst := congrFun (congrArg Input.keyBuffer hinput2) 0
      exact fun hzero => absurd (hfirst.symm.trans hzero) (by decide)
    · exact congrFun (congrArg Input.visible hinput2) 0
  obtain ⟨con, loads, hread, -⟩ := terminalRead_of_ready hready maxInputLength
  have hlast := hall [.terminalWrite (List.replicate 80 97), .key keyA] (.terminalRead maxInputLength) []
    s2 rfl ⟨s1, hs1, s2, hs2, rfl⟩
  rw [← hrunning] at hread
  have hentered := (hlast _ _ hread).1
  -- but no key has been Enter
  have huser1 : s1.user = bootedConversation.user := hs1.2
  have huser2 : s2.user = Function.update s1.user s1.shown ((s1.user s1.shown).key s1.desk.kb keyA) :=
    hs2.2
  have hshown1 : s1.shown = 0 := congrArg Input.currTerminal hinput1
  rw [hrunning, huser2, hshown1, Function.update_self, huser1, hkb1] at hentered
  exact absurd hentered (by decide)

end Ece391
