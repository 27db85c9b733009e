/-
# Ece391.Adventure.Input — commands from the keyboard (`mp2/input.c`).

`get_command` drains the keyboard in one call.  An arrow key is three bytes, and a machine of four states
picks them out of the stream; the state and the text typed so far stay from one call to the next, the pushed
command starts anew in each.

The machine is at a loss when an escape byte comes in the middle of a sequence: it drops the byte together
with what it had read of the sequence.  `arrow_recognised_iff` says what follows for the keys: an arrow is
recognised exactly if its escape byte is read in state 0, but for one coincidence, a full line and the same
direction already pushed.

Letters and digits are those of the C locale.  The static `command` of the function is assigned and never
read; it is left out.
-/
import Mathlib.Tactic.Common

namespace Ece391.Adventure

/-! ## The typed command -/

/-- `cmd_t`. -/
inductive Cmd where
  | none | right | left | up | down | moveLeft | enter | moveRight | typed | quit
  deriving DecidableEq, Repr

/-- `MAX_TYPED_LEN`. -/
def maxTypedLen : Nat := 20

def isalpha (c : Int8) : Bool := (65 ≤ c && c ≤ 90) || (97 ≤ c && c ≤ 122)

def isdigit (c : Int8) : Bool := 48 ≤ c && c ≤ 57

/-- What can stand in the text. -/
def printable (c : Int8) : Bool := isalpha c || isdigit c || c = 32

/-- Backspace and delete. -/
def erases (c : Int8) : Bool := c = 8 || c = 127

/-- `valid_typing`. -/
def validTyping (c : Int8) : Bool := isalpha c || isdigit c || c = 32 || c = 8 || c = 127

/-- `typing`, in front of the NUL. -/
@[ext] structure Typing where
  text : List Int8
  bounded : text.length ≤ maxTypedLen
  valid : ∀ c ∈ text, printable c = true
  deriving DecidableEq

theorem printable_of_validTyping {c : Int8} (h : validTyping c = true) (hc : ¬erases c = true) :
    printable c = true := by
  simp only [validTyping, printable, erases, Bool.or_eq_true, decide_eq_true_eq] at *
  tauto

/-- `reset_typed_command`. -/
def resetTypedCommand : Typing := ⟨[], Nat.zero_le _, nofun⟩

/-- `typed_a_char`. -/
def typedAChar (typing : Typing) (c : Int8) (hc : validTyping c = true) : Typing :=
  if herase : erases c = true then
    ⟨typing.text.dropLast, by rw [List.length_dropLast]; exact Nat.le_trans (Nat.sub_le _ _) typing.bounded,
      fun d hd => typing.valid d (List.dropLast_subset _ hd)⟩
  else if hroom : typing.text.length < maxTypedLen then
    ⟨typing.text ++ [c], by rw [List.length_append]; exact hroom, fun d hd => by
      rcases List.mem_append.mp hd with hd | hd
      · exact typing.valid d hd
      · exact List.mem_singleton.mp hd ▸ printable_of_validTyping hc herase⟩
  else typing

/-- A letter leaves the text alone only if there is no room for it. -/
theorem typedAChar_eq_iff {typing : Typing} {c : Int8} {hc : validTyping c = true}
    (hletter : ¬erases c = true) :
    typedAChar typing c hc = typing ↔ typing.text.length = maxTypedLen := by
  have hbounded := typing.bounded
  rw [typedAChar, dif_neg hletter]
  split
  case isTrue hroom =>
    constructor
    · intro h
      have hlength := congrArg (fun t => t.text.length) h
      rw [List.length_append] at hlength
      exact absurd hlength (by simp)
    · exact fun hfull => absurd hroom (by omega)
  case isFalse hfull => exact ⟨fun _ => by omega, fun _ => rfl⟩

/-! ## `get_command` -/

/-- What `get_command` keeps from one byte to the next: the two statics, and the command pushed in this
call. -/
@[ext] structure Keys where
  state : Fin 4
  typing : Typing
  pushed : Cmd
  deriving DecidableEq

/-- The machine before the first call. -/
def bootKeys : Keys := ⟨0, resetTypedCommand, .none⟩

/-- A byte outside a sequence: the `else if`s that every state ends with. -/
def typeByte (m : Keys) (ch : UInt8) : Keys :=
  if h : validTyping ch.toInt8 = true then { m with typing := typedAChar m.typing ch.toInt8 h }
  else if ch = 10 ∨ ch = 13 then { m with pushed := .typed }
  else m

/-- The command of an arrow key, by its last byte. -/
def direction (ch : UInt8) : Option Cmd :=
  if ch = 65 then some .up
  else if ch = 66 then some .down
  else if ch = 67 then some .right
  else if ch = 68 then some .left
  else none

/-- The command of insert, home and page up, by the digit. -/
def room (ch : UInt8) : Option Cmd :=
  if ch = 50 then some .moveLeft
  else if ch = 49 then some .enter
  else if ch = 53 then some .moveRight
  else none

/-- The `switch` over the state. -/
def consume (m : Keys) (ch : UInt8) : Keys :=
  match m.state with
  | 0 => if ch = 27 then { m with state := 1 } else typeByte m ch
  | 1 => if ch = 91 then { m with state := 2 } else typeByte { m with state := 0 } ch
  | 2 =>
    match direction ch, room ch with
    | some cmd, _ => { m with pushed := cmd, state := 0 }
    | none, some cmd => { m with pushed := cmd, state := 3 }
    | none, none => typeByte { m with state := 0 } ch
  | 3 => if ch = 126 then { m with state := 0 } else typeByte { m with state := 0 } ch

/-- The loop over the bytes that are there.  A backquote ends it, and the bytes after it stay. -/
def drain : List UInt8 → Keys → Cmd × Keys × List UInt8
  | [], m => (m.pushed, m, [])
  | ch :: stdin, m => if ch = 96 then (.quit, m, stdin) else drain stdin (consume m ch)

/-- **`getCommand`** — `get_command`: the command, the machine and what is left of the input. -/
def getCommand (stdin : List UInt8) (m : Keys) : Cmd × Keys × List UInt8 :=
  drain stdin { m with pushed := .none }

/-- The end of a call and the start of the next one; in between the game may have reset the text. -/
def nextCall (m : Keys) (reset : Bool) : Keys :=
  { m with typing := if reset then resetTypedCommand else m.typing, pushed := .none }

/-- Without a backquote a call consumes its input, byte after byte. -/
theorem drain_eq {stdin : List UInt8} (h : 96 ∉ stdin) (m : Keys) :
    drain stdin m = ((stdin.foldl consume m).pushed, stdin.foldl consume m, []) := by
  induction stdin generalizing m with
  | nil => rfl
  | cons ch stdin ih =>
      have hch : ch ≠ 96 := fun heq => h (heq ▸ List.mem_cons_self)
      have hstdin : 96 ∉ stdin := fun hmem => h (List.mem_cons_of_mem _ hmem)
      rw [drain, if_neg hch, ih hstdin, List.foldl_cons]

/-- **Calls in a row**: what a call does after the game has come back to it. -/
theorem getCommand_nextCall {stdin : List UInt8} (h : 96 ∉ stdin) (m : Keys) (reset : Bool) :
    getCommand stdin { m with typing := if reset then resetTypedCommand else m.typing } =
      ((stdin.foldl consume (nextCall m reset)).pushed, stdin.foldl consume (nextCall m reset), []) :=
  drain_eq h _

/-! ## The arrow keys -/

section Bytes

variable {m : Keys}

/-- The escape byte is never typed; it starts a sequence in state 0 and ends one elsewhere. -/
theorem consume_escape (m : Keys) : consume m 27 = { m with state := if m.state = 0 then 1 else 0 } := by
  obtain ⟨state, typing, pushed⟩ := m
  match state with
  | 0 => rfl
  | 1 => rfl
  | 2 => rfl
  | 3 => rfl

theorem consume_bracket (h : m.state = 1) : consume m 91 = { m with state := 2 } := by
  rw [consume, h]
  rfl

/-- In state 0 the bracket is nothing. -/
theorem consume_bracket_ground (h : m.state = 0) : consume m 91 = m := by
  rw [consume, h]
  rfl

theorem consume_direction {c : UInt8} {cmd : Cmd} (h : m.state = 2) (hc : direction c = some cmd) :
    consume m c = { m with pushed := cmd, state := 0 } := by
  rw [consume, h, hc]

/-- The bytes of the four arrows are letters. -/
theorem letter_of_direction {c : UInt8} {cmd : Cmd} (hc : direction c = some cmd) :
    validTyping c.toInt8 = true ∧ ¬erases c.toInt8 = true ∧ c ≠ 27 ∧ cmd ≠ .none := by
  unfold direction at hc
  split_ifs at hc with ha hb hc' hd
  all_goals
    obtain rfl := Option.some.inj hc
    subst c
    decide

/-- In state 0 the letter is typed. -/
theorem consume_letter {c : UInt8} {cmd : Cmd} (h : m.state = 0) (hc : direction c = some cmd) :
    consume m c = { m with typing := typedAChar m.typing c.toInt8 (letter_of_direction hc).1 } := by
  obtain ⟨hvalid, -, hescape, -⟩ := letter_of_direction hc
  obtain ⟨state, typing, pushed⟩ := m
  obtain rfl : state = 0 := h
  show (if c = 27 then _ else typeByte _ c) = _
  rw [if_neg hescape, typeByte, dif_pos hvalid]

end Bytes

/-- The calls that end between two bytes, each with or without a reset of the text. -/
def between (m : Keys) (gap : List Bool) : Keys := gap.foldl nextCall m

@[simp] theorem between_nil (m : Keys) : between m [] = m := rfl

@[simp] theorem between_cons (m : Keys) (reset : Bool) (gap : List Bool) :
    between m (reset :: gap) = between (nextCall m reset) gap := rfl

@[simp] theorem between_state (m : Keys) (gap : List Bool) : (between m gap).state = m.state := by
  induction gap generalizing m with
  | nil => rfl
  | cons reset gap ih => rw [between_cons, ih, nextCall]

/-- A call starts with no command pushed. -/
theorem between_pushed (m : Keys) {gap : List Bool} (h : gap ≠ []) : (between m gap).pushed = .none := by
  induction gap generalizing m with
  | nil => exact absurd rfl h
  | cons reset gap ih =>
      by_cases hgap : gap = []
      · subst hgap
        rfl
      · rw [between_cons, ih _ hgap]

/-- **`ArrowRecognised m gap gap' c cmd`** — of the bytes 27, 91, `c` consumed from `m` on, with these calls
ending between them, the last pushes the command and none changes the text. -/
def ArrowRecognised (m : Keys) (gap gap' : List Bool) (c : UInt8) (cmd : Cmd) : Prop :=
  let escaped := consume m 27
  let bracketed := consume (between escaped gap) 91
  let done := consume (between bracketed gap') c
  done.pushed = cmd ∧ escaped.typing = m.typing ∧ bracketed.typing = (between escaped gap).typing ∧
    done.typing = (between bracketed gap').typing

/-- From state 0 the sequence is read. -/
theorem arrowRecognised_of_ground {m : Keys} (hground : m.state = 0) (gap gap' : List Bool) {c : UInt8}
    {cmd : Cmd} (hc : direction c = some cmd) : ArrowRecognised m gap gap' c cmd := by
  have hescaped : (between (consume m 27) gap).state = 1 := by
    rw [between_state, consume_escape, if_pos hground]
  have hbracketed : (between (consume (between (consume m 27) gap) 91) gap').state = 2 := by
    rw [between_state, consume_bracket hescaped]
  refine ⟨?_, ?_, ?_, ?_⟩
  · rw [consume_direction hbracketed hc]
  · rw [consume_escape]
  · rw [consume_bracket hescaped]
  · rw [consume_direction hbracketed hc]

/-- From the other states the escape byte is lost, and the letter is a letter. -/
theorem arrowRecognised_iff_of_pending {m : Keys} (hpending : m.state ≠ 0) (gap gap' : List Bool) {c : UInt8}
    {cmd : Cmd} (hc : direction c = some cmd) :
    ArrowRecognised m gap gap' c cmd ↔
      (between (between (consume m 27) gap) gap').pushed = cmd ∧
      (between (between (consume m 27) gap) gap').typing.text.length = maxTypedLen := by
  have hescaped : (between (consume m 27) gap).state = 0 := by
    rw [between_state, consume_escape, if_neg hpending]
  have hbracketed : consume (between (consume m 27) gap) 91 = between (consume m 27) gap :=
    consume_bracket_ground hescaped
  have hground : (between (between (consume m 27) gap) gap').state = 0 := by rw [between_state, hescaped]
  have hletter := (letter_of_direction hc).2.1
  have hescape : (consume m 27).typing = m.typing := by rw [consume_escape]
  simp only [ArrowRecognised, hbracketed, consume_letter hground hc, typedAChar_eq_iff hletter, hescape,
    true_and]

/-- **When an arrow key is recognised.**  For every state of the machine, whatever was read before, and
whatever calls end between the three bytes: the direction is pushed and the text unchanged exactly if the
escape byte comes in state 0 — or if the text is full, the direction is already pushed and no call ends. -/
theorem arrow_recognised_iff (m : Keys) (gap gap' : List Bool) {c : UInt8} {cmd : Cmd}
    (hc : direction c = some cmd) :
    ArrowRecognised m gap gap' c cmd ↔
      m.state = 0 ∨ (m.typing.text.length = maxTypedLen ∧ m.pushed = cmd ∧ gap = [] ∧ gap' = []) := by
  by_cases hground : m.state = 0
  · exact ⟨fun _ => .inl hground, fun _ => arrowRecognised_of_ground hground gap gap' hc⟩
  · rw [arrowRecognised_iff_of_pending hground gap gap' hc]
    obtain ⟨-, -, -, hcmd⟩ := letter_of_direction hc
    constructor
    · rintro ⟨hpushed, hfull⟩
      -- a call that ends takes the pushed command with it
      have hgap' : gap' = [] := by
        by_contra hne
        exact hcmd (hpushed.symm.trans (between_pushed _ hne))
      subst hgap'
      rw [between_nil] at hpushed hfull
      have hgap : gap = [] := by
        by_contra hne
        exact hcmd (hpushed.symm.trans (between_pushed _ hne))
      subst hgap
      rw [between_nil, consume_escape] at hpushed hfull
      exact .inr ⟨hfull, hpushed, rfl, rfl⟩
    · rintro (hstate | ⟨hfull, hpushed, rfl, rfl⟩)
      · exact absurd hstate hground
      · rw [between_nil, between_nil, consume_escape]
        exact ⟨hpushed, hfull⟩

/-- The up arrow, its last byte in a second call. -/
theorem up_arrow_at_boot : ArrowRecognised bootKeys [] [false] 65 .up :=
  (arrow_recognised_iff bootKeys [] [false] (by decide)).mpr (.inl rfl)

/-- The escape key, then the up arrow: no command, and a letter A. -/
theorem escape_swallows_arrow :
    ¬ArrowRecognised ([27].foldl consume bootKeys) [] [] 65 .up ∧
      (getCommand [27, 27, 91, 65] bootKeys).1 = .none ∧
      (getCommand [27, 27, 91, 65] bootKeys).2.1.typing.text = [65] := by
  refine ⟨?_, by decide, by decide⟩
  rintro ⟨hpushed, -⟩
  exact absurd hpushed (by decide)

end Ece391.Adventure
