/-
# Ece391.Process.Parsing — the accesses of the three parsing loops of `execute_handler`.

`parseName`, `skipSpaces` and `copyArgs` say what the loops compute.  Here are the loops themselves, with
the index they share and every access they make to `command`, `exec` and `args`, the clearing of the two
arrays included.  Only the third loop has a bound; the first copies the word into the 128 bytes of `exec`
however long it is.  (`i` is an `int`, and no string in the memory of this machine is long enough to
overflow it.)

`parseCommand_spec` ties the two descriptions together: the loops terminate on every command, and leave
the name and the arguments that `parseName` and `parseArgs` compute.
-/
import Ece391.Lib.Trace
import Ece391.Process.Arguments

open Ece391.Lib

namespace Ece391

/-! ## The loops -/

/-- The locals of the parser. -/
structure Parser where
  i : Nat
  j : Nat
  exec : Nat → UInt8
  args : Nat → UInt8

/-- A load from `command`, or a store into one of the arrays. -/
inductive ParseAccess
  | command (i : Nat)
  | exec (i : Nat)
  | args (i : Nat)
  deriving DecidableEq, Repr

/-- One turn of `for (i = 0; command[i] != NULL; i++)`, with its `break`. -/
def nameTurn (command : Nat → UInt8) (s : Parser) : Turn Parser ParseAccess :=
  if command s.i = 0 then ⟨false, s, [.command s.i]⟩
  else if command s.i = space ∨ command s.i = newLine then ⟨false, s, [.command s.i]⟩
  else
    ⟨true, { s with exec := Function.update s.exec s.i (command s.i), i := s.i + 1 },
      [.command s.i, .exec s.i]⟩

/-- One turn of `while (command[i] == ' ') i++`. -/
def spaceTurn (command : Nat → UInt8) (s : Parser) : Turn Parser ParseAccess :=
  if command s.i = space then ⟨true, { s with i := s.i + 1 }, [.command s.i]⟩
  else ⟨false, s, [.command s.i]⟩

/-- One turn of `for (j = 0; command[i] != '\0' && i < maxInputLength; j++)`. -/
def argsTurn (command : Nat → UInt8) (s : Parser) : Turn Parser ParseAccess :=
  if command s.i ≠ 0 ∧ s.i < maxInputLength then
    ⟨true, { s with args := Function.update s.args s.j (command s.i), i := s.i + 1, j := s.j + 1 },
      [.command s.i, .args s.j]⟩
  else ⟨false, s, [.command s.i]⟩

/-- The parser after the arrays are cleared, and the stores that clear them. -/
def Parser.cleared : Parser := ⟨0, 0, fun _ => 0, fun _ => 0⟩
def clearLog : List ParseAccess :=
  (List.range keyBufferSize).map .args ++ (List.range keyBufferSize).map .exec

/-- **`parseCommand command fuel`** — the two clearing loops and the three parsing loops; `none` if one
of these makes more than `fuel` turns. -/
def parseCommand (command : Nat → UInt8) (fuel : Nat) : Option (Parser × List ParseAccess) := do
  let r1 ← loop (nameTurn command) fuel .cleared
  let r2 ← loop (spaceTurn command) fuel r1.1
  let r3 ← loop (argsTurn command) fuel { r2.1 with j := 0 }
  some (r3.1, clearLog ++ (r1.2 ++ (r2.2 ++ r3.2)))

/-! ## What they should do -/

/-- The access is inside its array: the string ends at index `n`, the arrays have `size` bytes. -/
def ParseAccess.Within (n size : Nat) : ParseAccess → Prop
  | .command i => i ≤ n
  | .exec i => i < size
  | .args i => i < keyBufferSize

/-- **`ParsesInBounds command`** — the parser comes to its end with every access in bounds and both
arrays terminated. -/
def ParsesInBounds (command : List UInt8) : Prop :=
  ∃ r, (∀ fuel > strlen command, parseCommand (charAt command) fuel = some r) ∧
    (∀ a ∈ r.2, a.Within (strlen command) keyBufferSize) ∧
    (∃ i < keyBufferSize, r.1.exec i = 0) ∧ ∃ i < keyBufferSize, r.1.args i = 0

/-! ## Loop by loop -/

/-- The name is in `exec`, and nothing is in `args`. -/
def Parser.Named (command : List UInt8) (s : Parser) : Prop :=
  s.exec = charAt (command.takeWhile isWord) ∧ s.args = fun _ => 0

/-- The index of the first character behind the word, and that behind the spaces. -/
def wordEnd (command : List UInt8) : Nat := (command.takeWhile isWord).length
def spaceEnd (command : List UInt8) : Nat :=
  wordEnd command + ((command.dropWhile isWord).takeWhile isSpace).length

theorem wordEnd_le (command : List UInt8) : wordEnd command ≤ strlen command :=
  strlen_dropWhile (P := isWord) rfl command ▸ Nat.le_add_right _ _

theorem spaceEnd_le (command : List UInt8) : spaceEnd command ≤ strlen command := by
  have hspaces := strlen_dropWhile (P := isSpace) rfl (command.dropWhile isWord)
  have hword := strlen_dropWhile (P := isWord) rfl command
  unfold spaceEnd wordEnd
  omega

theorem ParseAccess.Within.mono {n size size' : Nat} (hle : size ≤ size') {a : ParseAccess}
    (h : a.Within n size) : a.Within n size' := by
  cases a with
  | command i => exact h
  | exec i => exact Nat.lt_of_lt_of_le h hle
  | args i => exact h

section Loops

variable {command : List UInt8} {fuel : Nat}

/-- The first loop goes on exactly at the characters of a word. -/
theorem nameTurn_eq (command : Nat → UInt8) (s : Parser) :
    nameTurn command s =
      if isWord (command s.i) = true then
        ⟨true, { s with exec := Function.update s.exec s.i (command s.i), i := s.i + 1 },
          [.command s.i, .exec s.i]⟩
      else ⟨false, s, [.command s.i]⟩ := by
  unfold nameTurn
  by_cases hzero : command s.i = 0
  · have hstop : isWord (command s.i) = false := by simp [isWord, hzero]
    rw [if_pos hzero, hstop]
    rfl
  · by_cases hbreak : command s.i = space ∨ command s.i = newLine
    · have hstop : isWord (command s.i) = false := by
        rcases hbreak with h | h
        · simp [isWord, h]
        · simp [isWord, h]
      rw [if_neg hzero, if_pos hbreak, hstop]
      rfl
    · have hword : isWord (command s.i) = true := by
        obtain ⟨hspace, hnl⟩ := not_or.mp hbreak
        simp [isWord, hzero, hspace, hnl]
      rw [if_neg hzero, if_neg hbreak, if_pos hword]

theorem dropWhile_eq_drop (P : UInt8 → Bool) (s : List UInt8) :
    s.dropWhile P = s.drop (s.takeWhile P).length := by
  have hsplit : (s.takeWhile P ++ s.dropWhile P).drop (s.takeWhile P).length = s.dropWhile P :=
    List.drop_left ..
  rw [List.takeWhile_append_dropWhile] at hsplit
  exact hsplit.symm

/-- The first loop copies the word. -/
theorem nameLoop_spec (hfuel : strlen command < fuel) :
    ∃ r, loop (nameTurn (charAt command)) fuel .cleared = some r ∧
      (r.1.i = wordEnd command ∧ r.1.Named command) ∧
      ∀ a ∈ r.2, a.Within (strlen command) (wordEnd command) := by
  have hle := wordEnd_le command
  have hstop : isWord (charAt command (wordEnd command)) = false := charAt_takeWhile_length rfl command
  have hword : ∀ k < wordEnd command, isWord (charAt command k) = true := fun k hk =>
    (charAt_of_lt_takeWhile hk).2
  have hlt : ∀ s : Parser, s.i ≤ wordEnd command →
      isWord (charAt command s.i) = true → s.i < wordEnd command := by
    intro s hi hgo
    rcases Nat.lt_or_eq_of_le hi with hlt | heq
    · exact hlt
    · rw [heq, hstop] at hgo
      cases hgo
  have hname : ∀ k, charAt (command.takeWhile isWord) k =
      if k < wordEnd command then charAt command k else 0 := by
    intro k
    split
    next hk =>
      rw [(charAt_of_lt_takeWhile hk).1, charAt, List.getD_eq_getElem?_getD, List.getElem?_eq_getElem hk,
        Option.getD_some]
    next hk => exact charAt_of_length_le (Nat.not_lt.mp hk)
  refine loop_total (I := fun s : Parser => s.i ≤ wordEnd command ∧
      (∀ k, s.exec k = if k < s.i then charAt command k else 0) ∧ s.args = fun _ => 0)
    (Q := fun s => s.i = wordEnd command ∧ s.Named command) (fun s => strlen command - s.i) ?_ ?_ ?_
    ⟨Nat.zero_le _, fun _ => rfl, rfl⟩ (Nat.lt_of_le_of_lt (Nat.sub_le ..) hfuel)
  · rintro s ⟨hi, -, -⟩ a ha
    have hin : s.i ≤ strlen command := Nat.le_trans hi hle
    rw [nameTurn_eq] at ha
    split at ha
    next hgo =>
      rcases List.mem_cons.mp ha with rfl | ha
      · exact hin
      · obtain rfl := List.mem_singleton.mp ha
        exact hlt s hi hgo
    next =>
      obtain rfl := List.mem_singleton.mp ha
      exact hin
  · rintro s ⟨hi, hexec, hargs⟩ hgo
    rw [nameTurn_eq] at hgo ⊢
    split at hgo
    next hword =>
      have hi' := hlt s hi hword
      rw [if_pos hword]
      refine ⟨⟨hi', ?_, hargs⟩, ?_⟩
      · intro k
        show Function.update s.exec s.i (charAt command s.i) k = if k < s.i + 1 then charAt command k else 0
        rw [Function.update_apply, hexec]
        by_cases hk : k = s.i
        · rw [if_pos hk, if_pos (by omega), hk]
        · rw [if_neg hk]
          by_cases hk' : k < s.i
          · rw [if_pos hk', if_pos (by omega)]
          · rw [if_neg hk', if_neg (by omega)]
      · show strlen command - (s.i + 1) < strlen command - s.i
        omega
    next => cases hgo
  · rintro s ⟨hi, hexec, hargs⟩ hend
    rw [nameTurn_eq] at hend ⊢
    split at hend
    next => cases hend
    next hlast =>
      have heq : s.i = wordEnd command := by
        by_contra hne
        exact hlast (hword s.i (by omega))
      rw [if_neg hlast]
      refine ⟨heq, ?_, hargs⟩
      funext k
      rw [hexec, hname, heq]

/-- The second loop skips the spaces. -/
theorem spaceLoop_spec (hfuel : strlen command < fuel) {s0 : Parser} (hi0 : s0.i = wordEnd command)
    (hs0 : s0.Named command) :
    ∃ r, loop (spaceTurn (charAt command)) fuel s0 = some r ∧
      (r.1.i = spaceEnd command ∧ r.1.Named command) ∧ ∀ a ∈ r.2, a.Within (strlen command) 0 := by
  have hle := spaceEnd_le command
  -- the characters behind the word, by their index in the command
  have hrest : ∀ k, charAt (command.dropWhile isWord) k = charAt command (wordEnd command + k) := by
    intro k
    rw [dropWhile_eq_drop, charAt, List.getD_eq_getElem?_getD, List.getElem?_drop, charAt,
      List.getD_eq_getElem?_getD]
    rfl
  have hstop : charAt command (spaceEnd command) ≠ space := by
    have hlast := charAt_takeWhile_length (P := isSpace) rfl (command.dropWhile isWord)
    rw [hrest] at hlast
    exact beq_eq_false_iff_ne.mp hlast
  have hspace : ∀ i, wordEnd command ≤ i → i < spaceEnd command → charAt command i = space := by
    intro i hword hi
    have hin : i - wordEnd command < ((command.dropWhile isWord).takeWhile isSpace).length := by
      unfold spaceEnd at hi
      omega
    have hchar := (charAt_of_lt_takeWhile hin).2
    rw [hrest, Nat.add_sub_cancel' hword] at hchar
    exact beq_iff_eq.mp hchar
  refine loop_total (I := fun s : Parser => (wordEnd command ≤ s.i ∧ s.i ≤ spaceEnd command) ∧ s.Named command)
    (Q := fun s => s.i = spaceEnd command ∧ s.Named command) (fun s => strlen command - s.i) ?_ ?_ ?_
    ⟨⟨hi0.ge, hi0.le.trans (Nat.le_add_right ..)⟩, hs0⟩ (Nat.lt_of_le_of_lt (Nat.sub_le ..) hfuel)
  · rintro s ⟨⟨-, hi⟩, -⟩ a ha
    have hlog : (spaceTurn (charAt command) s).log = [.command s.i] := by
      unfold spaceTurn
      split
      · rfl
      · rfl
    rw [hlog, List.mem_singleton] at ha
    subst ha
    exact Nat.le_trans hi hle
  · rintro s ⟨⟨hword, hi⟩, hnamed⟩ hgo
    unfold spaceTurn at hgo ⊢
    split at hgo
    next hsp =>
      have hlt : s.i < spaceEnd command := Nat.lt_of_le_of_ne hi fun heq => hstop (heq ▸ hsp)
      rw [if_pos hsp]
      refine ⟨⟨⟨Nat.le_succ_of_le hword, hlt⟩, hnamed⟩, ?_⟩
      show strlen command - (s.i + 1) < strlen command - s.i
      omega
    next => cases hgo
  · rintro s ⟨⟨hword, hi⟩, hnamed⟩ hend
    unfold spaceTurn at hend ⊢
    split at hend
    next => cases hend
    next hsp =>
      rw [if_neg hsp]
      refine ⟨?_, hnamed⟩
      by_contra hne
      exact hsp (hspace s.i hword (Nat.lt_of_le_of_ne hi hne))

/-- `copyArgs` on the rest of the command, by the index of its first character. -/
theorem copyArgs_drop (command : List UInt8) (i j : Nat) (args : Nat → UInt8) :
    copyArgs (command.drop i) i j args =
      if charAt command i ≠ 0 ∧ i < maxInputLength then
        copyArgs (command.drop (i + 1)) (i + 1) (j + 1) (Function.update args j (charAt command i))
      else args := by
  by_cases hi : i < command.length
  · have hchar : charAt command i = command[i] := by simp [charAt, hi]
    rw [List.drop_eq_getElem_cons hi, copyArgs, hchar]
  · have hzero := charAt_of_length_le (Nat.not_lt.mp hi)
    rw [List.drop_eq_nil_of_le (Nat.not_lt.mp hi), copyArgs, if_neg fun h => h.1 hzero]

/-- The third loop copies the arguments. -/
theorem argsLoop_spec (hfuel : strlen command < fuel) {s0 : Parser} (hi0 : s0.i = spaceEnd command)
    (hs0 : s0.Named command) (hj0 : s0.j = 0) :
    ∃ r, loop (argsTurn (charAt command)) fuel s0 = some r ∧
      (r.1.exec = charAt (command.takeWhile isWord) ∧ r.1.args = (parseArgs command).byte) ∧
      ∀ a ∈ r.2, a.Within (strlen command) 0 := by
  have hle := spaceEnd_le command
  have hbyte : (parseArgs command).byte =
      copyArgs (command.drop (spaceEnd command)) (spaceEnd command) 0 fun _ => 0 := by
    have hdrop : (command.dropWhile isWord).dropWhile isSpace = command.drop (spaceEnd command) := by
      rw [dropWhile_eq_drop isSpace, dropWhile_eq_drop isWord, List.drop_drop, spaceEnd, wordEnd,
        dropWhile_eq_drop isWord]
    simp only [parseArgs, parseName_eq, skipSpaces_eq, hdrop]
    rfl
  -- what is left to do gives the same arguments
  refine loop_total (I := fun s : Parser => (s.j ≤ s.i ∧ s.i ≤ strlen command) ∧
      s.exec = charAt (command.takeWhile isWord) ∧
      copyArgs (command.drop s.i) s.i s.j s.args = (parseArgs command).byte)
    (Q := fun s => s.exec = charAt (command.takeWhile isWord) ∧ s.args = (parseArgs command).byte)
    (fun s => strlen command - s.i) ?_ ?_ ?_
    ⟨⟨hj0 ▸ Nat.zero_le _, hi0.le.trans hle⟩, hs0.1, ?_⟩ (Nat.lt_of_le_of_lt (Nat.sub_le ..) hfuel)
  · rintro s ⟨⟨hj, hi⟩, -⟩ a ha
    unfold argsTurn at ha
    split at ha
    next hgo =>
      rcases List.mem_cons.mp ha with rfl | ha
      · exact hi
      · obtain rfl := List.mem_singleton.mp ha
        exact Nat.lt_of_le_of_lt hj (Nat.lt_trans hgo.2 (by decide))
    next =>
      obtain rfl := List.mem_singleton.mp ha
      exact hi
  · rintro s ⟨⟨hj, hi⟩, hexec, hrest⟩ hgo
    rw [copyArgs_drop] at hrest
    unfold argsTurn at hgo ⊢
    split at hgo
    next hmore =>
      have hlt : s.i < strlen command :=
        Nat.lt_of_le_of_ne hi fun heq => hmore.1 (heq ▸ charAt_strlen command)
      rw [if_pos hmore] at hrest ⊢
      refine ⟨⟨⟨Nat.succ_le_succ hj, hlt⟩, hexec, hrest⟩, ?_⟩
      show strlen command - (s.i + 1) < strlen command - s.i
      omega
    next => cases hgo
  · rintro s ⟨-, hexec, hrest⟩ hend
    rw [copyArgs_drop] at hrest
    unfold argsTurn at hend ⊢
    split at hend
    next => cases hend
    next hmore =>
      rw [if_neg hmore] at hrest ⊢
      exact ⟨hexec, hrest⟩
  · rw [hi0, hj0, hs0.2]
    exact hbyte.symm

/-- **The parser on a whole command**: it terminates, its result is the name and the arguments, and
every access is in bounds but for the word in `exec`. -/
theorem parseCommand_spec (command : List UInt8) :
    ∃ r, (∀ fuel > strlen command, parseCommand (charAt command) fuel = some r) ∧
      r.1.exec = charAt (parseName command).1 ∧ r.1.args = (parseArgs command).byte ∧
      ∀ a ∈ r.2, a.Within (strlen command) (max keyBufferSize (wordEnd command)) := by
  have hfuel : strlen command < strlen command + 1 := Nat.lt_succ_self _
  obtain ⟨r1, hr1, ⟨hi1, hnamed1⟩, hlog1⟩ := nameLoop_spec hfuel
  obtain ⟨r2, hr2, ⟨hi2, hnamed2⟩, hlog2⟩ := spaceLoop_spec hfuel hi1 hnamed1
  have hi3 : ({ r2.1 with j := 0 } : Parser).i = spaceEnd command := hi2
  obtain ⟨r3, hr3, ⟨hexec, hargs⟩, hlog3⟩ := argsLoop_spec hfuel hi3 hnamed2 rfl
  refine ⟨(r3.1, clearLog ++ (r1.2 ++ (r2.2 ++ r3.2))), fun fuel hmore => ?_, ?_, hargs, ?_⟩
  · simp only [parseCommand, loop_mono hmore hr1, loop_mono hmore hr2, loop_mono hmore hr3,
      Option.bind_eq_bind, Option.bind_some]
  · rw [parseName_eq]
    exact hexec
  · intro a ha
    rcases List.mem_append.mp ha with hclear | ha
    · rcases List.mem_append.mp hclear with hargs | hexec
      · obtain ⟨i, hi, rfl⟩ := List.mem_map.mp hargs
        exact List.mem_range.mp hi
      · obtain ⟨i, hi, rfl⟩ := List.mem_map.mp hexec
        exact Nat.lt_of_lt_of_le (List.mem_range.mp hi) (Nat.le_max_left ..)
    rcases List.mem_append.mp ha with hname | ha
    · exact (hlog1 a hname).mono (Nat.le_max_right ..)
    rcases List.mem_append.mp ha with hspace | harg
    · exact (hlog2 a hspace).mono (Nat.zero_le _)
    · exact (hlog3 a harg).mono (Nat.zero_le _)

end Loops

/-- **When the parser stays inside its buffers.**  For every command string, of any length and content:
exactly if its first word has at most 127 characters. -/
theorem parses_in_bounds_iff (command : List UInt8) :
    ParsesInBounds command ↔ (command.takeWhile isWord).length ≤ 127 := by
  obtain ⟨r, hrun, hexec, hargs, hlog⟩ := parseCommand_spec command
  rw [parseName_eq] at hexec
  constructor
  · rintro ⟨r', hrun', -, ⟨i, hi, hnul⟩, -⟩
    -- the word has no NUL in it, so it cannot fill the array
    have hsame : r = r' := Option.some.inj ((hrun _ (Nat.lt_succ_self _)).symm.trans
      (hrun' _ (Nat.lt_succ_self _)))
    rw [← hsame, hexec] at hnul
    by_contra hlong
    have hin : i < (command.takeWhile isWord).length := by
      unfold keyBufferSize at hi
      omega
    obtain ⟨hchar, hword⟩ := charAt_of_lt_takeWhile hin
    rw [charAt, List.getD_eq_getElem?_getD, List.getElem?_eq_getElem hin, Option.getD_some,
      ← hchar] at hnul
    rw [hnul] at hword
    cases hword
  · intro hshort
    refine ⟨r, hrun, fun a ha => (hlog a ha).mono ?_, ⟨(command.takeWhile isWord).length, ?_, ?_⟩, ?_⟩
    · unfold wordEnd keyBufferSize
      omega
    · unfold keyBufferSize
      omega
    · rw [hexec]
      exact charAt_of_length_le (Nat.le_refl _)
    · refine ⟨keyBufferSize - 1, by decide, ?_⟩
      rw [hargs]
      exact (parseArgs command).terminated

/-- A word of 129 characters: the last one is stored behind the end of `exec`. -/
theorem long_word_overflows :
    ¬ ParsesInBounds (List.replicate 129 97) ∧
    ∃ r, parseCommand (charAt (List.replicate 129 97)) 130 = some r ∧ ParseAccess.exec 128 ∈ r.2 := by
  have hstore : (parseCommand (charAt (List.replicate 129 97)) 130).map
      (fun r => decide (ParseAccess.exec 128 ∈ r.2)) = some true := by
    decide +kernel
  obtain ⟨r, hr, hmem⟩ := Option.map_eq_some_iff.mp hstore
  refine ⟨?_, r, hr, of_decide_eq_true hmem⟩
  rintro ⟨r', hrun, hlog, -⟩
  have hlen : strlen (List.replicate 129 97) = 129 := by decide +kernel
  obtain rfl := Option.some.inj (hr.symm.trans (hrun 130 (by rw [hlen]; decide)))
  exact absurd (hlog _ (of_decide_eq_true hmem)) (Nat.lt_irrefl 128)

end Ece391
