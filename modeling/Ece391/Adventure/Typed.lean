/-
# Ece391.Adventure.Typed — what a typed line means (`handle_typing` of `mp2/adventure.c`).

The line is split at its spaces into a verb and an argument, and the verb is looked up in a table of names,
each with the least number of letters that stand for it.  The loop takes the first entry that matches.

The order of the table does not matter: the least numbers are such that no text matches the names of two
commands (`cmdList_unambiguous`).  `Understood` is the grammar of a line — spaces, an abbreviation of a name in
any letter case, and after at least one space the argument — and `understands_iff` says that `handle_typing`
accepts this and nothing else.
-/
import Ece391.Adventure.Commands
import Ece391.Adventure.Input
import Mathlib.Data.List.TakeWhile

namespace Ece391.Adventure

/-! ## The table -/

/-- `typed_cmd_t`. -/
structure TypedCmd where
  name : String
  minLen : Nat
  cmd : Verb
  deriving DecidableEq

def cmdList : List TypedCmd :=
  [⟨"buy", 3, .buy⟩,
   ⟨"charge", 2, .charge⟩,
   ⟨"do", 2, .do⟩,
   ⟨"drink", 3, .drink⟩,
   ⟨"drop", 2, .drop⟩,
   ⟨"fix", 3, .fix⟩,
   ⟨"flash", 5, .flash⟩,
   ⟨"get", 1, .get⟩,
   ⟨"go", 2, .go⟩,
   ⟨"grab", 2, .get⟩,
   ⟨"install", 3, .install⟩,
   ⟨"inventory", 1, .inventory⟩,
   ⟨"sigh", 4, .sigh⟩,
   ⟨"use", 3, .use⟩,
   ⟨"wear", 4, .wear⟩]

/-- `strncasecmp (s, t, n) == 0`; the end of a list is the NUL. -/
def strncasecmp (s t : List Char) (n : Nat) : Bool := (s.take n).map Char.toLower == (t.take n).map Char.toLower

/-- The two tests of the loop over the commands. -/
def TypedCmd.Matches (entry : TypedCmd) (verb : List Char) : Prop :=
  entry.minLen ≤ verb.length ∧ strncasecmp entry.name.toList verb verb.length = true

instance (entry : TypedCmd) (verb : List Char) : Decidable (entry.Matches verb) := by
  unfold TypedCmd.Matches; infer_instance

/-- The loop over the commands: the first entry that matches. -/
def findVerb (verb : List Char) : Option Verb :=
  (cmdList.find? fun entry => entry.Matches verb).map TypedCmd.cmd

/-! ## Splitting the line -/

/-- `while (' ' == *cmd) { cmd++; }` -/
def stripSpaces (s : List Char) : List Char := s.dropWhile (· == ' ')

/-- **`splitCommand`** — the verb and the argument, nothing for a line of spaces. -/
def splitCommand (line : List Char) : Option (List Char × List Char) :=
  let cmd := stripSpaces line
  if cmd = [] then none
  else some (cmd.takeWhile (· != ' '), stripSpaces (cmd.dropWhile (· != ' ')))

/-- The characters of `get_typed_command`. -/
def Typing.chars (typing : Typing) : List Char := typing.text.map fun c => Char.ofNat c.toUInt8.toNat

/-! ## The table is unambiguous -/

/-- An abbreviation of the name: long enough, no longer than the name, and the same letters. -/
def TypedCmd.Abbreviates (verb : List Char) (entry : TypedCmd) : Prop :=
  entry.minLen ≤ verb.length ∧ verb.map Char.toLower <+: entry.name.toList

/-- Names are in lower case and not shorter than their least number. -/
theorem cmdList_names : ∀ entry ∈ cmdList,
    entry.name.toList.map Char.toLower = entry.name.toList ∧ 0 < entry.minLen := by
  decide

/-- The tests say that the verb abbreviates the name. -/
theorem matches_iff {entry : TypedCmd} (h : entry ∈ cmdList) (verb : List Char) :
    entry.Matches verb ↔ TypedCmd.Abbreviates verb entry := by
  unfold TypedCmd.Matches TypedCmd.Abbreviates strncasecmp
  have hlower := (cmdList_names entry h).1
  rw [beq_iff_eq, List.take_length, List.map_take, hlower]
  refine and_congr_right fun _ => ⟨fun heq => ?_, fun hprefix => ?_⟩
  · rw [← heq]
    exact List.take_prefix _ _
  · have heq := List.prefix_iff_eq_take.mp hprefix
    rw [List.length_map] at heq
    exact heq.symm

/-- How many letters two names have in common from the start. -/
def common : List Char → List Char → Nat
  | a :: s, b :: t => if a = b then common s t + 1 else 0
  | _, _ => 0

theorem length_le_common {u s t : List Char} (hs : u <+: s) (ht : u <+: t) : u.length ≤ common s t := by
  induction u generalizing s t with
  | nil => exact Nat.zero_le _
  | cons c u ih =>
      obtain ⟨s', rfl⟩ := hs
      obtain ⟨t', rfl⟩ := ht
      have hrest : u.length ≤ common (u ++ s') (u ++ t') := ih (List.prefix_append _ _) (List.prefix_append _ _)
      simp only [List.cons_append, common, if_true, List.length_cons]
      omega

/-- Two names of different commands part before the least number of one of them. -/
theorem cmdList_apart : ∀ e ∈ cmdList, ∀ e' ∈ cmdList,
    e.cmd ≠ e'.cmd → common e.name.toList e'.name.toList < max e.minLen e'.minLen := by
  decide

/-- **No verb matches the names of two commands.** -/
theorem cmdList_unambiguous {e e' : TypedCmd} (he : e ∈ cmdList) (he' : e' ∈ cmdList) {verb : List Char}
    (h : e.Matches verb) (h' : e'.Matches verb) : e.cmd = e'.cmd := by
  by_contra hne
  have hcommon := cmdList_apart e he e' he' hne
  obtain ⟨hlen, hprefix⟩ := (matches_iff he verb).mp h
  obtain ⟨hlen', hprefix'⟩ := (matches_iff he' verb).mp h'
  have hle := length_le_common hprefix hprefix'
  rw [List.length_map] at hle
  omega

/-- The loop finds the command of any entry that matches. -/
theorem findVerb_eq_some_iff {verb : List Char} {cmd : Verb} :
    findVerb verb = some cmd ↔ ∃ e ∈ cmdList, e.cmd = cmd ∧ TypedCmd.Abbreviates verb e := by
  constructor
  · intro h
    obtain ⟨e, he, rfl⟩ := Option.map_eq_some_iff.mp h
    have hmem := List.mem_of_find?_eq_some he
    have hmatches := List.find?_some (p := fun entry : TypedCmd => decide (entry.Matches verb)) he
    exact ⟨e, hmem, rfl, (matches_iff hmem verb).mp (of_decide_eq_true hmatches)⟩
  · rintro ⟨e, hmem, rfl, habbr⟩
    have hmatches := (matches_iff hmem verb).mpr habbr
    obtain ⟨found, hfound⟩ := Option.isSome_iff_exists.mp
      (List.find?_isSome.mpr ⟨e, hmem, decide_eq_true hmatches⟩ :
        (cmdList.find? fun entry => entry.Matches verb).isSome)
    have hfirst := List.find?_some (p := fun entry : TypedCmd => decide (entry.Matches verb)) hfound
    rw [findVerb, hfound, Option.map_some,
      cmdList_unambiguous (List.mem_of_find?_eq_some hfound) hmem (of_decide_eq_true hfirst) hmatches]

/-! ## The grammar of a line -/

/-- Spaces. -/
def Blank (s : List Char) : Prop := ∀ c ∈ s, c = ' '

/-- **`Understood line cmd arg`** — spaces, an abbreviation without spaces, and the argument, which is preceded
by spaces or missing. -/
structure Understood (line : List Char) (cmd : Verb) (arg : List Char) : Prop where
  parts : ∃ lead verb gap, line = lead ++ verb ++ gap ++ arg ∧ Blank lead ∧ Blank gap ∧ ' ' ∉ verb ∧
    (arg = [] ∨ gap ≠ []) ∧ ∃ e ∈ cmdList, e.cmd = cmd ∧ TypedCmd.Abbreviates verb e
  stripped : arg.head? ≠ some ' '

section Split

variable {s t : List Char}

theorem stripSpaces_append (h : Blank s) : stripSpaces (s ++ t) = stripSpaces t :=
  List.dropWhile_append_of_pos fun c hc => beq_iff_eq.mpr (h c hc)

theorem stripSpaces_of_head (h : s.head? ≠ some ' ') : stripSpaces s = s := by
  cases s with
  | nil => rfl
  | cons c s =>
      have hc : c ≠ ' ' := fun heq => h (by rw [heq]; rfl)
      exact List.dropWhile_cons_of_neg (by simpa using hc)

theorem head_stripSpaces (s : List Char) : (stripSpaces s).head? ≠ some ' ' := by
  intro h
  have hfails := List.head?_dropWhile_not (fun c : Char => c == ' ') s
  rw [show (s.dropWhile fun c => c == ' ') = stripSpaces s from rfl, h] at hfails
  exact absurd hfails (by decide)

theorem blank_takeWhile (s : List Char) : Blank (s.takeWhile (· == ' ')) := by
  intro c hc
  have hspace := List.mem_takeWhile_imp hc
  exact beq_iff_eq.mp hspace

/-- A line is what is skipped, the verb, what is skipped before the argument, and the argument. -/
theorem splitCommand_eq_some_iff {line verb arg : List Char} :
    splitCommand line = some (verb, arg) ↔ ∃ lead gap, line = lead ++ verb ++ gap ++ arg ∧ Blank lead ∧
      Blank gap ∧ ' ' ∉ verb ∧ verb ≠ [] ∧ (arg = [] ∨ gap ≠ []) ∧ arg.head? ≠ some ' ' := by
  constructor
  · intro h
    unfold splitCommand at h
    dsimp only at h
    split at h
    · cases h
    next hne =>
      obtain ⟨rfl, rfl⟩ := Prod.mk.inj (Option.some.inj h)
      have hrest : ((stripSpaces line).dropWhile (· != ' ')).head? = none ∨
          ((stripSpaces line).dropWhile (· != ' ')).head? = some ' ' := by
        have hstop := List.head?_dropWhile_not (fun c : Char => c != ' ') (stripSpaces line)
        cases hhead : ((stripSpaces line).dropWhile fun c => c != ' ').head? with
        | none => exact .inl rfl
        | some c =>
            rw [hhead] at hstop
            exact .inr (by simpa using hstop)
      refine ⟨line.takeWhile (· == ' '), ((stripSpaces line).dropWhile (· != ' ')).takeWhile (· == ' '), ?_,
        blank_takeWhile _, blank_takeWhile _, fun hmem => ?_, fun hverb => ?_, ?_, head_stripSpaces _⟩
      · have hcmd : line.takeWhile (· == ' ') ++ stripSpaces line = line := List.takeWhile_append_dropWhile
        have hrest : ∀ s : List Char, s.takeWhile (· == ' ') ++ stripSpaces s = s := fun _ =>
          List.takeWhile_append_dropWhile
        rw [List.append_assoc, hrest, List.append_assoc, List.takeWhile_append_dropWhile, hcmd]
      · have hnot := List.mem_takeWhile_imp hmem
        exact absurd hnot (by decide)
      · -- the first character is no space
        cases hcmd : stripSpaces line with
        | nil => exact hne hcmd
        | cons c cmd =>
            have hc : c ≠ ' ' := fun heq => head_stripSpaces line (by rw [hcmd, heq]; rfl)
            rw [hcmd, List.takeWhile_cons_of_pos (by simpa using hc)] at hverb
            cases hverb
      · rcases hrest with hrest | hrest
        · rw [List.head?_eq_none_iff.mp hrest]
          exact .inl rfl
        · obtain ⟨tail, htail⟩ := List.head?_eq_some_iff.mp hrest
          rw [htail]
          exact .inr nofun
  · rintro ⟨lead, gap, rfl, hlead, hgap, hverb, hne, hsep, hstripped⟩
    obtain ⟨c, verb', rfl⟩ := List.exists_cons_of_ne_nil hne
    have hc : c ≠ ' ' := fun heq => hverb (heq ▸ List.mem_cons_self)
    have hstrip : stripSpaces (lead ++ (c :: verb') ++ gap ++ arg) = (c :: verb') ++ (gap ++ arg) := by
      rw [List.append_assoc, List.append_assoc, stripSpaces_append hlead]
      exact stripSpaces_of_head fun heq => hc (Option.some.inj heq)
    have hstop : (gap ++ arg).takeWhile (· != ' ') = [] ∧ (gap ++ arg).dropWhile (· != ' ') = gap ++ arg := by
      cases gap with
      | nil =>
          obtain rfl := hsep.resolve_right fun h => h rfl
          exact ⟨rfl, rfl⟩
      | cons d gap =>
          obtain rfl := hgap d List.mem_cons_self
          exact ⟨rfl, rfl⟩
    have hall : ∀ d ∈ c :: verb', (d != ' ') = true := fun d hd => by
      simpa using fun heq : d = ' ' => hverb (heq ▸ hd)
    unfold splitCommand
    dsimp only
    rw [hstrip, if_neg nofun, List.takeWhile_append_of_pos hall, List.dropWhile_append_of_pos hall, hstop.1,
      hstop.2, List.append_nil, stripSpaces_append hgap, stripSpaces_of_head hstripped]

end Split

/-- **`understand`** — what `handle_typing` makes of a line: the command and its argument. -/
def understand (line : List Char) : Option (Verb × List Char) :=
  (splitCommand line).bind fun (verb, arg) => (findVerb verb).map fun cmd => (cmd, arg)

/-- **The grammar of the typed commands.**  A line is taken for a command with an argument exactly if it is
some spaces, an abbreviation of a name of that command in any letter case, at least one space if an argument
follows, and the argument. -/
theorem understand_iff (line : List Char) (cmd : Verb) (arg : List Char) :
    understand line = some (cmd, arg) ↔ Understood line cmd arg := by
  constructor
  · intro h
    obtain ⟨⟨verb, arg'⟩, hsplit, h⟩ := Option.bind_eq_some_iff.mp h
    obtain ⟨cmd', hfind, heq⟩ := Option.map_eq_some_iff.mp h
    obtain ⟨rfl, rfl⟩ := heq
    obtain ⟨lead, gap, hline, hlead, hgap, hverb, -, hsep, hstripped⟩ := splitCommand_eq_some_iff.mp hsplit
    exact ⟨⟨lead, verb, gap, hline, hlead, hgap, hverb, hsep, findVerb_eq_some_iff.mp hfind⟩, hstripped⟩
  · rintro ⟨⟨lead, verb, gap, hline, hlead, hgap, hverb, hsep, hentry⟩, hstripped⟩
    have hne : verb ≠ [] := by
      obtain ⟨e, he, -, hlen, -⟩ := hentry
      have hpos := (cmdList_names e he).2
      exact List.ne_nil_of_length_pos (by omega)
    have hsplit := splitCommand_eq_some_iff.mpr
      ⟨lead, gap, hline, hlead, hgap, hverb, hne, hsep, hstripped⟩
    rw [understand, hsplit, Option.bind_some]
    exact Option.map_eq_some_iff.mpr ⟨cmd, findVerb_eq_some_iff.mpr hentry, rfl⟩

/-- The argument keeps its spaces, but for the first ones. -/
example : understand "  In  the fish ".toList = some (.inventory, "the fish ".toList) := by decide

/-! ## From the keyboard -/

/-- What can stand in the text is no key of its own. -/
theorem plain_of_printable {c : UInt8} (h : printable c.toInt8 = true) :
    validTyping c.toInt8 = true ∧ ¬erases c.toInt8 = true ∧ c ≠ 96 ∧ c ≠ 27 := by
  have hall : ∀ n : Fin 256, printable (UInt8.ofNat n).toInt8 = true →
      validTyping (UInt8.ofNat n).toInt8 = true ∧ ¬erases (UInt8.ofNat n).toInt8 = true ∧
        UInt8.ofNat n ≠ 96 ∧ UInt8.ofNat n ≠ 27 := by
    decide +kernel
  have hc := hall ⟨c.toNat, c.toNat_lt⟩
  rw [UInt8.ofNat_toNat] at hc
  exact hc h

/-- Text in front of the rest of the input, with room for it. -/
theorem drain_text {text : List UInt8} (htext : ∀ c ∈ text, printable c.toInt8 = true) {m : Keys}
    (hground : m.state = 0) (hroom : m.typing.text.length + text.length ≤ maxTypedLen) (rest : List UInt8) :
    ∃ typing : Typing, typing.text = m.typing.text ++ text.map UInt8.toInt8 ∧
      drain (text ++ rest) m = drain rest { m with typing := typing } := by
  induction text generalizing m with
  | nil => exact ⟨m.typing, (List.append_nil _).symm, rfl⟩
  | cons c text ih =>
      obtain ⟨hvalid, herase, hquit, hescape⟩ := plain_of_printable (htext c List.mem_cons_self)
      rw [List.length_cons] at hroom
      have htyped : (typedAChar m.typing c.toInt8 hvalid).text = m.typing.text ++ [c.toInt8] := by
        rw [typedAChar, dif_neg herase, dif_pos (by omega)]
      have hconsume : consume m c = { m with typing := typedAChar m.typing c.toInt8 hvalid } := by
        obtain ⟨state, typing, pushed⟩ := m
        obtain rfl : state = 0 := hground
        show (if c = 27 then _ else typeByte _ c) = _
        rw [if_neg hescape, typeByte, dif_pos hvalid]
      obtain ⟨typing, htyping, hdrain⟩ := ih (m := consume m c) (fun d hd => htext d (List.mem_cons_of_mem c hd))
        (by rw [hconsume]; exact hground) (by rw [hconsume, htyped, List.length_append, List.length_singleton]; omega)
      refine ⟨typing, ?_, ?_⟩
      · rw [htyping, hconsume, htyped, List.append_assoc]
        rfl
      · rw [List.cons_append, drain, if_neg hquit, hdrain, hconsume]

/-- **A line from the keyboard.**  Outside an escape sequence, letters, digits and spaces that fit the line, and a
newline, are one typed command; what it means is what the grammar says of the text, together with what was
typed before. -/
theorem typed_line_understood {m : Keys} (hground : m.state = 0) {text : List UInt8}
    (htext : ∀ c ∈ text, printable c.toInt8 = true)
    (hroom : m.typing.text.length + text.length ≤ maxTypedLen) :
    ∃ m', getCommand (text ++ [10]) m = (.typed, m', []) ∧ m'.state = 0 ∧
      ∀ cmd arg, understand m'.typing.chars = some (cmd, arg) ↔
        Understood (m.typing.chars ++ text.map fun c => Char.ofNat c.toNat) cmd arg := by
  obtain ⟨typing, htyping, hdrain⟩ := drain_text (m := { m with pushed := .none }) htext hground hroom [10]
  have hchars : typing.chars = m.typing.chars ++ text.map fun c => Char.ofNat c.toNat := by
    change typing.text = m.typing.text ++ _ at htyping
    rw [Typing.chars, Typing.chars, htyping, List.map_append, List.map_map]
    simp
  refine ⟨{ m with typing := typing, pushed := .typed }, ?_, hground, fun cmd arg => ?_⟩
  · obtain ⟨state, typing', pushed⟩ := m
    obtain rfl : state = 0 := hground
    exact hdrain
  · rw [← hchars]
    exact understand_iff _ cmd arg

/-- `GO campus`, on an empty line. -/
theorem go_campus_understood : ∃ m', getCommand ([71, 79, 32, 99, 97, 109, 112, 117, 115] ++ [10]) bootKeys =
    (.typed, m', []) ∧ m'.state = 0 ∧ ∀ cmd arg, understand m'.typing.chars = some (cmd, arg) ↔
      Understood (bootKeys.typing.chars ++
        [71, 79, 32, 99, 97, 109, 112, 117, 115].map fun c : UInt8 => Char.ofNat c.toNat) cmd arg :=
  typed_line_understood rfl (List.all_eq_true.mp rfl) (by decide)

end Ece391.Adventure
