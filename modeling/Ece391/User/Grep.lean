/-
# Ece391.User.Grep — the line buffer of `grep`.

`do_one_file` reads a file through a buffer of 1024 bytes.  The complete lines in it are searched where they
stand, each closed by a NUL in the place of its newline; what is left of an incomplete one is moved to the
front with `ece391_strcpy`, and the next read continues behind it.

The text is what the reads deliver (`World.fileText`): the file and the byte behind its end.  The invariant
of the outer loop is that the buffer begins with the part of a line, that no newline is left in it, and that
what has been written so far and the report on the rest of the text make the report on the whole text.
The rest of the buffer is memory no one has initialised; the loop looks at one byte of it, and a newline
there would end the line.
-/
import Mathlib.Data.List.Infix
import Ece391.User.Calls

namespace Ece391

/-! ## `ece391support.c` -/

/-- The loop of `ece391_strncmp`, `n` comparisons left, at index `i`. -/
def ece391StrncmpFrom (s1 s2 : Nat → UInt8) : Nat → Nat → Int
  | 0, _ => 0
  | n + 1, i =>
      if s1 i = s2 i then
        if s1 i = 0 ∨ n = 0 then 0 else ece391StrncmpFrom s1 s2 n (i + 1)
      else ((s1 i).toNat : Int) - (s2 i).toNat

/-- `ece391_strncmp`. -/
def ece391Strncmp (s1 s2 : Nat → UInt8) (n : Nat) : Int :=
  if n = 0 then 0 else ece391StrncmpFrom s1 s2 n 0

/-- `ece391_strcpy(data, data + src)` in one buffer, at index `i`; the fuel is the distance to the end of the
buffer. -/
def ece391StrcpyFrom (src : Nat) : Nat → Nat → (Nat → UInt8) → Nat → UInt8
  | 0, _, data => data
  | n + 1, i, data =>
      let c := data (src + i)
      if c = 0 then Function.update data i c
      else ece391StrcpyFrom src n (i + 1) (Function.update data i c)

theorem ece391StrncmpFrom_eq_zero_iff (s1 s2 : Nat → UInt8) (n i : Nat) :
    ece391StrncmpFrom s1 s2 n i = 0 ↔ ∀ j < n, (∀ l < j, s1 (i + l) ≠ 0) → s1 (i + j) = s2 (i + j) := by
  have hkernel := strncmpFrom_eq_zero_iff s1 s2 n i
  rw [← hkernel]
  clear hkernel
  induction n generalizing i with
  | zero => rfl
  | succ n ih =>
      rw [ece391StrncmpFrom, strncmpFrom]
      by_cases heq : s1 i = s2 i
      · by_cases hz : s1 i = 0
        · rw [if_pos heq, if_pos (Or.inl hz), if_pos (Or.inr hz), heq, Int.sub_self]
        · rw [if_pos heq, if_neg (not_or.mpr ⟨not_not.mpr heq, hz⟩)]
          by_cases hn : n = 0
          · subst hn
            rw [if_pos (Or.inr rfl)]
            rfl
          · rw [if_neg (not_or.mpr ⟨hz, hn⟩)]
            exact ih (i + 1)
      · rw [if_neg heq, if_pos (Or.inl heq)]
        have hne : (s1 i).toNat ≠ (s2 i).toNat := fun h => heq (UInt8.toNat_inj.mp h)
        constructor
        · intro h
          omega
        · intro h
          exact absurd (s8_toNat_injective (Int.sub_eq_zero.mp h)) heq

/-- Two strings compare equal if the second stands at the start of the first. -/
theorem ece391Strncmp_eq_zero_iff (s1 : Nat → UInt8) (s : List UInt8) :
    ece391Strncmp s1 (charAt s) (strlen s) = 0 ↔ ∀ j < strlen s, s1 j = charAt s j := by
  have hloop := ece391StrncmpFrom_eq_zero_iff s1 (charAt s) (strlen s) 0
  simp only [Nat.zero_add] at hloop
  have hzero : ece391Strncmp s1 (charAt s) (strlen s) = 0 ↔
      ece391StrncmpFrom s1 (charAt s) (strlen s) 0 = 0 := by
    unfold ece391Strncmp
    split
    next hn => simp [hn, ece391StrncmpFrom]
    next => rfl
  rw [hzero, hloop]
  constructor
  · intro h j hj
    induction j using Nat.strong_induction_on with
    | _ j ih =>
        refine h j hj fun l hl => ?_
        rw [ih l hl (Nat.lt_trans hl hj)]
        exact (charAt_of_lt_strlen (Nat.lt_trans hl hj)).2
  · intro h j hj _
    exact h j hj

/-- The copy to the front of the buffer: the bytes up to the first NUL. -/
theorem ece391StrcpyFrom_eq {src : Nat} (hsrc : 0 < src) (data : Nat → UInt8) (n i : Nat) :
    ∃ m, ece391StrcpyFrom src n i (fun k => if k < i then data (src + k) else data k) =
        (fun k => if k < m then data (src + k) else data k) ∧ i ≤ m ∧
      (m = i + n ∨ i < m ∧ data (src + (m - 1)) = 0) := by
  induction n generalizing i with
  | zero => exact ⟨i, rfl, Nat.le_refl i, Or.inl rfl⟩
  | succ n ih =>
      have hread : (if src + i < i then data (src + (src + i)) else data (src + i)) = data (src + i) :=
        if_neg (by omega)
      have hstore : Function.update (fun k => if k < i then data (src + k) else data k) i (data (src + i)) =
          fun k => if k < i + 1 then data (src + k) else data k := by
        funext k
        by_cases hk : k = i
        · subst hk
          rw [Function.update_self, if_pos (Nat.lt_succ_self k)]
        · rw [Function.update_of_ne hk]
          by_cases hlt : k < i
          · rw [if_pos hlt, if_pos (by omega)]
          · rw [if_neg hlt, if_neg (by omega)]
      rw [ece391StrcpyFrom, hread, hstore]
      by_cases hz : data (src + i) = 0
      · rw [if_pos hz]
        exact ⟨i + 1, rfl, by omega, Or.inr ⟨by omega, by rwa [Nat.add_sub_cancel]⟩⟩
      · rw [if_neg hz]
        obtain ⟨m, hm, hle, hend⟩ := ih (i + 1)
        exact ⟨m, hm, by omega, hend.imp (fun h => by omega) fun h => ⟨by omega, h.2⟩⟩

/-! ## `do_one_file` -/

/-- `BUFSIZE`; the buffer has one byte more. -/
def bufSize : Nat := 1024

/-- The variables of the loops: `data`, `last`, and the system. -/
structure GrepState where
  data : Nat → UInt8
  last : Nat
  run : Running

/-- `while (line_end < last && '\n' != data[line_end]) line_end++`. -/
def lineEnd (data : Nat → UInt8) (last : Nat) : Nat → Nat → Nat
  | 0, i => i
  | n + 1, i => if i < last ∧ data i ≠ newLine then lineEnd data last n (i + 1) else i

/-- The search of a line, `check` from `line_start` to `line_end`, up to the first match.  `s[0]` is a `char`,
which is signed, and `data[check]` a `uint8_t`; both are compared as an `int`. -/
def lineMatches (s : List UInt8) (data : Nat → UInt8) (lineStart stop : Nat) : Bool :=
  (List.range' lineStart (stop - lineStart)).any fun check =>
    s8 (charAt s 0).toNat == ((data check).toNat : Int) &&
      ece391Strncmp (fun i => data (check + i)) (charAt s) (strlen s) == 0

/-- The bytes from an address of the buffer to its end. -/
def bufferFrom (data : Nat → UInt8) (i : Nat) : List UInt8 :=
  (List.range (bufSize + 1 - i)).map fun j => data (i + j)

/-- Search a line, and print it with the file's name. -/
def grepLine (w : World) (s fname : List UInt8) (data : Nat → UInt8) (lineStart stop : Nat)
    (st : Running) : Option Running :=
  if lineMatches s data lineStart stop then do
    let st ← w.fdputs 1 fname st
    let st ← w.fdputs 1 [58] st
    let st ← w.fdputs 1 (bufferFrom data lineStart) st
    w.fdputs 1 [newLine] st
  else some st

/-- **`linesLoop`** — the inner loop, from `line_start` on; `cnt` is what the last read returned. -/
def linesLoop (w : World) (s fname : List UInt8) (cnt : Int) : Nat → Nat → GrepState → Option GrepState
  | 0, _, _ => none
  | n + 1, lineStart, g =>
      let stop := lineEnd g.data g.last (g.last - lineStart) lineStart
      let data := Function.update g.data stop 0
      if g.data stop ≠ newLine ∧ cnt ≠ 0 ∧ lineStart ≠ 0 then
        some { g with
          data := ece391StrcpyFrom lineStart (bufSize + 1 - lineStart) 0 data
          last := g.last - lineStart }
      else do
        let st ← grepLine w s fname data lineStart stop g.run
        if stop + 1 ≥ g.last then some ⟨data, 0, st⟩ else linesLoop w s fname cnt n (stop + 1) ⟨data, g.last, st⟩

/-- **`readsLoop`** — the outer loop, and what follows it. -/
def readsLoop (w : World) (s fname : List UInt8) (fd : Int) : Nat → GrepState → Option (Running × Int)
  | 0, _ => none
  | n + 1, g => do
      let (st, cnt) ← w.read fd ((bufSize : Int) - g.last) g.run
      if cnt.ret = -1 then
        let st ← w.fdputs 1 "file read failed\n".toUTF8.toList st
        some (st, -1)
      else
        let last := g.last + cnt.ret.toNat
        let g ← linesLoop w s fname cnt.ret (last + 1) 0 ⟨stored cnt g.last g.data, last, st⟩
        if cnt.ret = 0 then
          let (st, ret) := w.closeFile fd g.run
          if ret = -1 then
            let st ← w.fdputs 1 "file close failed\n".toUTF8.toList st
            some (st, -1)
          else some (st, 0)
        else readsLoop w s fname fd n g

/-- **`doOneFile`** — `do_one_file(s, fname)`; `data` is what the buffer holds at the start, `fuel` bounds the
number of reads. -/
def doOneFile (w : World) (fuel : Nat) (s fname : List UInt8) (data : Nat → UInt8) (st : Running) :
    Option (Running × Int) :=
  let (st, fd) := w.openFile fname st
  if fd = -1 then do
    let st ← w.fdputs 1 "file open failed\n".toUTF8.toList st
    some (st, -1)
  else readsLoop w s fname fd fuel ⟨data, 0, st⟩

/-! ## The report -/

/-- The first byte of the pattern is the same as a `char` and as a `uint8_t`. -/
def PlainStart (s : List UInt8) : Prop := (charAt (cstr s) 0).toNat < 128

instance (s : List UInt8) : Decidable (PlainStart s) := inferInstanceAs (Decidable (_ < _))

/-- What a line is reported with, if the pattern occurs in it; a pattern whose first byte is negative as a
`char` is not found anywhere. -/
def reportLine (s fname line : List UInt8) : List (List UInt8) :=
  if PlainStart s ∧ cstr s <:+: line then [cstr fname, [58], cstr line, [newLine]] else []

/-- **`report s fname text`** — the lines of a text that contain the pattern. -/
def report (s fname text : List UInt8) : List (List UInt8) :=
  (text.splitOn newLine).flatMap (reportLine s fname)

/-- A line leaves room in the buffer for its newline. -/
def LinesFit (text : List UInt8) : Prop := ∀ line ∈ text.splitOn newLine, line.length < bufSize

/-- There is a NUL at the end at most. -/
def Textual (text : List UInt8) : Prop := 0 ∉ text.dropLast

section Report

variable {s fname : List UInt8}

theorem report_cons {line : List UInt8} (hline : newLine ∉ line) (rest : List UInt8) :
    report s fname (line ++ newLine :: rest) = reportLine s fname line ++ report s fname rest := by
  rw [report, List.splitOn_append_cons_self_of_not_mem hline, List.flatMap_cons, report]

theorem report_last {line : List UInt8} (hline : newLine ∉ line) :
    report s fname line = reportLine s fname line := by
  rw [report, List.splitOn_eq_singleton hline, List.flatMap_singleton]

theorem report_nil (hs : cstr s ≠ []) : report s fname [] = [] := by
  rw [report_last List.not_mem_nil, reportLine, if_neg]
  rintro ⟨-, hinfix⟩
  exact hs (List.eq_nil_of_infix_nil hinfix)

theorem LinesFit.tail {line rest : List UInt8} (h : LinesFit (line ++ newLine :: rest))
    (hline : newLine ∉ line) : LinesFit rest := by
  rw [LinesFit, List.splitOn_append_cons_self_of_not_mem hline] at h
  exact fun l hl => h l (List.mem_cons_of_mem _ hl)

/-- A text without a newline in its first part has a first line that is at least as long. -/
theorem LinesFit.length_lt {part rest : List UInt8} (h : LinesFit (part ++ rest)) (hpart : newLine ∉ part) :
    part.length < bufSize := by
  by_cases hrest : newLine ∈ rest
  · obtain ⟨x, y, rfl, hx⟩ := List.eq_append_cons_of_mem hrest
    have hfirst : newLine ∉ part ++ x := by simp [hpart, hx]
    rw [← List.append_assoc, LinesFit, List.splitOn_append_cons_self_of_not_mem hfirst] at h
    have hlen := h _ List.mem_cons_self
    rw [List.length_append] at hlen
    omega
  · have hall : newLine ∉ part ++ rest := by simp [hpart, hrest]
    rw [LinesFit, List.splitOn_eq_singleton hall] at h
    have hlen := h _ (List.mem_singleton_self _)
    rw [List.length_append] at hlen
    omega

theorem Textual.tail {front rest : List UInt8} (h : Textual (front ++ rest)) : Textual rest := by
  cases rest with
  | nil => exact List.not_mem_nil
  | cons c rest =>
      rw [Textual, List.dropLast_append_of_ne_nil (by simp)] at h
      exact fun hmem => h (List.mem_append_right _ hmem)

end Report

/-! ## One line -/

/-- The bytes `l` stand in the buffer at `a`. -/
def Stands (data : Nat → UInt8) (a : Nat) (l : List UInt8) : Prop :=
  ∀ i < l.length, data (a + i) = charAt l i

theorem charAt_append_left {l : List UInt8} (t : List UInt8) {i : Nat} (hi : i < l.length) :
    charAt (l ++ t) i = charAt l i := by
  simp [charAt, List.getD_eq_getElem?_getD, List.getElem?_append_left hi]

theorem charAt_append_right (l t : List UInt8) (i : Nat) : charAt (l ++ t) (l.length + i) = charAt t i := by
  simp [charAt, List.getD_eq_getElem?_getD, List.getElem?_append_right]

theorem charAt_mem {l : List UInt8} {i : Nat} (hi : i < l.length) : charAt l i ∈ l := by
  rw [charAt_eq_getElem hi]
  exact List.getElem_mem hi

theorem Stands.left {data : Nat → UInt8} {a : Nat} {l t : List UInt8} (h : Stands data a (l ++ t)) :
    Stands data a l := by
  intro i hi
  rw [h i (by rw [List.length_append]; omega), charAt_append_left t hi]

theorem Stands.right {data : Nat → UInt8} {a : Nat} {l t : List UInt8} (h : Stands data a (l ++ t)) :
    Stands data (a + l.length) t := by
  intro i hi
  rw [Nat.add_assoc, h (l.length + i) (by rw [List.length_append]; omega), charAt_append_right]

theorem Stands.update {data : Nat → UInt8} {a : Nat} {l : List UInt8} (h : Stands data a l) {k : Nat}
    (v : UInt8) (hk : ∀ i < l.length, a + i ≠ k) : Stands (Function.update data k v) a l := by
  intro i hi
  rw [Function.update_of_ne (hk i hi), h i hi]

section Line

variable {s : List UInt8} {data : Nat → UInt8} {a : Nat} {line : List UInt8}

/-- The end of a line, from any place in it. -/
theorem lineEnd_eq {last m n i : Nat} (hn : m ≤ n)
    (hbefore : ∀ k < m, i + k < last ∧ data (i + k) ≠ newLine)
    (hend : ¬ (i + m < last ∧ data (i + m) ≠ newLine)) : lineEnd data last n i = i + m := by
  induction m generalizing n i with
  | zero =>
      cases n with
      | zero => rfl
      | succ n => exact if_neg hend
  | succ m ih =>
      obtain ⟨n, rfl⟩ : ∃ n', n = n' + 1 := ⟨n - 1, by omega⟩
      rw [lineEnd, if_pos (by simpa using hbefore 0 (Nat.succ_pos m)), ih (by omega) ?_ ?_]
      · omega
      · intro k hk
        have := hbefore (k + 1) (by omega)
        rwa [Nat.add_comm k 1, ← Nat.add_assoc] at this
      · rwa [Nat.add_assoc, Nat.add_comm 1 m]

/-- **The search finds the pattern exactly if it begins with a plain byte and occurs in the line.**  The NUL
behind the line stops every comparison that would leave it. -/
theorem lineMatches_iff (hs : cstr s ≠ []) (hstands : Stands data a line) (hnul : data (a + line.length) = 0) :
    lineMatches s data a (a + line.length) = true ↔ PlainStart s ∧ cstr s <:+: line := by
  have hlen : (cstr s).length = strlen s := rfl
  have hpos : 0 < strlen s := List.length_pos_iff.mpr hs
  have hcheck : ∀ check, (s8 (charAt s 0).toNat == ((data check).toNat : Int) &&
      ece391Strncmp (fun i => data (check + i)) (charAt s) (strlen s) == 0) = true ↔
      PlainStart s ∧ ∀ j < strlen s, data (check + j) = charAt s j := by
    intro check
    rw [Bool.and_eq_true, beq_iff_eq, beq_iff_eq, ece391Strncmp_eq_zero_iff, s8_eq_toNat_iff, PlainStart,
      charAt_cstr hpos]
    exact ⟨fun h => ⟨h.1.1, h.2⟩, fun h => ⟨⟨h.1, h.2 0 hpos⟩, h.2⟩⟩
  rw [lineMatches, List.any_eq_true]
  constructor
  · rintro ⟨check, hmem, hmatch⟩
    rw [hcheck] at hmatch
    obtain ⟨hplain, hmatch⟩ := hmatch
    refine ⟨hplain, ?_⟩
    obtain ⟨i, hi, rfl⟩ := List.mem_range'.mp hmem
    have hi : i < line.length := by omega
    have hin : i + strlen s ≤ line.length := by
      by_contra hout
      have hz := hmatch (line.length - i) (by omega)
      rw [show a + 1 * i + (line.length - i) = a + line.length by omega, hnul] at hz
      exact (charAt_of_lt_strlen (s := s) (i := line.length - i) (by omega)).2 hz.symm
    refine ⟨line.take i, line.drop (i + strlen s), ?_⟩
    have hmid : cstr s = (line.drop i).take (strlen s) := by
      refine List.ext_getElem ?_ fun j hj hj' => ?_
      · rw [List.length_take, List.length_drop]
        omega
      · have hchar := (charAt_of_lt_strlen (s := s) hj).1
        have hbyte := hmatch j hj
        rw [show a + 1 * i + j = a + (i + j) by omega, hstands (i + j) (by omega)] at hbyte
        rw [← hchar, ← hbyte]
        simp [charAt, show i + j < line.length by omega]
    rw [hmid, List.append_assoc, ← List.drop_drop, List.take_append_drop, List.take_append_drop]
  · rintro ⟨hplain, front, back, rfl⟩
    refine ⟨a + front.length, List.mem_range'.mpr ⟨front.length, ?_, by omega⟩, ?_⟩
    · rw [List.length_append, List.length_append]
      omega
    · rw [hcheck]
      refine ⟨hplain, fun j hj => ?_⟩
      have hat := hstands (front.length + j) (by rw [List.length_append, List.length_append]; omega)
      rw [Nat.add_assoc, hat, List.append_assoc, charAt_append_right, charAt_append_left _ hj, charAt_cstr hj]

/-- The line as it is printed. -/
theorem cstr_bufferFrom (hstands : Stands data a line) (hnul : data (a + line.length) = 0)
    (hfit : a + line.length ≤ bufSize) : cstr (bufferFrom data a) = cstr line := by
  have hsplit : bufferFrom data a = line ++ 0 :: (List.range (bufSize - a - line.length)).map
      fun j => data (a + (line.length + 1 + j)) := by
    have hlen : bufSize + 1 - a = line.length + 1 + (bufSize - a - line.length) := by omega
    have hline : (List.range line.length).map (fun j => data (a + j)) = line := by
      refine List.ext_getElem (by simp) fun j hj hj' => ?_
      have hbyte := hstands j hj'
      simpa [charAt, hj'] using hbyte
    rw [bufferFrom, hlen, List.range_add, List.range_succ, List.map_append, List.map_append, hline,
      List.map_singleton, hnul, List.append_assoc, List.map_map]
    rfl
  rw [hsplit, cstr, cstr, List.takeWhile_append]
  split
  next hall =>
    have hline : line.takeWhile (· != 0) = line :=
      List.IsPrefix.eq_of_length (List.takeWhile_prefix _) hall
    rw [List.takeWhile_cons_of_neg (by simp), List.append_nil, hline]
  next => rfl

theorem grepLine_spec (w : World) (fname : List UInt8) {t : Nat → FileDescriptor} {st : Running}
    (h : Printing t st) (hs : cstr s ≠ []) (hstands : Stands data a line) (hnul : data (a + line.length) = 0)
    (hfit : a + line.length ≤ bufSize) :
    ∃ st', grepLine w s fname data a (a + line.length) st = some st' ∧ Printing t st' ∧
      st'.output = st.output ++ reportLine s fname line := by
  unfold grepLine reportLine
  by_cases hmatch : PlainStart s ∧ cstr s <:+: line
  · rw [if_pos ((lineMatches_iff hs hstands hnul).mpr hmatch), if_pos hmatch]
    obtain ⟨st1, h1, hr1, ho1⟩ := h.fdputs w fname
    obtain ⟨st2, h2, hr2, ho2⟩ := hr1.fdputs w [58]
    obtain ⟨st3, h3, hr3, ho3⟩ := hr2.fdputs w (bufferFrom data a)
    obtain ⟨st4, h4, hr4, ho4⟩ := hr3.fdputs w [newLine]
    refine ⟨st4, ?_, hr4, ?_⟩
    · simp only [h1, h2, h3, h4, Option.bind_eq_bind, Option.bind_some]
    · have hcolon : cstr [58] = [58] := by decide
      have hnewline : cstr [newLine] = [newLine] := by decide
      rw [ho4, ho3, ho2, ho1, cstr_bufferFrom hstands hnul hfit, hcolon, hnewline]
      simp
  · rw [if_neg fun hfound => hmatch ((lineMatches_iff hs hstands hnul).mp hfound), if_neg hmatch]
    exact ⟨st, rfl, h, (List.append_nil _).symm⟩

end Line

/-! ## The loops -/

/-- **`GrepHead`** — the head of the outer loop: the buffer begins with `part`, the start of a line, `rest` is
still to be read, and `total` will have been written at the end. -/
structure GrepHead (s fname : List UInt8) (t : Nat → FileDescriptor) (inode fd pos : Nat) (rest : List UInt8)
    (total : List (List UInt8)) (g : GrepState) (part : List UInt8) : Prop where
  reading : Reading t inode fd pos g.run
  stands : Stands g.data 0 part
  last : g.last = part.length
  room : part.length < bufSize
  clean : ∀ k, g.data k ≠ newLine
  textual : Textual (part ++ rest)
  fits : LinesFit (part ++ rest)
  total : g.run.output ++ report s fname (part ++ rest) = total

section Loops

variable {w : World} {s fname : List UInt8} {t : Nat → FileDescriptor} {inode fd pos : Nat}
  {rest : List UInt8} {total : List (List UInt8)}

/-- The start of a line moves to the front of the buffer. -/
theorem strcpy_front {data : Nat → UInt8} {a : Nat} {part : List UInt8} (ha : 0 < a)
    (hstands : Stands data a part) (hroom : a + part.length ≤ bufSize) (hclean : ∀ k, data k ≠ newLine)
    (htextual : Textual part) :
    Stands (ece391StrcpyFrom a (bufSize + 1 - a) 0 data) 0 part ∧
    ∀ k, ece391StrcpyFrom a (bufSize + 1 - a) 0 data k ≠ newLine := by
  obtain ⟨m, hm, -, hend⟩ := ece391StrcpyFrom_eq ha data (bufSize + 1 - a) 0
  have hstart : (fun k => if k < 0 then data (a + k) else data k) = data := by
    funext k
    exact if_neg (Nat.not_lt_zero k)
  rw [hstart] at hm
  rw [hm]
  -- the copy does not stop inside the part: a NUL is its last byte
  have hcopied : part.length ≤ m := by
    rcases hend with hend | ⟨hpos, hz⟩
    · omega
    · by_contra hlt
      have hbyte := hstands (m - 1) (by omega)
      rw [hz] at hbyte
      have hinit : m - 1 < part.dropLast.length := by
        rw [List.length_dropLast]
        omega
      have hget : part.dropLast[m - 1] = charAt part (m - 1) := by
        rw [List.getElem_dropLast]
        simp [charAt, show m - 1 < part.length by omega]
      have hmem := List.getElem_mem hinit
      rw [hget, ← hbyte] at hmem
      exact htextual hmem
  refine ⟨fun i hi => ?_, fun k => ?_⟩
  · show (if 0 + i < m then _ else _) = _
    rw [if_pos (by omega), Nat.zero_add, hstands i hi]
  · show (if k < m then _ else _) ≠ _
    split
    · exact hclean _
    · exact hclean _

/-- **The inner loop**: it reports the complete lines, and leaves the start of the next one. -/
theorem linesLoop_spec (hs : cstr s ≠ []) {cnt : Int} {n a : Nat} {g : GrepState} {todo : List UInt8}
    (hreading : Reading t inode fd pos g.run) (hstands : Stands g.data a todo)
    (hlast : a + todo.length = g.last) (hroom : g.last ≤ bufSize)
    (hclean : ∀ k, g.data k = newLine → a ≤ k ∧ k < g.last) (htextual : Textual (todo ++ rest))
    (hfits : LinesFit (todo ++ rest)) (hcnt : cnt = 0 → rest = [])
    (hfull : a = 0 → newLine ∉ todo → rest = [])
    (htotal : g.run.output ++ report s fname (todo ++ rest) = total) (hn : todo.length < n) :
    ∃ g' part, linesLoop w s fname cnt n a g = some g' ∧
      GrepHead s fname t inode fd pos rest total g' part ∧ (cnt = 0 → part = []) := by
  induction n generalizing a g todo with
  | zero => exact absurd hn (Nat.not_lt_zero _)
  | succ n ih =>
      have hbyte : ∀ i < todo.length, g.data (a + i) = charAt todo i := hstands
      by_cases hmem : newLine ∈ todo
      · -- a complete line
        obtain ⟨line, todo', rfl, hline⟩ := List.eq_append_cons_of_mem hmem
        have hlen : (line ++ newLine :: todo').length = line.length + 1 + todo'.length := by
          simp
          omega
        have hstop : g.data (a + line.length) = newLine := by
          rw [hbyte _ (by omega)]
          exact charAt_append_right line (newLine :: todo') 0
        have hend : lineEnd g.data g.last (g.last - a) a = a + line.length := by
          refine lineEnd_eq (by omega) (fun k hk => ⟨by omega, ?_⟩) fun h => h.2 hstop
          rw [hbyte k (by omega), charAt_append_left _ hk]
          exact fun heq => hline (heq ▸ charAt_mem hk)
        have hline' : Stands (Function.update g.data (a + line.length) 0) a line :=
          hstands.left.update 0 fun i hi => by omega
        obtain ⟨st', hst', hreading', hout⟩ := grepLine_spec w fname hreading hs hline'
          (Function.update_self ..) (by omega)
        have hgo : ¬ (g.data (a + line.length) ≠ newLine ∧ cnt ≠ 0 ∧ a ≠ 0) := fun h => h.1 hstop
        have htotal' : st'.output ++ report s fname (todo' ++ rest) = total := by
          rw [hout, List.append_assoc, ← report_cons hline, ← htotal]
          simp
        have htextual' : Textual (todo' ++ rest) := by
          have hsplit : line ++ newLine :: todo' ++ rest = (line ++ [newLine]) ++ (todo' ++ rest) := by simp
          rw [hsplit] at htextual
          exact htextual.tail
        have hfits' : LinesFit (todo' ++ rest) := by
          rw [List.append_assoc, List.cons_append] at hfits
          exact hfits.tail hline
        have hclean' : ∀ k, Function.update g.data (a + line.length) 0 k = newLine →
            a + line.length + 1 ≤ k ∧ k < g.last := by
          intro k hk
          by_cases hkstop : k = a + line.length
          · rw [hkstop, Function.update_self] at hk
            exact absurd hk (by decide)
          · rw [Function.update_of_ne hkstop] at hk
            obtain ⟨hak, hklast⟩ := hclean k hk
            refine ⟨?_, hklast⟩
            by_contra hlt
            obtain ⟨i, rfl⟩ := Nat.exists_eq_add_of_le hak
            rw [hbyte i (by omega), charAt_append_left _ (by omega)] at hk
            exact hline (hk ▸ charAt_mem (by omega))
        rw [linesLoop, hend]
        simp only [if_neg hgo, hst', Option.bind_eq_bind, Option.bind_some]
        by_cases hmore : todo' = []
        · subst hmore
          rw [List.length_nil] at hlen
          rw [if_pos (by omega)]
          refine ⟨_, [], rfl, ⟨hreading', fun i hi => absurd hi (Nat.not_lt_zero i), rfl, by decide, ?_,
            htextual', hfits', htotal'⟩, fun _ => rfl⟩
          intro k hk
          have := hclean' k hk
          omega
        · have hpos : 0 < todo'.length := List.length_pos_iff.mpr hmore
          rw [if_neg (by omega)]
          have hstands' : Stands (Function.update g.data (a + line.length) 0) (a + line.length + 1) todo' := by
            have hright : Stands g.data (a + line.length) ([newLine] ++ todo') := hstands.right
            exact hright.right.update 0 fun i hi => by
              rw [List.length_singleton]
              omega
          exact ih hreading' hstands' (by show _ = g.last; omega) hroom hclean' htextual' hfits'
            (fun h => absurd h (Nat.succ_ne_zero _)) htotal' (by omega)
      · -- no newline: the line ends with what has been read
        have hstop : g.data g.last ≠ newLine := fun h => Nat.lt_irrefl _ (hclean _ h).2
        have hend : lineEnd g.data g.last (g.last - a) a = g.last := by
          have hloop : lineEnd g.data g.last (g.last - a) a = a + todo.length := by
            refine lineEnd_eq (by omega) (fun k hk => ⟨by omega, ?_⟩) (by omega)
            rw [hbyte k hk]
            exact fun heq => hmem (heq ▸ charAt_mem hk)
          rw [hloop, hlast]
        have hstands' : Stands (Function.update g.data g.last 0) a todo :=
          hstands.update 0 fun i hi => by omega
        have hclean' : ∀ k, Function.update g.data g.last 0 k ≠ newLine := by
          intro k hk
          by_cases hklast : k = g.last
          · rw [hklast, Function.update_self] at hk
            exact absurd hk (by decide)
          · rw [Function.update_of_ne hklast] at hk
            obtain ⟨hak, hlt⟩ := hclean k hk
            obtain ⟨i, rfl⟩ := Nat.exists_eq_add_of_le hak
            rw [hbyte i (by omega)] at hk
            exact hmem (hk ▸ charAt_mem (by omega))
        rw [linesLoop, hend]
        by_cases hgo : cnt ≠ 0 ∧ a ≠ 0
        · -- the rest of the line has not been read yet
          simp only [if_pos (⟨hstop, hgo⟩ : g.data g.last ≠ newLine ∧ cnt ≠ 0 ∧ a ≠ 0)]
          have htextualTodo : Textual todo := by
            intro hzero
            refine htextual ?_
            cases rest with
            | nil => rwa [List.append_nil]
            | cons c rest =>
                rw [List.dropLast_append_of_ne_nil (by simp)]
                exact List.mem_append_left _ ((List.dropLast_sublist todo).subset hzero)
          obtain ⟨hfront, hfrontClean⟩ :=
            strcpy_front (Nat.pos_of_ne_zero hgo.2) hstands' (by omega) hclean' htextualTodo
          refine ⟨_, todo, rfl, ⟨hreading, hfront, ?_, by omega, hfrontClean, htextual, hfits, htotal⟩,
            fun h => absurd h hgo.1⟩
          show g.last - a = todo.length
          omega
        · have hnot : ¬ (g.data g.last ≠ newLine ∧ cnt ≠ 0 ∧ a ≠ 0) := fun h => hgo h.2
          -- nothing is left to be read, so this is the last line
          have hrest : rest = [] := by
            by_cases hzero : cnt = 0
            · exact hcnt hzero
            · exact hfull (by_contra fun ha => hgo ⟨hzero, ha⟩) hmem
          subst hrest
          rw [List.append_nil] at htotal
          obtain ⟨st', hst', hreading', hout⟩ := grepLine_spec w fname hreading hs hstands'
            (by rw [hlast, Function.update_self]) (by omega)
          rw [hlast] at hst'
          simp only [if_neg hnot, hst', Option.bind_eq_bind, Option.bind_some]
          rw [if_pos (Nat.le_succ _)]
          refine ⟨_, [], rfl, ⟨hreading', fun i hi => absurd hi (Nat.not_lt_zero i), rfl, by decide, hclean',
            List.not_mem_nil, ?_, ?_⟩, fun _ => rfl⟩
          · intro line hline
            rw [List.append_nil, List.splitOn_nil, List.mem_singleton] at hline
            rw [hline]
            decide
          · rw [List.append_nil, report_nil hs, List.append_nil, ← htotal, report_last hmem]
            exact hout

/-- A read continues the start of the line. -/
theorem stands_read {img : Image} {data : Nat → UInt8} {part : List UInt8} (hstands : Stands data 0 part)
    (inode pos m : Nat) :
    Stands (((List.range m).map fun i => (i, img.fileAt inode (pos + i))).foldl
      (fun data p => Function.update data (part.length + p.1) p.2) data) 0
      (part ++ img.slice inode pos m) := by
  intro i hi
  rw [List.length_append, length_slice] at hi
  rw [Nat.zero_add, foldl_stores fun i => img.fileAt inode (pos + i)]
  by_cases hpart : i < part.length
  · rw [if_neg (by omega), charAt_append_left _ hpart, ← hstands i hpart, Nat.zero_add]
  · obtain ⟨j, rfl⟩ := Nat.exists_eq_add_of_le (Nat.le_of_not_lt hpart)
    rw [if_pos (by omega), charAt_append_right, charAt_slice _ _ _ (by omega), Nat.add_sub_cancel_left]

/-- **The outer loop.** -/
theorem readsLoop_spec (hs : cstr s ≠ []) {fd n : Nat} (h2 : 2 ≤ fd) (h7 : fd ≤ 7)
    (hinode : inode < w.img.inodeCount) (hsize : w.img.inodeLength inode < 2 ^ 30)
    {g : GrepState} {part : List UInt8} (hpos : pos ≤ w.img.inodeLength inode + 1)
    (h : GrepHead s fname t inode fd pos (w.unread inode pos) total g part)
    (hn : w.img.inodeLength inode + 1 - pos < n) :
    ∃ st e, readsLoop w s fname fd n g = some (st, 0) ∧ st.output = total ∧
      Printing (clearFlag (Function.update t fd e) fd) st := by
  induction n generalizing pos g part with
  | zero => exact absurd hn (Nat.not_lt_zero _)
  | succ n ih =>
      have hroom := h.room
      have hbuf : bufSize = 1024 := rfl
      have hlast := h.last
      have hrequest : (bufSize : Int) - g.last = ((bufSize - part.length : Nat) : Int) := by omega
      obtain ⟨st, copy, hread, hret, hstores, hreading, hout⟩ :=
        h.reading.read (w := w) h2 h7 hinode (n := bufSize - part.length) (by omega)
      obtain ⟨m, hm⟩ : ∃ m, w.img.available inode pos (bufSize - part.length) = m := ⟨_, rfl⟩
      have hmin : m = min (bufSize - part.length) (w.img.inodeLength inode + 1 - pos) := hm.symm
      rw [hm] at hret hstores hreading
      -- the text: what has just been read, and the rest
      have htext : w.unread inode pos = w.img.slice inode pos m ++ w.unread inode (pos + m) :=
        unread_eq w inode (by omega)
      have hchunk := length_slice w.img inode pos m
      have hleft := length_unread w inode (pos + m)
      have htextual := h.textual
      have hfits := h.fits
      have htotal := h.total
      rw [htext, ← List.append_assoc] at htextual hfits htotal
      have htodo : (part ++ w.img.slice inode pos m).length = part.length + m := by
        rw [List.length_append, hchunk]
      have hclean : ∀ k, stored copy g.last g.data k = newLine → k < g.last + copy.ret.toNat := by
        intro k hk
        by_contra hlt
        rw [stored, hstores, foldl_stores fun i => w.img.fileAt inode (pos + i), if_neg (by omega)] at hk
        exact h.clean k hk
      have hstands : Stands (stored copy g.last g.data) 0 (part ++ w.img.slice inode pos m) := by
        rw [stored, hstores, hlast]
        exact stands_read h.stands inode pos m
      have hcount : copy.ret = 0 → w.unread inode (pos + m) = [] := by
        intro hzero
        exact List.length_eq_zero_iff.mp (by omega)
      have hlines : ∃ g' part', linesLoop w s fname copy.ret (g.last + copy.ret.toNat + 1) 0
          ⟨stored copy g.last g.data, g.last + copy.ret.toNat, st⟩ = some g' ∧
          GrepHead s fname t inode fd (pos + m) (w.unread inode (pos + m)) total g' part' ∧
          (copy.ret = 0 → part' = []) := by
        refine linesLoop_spec hs hreading hstands ?_ ?_ (fun k hk => ⟨Nat.zero_le k, hclean k hk⟩)
          htextual hfits hcount ?_ ?_ (by omega)
        · show 0 + _ = g.last + _
          omega
        · show g.last + _ ≤ _
          omega
        · intro _ hnone
          have hshort := hfits.length_lt hnone
          exact List.length_eq_zero_iff.mp (by omega)
        · show st.output ++ _ = _
          rw [hout]
          exact htotal
      obtain ⟨g', part', hlines, hhead, hend⟩ := hlines
      have hnot : ¬ copy.ret = -1 := by omega
      rw [readsLoop, hrequest]
      simp only [hread, Option.bind_eq_bind, Option.bind_some, if_neg hnot, hlines]
      by_cases hzero : copy.ret = 0
      · rw [if_pos hzero]
        obtain ⟨hclose, hafter, hclosed⟩ := hhead.reading.close w h2 h7
          (by rw [Function.update_self]; exact Nat.one_ne_zero)
        have hne : ¬ (w.closeFile fd g'.run).2 = -1 := by
          rw [hclose]
          decide
        have hnone : w.unread inode (pos + m) = [] := List.length_eq_zero_iff.mp (by omega)
        have hdone := hhead.total
        rw [hend hzero, hnone, List.append_nil, report_nil hs, List.append_nil] at hdone
        rw [if_neg hne]
        exact ⟨_, _, rfl, hclosed.trans hdone, hafter⟩
      · rw [if_neg hzero]
        exact ih (by omega) hhead (by omega)

end Loops

/-! ## One file -/

/-- What `read_dentry_by_name` and `open` make of a file's name, when it is not taken for a stream. -/
structure Named (w : World) (fname : List UInt8) (dentry : Dentry) : Prop where
  name : readDentryByName w.img fname = some dentry
  stdin : ¬ cstr fname <+: stdinName
  stdout : ¬ cstr fname <+: stdoutName

/-- **`GrepText`** — a file that fits: the inode exists, there is no NUL in the text, and every line fits
into the buffer. -/
structure GrepText (w : World) (inode : Nat) : Prop where
  found : inode < w.img.inodeCount
  size : w.img.inodeLength inode < 2 ^ 30
  textual : Textual (w.fileText inode)
  fits : LinesFit (w.fileText inode)

section File

variable {w : World} {s fname : List UInt8} {t : Nat → FileDescriptor} {st : Running} {dentry : Dentry}
  {fd fuel : Nat} {data : Nat → UInt8}

/-- **Every matching line, once.**  However the reads cut the lines and whatever the rest of the system does
between them: `do_one_file` returns 0 and has written the report on the text. -/
theorem doOneFile_reports (h : Printing t st) (hs : cstr s ≠ []) (hname : Named w fname dentry)
    (htype : dentry.filetype = 2) (htext : GrepText w dentry.inodeNum) (hfree : freeDescriptor t = some fd)
    (hclean : ∀ k, data k ≠ newLine) (hfuel : w.img.inodeLength dentry.inodeNum + 1 < fuel) :
    ∃ st' e, doOneFile w fuel s fname data st = some (st', 0) ∧
      st'.output = st.output ++ report s fname (w.fileText dentry.inodeNum) ∧
      Printing (clearFlag (Function.update t fd e) fd) st' := by
  have hentry : openedEntry dentry = some ⟨.filesystem, dentry.inodeNum, 0, 1⟩ := by
    simp [openedEntry, htype]
  obtain ⟨hopen, hreading, hout⟩ := h.openFile hname.name hentry hname.stdin hname.stdout hfree
  obtain ⟨h2, h7, -⟩ := freeDescriptor_eq_some hfree
  have hhead : GrepHead s fname t dentry.inodeNum fd 0 (w.unread dentry.inodeNum 0)
      (st.output ++ report s fname (w.fileText dentry.inodeNum)) ⟨data, 0, (w.openFile fname st).1⟩ [] :=
    { reading := hreading
      stands := fun i hi => absurd hi (Nat.not_lt_zero i)
      last := rfl
      room := by decide
      clean := hclean
      textual := htext.textual
      fits := htext.fits
      total := congrArg (· ++ report s fname (w.fileText dentry.inodeNum)) hout }
  obtain ⟨st', e, hloop, htotal, hst'⟩ :=
    readsLoop_spec hs h2 h7 htext.found htext.size (Nat.zero_le _) hhead hfuel
  have hopened : ¬ (w.openFile fname st).2 = -1 := by omega
  refine ⟨st', e, ?_, htotal, hst'⟩
  show (if (w.openFile fname st).2 = -1 then _
    else readsLoop w s fname (w.openFile fname st).2 fuel ⟨data, 0, (w.openFile fname st).1⟩) = _
  rw [if_neg hopened, hopen]
  exact hloop

/-- The clock is an empty file. -/
theorem doOneFile_clock (h : Printing t st) (hname : Named w fname dentry) (htype : dentry.filetype = 0)
    (hclock : ∀ n k, (w.others n k).rtc.status ≠ 0) (hfree : freeDescriptor t = some fd)
    (hfuel : 0 < fuel) :
    ∃ st' e, doOneFile w fuel s fname data st = some (st', 0) ∧ st'.output = st.output ∧
      Printing (clearFlag (Function.update t fd e) fd) st' := by
  have hentry : openedEntry dentry = some ⟨.rtc, 0, 0, 1⟩ := by
    simp [openedEntry, htype]
  obtain ⟨hopen, hst, hout⟩ := h.openFile hname.name hentry hname.stdin hname.stdout hfree
  obtain ⟨h2, h7, -⟩ := freeDescriptor_eq_some hfree
  obtain ⟨st1, hread, ⟨e, he, hst1⟩, hout1⟩ := hst.readClock (w := w) (n := bufSize) h2 h7
    (Function.update_self ..) (hclock _ _)
  rw [Function.update_idem] at hst1
  obtain ⟨hclose, hst2, hout2⟩ := hst1.close w h2 h7 (by rw [Function.update_self, he]; exact Nat.one_ne_zero)
  have hopened : ¬ (w.openFile fname st).2 = -1 := by omega
  have hclosed : ¬ (w.closeFile fd st1).2 = -1 := by
    rw [hclose]
    decide
  -- the one line that is searched is empty
  have hline : linesLoop w s fname 0 1 0 ⟨data, 0, st1⟩ = some ⟨Function.update data 0 0, 0, st1⟩ := by
    have hnone : lineMatches s (Function.update data 0 0) 0 0 = false := rfl
    simp [linesLoop, lineEnd, grepLine, hnone]
  obtain ⟨n, rfl⟩ : ∃ n, fuel = n + 1 := ⟨fuel - 1, by omega⟩
  refine ⟨(w.closeFile fd st1).1, e, ?_, by rw [hout2, hout1, hout], hst2⟩
  show (if (w.openFile fname st).2 = -1 then _
    else readsLoop w s fname (w.openFile fname st).2 (n + 1) ⟨data, 0, (w.openFile fname st).1⟩) = _
  rw [if_neg hopened, hopen, readsLoop]
  have hrequest : (bufSize : Int) - (0 : Nat) = (bufSize : Nat) := by omega
  simp only [hrequest, hread, Option.bind_eq_bind, Option.bind_some]
  rw [if_neg (by decide)]
  show (linesLoop w s fname 0 1 0 ⟨data, 0, st1⟩).bind _ = _
  rw [hline, Option.bind_some, if_pos trivial]
  exact if_neg hclosed

end File

/-! ## `main` -/

/-- **`grepFiles`** — the loop of `main` over the directory.  `garbage n` is what the frame of the call of
`do_one_file` finds in its buffer, `fuel` bounds the reads of one file. -/
def grepFiles (w : World) (fuel : Nat) (garbage : Nat → Nat → UInt8) (search : List UInt8) (fd : Int) :
    Nat → (Nat → UInt8) → Running → Option (Running × Int)
  | 0, _, _ => none
  | n + 1, buf, st => do
      let (st, cnt) ← w.read fd ((sbufSize : Int) - 1) st
      if cnt.ret = 0 then some (st, 0)
      else if cnt.ret = -1 then
        let st ← w.fdputs 1 "directory entry read failed\n".toUTF8.toList st
        some (st, 3)
      else
        let buf := stored cnt 0 buf
        if buf 0 = 46 then grepFiles w fuel garbage search fd n buf st
        else
          let buf := Function.update buf cnt.ret.toNat 0
          let (st, ret) ← doOneFile w fuel search (bytes sbufSize buf) (garbage n) st
          if ret ≠ 0 then some (st, 3) else grepFiles w fuel garbage search fd n buf st

/-- **`grep`** — `main`; `entries` bounds the names read. -/
def grep (w : World) (fuel entries : Nat) (garbage : Nat → Nat → UInt8) (search buf : Nat → UInt8)
    (st : Running) : Option (Running × Int) :=
  let (st, args) := w.getargs bufSize st
  if args.ret ≠ 0 then do
    let st ← w.fdputs 1 "could not read argument\n".toUTF8.toList st
    some (st, 3)
  else
    let (st, fd) := w.openFile dotName st
    if fd = -1 then do
      let st ← w.fdputs 1 "directory open failed\n".toUTF8.toList st
      some (st, 2)
    else grepFiles w fuel garbage (bytes bufSize (stored args 0 search)) fd entries buf st

/-- What `grep` reports of entry `i`: nothing for a name that begins with a dot, and the clock is empty. -/
def entryReport (w : World) (a : List UInt8) (i : Nat) : List (List UInt8) :=
  let name := (w.img.dentry i).filename
  if charAt name 0 = 46 then []
  else
    match readDentryByName w.img name with
    | some dentry => if dentry.filetype = 2 then report a name (w.fileText dentry.inodeNum) else []
    | none => []

/-- **`Searchable`** — every name of the directory, but those that begin with a dot, opens a text file that
fits, or the clock while it ticks. -/
def Searchable (w : World) (fuel : Nat) : Prop :=
  ∀ i < w.img.entries, charAt (w.img.dentry i).filename 0 ≠ 46 →
    ∃ dentry, Named w (w.img.dentry i).filename dentry ∧
      (dentry.filetype = 2 ∧ GrepText w dentry.inodeNum ∧ w.img.inodeLength dentry.inodeNum + 1 < fuel ∨
        dentry.filetype = 0 ∧ (∀ n k, (w.others n k).rtc.status ≠ 0) ∧ 0 < fuel)

section Main

variable {w : World} {fuel : Nat} {t : Nat → FileDescriptor} {st : Running} {a search : List UInt8}

/-- The report is on the strings. -/
theorem report_congr {s s' fname fname' : List UInt8} (hs : cstr s = cstr s') (hname : cstr fname = cstr fname')
    (text : List UInt8) : report s fname text = report s' fname' text := by
  have hplain : PlainStart s ↔ PlainStart s' := by rw [PlainStart, PlainStart, hs]
  have hline : reportLine s fname = reportLine s' fname' := by
    funext line
    simp only [reportLine, hplain, hs, hname]
  rw [report, report, hline]

theorem Named.congr {fname fname' : List UInt8} {dentry : Dentry} (h : Named w fname dentry)
    (heq : cstr fname' = cstr fname) : Named w fname' dentry :=
  ⟨(readDentryByName_congr w.img heq).trans h.name, heq ▸ h.stdin, heq ▸ h.stdout⟩

/-- A name in the buffer, behind it the NUL that `main` puts there. -/
theorem cstr_name {img : Image} {i : Nat} {copy : Copy} (buf : Nat → UInt8)
    (hstores : copy.stores = (List.range filenameLen).zip (img.dentry i).filename) :
    cstr (bytes sbufSize (Function.update (stored copy 0 buf) filenameLen 0)) =
      cstr (img.dentry i).filename ∧ stored copy 0 buf 0 = charAt (img.dentry i).filename 0 := by
  have hlen : (img.dentry i).filename.length = filenameLen := by simp [Image.dentry]
  have hbyte : ∀ j < filenameLen, stored copy 0 buf j = charAt (img.dentry i).filename j :=
    fun j hj => stored_name hstores hj
  refine ⟨?_, hbyte 0 (by decide)⟩
  have hle : strlen (img.dentry i).filename ≤ filenameLen := hlen ▸ strlen_le_length _
  refine cstr_bytes (fun b hb => by simpa using List.mem_takeWhile_imp hb) (Nat.lt_succ_of_le hle) ?_
  intro j hj
  have hj : j ≤ strlen (img.dentry i).filename := hj
  by_cases hend : j = strlen (img.dentry i).filename
  · have hnul : charAt (cstr (img.dentry i).filename) j = 0 :=
      charAt_of_length_le (show strlen _ ≤ j by omega)
    rw [hnul]
    by_cases hfull : j = filenameLen
    · rw [hfull, Function.update_self]
    · rw [Function.update_of_ne hfull, hbyte j (by omega), hend]
      exact charAt_strlen _
  · rw [Function.update_of_ne (by omega), hbyte j (by omega), charAt_cstr (by omega)]

/-- **The loop of `main`**: from name `i` on. -/
theorem grepFiles_reports {d fd : Nat} (hs : cstr search = cstr a) (hne : cstr a ≠ [])
    (hcount : 0 ≤ w.img.dirCount) (hmax : w.img.dirCount ≤ 63) (hall : Searchable w fuel)
    {garbage : Nat → Nat → UInt8} (hclean : ∀ n k, garbage n k ≠ newLine) (h2 : 2 ≤ d) (h7 : d ≤ 7)
    {n i : Nat} (buf : Nat → UInt8) (h : Printing t st) (hdesc : t d = nameDescriptor w.img i)
    (hfree : freeDescriptor t = some fd) (hn : w.img.entries - i < n) :
    ∃ st', grepFiles w fuel garbage search d n buf st = some (st', 0) ∧
      st'.output = st.output ++ (List.range' i (w.img.entries - i)).flatMap (entryReport w a) := by
  induction n generalizing i buf t st with
  | zero => exact absurd hn (Nat.not_lt_zero _)
  | succ n ih =>
      obtain ⟨st1, copy, hread, hlisted, h1, hout1⟩ := h.readName h2 h7 hcount hmax hdesc
      have hrequest : (sbufSize : Int) - 1 = (filenameLen : Nat) := by decide
      have hflags : (nameDescriptor w.img (i + 1)).flags = (t d).flags := by rw [hdesc]; rfl
      have hfree1 : freeDescriptor (Function.update t d (nameDescriptor w.img (i + 1))) = some fd :=
        (freeDescriptor_update hflags).trans hfree
      rw [grepFiles, hrequest]
      simp only [hread, Option.bind_eq_bind, Option.bind_some]
      by_cases hi : i < w.img.entries
      · -- another name
        obtain ⟨hstores, hnotzero, hnotfailed, hlength⟩ := listed_name hi hlisted
        obtain ⟨hname, hfirst⟩ := cstr_name buf hstores
        have hrange : List.range' i (w.img.entries - i) = i :: List.range' (i + 1) (w.img.entries - (i + 1)) := by
          rw [show w.img.entries - i = (w.img.entries - (i + 1)) + 1 by omega, List.range'_succ]
        rw [if_neg hnotzero, if_neg hnotfailed, hfirst, hlength, hrange, List.flatMap_cons]
        by_cases hdot : charAt (w.img.dentry i).filename 0 = 46
        · rw [if_pos hdot]
          obtain ⟨st', hloop, hout⟩ := ih (stored copy 0 buf) h1 (Function.update_self ..) hfree1
            (by omega)
          refine ⟨st', hloop, ?_⟩
          rw [hout, hout1, entryReport]
          simp only [if_pos hdot, List.nil_append]
        · rw [if_neg hdot]
          obtain ⟨dentry, hnamed, hkind⟩ := hall i hi hdot
          have hnamed' := hnamed.congr hname
          -- the file, whatever it is
          have hfile : ∃ st2 e, doOneFile w fuel search
              (bytes sbufSize (Function.update (stored copy 0 buf) filenameLen 0)) (garbage n) st1 =
                some (st2, 0) ∧ st2.output = st1.output ++ entryReport w a i ∧
              Printing (clearFlag (Function.update (Function.update t d (nameDescriptor w.img (i + 1))) fd e) fd)
                st2 := by
            have hentry : entryReport w a i = if dentry.filetype = 2 then
                report a (w.img.dentry i).filename (w.fileText dentry.inodeNum) else [] := by
              unfold entryReport
              simp only [if_neg hdot, hnamed.name]
            rw [hentry]
            rcases hkind with ⟨htype, htext, hfuel⟩ | ⟨htype, hclock, hfuel⟩
            · rw [if_pos htype, ← report_congr hs hname]
              exact doOneFile_reports h1 (hs ▸ hne) hnamed' htype htext hfree1 (hclean n) hfuel
            · have hkind : ¬ dentry.filetype = 2 := by omega
              rw [if_neg hkind, List.append_nil]
              exact doOneFile_clock h1 hnamed' htype hclock hfree1 hfuel
          obtain ⟨st2, e, hfile, hout2, hst2⟩ := hfile
          obtain ⟨hfd2, -, hclosed, -⟩ := freeDescriptor_eq_some hfree1
          have hapart : d ≠ fd := by
            rintro rfl
            rw [Function.update_self] at hclosed
            exact absurd hclosed Nat.one_ne_zero
          have hdesc2 : clearFlag (Function.update (Function.update t d (nameDescriptor w.img (i + 1))) fd e) fd d =
              nameDescriptor w.img (i + 1) := by
            rw [clearFlag, Function.update_of_ne hapart, Function.update_of_ne hapart, Function.update_self]
          obtain ⟨st', hloop, hout⟩ := ih
            (Function.update (stored copy 0 buf) filenameLen 0) hst2 hdesc2
            (freeDescriptor_again hfree1 e) (by omega)
          refine ⟨st', ?_, ?_⟩
          · rw [hfile, Option.bind_some]
            simp only [ne_eq, not_true_eq_false, if_false]
            exact hloop
          · rw [hout, hout2, hout1, List.append_assoc]
      · -- the names are through
        have hret : copy.ret = 0 := by
          rw [Image.listed, if_neg hi] at hlisted
          exact congrArg Prod.fst hlisted
        rw [if_pos hret, Nat.sub_eq_zero_of_le (Nat.le_of_not_lt hi)]
        exact ⟨st1, rfl, hout1.trans (List.append_nil _).symm⟩

end Main

/-- The file "note" fits. -/
theorem note_searchable : Searchable (quietWorld noteImage) 8 := by
  have hentries : noteImage.entries = 2 := by decide
  have htext : (quietWorld noteImage).fileText (noteImage.dentry 1).inodeNum = [97, 98, 10, 99, 100, 0] := by
    decide
  have hlines : List.splitOn newLine [97, 98, 10, 99, 100, 0] = [[97, 98], [99, 100, 0]] := by decide
  intro i hi hdot
  obtain rfl : i = 1 := by
    by_contra hne
    obtain rfl : i = 0 := by
      have hi : i < noteImage.entries := hi
      omega
    exact hdot (by decide)
  refine ⟨noteImage.dentry 1, ⟨by decide, by decide, by decide⟩, Or.inl ⟨by decide, ?_, by decide⟩⟩
  refine ⟨by decide, by decide, ?_, ?_⟩
  · rw [Textual, htext]
    decide
  · rw [LinesFit, htext, hlines]
    decide

end Ece391
