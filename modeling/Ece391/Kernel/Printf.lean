/-
# Ece391.Kernel.Printf — `printf` of `lib.c`.

The format is a string as in `Kernel.CString`: what stands behind its terminating NUL is memory like any other,
and `printf` is followed there if it goes there.  `turn` examines one byte of the format, at the top of the
`while` loop or at the label `format_char_switch`, which a `#` comes back to; the bytes examined are logged, so
that "never behind the NUL" is a property of the log.

A format is read as a list of `Directive`s, unless it ends inside a conversion.  Then the code passes exactly the
text of the directives to `putc` (`printf_renders`), and it stops at the end of the format; otherwise it does not
(`printf_stops_iff`).
-/
import Ece391.Kernel.Itoa
import Ece391.Lib.Trace

open Ece391.Lib

namespace Ece391

/-! ## The code -/

/-- What `printf` finds: the words on the stack above `format`, the bytes from an address on, and what is left on
the stack where `conv_buf` is, when the argument with this number is converted. -/
structure VarArgs where
  word : Nat → BitVec 32
  memory : BitVec 32 → List UInt8
  hexBuf : Nat → Vector UInt8 64
  decBuf : Nat → Vector UInt8 36

/-- `while (i < 8) conv_buf[i++] = '0';` -/
def zeroFill (i : Nat) (convBuf : List UInt8) : List UInt8 :=
  if i < 8 then zeroFill (i + 1) (convBuf.set i '0'.toUInt8) else convBuf
termination_by 8 - i

/-- `case 'x'`. -/
def convertHex (alternate : Bool) (value : BitVec 32) (convBuf : List UInt8) : List UInt8 :=
  if alternate = false then puts (itoa value.toNat convBuf 16 (by decide))
  else
    let convBuf := convBuf.take 8 ++ itoa value.toNat (convBuf.drop 8) 16 (by decide)
    let startingIndex := strlen (convBuf.drop 8)
    let convBuf := zeroFill startingIndex convBuf
    puts (convBuf.drop startingIndex)

/-- `case 'u'`. -/
def convertUnsigned (value : BitVec 32) (convBuf : List UInt8) : List UInt8 :=
  puts (itoa value.toNat convBuf 10 (by decide))

/-- `case 'd'`. -/
def convertSigned (value : BitVec 32) (convBuf : List UInt8) : List UInt8 :=
  if value.toInt < 0 then
    let convBuf := convBuf.set 0 '-'.toUInt8
    puts (convBuf.take 1 ++ itoa (-value).toNat (convBuf.drop 1) 10 (by decide))
  else puts (itoa value.toNat convBuf 10 (by decide))

/-- The switch at `format_char_switch`, up to `case '#'`: the bytes passed to `putc`, and `esp` after it. -/
def convert (args : VarArgs) (alternate : Bool) (c : UInt8) (esp : Nat) : List UInt8 × Nat :=
  if c = '%'.toUInt8 then (['%'.toUInt8], esp)
  else if c = 'x'.toUInt8 then (convertHex alternate (args.word esp) (args.hexBuf esp).toList, esp + 1)
  else if c = 'u'.toUInt8 then (convertUnsigned (args.word esp) (args.decBuf esp).toList, esp + 1)
  else if c = 'd'.toUInt8 then (convertSigned (args.word esp) (args.decBuf esp).toList, esp + 1)
  else if c = 'c'.toUInt8 then ([UInt8.ofNat (args.word esp).toNat], esp + 1)
  else if c = 's'.toUInt8 then (puts (args.memory (args.word esp)), esp + 1)
  else ([], esp)

/-- The variables, with the bytes passed to `putc` so far.  `conversion` is `some alternate` at
`format_char_switch` and `none` at the top of the loop, where `alternate` does not exist. -/
structure Printf where
  buf : Nat
  esp : Nat
  conversion : Option Bool
  out : List UInt8

/-- From one look at `*buf` to the next; the loop ends with the last one. -/
def turn (format : List UInt8) (args : VarArgs) (s : Printf) : Turn Printf Nat :=
  let c := charAt format s.buf
  match s.conversion with
  | none =>
      if c = 0 then ⟨false, s, [s.buf]⟩
      else if c = '%'.toUInt8 then ⟨true, { s with conversion := some false, buf := s.buf + 1 }, [s.buf]⟩
      else ⟨true, { s with out := s.out ++ [c], buf := s.buf + 1 }, [s.buf]⟩
  | some alternate =>
      if c = '#'.toUInt8 then ⟨true, { s with conversion := some true, buf := s.buf + 1 }, [s.buf]⟩
      else
        let (bytes, esp) := convert args alternate c s.esp
        ⟨true, { s with out := s.out ++ bytes, esp := esp, conversion := none, buf := s.buf + 1 }, [s.buf]⟩

/-- `printf`, with the bytes of the format it examines.  It returns `buf - format`, the last `buf`. -/
def printf (format : List UInt8) (args : VarArgs) (fuel : Nat) : Option (Printf × List Nat) :=
  loop (turn format args) fuel ⟨0, 0, none, []⟩

/-! ## Formats -/

/-- A character of the format, or a conversion with its specifier. -/
inductive Directive
  | literal (c : UInt8)
  | conversion (alternate : Bool) (c : UInt8)
  deriving DecidableEq

/-- The directives of a format; `some alternate` inside a conversion.  A format that ends there has none. -/
def directivesFrom : Option Bool → List UInt8 → Option (List Directive)
  | none, [] => some []
  | some _, [] => none
  | none, c :: cs =>
      if c = '%'.toUInt8 then directivesFrom (some false) cs
      else (directivesFrom none cs).map (.literal c :: ·)
  | some alternate, c :: cs =>
      if c = '#'.toUInt8 then directivesFrom (some true) cs
      else (directivesFrom none cs).map (.conversion alternate c :: ·)

def directives (format : List UInt8) : Option (List Directive) := directivesFrom none (cstr format)

/-- **`EndsInside format`** — the format ends with a `%`, or a `%` and `#`s, that is no part of a conversion. -/
def EndsInside (format : List UInt8) : Prop := directives format = none

/-- An optional minus sign and the numeral of the absolute value. -/
def signedText (z : Int) : List UInt8 :=
  if z < 0 then '-'.toUInt8 :: numeralText 10 z.natAbs else numeralText 10 z.natAbs

/-- A hexadecimal numeral with zeros in front, for eight digits. -/
def paddedText (n : Nat) : List UInt8 :=
  List.replicate (8 - (numeralText 16 n).length) '0'.toUInt8 ++ numeralText 16 n

namespace Directive

/-- The text of a directive; `i` is the number of the next argument. -/
def text (args : VarArgs) (i : Nat) : Directive → List UInt8
  | .literal c => [c]
  | .conversion alternate c =>
      if c = '%'.toUInt8 then ['%'.toUInt8]
      else if c = 'x'.toUInt8 then
        if alternate then paddedText (args.word i).toNat else numeralText 16 (args.word i).toNat
      else if c = 'u'.toUInt8 then numeralText 10 (args.word i).toNat
      else if c = 'd'.toUInt8 then signedText (args.word i).toInt
      else if c = 'c'.toUInt8 then [UInt8.ofNat (args.word i).toNat]
      else if c = 's'.toUInt8 then cstr (args.memory (args.word i))
      else []

/-- The number of arguments a directive takes: one for each conversion but `%%` and unknown ones. -/
def consumes : Directive → Nat
  | .literal _ => 0
  | .conversion _ c => if c ∈ ['x', 'u', 'd', 'c', 's'].map Char.toUInt8 then 1 else 0

end Directive

/-- The text of a list of directives. -/
def rendering (args : VarArgs) : Nat → List Directive → List UInt8
  | _, [] => []
  | i, d :: ds => d.text args i ++ rendering args (i + d.consumes) ds

/-- The number of arguments it takes. -/
def argCount (ds : List Directive) : Nat := (ds.map Directive.consumes).sum

/-! ## The conversions -/

theorem numeralText_length (radix n : Nat) : (numeralText radix n).length = (numeral radix n).length :=
  List.length_map _

theorem hex_length_le (v : BitVec 32) : (numeral 16 v.toNat).length ≤ 8 :=
  numeral_length_le (by decide) (by decide) v.isLt

theorem decimal_length_le {n : Nat} (hn : n < 2 ^ 32) : (numeral 10 n).length ≤ 10 :=
  numeral_length_le (by decide) (by decide) (Nat.lt_trans hn (by decide))

/-- Eight digits. -/
theorem paddedText_length (v : BitVec 32) : (paddedText v.toNat).length = 8 := by
  have hlength := hex_length_le v
  rw [paddedText, List.length_append, List.length_replicate, numeralText_length]
  omega

/-- The zeros go in front of what is at `conv_buf[8]`. -/
theorem zeroFill_eq (s mid t : List UInt8) (hlength : s.length + mid.length = 8) :
    zeroFill s.length (s ++ mid ++ t) = s ++ List.replicate mid.length '0'.toUInt8 ++ t := by
  induction mid generalizing s with
  | nil =>
      rw [List.length_nil] at hlength
      rw [zeroFill, if_neg (by omega)]
      rfl
  | cons x mid ih =>
      rw [List.length_cons] at hlength
      have hnext := ih (s ++ ['0'.toUInt8]) (by simp; omega)
      rw [List.length_append, List.length_singleton] at hnext
      rw [zeroFill, if_pos (by omega), List.append_assoc, List.cons_append, set_append_length]
      simpa [List.replicate_succ] using hnext

/-- What `puts` prints of the buffer then, from the index behind the digits on. -/
theorem puts_zeroFill {front text : List UInt8} (hfront : front.length = 8) (htext : text.length ≤ 8)
    (hnul : 0 ∉ text) (rest : List UInt8) :
    puts ((zeroFill text.length (front ++ (text ++ 0 :: rest))).drop text.length) =
      List.replicate (8 - text.length) '0'.toUInt8 ++ text := by
  have hfill := zeroFill_eq (front.take text.length) (front.drop text.length) (text ++ 0 :: rest) (by simp; omega)
  have htake : (front.take text.length).length = text.length := by
    rw [List.length_take]
    omega
  rw [List.take_append_drop, htake, List.length_drop, hfront, List.append_assoc] at hfill
  have hzeros : (0 : UInt8) ∉ List.replicate (8 - text.length) '0'.toUInt8 ++ text := by
    rw [List.mem_append, List.mem_replicate]
    rintro (⟨-, hzero⟩ | hmem)
    · exact absurd hzero (by decide)
    · exact hnul hmem
  rw [hfill, List.drop_left' htake, ← List.append_assoc, puts_eq, cstr_append_nul hzeros]

theorem convertHex_eq (alternate : Bool) (value : BitVec 32) (convBuf : Vector UInt8 64) :
    convertHex alternate value convBuf.toList =
      if alternate then paddedText value.toNat else numeralText 16 value.toNat := by
  have hdigits := hex_length_le value
  have hbuf : convBuf.toList.length = 64 := by simp
  generalize convBuf.toList = convBuf at hbuf
  cases alternate with
  | false =>
      rw [convertHex, if_pos rfl, puts_itoa (by decide) (by decide) (by omega)]
      rfl
  | true =>
      have htext : (numeralText 16 value.toNat).length ≤ 8 := by rwa [numeralText_length]
      have hnul : (0 : UInt8) ∉ numeralText 16 value.toNat := nul_not_mem_numeralText (by decide) (by decide) _
      have hfront : (convBuf.take 8).length = 8 := by
        rw [List.length_take]
        omega
      have hfit : (numeral 16 value.toNat).length < (convBuf.drop 8).length := by
        rw [List.length_drop]
        omega
      have htail := itoa_eq (by decide) (by decide) hfit
      have hstart : strlen ((convBuf.take 8 ++ itoa value.toNat (convBuf.drop 8) 16 (by decide)).drop 8) =
          (numeralText 16 value.toNat).length := by
        rw [List.drop_left' hfront, htail, strlen, cstr_append_nul hnul]
      simp only [convertHex, Bool.true_eq_false, if_false, hstart]
      rw [htail, puts_zeroFill hfront htext hnul, if_pos trivial, paddedText]

theorem convertUnsigned_eq (value : BitVec 32) (convBuf : Vector UInt8 36) :
    convertUnsigned value convBuf.toList = numeralText 10 value.toNat := by
  have hdigits := decimal_length_le value.isLt
  have hbuf : convBuf.toList.length = 36 := by simp
  exact puts_itoa (by decide) (by decide) (by omega)

/-- The negation wraps around for -2147483648 only, where it is right as a `uint32_t`. -/
theorem toNat_neg_of_neg {value : BitVec 32} (hneg : value.toInt < 0) : (-value).toNat = value.toInt.natAbs := by
  rw [BitVec.toInt_eq_toNat_cond] at hneg ⊢
  have hlt := value.isLt
  rw [BitVec.toNat_neg]
  split at hneg
  all_goals omega

theorem convertSigned_eq (value : BitVec 32) (convBuf : Vector UInt8 36) :
    convertSigned value convBuf.toList = signedText value.toInt := by
  have hbuf : convBuf.toList.length = 36 := by simp
  generalize convBuf.toList = convBuf at hbuf
  by_cases hneg : value.toInt < 0
  · obtain ⟨x, rest, rfl⟩ := List.exists_cons_of_length_pos (show 0 < convBuf.length by omega)
    have hdigits := decimal_length_le (-value).isLt
    rw [List.length_cons] at hbuf
    have hdrop : ((x :: rest).set 0 '-'.toUInt8).drop 1 = rest := rfl
    have htake : ((x :: rest).set 0 '-'.toUInt8).take 1 = ['-'.toUInt8] := rfl
    have hfit : (numeral 10 (-value).toNat).length < rest.length := by omega
    have hprint := puts_itoa (by decide) (by decide) hfit
    rw [convertSigned, if_pos hneg]
    show puts (List.take 1 _ ++ itoa _ (List.drop 1 _) 10 _) = _
    rw [hdrop, htake, List.singleton_append, puts, if_neg (by decide), hprint, signedText, if_pos hneg,
      toNat_neg_of_neg hneg]
  · have hdigits := decimal_length_le value.isLt
    have habs : value.toNat = value.toInt.natAbs := by
      rw [BitVec.toInt_eq_toNat_cond] at hneg ⊢
      split at hneg
      all_goals omega
    rw [convertSigned, if_neg hneg, puts_itoa (by decide) (by decide) (by omega), signedText, if_neg hneg, habs]

/-- **A conversion prints the text of its directive**, and takes its arguments. -/
theorem convert_eq (args : VarArgs) (alternate : Bool) (c : UInt8) (i : Nat) :
    convert args alternate c i =
      ((Directive.conversion alternate c).text args i, i + (Directive.conversion alternate c).consumes) := by
  simp only [convert, Directive.text, Directive.consumes, convertHex_eq, convertUnsigned_eq, convertSigned_eq,
    puts_eq]
  by_cases hmem : c ∈ ['x', 'u', 'd', 'c', 's'].map Char.toUInt8
  · rw [if_pos hmem]
    simp only [List.map_cons, List.map_nil, List.mem_cons, List.not_mem_nil, or_false] at hmem
    rcases hmem with rfl | rfl | rfl | rfl | rfl
    all_goals rfl
  · rw [if_neg hmem]
    simp only [List.map_cons, List.map_nil, List.mem_cons, List.not_mem_nil, or_false, not_or] at hmem
    obtain ⟨hx, hu, hd, hc, hs⟩ := hmem
    simp only [if_neg hx, if_neg hu, if_neg hd, if_neg hc, if_neg hs]
    split_ifs
    all_goals rfl

/-! ## The scan -/

@[simp] theorem turn_log (format : List UInt8) (args : VarArgs) (s : Printf) :
    (turn format args s).log = [s.buf] := by
  unfold turn
  cases s.conversion
  all_goals
    dsimp only
    split_ifs
  all_goals rfl

/-- **At a byte of the string the loop goes on.**  `done` is what `directivesFrom` has read with it, and its text
is what has been printed. -/
theorem turn_cons {format : List UInt8} (args : VarArgs) {s : Printf} {c : UInt8} {cs : List UInt8}
    (hdrop : (cstr format).drop s.buf = c :: cs) : ∃ s' done, turn format args s = ⟨true, s', [s.buf]⟩ ∧
      s'.buf = s.buf + 1 ∧ s'.esp = s.esp + argCount done ∧ s'.out = s.out ++ rendering args s.esp done ∧
      directivesFrom s.conversion (c :: cs) = (directivesFrom s'.conversion cs).map (done ++ ·) := by
  obtain ⟨-, hchar, hne, -⟩ := drop_cstr_cons hdrop
  have hid : ∀ o : Option (List Directive), o.map ([] ++ ·) = o := fun _ => Option.map_id'
  obtain ⟨buf, esp, conversion, out⟩ := s
  cases conversion with
  | none =>
      by_cases hpercent : c = '%'.toUInt8
      · refine ⟨⟨buf + 1, esp, some false, out⟩, [], ?_, rfl, rfl, (List.append_nil out).symm, ?_⟩
        · simp only [turn, hchar, if_neg hne, if_pos hpercent]
        · rw [directivesFrom, if_pos hpercent, hid]
      · refine ⟨⟨buf + 1, esp, none, out ++ [c]⟩, [.literal c], ?_, rfl, rfl, rfl, ?_⟩
        · simp only [turn, hchar, if_neg hne, if_neg hpercent]
        · rw [directivesFrom, if_neg hpercent]
          rfl
  | some alternate =>
      by_cases hsharp : c = '#'.toUInt8
      · refine ⟨⟨buf + 1, esp, some true, out⟩, [], ?_, rfl, rfl, (List.append_nil out).symm, ?_⟩
        · simp only [turn, hchar, if_pos hsharp]
        · rw [directivesFrom, if_pos hsharp, hid]
      · let d := Directive.conversion alternate c
        refine ⟨⟨buf + 1, esp + d.consumes, none, out ++ d.text args esp⟩, [d], ?_, rfl, ?_, ?_, ?_⟩
        · simp only [turn, hchar, if_neg hsharp, convert_eq, d]
        · simp [argCount]
        · simp [rendering]
        · rw [directivesFrom, if_neg hsharp]
          rfl

/-- At the NUL, outside a conversion, it ends. -/
theorem loop_strlen {format : List UInt8} (args : VarArgs) (esp : Nat) (out : List UInt8) {fuel : Nat}
    (hfuel : 0 < fuel) : loop (turn format args) fuel ⟨strlen format, esp, none, out⟩ =
      some (⟨strlen format, esp, none, out⟩, [strlen format]) := by
  obtain ⟨fuel, rfl⟩ : ∃ n, fuel = n + 1 := ⟨fuel - 1, by omega⟩
  have hturn : turn format args ⟨strlen format, esp, none, out⟩ =
      ⟨false, ⟨strlen format, esp, none, out⟩, [strlen format]⟩ := by
    simp only [turn, charAt_strlen, if_pos]
  rw [loop, hturn]
  rfl

theorem rendering_append (args : VarArgs) (i : Nat) (ds es : List Directive) :
    rendering args i (ds ++ es) = rendering args i ds ++ rendering args (i + argCount ds) es := by
  induction ds generalizing i with
  | nil => rfl
  | cons d ds ih =>
      rw [List.cons_append, rendering, rendering, ih, List.append_assoc, argCount, argCount, List.map_cons,
        List.sum_cons, Nat.add_assoc]

theorem argCount_append (ds es : List Directive) : argCount (ds ++ es) = argCount ds + argCount es := by
  simp [argCount]

/-- From a byte in front of which the code has read nothing but directives, it prints those that are left and ends
at the NUL. -/
theorem loop_eq_of_directives {format : List UInt8} (args : VarArgs) {cs : List UInt8} {s : Printf}
    {ds : List Directive} {fuel : Nat} (hdrop : (cstr format).drop s.buf = cs) (hle : s.buf ≤ strlen format)
    (hds : directivesFrom s.conversion cs = some ds) (hfuel : cs.length < fuel) :
    ∃ log, loop (turn format args) fuel s =
        some (⟨strlen format, s.esp + argCount ds, none, s.out ++ rendering args s.esp ds⟩, log) ∧
      ∀ a ∈ log, a ≤ strlen format := by
  induction cs generalizing s ds fuel with
  | nil =>
      have hbuf := drop_cstr_nil hdrop hle
      obtain ⟨buf, esp, conversion, out⟩ := s
      obtain rfl : buf = strlen format := hbuf
      cases conversion with
      | none =>
          obtain rfl : [] = ds := Option.some.inj hds
          refine ⟨[strlen format], ?_, by simp⟩
          rw [loop_strlen args esp out hfuel, rendering, List.append_nil]
          rfl
      | some _ => cases hds
  | cons c cs ih =>
      obtain ⟨s', done, hturn, hbuf, hesp, hout, hread⟩ := turn_cons args hdrop
      obtain ⟨hlt, -, -, hdrop'⟩ := drop_cstr_cons hdrop
      rw [hread] at hds
      obtain ⟨rest, hrest, rfl⟩ := Option.map_eq_some_iff.mp hds
      obtain ⟨fuel, rfl⟩ : ∃ n, fuel = n + 1 := ⟨fuel - 1, by omega⟩
      obtain ⟨log, hloop, hlog⟩ := ih (s := s') (by rw [hbuf, hdrop']) (by omega) hrest
        (by simpa using hfuel)
      refine ⟨s.buf :: log, ?_, ?_⟩
      · rw [loop, hturn, if_pos rfl, hloop, hesp, hout, rendering_append, argCount_append, Nat.add_assoc,
          List.append_assoc]
        rfl
      · rintro a (_ | ⟨_, ha⟩)
        · exact hle
        · exact hlog a ha

/-- Otherwise it meets the NUL inside a conversion, and examines the byte behind it. -/
theorem succ_strlen_mem_log {format : List UInt8} (args : VarArgs) {cs : List UInt8} {s : Printf}
    {r : Printf × List Nat} {fuel : Nat} (hdrop : (cstr format).drop s.buf = cs) (hle : s.buf ≤ strlen format)
    (hds : directivesFrom s.conversion cs = none) (hloop : loop (turn format args) fuel s = some r) :
    strlen format + 1 ∈ r.2 := by
  induction cs generalizing s r fuel with
  | nil =>
      have hbuf := drop_cstr_nil hdrop hle
      obtain ⟨buf, esp, conversion, out⟩ := s
      obtain rfl : buf = strlen format := hbuf
      cases conversion with
      | none => cases hds
      | some alternate =>
          -- the `default` of the switch, and `buf++` behind it
          have hturn : turn format args ⟨strlen format, esp, some alternate, out⟩ =
              ⟨true, ⟨strlen format + 1, esp, none, out⟩, [strlen format]⟩ := by
            have hdefault : convert args alternate 0 esp = ([], esp) := rfl
            have hsharp : (0 : UInt8) ≠ '#'.toUInt8 := by decide
            simp only [turn, charAt_strlen, if_neg hsharp, hdefault, List.append_nil]
          obtain ⟨fuel, r, hnext, rfl⟩ := loop_eq_of_next (by rw [hturn]) hloop
          refine List.mem_append_right _ (mem_log_of_loop_eq hnext ?_)
          rw [hturn, turn_log]
          exact List.mem_singleton_self _
  | cons c cs ih =>
      obtain ⟨s', done, hturn, hbuf, -, -, hread⟩ := turn_cons args hdrop
      obtain ⟨hlt, -, -, hdrop'⟩ := drop_cstr_cons hdrop
      rw [hread, Option.map_eq_none_iff] at hds
      obtain ⟨fuel, r, hnext, rfl⟩ := loop_eq_of_next (by rw [hturn]) hloop
      rw [hturn] at hnext
      exact List.mem_append_right _ (ih (s := s') (by rw [hbuf, hdrop']) (by omega) hds hnext)

/-! ## `printf` -/

/-- **`Prints format args text taken`** — `printf` returns, having passed `text` to `putc` and taken the first
`taken` arguments. -/
def Prints (format : List UInt8) (args : VarArgs) (text : List UInt8) (taken : Nat) : Prop :=
  ∃ fuel s log, printf format args fuel = some (s, log) ∧ s.out = text ∧ s.esp = taken

/-- **`StopsAtEnd format args`** — `printf` returns the length of the format, and examines no byte of it behind the
NUL. -/
def StopsAtEnd (format : List UInt8) (args : VarArgs) : Prop :=
  ∃ fuel s log, printf format args fuel = some (s, log) ∧ s.buf = strlen format ∧ ∀ a ∈ log, a ≤ strlen format

theorem printf_eq_of_directives {format : List UInt8} {ds : List Directive} (hds : directives format = some ds)
    (args : VarArgs) : ∃ fuel log, printf format args fuel =
        some (⟨strlen format, argCount ds, none, rendering args 0 ds⟩, log) ∧ ∀ a ∈ log, a ≤ strlen format := by
  obtain ⟨log, hloop, hlog⟩ := loop_eq_of_directives (s := ⟨0, 0, none, []⟩) args rfl (Nat.zero_le _) hds
    (Nat.lt_succ_self _)
  rw [Nat.zero_add, List.nil_append] at hloop
  exact ⟨_, log, hloop, hlog⟩

/-- **A format that does not end inside a conversion is printed as its directives say.**  The numerals are those
without leading zeros, and `%#x` has eight digits. -/
theorem printf_renders {format : List UInt8} {ds : List Directive} (hds : directives format = some ds)
    (args : VarArgs) : Prints format args (rendering args 0 ds) (argCount ds) ∧
      (∀ radix ∈ [10, 16], ∀ n digits, IsNumeral radix n digits ↔ digits = numeral radix n) ∧
      ∀ v : BitVec 32, (paddedText v.toNat).length = 8 := by
  obtain ⟨fuel, log, hprintf, -⟩ := printf_eq_of_directives hds args
  refine ⟨⟨fuel, _, log, hprintf, rfl, rfl⟩, fun radix hradix n digits => isNumeral_iff ?_, paddedText_length⟩
  rw [List.mem_cons, List.mem_singleton] at hradix
  omega

/-- `"%d%#x"` with -2147483648 and 14. -/
theorem least_and_padded :
    Prints ("%d%#x".toList.map Char.toUInt8)
      ⟨fun i => if i = 0 then 0x80000000 else 14, fun _ => [], fun _ => .replicate 64 0, fun _ => .replicate 36 0⟩
      ("-21474836480000000E".toList.map Char.toUInt8) 2 := by
  have hds : directives ("%d%#x".toList.map Char.toUInt8) =
      some [.conversion false 'd'.toUInt8, .conversion true 'x'.toUInt8] := by decide
  exact (printf_renders hds _).1

theorem not_stopsAtEnd {format : List UInt8} (hinside : EndsInside format) (args : VarArgs) :
    ¬StopsAtEnd format args := by
  rintro ⟨fuel, s, log, hprintf, -, hlog⟩
  have hmem := succ_strlen_mem_log (s := ⟨0, 0, none, []⟩) args rfl (Nat.zero_le _) hinside hprintf
  exact absurd (hlog _ hmem) (Nat.not_succ_le_self _)

/-- **`printf` stops at the end of its format exactly if that is not inside a conversion.** -/
theorem printf_stops_iff (format : List UInt8) (args : VarArgs) :
    StopsAtEnd format args ↔ ¬EndsInside format := by
  constructor
  · exact fun hstops hinside => not_stopsAtEnd hinside args hstops
  · intro hinside
    obtain ⟨ds, hds⟩ := Option.ne_none_iff_exists'.mp hinside
    obtain ⟨fuel, log, hprintf, hlog⟩ := printf_eq_of_directives hds args
    exact ⟨fuel, _, log, hprintf, rfl, hlog⟩

/-- `printf("%")` does not. -/
theorem percent_runs_on : ¬StopsAtEnd ['%'.toUInt8]
    ⟨fun _ => 0, fun _ => [], fun _ => .replicate 64 0, fun _ => .replicate 36 0⟩ :=
  not_stopsAtEnd (show EndsInside ['%'.toUInt8] from rfl) _

end Ece391
