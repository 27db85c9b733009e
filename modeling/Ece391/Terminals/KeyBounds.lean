/-
# Ece391.Terminals.KeyBounds — when the accesses to `keyBuffer` are in bounds.

`keyBuffer` has 127 elements.  Five places move its index or run over it, and they use two different
sizes: `key_press` stops a character at 126, its last lines store a newline at 127, Ctrl-L clears 128
elements, Enter does not look at the index at all, and a backspace over a newline steps back twice.

The index is tracked through the routines by triples (`AtIndex n` before, `AtIndex m` after); the steps
that keep it in bounds are `KeyGuard`, and along a run nothing else does (`key_accesses_in_bounds_iff`).
-/
import Ece391.Terminals.Accesses
import Ece391.Terminals.Echo

open Ece391.Lib

namespace Ece391

/-! ## The property and the condition -/

/-- The element exists. -/
def Access.KeyInBounds : Access → Prop
  | .keyBuffer i => 0 ≤ i ∧ i ≤ 126
  | .cell _ => True

def Desk.IndexInBounds (s : Desk) : Prop := 0 ≤ s.k.con.keyBufferIndex ∧ s.k.con.keyBufferIndex ≤ 126

/-- **The steps that stay in bounds**: Enter before the last element, no Ctrl-L while there is room for a
character, no backspace over a newline in element 1. -/
def KeyGuard (s : Desk) : DeskEvent → Prop
  | .key input =>
      (input = enterKey → s.k.con.keyBufferIndex < 126) ∧
      (s.kb.CtrlL input → ¬ s.k.con.keyBufferIndex < 126) ∧
      (input = backspaceKey → ¬ (s.k.con.keyBufferIndex = 1 ∧ s.k.con.keyBuffer 1 = newLine))
  | _ => True

/-- The reads the array is meant for. -/
def ShortRead : DeskEvent → Prop
  | .terminalRead nbytes => nbytes ≤ maxInputLength
  | _ => True

/-! ## The index through the routines -/

def AtIndex (n : Int) (c : Console) : Prop := c.keyBufferIndex = n

section Triples

open Traced

variable {n : Int} {P : Console → Prop}

theorem keys_inBounds {m : Nat} (h : m ≤ maxInputLength) : ∀ a ∈ Tracing.keys m, a.KeyInBounds := by
  intro a ha
  obtain ⟨k, hk, rfl⟩ := Tracing.mem_keys.mp ha
  have hmax : maxInputLength = 127 := rfl
  exact ⟨by omega, by omega⟩

theorem scrollCells_inBounds (t : Fin 3) (c : Console) : ∀ a ∈ Tracing.scrollCells t c, a.KeyInBounds := by
  intro a ha
  have hcell := Tracing.scrollCells_onScreen t c a ha
  cases a with
  | keyBuffer i => cases hcell
  | cell i => trivial

theorem putCells_inBounds (t : Fin 3) (ch : UInt8) (c : Console) :
    ∀ a ∈ Tracing.putCells t ch c, a.KeyInBounds := by
  intro a ha
  unfold Tracing.putCells at ha
  split at ha
  · cases ha
  · obtain rfl := List.mem_singleton.mp ha
    trivial

/-- A routine that does not reach the line buffer leaves the index alone. -/
theorem safe_draws {f : Console → Console} (hf : ∀ c, Draws Draws.bytes c (f c)) :
    Safe (AtIndex n) Access.KeyInBounds (AtIndex n) (lift f) :=
  .lift fun c hc => ((hf c).keys fun _ h => h).2.trans hc

/-- So does one that also computes cells. -/
theorem safe_cells {touched : Console → List Access} {f : Console → Console}
    (htouched : ∀ c, ∀ a ∈ touched c, a.KeyInBounds) (hf : ∀ c, Draws Draws.bytes c (f c)) :
    Safe (AtIndex n) Access.KeyInBounds (AtIndex n) (seq [access touched, lift f]) :=
  .cons (.access fun c _ => htouched c) (.cons (safe_draws hf) (.nil fun _ hs => hs))

theorem safe_updateCursor :
    Safe (AtIndex n) Access.KeyInBounds (AtIndex n) (lift (·.updateCursor)) :=
  safe_draws Draws.updateCursor

theorem safe_storeKey (h0 : 0 ≤ n) (h126 : n ≤ 126) (v : UInt8) :
    Safe (AtIndex n) Access.KeyInBounds (AtIndex n) (Tracing.storeKey v) := by
  refine .touch (fun c hc a ha => ?_) fun c hc => (Tracing.storeKey_index c _ v).trans hc
  obtain rfl := List.mem_singleton.mp ha
  exact ⟨hc.symm ▸ h0, hc.symm ▸ h126⟩

theorem safe_pushKey (h0 : 0 ≤ n) (h126 : n ≤ 126) (v : UInt8) :
    Safe (AtIndex n) Access.KeyInBounds (AtIndex (n + 1)) (Tracing.pushKey v) :=
  .cons (safe_storeKey h0 h126 v) (.cons (.lift fun _ hc => congrArg (· + 1) hc) (.nil fun _ hs => hs))

theorem safe_dropKey (h0 : 0 ≤ n) (h126 : n ≤ 126) :
    Safe (AtIndex n) Access.KeyInBounds (AtIndex (n - 1)) Tracing.dropKey :=
  .cons (safe_storeKey h0 h126 0) (.cons (.lift fun _ hc => congrArg (· - 1) hc) (.nil fun _ hs => hs))

/-- The last lines of `key_press` do nothing below 127. -/
theorem safe_keyPressEnd (h : n ≠ 127) :
    Safe (AtIndex n) Access.KeyInBounds (AtIndex n) Tracing.keyPressEnd := by
  refine .cons (.cond ?_ (Safe.skip.mono (fun _ hs => hs.1) fun _ hs => hs))
    (.cons safe_updateCursor (.nil fun _ hs => hs))
  rintro c ⟨hc, hend⟩
  exact absurd (hc.symm.trans hend) h

theorem safe_wrapLine (h0 : 0 ≤ n) (h126 : n ≤ 126) (cur : Fin 3) :
    Safe (AtIndex n) Access.KeyInBounds (AtIndex (n + 1)) (Tracing.wrapLine cur) :=
  .cons (safe_pushKey h0 h126 newLine) (.cons (safe_draws fun c => Draws.enterAt c cur)
    (.cons (safe_cells (scrollCells_inBounds cur) fun c => (Draws.vertScrollAt c cur).toBytes)
      (.cons safe_updateCursor (.nil fun _ hs => hs))))

/-- The index after a character: at 73 it moves by two. -/
theorem safe_typeChar (h0 : 0 ≤ n) (h126 : n < 126) (cur : Fin 3) (ch : UInt8) :
    Safe (AtIndex n) Access.KeyInBounds (AtIndex (if n = 73 then n + 2 else n + 1))
      (Tracing.typeChar cur ch) := by
  have hput : ∀ m, 0 ≤ m → m < 126 → Safe (AtIndex m) Access.KeyInBounds (AtIndex (m + 1))
      (seq [Tracing.putcUser ch, Tracing.pushKey ch, Tracing.keyPressEnd]) := fun m hm0 hm =>
    .cons (safe_cells (fun c => putCells_inBounds c.currTerminal ch c)
      fun c => (Draws.putcAt c c.currTerminal ch).toBytes) (.cons (safe_pushKey hm0 (by omega) ch)
      (.cons (safe_keyPressEnd (by omega)) (.nil fun _ hs => hs)))
  have hwraps : ∀ c, AtIndex n c → (c.Wraps ↔ n = 73) := by
    intro c hc
    have hn : c.keyBufferIndex = n := hc
    rw [Console.wraps_iff (by omega) (by omega), hn]
  by_cases h73 : n = 73
  · rw [if_pos h73]
    refine .cons (Q := AtIndex (n + 1)) (.cond ?_ ?_)
      ((hput (n + 1) (by omega) (by omega)).mono (fun _ hs => hs) fun c hc => ?_)
    · exact (safe_wrapLine h0 (by omega) cur).mono (fun _ hs => hs.1) fun _ hs => hs
    · rintro c ⟨hc, hno⟩
      exact absurd ((hwraps c hc).mpr h73) hno
    · show c.keyBufferIndex = n + 2
      have hc' : c.keyBufferIndex = n + 1 + 1 := hc
      omega
  · rw [if_neg h73]
    refine .cons (Q := AtIndex n) (.cond ?_ ?_) (hput n h0 h126)
    · rintro c ⟨hc, hyes⟩
      exact absurd ((hwraps c hc).mp hyes) h73
    · exact Safe.skip.mono (fun _ hs => hs.1) fun _ hs => hs

/-- `key_press` of a key without a character. -/
theorem safe_keyPress_untyped {kb : Keyboard} {input : UInt8} (hch : kb.typed input = 0) (h126 : n ≤ 126)
    (cur : Fin 3) : Safe (AtIndex n) Access.KeyInBounds (AtIndex n) (Tracing.keyPress kb cur input) := by
  unfold Tracing.keyPress
  by_cases hbig : input.toNat ≥ keySize
  · rw [if_pos hbig]
    exact .skip
  · have hzero : kb.keyValue input = 0 := by rwa [Keyboard.typed, if_neg hbig] at hch
    rw [if_neg hbig, if_pos hzero]
    exact .cond (Safe.skip.mono (fun _ hs => hs.1) fun _ hs => hs)
      ((safe_keyPressEnd (by omega)).mono (fun _ hs => hs.1) fun _ hs => hs)

/-- `case ENTER`. -/
theorem safe_enterCase (h0 : 0 ≤ n) (h126 : n ≤ 126) :
    Safe (AtIndex n) Access.KeyInBounds (AtIndex (n + 1)) Tracing.enterCase := by
  refine .cons (.lift fun c hc => ?_) (.cons
    (safe_cells (fun c => scrollCells_inBounds c.currTerminal c)
      fun c => (Draws.vertScrollAt c c.currTerminal).toBytes)
    (.cons (safe_pushKey h0 h126 newLine) (.cons safe_updateCursor (.nil fun _ hs => hs))))
  have hindex : c.enterUser.keyBufferIndex = c.keyBufferIndex :=
    congrArg Input.keyBufferIndex (Console.input_enterUser c)
  exact hindex.trans hc

/-- The index is between two values. -/
def Between (lo hi : Int) (c : Console) : Prop := lo ≤ c.keyBufferIndex ∧ c.keyBufferIndex ≤ hi

/-- `case BACKSPACE`, unless a newline in element 1 is erased. -/
theorem safe_backspaceCase (h126 : n ≤ 126) :
    Safe (fun c => Between 0 n c ∧ (c.keyBufferIndex = 1 → c.keyBuffer 1 ≠ newLine)) Access.KeyInBounds
      (Between 0 126) Tracing.backspaceCase := by
  -- what follows the test for a newline
  have herase : Safe (Between 1 n) Access.KeyInBounds (Between 0 126)
      (seq [Tracing.backspace, Tracing.dropKey]) := by
    intro c hc
    have hback : Safe (AtIndex c.keyBufferIndex) Access.KeyInBounds (AtIndex c.keyBufferIndex)
        Tracing.backspace := safe_cells (fun c a ha => by
      obtain rfl := List.mem_singleton.mp ha
      trivial) Draws.backspace
    have hdrop := Safe.cons hback
      (.cons (safe_dropKey (by have := hc.1; omega) (by have := hc.2; omega))
        (.nil (Q := AtIndex (c.keyBufferIndex - 1)) fun _ hs => hs)) c rfl
    refine ⟨?_, hdrop.2⟩
    have hindex := hdrop.1
    unfold AtIndex at hindex
    unfold Between at hc ⊢
    omega
  refine .cons (.cond (.cons (Q := fun c => Between 1 n c ∧
      (c.keyBufferIndex = 1 → c.keyBuffer 1 ≠ newLine)) ?_ (.cons ?_ herase)) ?_)
    (.cons (.lift fun _ hs => hs) (.nil fun _ hs => hs))
  · rintro c ⟨⟨hc, hone⟩, hpos⟩
    have hpos' : 0 < c.keyBufferIndex := hpos
    refine ⟨⟨⟨?_, hc.2⟩, hone⟩, fun a ha => ?_⟩
    · show 1 ≤ c.keyBufferIndex
      omega
    · obtain rfl := List.mem_singleton.mp ha
      have hle := hc.2
      exact ⟨by omega, by omega⟩
  · refine .cond ?_ ?_
    · rintro c ⟨⟨hc, hone⟩, hnl⟩
      -- a newline at index 1 is excluded
      have hne : c.keyBufferIndex ≠ 1 := by
        intro heq
        rw [heq] at hnl
        exact hone heq hnl
      obtain ⟨hindex, hlog⟩ := safe_dropKey (by have := hc.1; omega) (by have := hc.2; omega) c rfl
      unfold AtIndex at hindex
      unfold Between at hc ⊢
      exact ⟨by omega, hlog⟩
    · exact Safe.skip.mono (fun c hs => hs.1.1) fun _ hs => hs
  · refine Safe.skip.mono (fun c hs => ?_) fun _ hs => hs
    obtain ⟨⟨hc, -⟩, -⟩ := hs
    exact ⟨hc.1, Int.le_trans hc.2 h126⟩

theorem safe_terminalSwitch (t : Fin 3) :
    Safe (AtIndex n) Access.KeyInBounds (AtIndex n) (Tracing.terminalSwitch t) := by
  refine Tracing.safe_terminalSwitch (keys_inBounds (Nat.le_refl _)) fun c hc => ?_
  by_cases ht : t = c.currTerminal
  · rw [terminalSwitch_of_not (Or.inl (congrArg Fin.val ht))]
    exact hc
  · exact (terminalSwitch_keys c ht).2.1.trans hc

end Triples

/-! ## One keyboard interrupt -/

section Handler

open Traced

variable {c : Console} {kb : Keyboard} {input : UInt8} (cur : Fin 3)

/-- The `switch` does nothing for a key with a character. -/
theorem Tracing.specialKeys_of_typed (hch : kb.typed input ≠ 0) :
    Tracing.specialKeys kb input = skip := by
  obtain ⟨hkey, hback, henter⟩ := unserved_of_typed hch
  simp only [Tracing.specialKeys, hkey, if_neg hback, if_neg henter]

/-- `key_press` of a key with a character, by its cases. -/
theorem Tracing.keyPress_of_typed (hch : kb.typed input ≠ 0) :
    Tracing.keyPress (kb.modifiers input) cur input =
      cond (fun c => c.keyBufferIndex < 126)
        (if kb.ctrlPressed ∧ isL (kb.typed input) then Tracing.clearLine
          else if kb.ctrlPressed ∧ isC (kb.typed input) then skip
          else Tracing.typeChar cur (kb.typed input))
        Tracing.keyPressEnd := by
  have hbig : ¬ input.toNat ≥ keySize := fun hbig => hch (if_pos hbig)
  have hkey : (kb.modifiers input).keyValue input = kb.typed input := by
    rw [← typed_modifiers, Keyboard.typed, if_neg hbig]
  rw [Tracing.keyPress, if_neg hbig, hkey, ctrlPressed_modifiers hch, if_neg hch]
  rfl

/-- **A guarded key stays in bounds.** -/
theorem handler_inBounds (h0 : 0 ≤ c.keyBufferIndex) (h126 : c.keyBufferIndex ≤ 126)
    (henter : input = enterKey → c.keyBufferIndex < 126)
    (hclear : kb.CtrlL input → ¬ c.keyBufferIndex < 126)
    (hback : input = backspaceKey → ¬ (c.keyBufferIndex = 1 ∧ c.keyBuffer 1 = newLine)) :
    (∀ a ∈ (Tracing.keyboardInterHandler cur input kb).log c, a.KeyInBounds) ∧
    Between 0 126 ((Tracing.keyboardInterHandler cur input kb).state c) := by
  -- one triple for each kind of key
  suffices hsafe : Safe (· = c) Access.KeyInBounds (Between 0 126)
      (Tracing.keyboardInterHandler cur input kb) from ⟨(hsafe c rfl).2, (hsafe c rfl).1⟩
  have hat : ∀ c', c' = c → AtIndex c.keyBufferIndex c' := fun c' h => congrArg Console.keyBufferIndex h
  have hin : ∀ c', AtIndex c.keyBufferIndex c' → Between 0 126 c' := by
    intro c' hc'
    unfold AtIndex at hc'
    exact ⟨by omega, by omega⟩
  by_cases hch : kb.typed input = 0
  · have huntyped : (kb.modifiers input).typed input = 0 := by rw [typed_modifiers, hch]
    have hpress : Safe (Between 0 126) Access.KeyInBounds (Between 0 126)
        (seq [Tracing.keyPress (kb.modifiers input) cur input]) := by
      intro c' hc'
      obtain ⟨hindex, hlog⟩ := Safe.cons (safe_keyPress_untyped huntyped hc'.2 cur)
        (.nil (Q := AtIndex c'.keyBufferIndex) fun _ hs => hs) c' rfl
      unfold AtIndex at hindex
      unfold Between at hc' ⊢
      exact ⟨by omega, hlog⟩
    refine .cons ?_ hpress
    unfold Tracing.specialKeys
    cases switchKey input with
    | some t =>
        dsimp only
        split
        · exact (safe_terminalSwitch t).mono hat hin
        · exact Safe.skip.mono hat hin
    | none =>
        dsimp only
        split
        next heq =>
          refine (safe_backspaceCase h126).mono (fun c' hc' => ?_) fun _ hs => hs
          rw [hc']
          exact ⟨⟨h0, Int.le_refl _⟩, fun hone hnl => hback heq ⟨hone, hnl⟩⟩
        next =>
          split
          next heq =>
            have hroom := henter heq
            refine (safe_enterCase h0 h126).mono hat fun c' hc' => ?_
            unfold AtIndex at hc'
            exact ⟨by omega, by omega⟩
          next => exact Safe.skip.mono hat hin
  · rw [Tracing.keyboardInterHandler, Tracing.specialKeys_of_typed hch, Tracing.keyPress_of_typed cur hch]
    refine .cons .skip (.cons (.cond ?_ ?_) (.nil fun _ hs => hs))
    · split
      next hl =>
        rintro c' ⟨rfl, hroom⟩
        exact absurd hroom (hclear hl)
      next =>
        split
        next => exact Safe.skip.mono (fun c' hs => hat c' hs.1) hin
        next =>
          rintro c' ⟨rfl, hroom⟩
          have hroom' : c'.keyBufferIndex < 126 := hroom
          obtain ⟨hindex, hlog⟩ := safe_typeChar h0 hroom' cur (kb.typed input) c' rfl
          unfold AtIndex at hindex
          refine ⟨?_, hlog⟩
          unfold Between
          split at hindex
          · omega
          · omega
    · exact (safe_keyPressEnd (by omega)).mono (fun c' hs => hat c' hs.1) hin

/-- Ctrl-L clears one element more than there are. -/
theorem clearLine_stores_behind (hclear : kb.CtrlL input) (hroom : c.keyBufferIndex < 126) :
    Access.keyBuffer 127 ∈ (Tracing.keyboardInterHandler cur input kb).log c := by
  have hch : kb.typed input ≠ 0 := fun hzero => not_ctrlL_of_untyped hzero hclear
  have hl : kb.ctrlPressed = true ∧ isL (kb.typed input) = true := hclear
  rw [Tracing.keyboardInterHandler, Tracing.specialKeys_of_typed hch,
    Tracing.keyPress_of_typed cur hch, if_pos hl]
  simp only [log_seq_cons, log_skip, state_skip, log_cond, log_seq_nil, List.nil_append,
    List.append_nil]
  rw [if_pos hroom]
  simp only [Tracing.clearLine, log_seq_cons, log_lift, log_access, log_seq_nil, List.nil_append,
    List.append_nil]
  exact List.mem_map.mpr ⟨127, List.mem_range.mpr (show 127 < keyBufferSize by decide), rfl⟩

/-- **A key that is not guarded does not.**  The index leaves its range, or Ctrl-L stores behind the
array. -/
theorem handler_outOfBounds (h0 : 0 ≤ c.keyBufferIndex) (h126 : c.keyBufferIndex ≤ 126)
    (h : (input = enterKey ∧ ¬ c.keyBufferIndex < 126) ∨ (kb.CtrlL input ∧ c.keyBufferIndex < 126) ∨
      (input = backspaceKey ∧ c.keyBufferIndex = 1 ∧ c.keyBuffer 1 = newLine)) :
    ¬ ((∀ a ∈ (Tracing.keyboardInterHandler cur input kb).log c, a.KeyInBounds) ∧
      Between 0 126 (keyboardInterHandler cur input kb c).2) := by
  rintro ⟨hlog, hbetween⟩
  unfold Between at hbetween
  rcases h with ⟨rfl, hfull⟩ | ⟨hclear, hroom⟩ | ⟨rfl, hone, hnl⟩
  · have hindex : (keyboardInterHandler cur enterKey kb c).2.keyBufferIndex = c.keyBufferIndex + 1 :=
      congrArg Input.keyBufferIndex (handler_enter cur kb h0 h126)
    omega
  · have hmem := clearLine_stores_behind cur hclear hroom
    exact absurd (hlog _ hmem).2 (by decide)
  · have hinput := congrArg Input.keyBufferIndex (Console.input_backspaceCase (c := c))
    have hpos : 0 < c.input.keyBufferIndex := by
      show 0 < c.keyBufferIndex
      omega
    have hcell : c.input.keyBuffer c.input.keyBufferIndex.toNat = newLine := by
      show c.keyBuffer c.keyBufferIndex.toNat = newLine
      rw [hone]
      exact hnl
    rw [Input.backspace, if_pos hpos, if_pos hcell] at hinput
    have hindex : c.backspaceCase.keyBufferIndex = c.keyBufferIndex - 1 - 1 := hinput
    rw [handler_backspace cur kb h126] at hbetween
    omega

end Handler

/-! ## Runs -/

/-- **The step lemma.** -/
theorem Desk.Sound.keyStep_iff (img : Image) {s : Desk} {e : DeskEvent} (h : s.Sound)
    (hindex : s.IndexInBounds) (hread : ShortRead e) :
    ((∀ a ∈ accesses s e, a.KeyInBounds) ∧ ∀ s', DeskStep img s e s' → s'.IndexInBounds) ↔
      KeyGuard s e := by
  cases e with
  | tick fr =>
      refine iff_of_true ⟨fun a ha => (by cases ha), ?_⟩ trivial
      rintro s' rfl
      have hsame : (pitInterruptHandler img fr s.k).con.keyBufferIndex = s.k.con.keyBufferIndex :=
        congrArg Input.keyBufferIndex (input_tick img fr s.k)
      unfold Desk.IndexInBounds at hindex ⊢
      rwa [hsame]
  | terminalWrite buf =>
      refine iff_of_true ⟨fun a ha => ?_, ?_⟩ trivial
      · have hcell := Tracing.terminalWrite_onScreen h.1.mux s.k.proc.currProcess buf a ha
        cases a with
        | keyBuffer i => exact absurd hcell id
        | cell i => trivial
      · rintro s' rfl
        have hinput := Console.input_terminalWrite h.1.mux s.k.proc.currProcess buf
        have hsame : (s.k.con.terminalWrite s.k.proc.currProcess buf).1.keyBufferIndex =
            s.k.con.keyBufferIndex := congrArg Input.keyBufferIndex hinput
        unfold Desk.IndexInBounds at hindex ⊢
        rwa [hsame]
  | terminalRead nbytes =>
      have hmax : max nbytes maxInputLength = maxInputLength := Nat.max_eq_right hread
      refine iff_of_true ⟨fun a ha => ?_, ?_⟩ trivial
      · exact keys_inBounds (Nat.le_of_eq hmax) a (readAccesses_subset nbytes ha)
      · rintro s' ⟨con, copy, hcon, rfl⟩
        unfold Console.terminalRead at hcon
        split at hcon
        · obtain ⟨rfl, -⟩ := Prod.mk.inj (Option.some.inj hcon)
          exact ⟨Int.le_refl 0, show (0 : Int) ≤ 126 by decide⟩
        · cases hcon
  | key input =>
      obtain ⟨h0, h126⟩ := hindex
      have hnext : (∀ s', DeskStep img s (.key input) s' → s'.IndexInBounds) ↔
          Between 0 126 (keyboardInterHandler s.k.proc.currProcess input s.kb s.k.con).2 := by
        refine ⟨fun hall => hall _ rfl, ?_⟩
        rintro hbetween s' rfl
        exact hbetween
      rw [hnext]
      constructor
      · intro hgood
        refine ⟨fun henter => ?_, fun hclear hroom => ?_, fun hback hone => ?_⟩
        · by_contra hfull
          exact handler_outOfBounds s.k.proc.currProcess h0 h126 (Or.inl ⟨henter, hfull⟩) hgood
        · exact handler_outOfBounds s.k.proc.currProcess h0 h126 (Or.inr (Or.inl ⟨hclear, hroom⟩)) hgood
        · exact handler_outOfBounds s.k.proc.currProcess h0 h126 (Or.inr (Or.inr ⟨hback, hone⟩)) hgood
      · rintro ⟨henter, hclear, hback⟩
        have hsafe := handler_inBounds s.k.proc.currProcess h0 h126 henter hclear hback
        rw [Tracing.state_keyboardInterHandler] at hsafe
        exact hsafe

/-- **When the accesses to `keyBuffer` are in bounds.**  For every run of ticks, writes, keyboard
interrupts and reads of at most 127 bytes, from a sound desk with its index in 0 .. 126: the index stays
there and every element accessed exists, if and only if Enter is only pressed before index 126, Ctrl-L
never below it, and no backspace erases a newline in element 1. -/
theorem key_accesses_in_bounds_iff (img : Image) {s : Desk} {es : List DeskEvent} (hstart : s.Sound)
    (hindex : s.IndexInBounds) (hreads : ∀ e ∈ es, ShortRead e) :
    (AllStates (DeskStep img) Desk.IndexInBounds s es ∧
      AllSteps (DeskStep img) (fun m e => ∀ a ∈ accesses m e, a.KeyInBounds) s es) ↔
    AllSteps (DeskStep img) KeyGuard s es := by
  have hdom : AllSteps (DeskStep img) (fun _ e => ShortRead e) s es := allSteps_of_mem hreads
  exact allStates_and_allSteps_iff (I := Desk.Sound) (fun _ _ _ h _ _ _ hs _ => (h.step hs).1)
    (fun _ _ h hm hread => h.keyStep_iff img hm hread) hstart hindex hdom

/-- A character and Enter, after boot. -/
theorem booted_keys_in_bounds :
    AllStates (DeskStep shellImage) Desk.IndexInBounds bootedDesk [.key keyA, .key enterKey] ∧
    AllSteps (DeskStep shellImage) (fun m e => ∀ a ∈ accesses m e, a.KeyInBounds) bootedDesk
      [.key keyA, .key enterKey] := by
  have hreads : ∀ e ∈ [DeskEvent.key keyA, .key enterKey], ShortRead e := by
    intro e he
    rcases List.mem_cons.mp he with rfl | he
    · trivial
    · obtain rfl := List.mem_singleton.mp he
      trivial
  refine (key_accesses_in_bounds_iff shellImage bootedDesk_sound ⟨by decide, by decide⟩ hreads).mpr ?_
  refine .cons ⟨fun h => absurd h (by decide), fun h => absurd h.1 (by decide), fun h => absurd h (by decide)⟩
    fun m hm => .cons ⟨fun _ => ?_, fun h => ?_, fun h => absurd h (by decide)⟩ fun _ _ => allSteps_nil
  · have hindex : m.k.con.keyBufferIndex = 1 := by
      obtain rfl := hm
      have hinput : (keyboardInterHandler 0 keyA ⟨0, false, false⟩ bootedKernel.con).2.input = _ :=
        handler_input 0 (by decide) rfl rfl (by decide) (by decide)
      exact congrArg Input.keyBufferIndex hinput
    omega
  · obtain rfl := hm
    exact absurd h.1 (by decide)

/-- Ctrl-L right after boot clears `keyBuffer[127]`, which does not exist. -/
theorem ctrlL_out_of_bounds :
    ¬ AllSteps (DeskStep shellImage) (fun m e => ∀ a ∈ accesses m e, a.KeyInBounds) bootedDesk
      [.key lctrlPressed, .key keyL] := by
  intro hall
  have hctrl : Run (DeskStep shellImage) bootedDesk [.key lctrlPressed] ⟨bootedKernel, ⟨0, true, false⟩⟩ :=
    ⟨_, DeskStep.ctrl shellImage (show bootedKernel.con.keyBufferIndex < 126 by decide), rfl⟩
  have hlog := hall [.key lctrlPressed] (.key keyL) [] _ rfl hctrl
  have hmem : Access.keyBuffer 127 ∈ (Tracing.keyboardInterHandler bootedKernel.proc.currProcess keyL
      ⟨0, true, false⟩).log bootedKernel.con := clearLine_stores_behind _ keyL_ctrlL (by decide)
  exact absurd (hlog _ hmem).2 (by decide)

end Ece391
