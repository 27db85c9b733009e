/-
# Ece391.Terminals.Mapping — the page-table entries behind the three screens.

`terminal_switch`, `remap_video`, `scheduler_remap_video` and `vidmap_handler` rewrite the same few
entries, and in the middle of a switch none of the terminals is the displayed one.  `VideoAt shown vis`
is the mapping with these two parameters free: `shown` is the terminal whose virtual page leads to the
text page, `vis` the one marked visible.  Every writer moves the parameters; between two events both
are `curr_terminal` (`VideoMap`).

The user's video page `page_virtual_mem[0]` does not obey such a law: the scheduler writes it through
the 10-bit field of a 4 MB page, so after a tick it does not even point below 1 MB
(`userVideo_iff`).
-/
import Ece391.Process.Events

open Ece391.Lib

namespace Ece391

/-! ## What leaves the mapping alone -/

/-- `c'` is `c` with another memory. -/
def Console.MemoryOf (c c' : Console) : Prop := ∃ phys fault, c' = { c with phys := phys, fault := fault }

namespace Console.MemoryOf

variable {c c' c'' : Console}

theorem refl (c : Console) : c.MemoryOf c := ⟨c.phys, c.fault, rfl⟩

theorem trans (h : c.MemoryOf c') (h' : c'.MemoryOf c'') : c.MemoryOf c'' := by
  obtain ⟨phys, fault, rfl⟩ := h
  obtain ⟨phys', fault', rfl⟩ := h'
  exact ⟨phys', fault', rfl⟩

theorem storeByte (c : Console) (va : Nat) (v : UInt8) : c.MemoryOf (c.storeByte va v) := by
  unfold Console.storeByte
  split
  · exact ⟨_, c.fault, rfl⟩
  · exact ⟨c.phys, true, rfl⟩

theorem storeUser (page : PageEntry) (c : Console) (s : Nat × UInt8) :
    c.MemoryOf (c.storeUser page s) := by
  unfold Console.storeUser
  split
  · exact ⟨_, c.fault, rfl⟩
  · exact ⟨c.phys, true, rfl⟩

theorem foldl {α : Type*} {f : Console → α → Console} (hf : ∀ (c : Console) a, c.MemoryOf (f c a))
    (as : List α) (c : Console) : c.MemoryOf (as.foldl f c) := by
  induction as generalizing c with
  | nil => exact refl c
  | cons a as ih => exact (hf c a).trans (ih (f c a))

theorem memcpy (c : Console) (dst src n : Nat) : c.MemoryOf (c.memcpy dst src n) :=
  foldl (fun c i => storeByte c (dst + i) (c.loadByte (src + i))) _ c

theorem termArr (h : c.MemoryOf c') : c'.termArr = c.termArr := by
  obtain ⟨phys, fault, rfl⟩ := h
  rfl

end Console.MemoryOf

/-- A field of a terminal that an assignment to others leaves alone. -/
theorem Console.setTerm_field {β : Type*} (field : Terminal → β) {c : Console} {t : Fin 3}
    {f : Terminal → Terminal} (h : field (f (c.termArr t)) = field (c.termArr t)) (u : Fin 3) :
    field ((c.setTerm t f).termArr u) = field (c.termArr u) := by
  show field (Function.update c.termArr t (f (c.termArr t)) u) = field (c.termArr u)
  by_cases hu : u = t
  · rw [hu, Function.update_self, h]
  · rw [Function.update_of_ne hu]

/-- `execute_handler` reaches the console through memory only. -/
theorem executeHandler_console (img : Image) (fr : Frame) (command : Option (List UInt8)) (k : Kernel) :
    k.con.MemoryOf (executeHandler img fr command k).1.con ∧
    (executeHandler img fr command k).1.proc.currProcess = k.proc.currProcess := by
  unfold executeHandler
  split
  · exact ⟨.refl _, rfl⟩
  split
  · exact ⟨.refl _, rfl⟩
  split
  · exact ⟨.refl _, rfl⟩
  split
  · unfold Kernel.launch
    split
    · exact ⟨.refl _, rfl⟩
    · simp only [Kernel.startProgram, openHandler_stdin, openHandler_stdout]
      refine ⟨.foldl (fun c s => .storeUser _ c s) _ _, ?_⟩
      split <;> rfl
  · exact ⟨.refl _, rfl⟩

/-- **A tick, as the console sees it.**  The first one boots terminal 0 and touches no page; every other
one moves to the next slot and maps its page. -/
theorem tick_console (img : Image) (fr : Frame) (k : Kernel) :
    (({ k.con with videoMem := videoAddr 0 } : Console).MemoryOf (pitInterruptHandler img fr k).con ∧
      (pitInterruptHandler img fr k).proc.currProcess = k.proc.currProcess ∧
      k.proc.schedPid 0 = 0) ∨
    ((({ k.con with videoMem := videoAddr (k.proc.currProcess + 1) } :
        Console).schedulerRemapVideo (k.proc.currProcess + 1)).MemoryOf
        (pitInterruptHandler img fr k).con ∧
      (pitInterruptHandler img fr k).proc.currProcess = k.proc.currProcess + 1 ∧
      k.proc.schedPid 0 ≠ 0) := by
  unfold pitInterruptHandler scheduler
  split
  next h0 =>
    exact Or.inl ⟨(executeHandler_console img fr _ _).1, (executeHandler_console img fr _ _).2, h0⟩
  next h0 =>
    dsimp only
    split
    · exact Or.inr ⟨(executeHandler_console img fr _ _).1, (executeHandler_console img fr _ _).2, h0⟩
    · exact Or.inr ⟨.refl _, rfl, h0⟩

/-! ## The mapping -/

/-- **`VideoAt shown vis c`** — page 0xB8 is mapped to itself; the page of terminal `t` is absent, or
mapped to the text page if `t` is `shown` and to its own backing page otherwise; `vis` is the visible
terminal. -/
structure VideoAt (shown vis : Option (Fin 3)) (c : Console) : Prop where
  text : (c.pageTable 0xB8).present = true ∧ (c.pageTable 0xB8).base = 0xB8
  pages : ∀ t : Fin 3, (c.pageTable (0xB9 + t.val)).present = true →
    (c.pageTable (0xB9 + t.val)).base = if some t = shown then 0xB8 else 0xB9 + t.val
  visible : ∀ t, (c.termArr t).visible = if some t = vis then 1 else 0
  vidMemAddr : ∀ t, (c.termArr t).vidMemAddr = videoAddr t

/-- The mapping between two events. -/
def VideoMap (c : Console) : Prop := VideoAt (some c.currTerminal) (some c.currTerminal) c

theorem pageIndex_videoAddr (t : Fin 3) : Console.pageIndex (videoAddr t) = 0xB9 + t.val := by
  unfold Console.pageIndex videoAddr videoMemAddr kb4
  omega

theorem base_videoAddr (t : Fin 3) : videoAddr t / 2 ^ 12 % 2 ^ 20 = 0xB9 + t.val := by
  unfold videoAddr videoMemAddr kb4
  omega

namespace VideoAt

variable {shown vis : Option (Fin 3)} {c c' : Console}

theorem memory (h : VideoAt shown vis c) (hm : c.MemoryOf c') : VideoAt shown vis c' := by
  obtain ⟨phys, fault, rfl⟩ := hm
  exact ⟨h.text, h.pages, h.visible, h.vidMemAddr⟩

/-- A page mapped to the text page or to its own backing page. -/
theorem mapPage (h : VideoAt shown vis c) (t : Fin 3) {shown' : Option (Fin 3)}
    (hothers : ∀ u ≠ t, some u = shown' ↔ some u = shown) {pa : Nat}
    (hpa : pa = if some t = shown' then videoMemAddr else videoAddr t) :
    VideoAt shown' vis (c.mapPage (videoAddr t) pa) := by
  have htext : ∀ u : Fin 3, 0xB9 + u.val ≠ 0xB8 := fun u => by omega
  refine ⟨?_, ?_, h.visible, h.vidMemAddr⟩
  · simp only [Console.mapPage, pageIndex_videoAddr, Function.update_of_ne (htext t).symm]
    exact h.text
  · intro u hpres
    by_cases hu : u = t
    · subst hu
      simp only [Console.mapPage, pageIndex_videoAddr, Function.update_self, PageEntry.setBasePte,
        PageEntry.grant]
      rw [hpa]
      split
      · rfl
      · exact base_videoAddr u
    · have hne : 0xB9 + u.val ≠ 0xB9 + t.val := fun heq => hu (Fin.ext (by omega))
      simp only [Console.mapPage, pageIndex_videoAddr, Function.update_of_ne hne] at hpres ⊢
      rw [h.pages u hpres]
      simp only [hothers u hu]

theorem mapUserVideo (h : VideoAt shown vis c) (pa : Nat) : VideoAt shown vis (c.mapUserVideo pa) :=
  ⟨h.text, h.pages, h.visible, h.vidMemAddr⟩

/-- `remap_video` takes the terminal off the text page. -/
theorem remapVideo (h : VideoAt shown vis c) (t : Fin 3) {shown' : Option (Fin 3)}
    (hothers : ∀ u ≠ t, some u = shown' ↔ some u = shown) (ht : some t ≠ shown') :
    VideoAt shown' vis (c.remapVideo t) := by
  unfold Console.remapVideo
  rw [h.vidMemAddr t]
  exact (h.mapPage t hothers (if_neg ht).symm).mapUserVideo _

theorem schedulerRemapVideo (h : VideoAt (some c.currTerminal) vis c) (t : Fin 3) :
    VideoAt (some c.currTerminal) vis (c.schedulerRemapVideo t) := by
  have haddr : videoMemAddr + kb4 * (1 + t.val) = videoAddr t := by
    rw [videoAddr, Nat.add_comm 1]
  have hmapped := h.mapPage t (fun _ _ => Iff.rfl)
    (show (if t = c.currTerminal then videoMemAddr else videoAddr t) =
      if some t = some c.currTerminal then videoMemAddr else videoAddr t by simp)
  simp only [Console.schedulerRemapVideo, haddr]
  exact ⟨hmapped.text, hmapped.pages, hmapped.visible, hmapped.vidMemAddr⟩

theorem setVisible (h : VideoAt shown vis c) (t : Fin 3) {vis' : Option (Fin 3)} {v : Nat}
    (hothers : ∀ u ≠ t, some u = vis' ↔ some u = vis) (hv : v = if some t = vis' then 1 else 0) :
    VideoAt shown vis' (c.setTerm t fun term => { term with visible := v }) := by
  refine ⟨h.text, h.pages, ?_, fun u => (Console.setTerm_field Terminal.vidMemAddr rfl u).trans (h.vidMemAddr u)⟩
  intro u
  by_cases hu : u = t
  · subst hu
    simp [Console.setTerm, hv]
  · simp only [Console.setTerm, Function.update_of_ne hu, h.visible u, hothers u hu]

theorem updateCursor (h : VideoAt shown vis c) : VideoAt shown vis c.updateCursor :=
  ⟨h.text, h.pages, h.visible, h.vidMemAddr⟩

/-- Assignments to other fields of a terminal. -/
theorem setTerm (h : VideoAt shown vis c) (t : Fin 3) {f : Terminal → Terminal}
    (hvis : ∀ term, (f term).visible = term.visible)
    (hvid : ∀ term, (f term).vidMemAddr = term.vidMemAddr) : VideoAt shown vis (c.setTerm t f) where
  text := h.text
  pages := h.pages
  visible u := (Console.setTerm_field Terminal.visible (hvis _) u).trans (h.visible u)
  vidMemAddr u := (Console.setTerm_field Terminal.vidMemAddr (hvid _) u).trans (h.vidMemAddr u)

end VideoAt

/-! ## Switching -/

/-- `terminal_save_state` up to the copy of the screen. -/
def Console.saving (c : Console) (t : Fin 3) : Console :=
  let c := c.setTerm c.currTerminal fun term => { term with visible := 0 }
  let c := c.setTerm t fun term =>
    { term with keyBuf := fun i => if i < maxInputLength then c.keyBuffer i else term.keyBuf i }
  c.remapVideo t

theorem terminalSaveState_eq (c : Console) (t : Fin 3) :
    c.terminalSaveState t =
      (c.saving t).memcpy ((c.saving t).termArr t).vidMemAddr videoMemAddr (numCols * numRows * 2) := rfl

/-- `terminal_restore_state` up to the copy of the screen. -/
def Console.restoring (c : Console) (t : Fin 3) : Console :=
  let c := { c with currTerminal := t }.setTerm t fun term => { term with visible := 1 }
  let c := { c with
    keyBuffer := fun i => if i < maxInputLength then (c.termArr t).keyBuf i else c.keyBuffer i }
  c.remapVideo t

theorem terminalRestoreState_eq (c : Console) (t : Fin 3) :
    c.terminalRestoreState t = (c.restoring t).memcpy videoMemAddr
      ((c.restoring t).termArr t).vidMemAddr (numCols * numRows * 2) := rfl

section Fields

variable {β : Type*} {field : Terminal → β} (hvis : ∀ term v, field { term with visible := v } = field term)
  (hkeys : ∀ term keys, field { term with keyBuf := keys } = field term)
include hvis

theorem restoring_field (c : Console) (t u : Fin 3) :
    field ((c.restoring t).termArr u) = field (c.termArr u) := by
  have hvisible := Console.setTerm_field (c := { c with currTerminal := t }) (t := t)
    (f := fun term => { term with visible := 1 }) field (hvis _ _) u
  exact hvisible

/-- `terminal_restore_state` assigns to `visible` of a terminal. -/
theorem terminalRestoreState_field (c : Console) (t u : Fin 3) :
    field ((c.terminalRestoreState t).termArr u) = field (c.termArr u) := by
  rw [terminalRestoreState_eq, (Console.MemoryOf.memcpy ..).termArr]
  exact restoring_field hvis c t u

include hkeys

theorem saving_field (c : Console) (t u : Fin 3) :
    field ((c.saving t).termArr u) = field (c.termArr u) := by
  have hhidden := Console.setTerm_field (c := c) (t := c.currTerminal)
    (f := fun term => { term with visible := 0 }) field (hvis _ _) u
  unfold Console.saving
  dsimp only
  generalize c.setTerm c.currTerminal (fun term => { term with visible := 0 }) = m at hhidden ⊢
  have hsaved := Console.setTerm_field (c := m) (t := t) (f := fun term => { term with
    keyBuf := fun i => if i < maxInputLength then m.keyBuffer i else term.keyBuf i }) field (hkeys _ _) u
  exact hsaved.trans hhidden

/-- `terminal_save_state` assigns to `visible` and `keyBuf`. -/
theorem terminalSaveState_field (c : Console) (t u : Fin 3) :
    field ((c.terminalSaveState t).termArr u) = field (c.termArr u) := by
  rw [terminalSaveState_eq, (Console.MemoryOf.memcpy ..).termArr]
  exact saving_field hvis hkeys c t u

end Fields

/-- `terminal_save_state` leaves no terminal visible and none on the text page. -/
theorem VideoMap.saving {c : Console} (h : VideoMap c) :
    VideoAt none none (c.saving c.currTerminal) := by
  have hsome : ∀ u : Fin 3, u ≠ c.currTerminal → (some u = none ↔ some u = some c.currTerminal) := by
    intro u hu
    simp [hu]
  have hvis := VideoAt.setVisible (v := 0) h c.currTerminal hsome (by simp)
  have hkeys := hvis.setTerm c.currTerminal
    (f := fun term => { term with
      keyBuf := fun i => if i < maxInputLength then c.keyBuffer i else term.keyBuf i })
    (fun _ => rfl) (fun _ => rfl)
  exact hkeys.remapVideo c.currTerminal hsome (by simp)

/-- `terminal_restore_state` makes its terminal the visible one. -/
theorem VideoAt.restoring {c : Console} (h : VideoAt none none c) (t : Fin 3) :
    VideoAt none (some t) (c.restoring t) := by
  have hcurr : VideoAt none none { c with currTerminal := t } :=
    ⟨h.text, h.pages, h.visible, h.vidMemAddr⟩
  have hvis := hcurr.setVisible t (v := 1) (fun u hu => by simp [hu]) (if_pos rfl).symm
  have hkeys : VideoAt none (some t)
      { ({ c with currTerminal := t } : Console).setTerm t fun term => { term with visible := 1 } with
        keyBuffer := fun i => if i < maxInputLength then
          ((({ c with currTerminal := t } : Console).setTerm t fun term =>
            { term with visible := 1 }).termArr t).keyBuf i else c.keyBuffer i } :=
    ⟨hvis.text, hvis.pages, hvis.visible, hvis.vidMemAddr⟩
  exact hkeys.remapVideo t (fun _ _ => Iff.rfl) (by simp)

/-- **`terminal_switch` in closed form**, to a terminal that is not displayed. -/
theorem terminalSwitch_eq (c : Console) {t : Fin 3} (ht : t ≠ c.currTerminal) :
    (c.terminalSwitch t).1 =
      let c := ((c.terminalSaveState c.currTerminal).terminalRestoreState t).updateCursor
      (c.mapPage (c.termArr t).vidMemAddr videoMemAddr).mapUserVideo videoMemAddr := by
  obtain ⟨idx, hidx⟩ := t
  have hne : ¬ idx = c.currTerminal.val := fun heq => ht (Fin.ext heq)
  rw [Console.terminalSwitch, if_neg hne, dif_pos hidx]

/-- A switch to the displayed terminal, or to none, does nothing. -/
theorem terminalSwitch_of_not {c : Console} {idx : Nat} (h : idx = c.currTerminal.val ∨ 3 ≤ idx) :
    (c.terminalSwitch idx).1 = c := by
  unfold Console.terminalSwitch
  split
  · rfl
  · rw [dif_neg (by omega)]

/-- **A switch assigns to `visible` and `keyBuf` of the terminals**, and to no other field. -/
theorem terminalSwitch_field {β : Type*} {field : Terminal → β}
    (hvis : ∀ term v, field { term with visible := v } = field term)
    (hkeys : ∀ term keys, field { term with keyBuf := keys } = field term) (c : Console) (idx : Nat)
    (u : Fin 3) : field ((c.terminalSwitch idx).1.termArr u) = field (c.termArr u) := by
  by_cases hnone : idx = c.currTerminal.val ∨ 3 ≤ idx
  · rw [terminalSwitch_of_not hnone]
  · obtain ⟨t, rfl⟩ : ∃ t : Fin 3, t.val = idx := ⟨⟨idx, by omega⟩, rfl⟩
    have ht : t ≠ c.currTerminal := fun heq => hnone (Or.inl (congrArg Fin.val heq))
    have hboth := (terminalRestoreState_field hvis (c.terminalSaveState c.currTerminal) t u).trans
      (terminalSaveState_field hvis hkeys c c.currTerminal u)
    obtain ⟨c', hc'⟩ : ∃ c', c' = (c.terminalSaveState c.currTerminal).terminalRestoreState t := ⟨_, rfl⟩
    rw [← hc'] at hboth
    rw [terminalSwitch_eq c ht, ← hc']
    exact hboth

theorem terminalSwitch_currTerminal (c : Console) (t : Fin 3) :
    (c.terminalSwitch t).1.currTerminal = t := by
  by_cases ht : t = c.currTerminal
  · rw [terminalSwitch_of_not (Or.inl (congrArg Fin.val ht)), ht]
  · rw [terminalSwitch_eq c ht, terminalRestoreState_eq]
    obtain ⟨phys, fault, hm⟩ := Console.MemoryOf.memcpy
      ((c.terminalSaveState c.currTerminal).restoring t) videoMemAddr
      (((c.terminalSaveState c.currTerminal).restoring t).termArr t).vidMemAddr
      (numCols * numRows * 2)
    rw [hm]
    rfl

/-- **A terminal switch keeps the mapping.** -/
theorem VideoMap.terminalSwitch {c : Console} (h : VideoMap c) (idx : Nat) :
    VideoMap (c.terminalSwitch idx).1 := by
  by_cases hnone : idx = c.currTerminal.val ∨ 3 ≤ idx
  · rw [terminalSwitch_of_not hnone]
    exact h
  · obtain ⟨t, rfl⟩ : ∃ t : Fin 3, t.val = idx := ⟨⟨idx, by omega⟩, rfl⟩
    have ht : t ≠ c.currTerminal := fun heq => hnone (Or.inl (congrArg Fin.val heq))
    rw [VideoMap, terminalSwitch_currTerminal, terminalSwitch_eq c ht]
    have hsaved : VideoAt none none (c.terminalSaveState c.currTerminal) := by
      rw [terminalSaveState_eq]
      exact h.saving.memory (Console.MemoryOf.memcpy (c.saving c.currTerminal)
        ((c.saving c.currTerminal).termArr c.currTerminal).vidMemAddr videoMemAddr
        (numCols * numRows * 2))
    have hrestored : VideoAt none (some t)
        ((c.terminalSaveState c.currTerminal).terminalRestoreState t).updateCursor := by
      rw [terminalRestoreState_eq]
      exact ((hsaved.restoring t).memory (Console.MemoryOf.memcpy _ videoMemAddr
        (((c.terminalSaveState c.currTerminal).restoring t).termArr t).vidMemAddr
        (numCols * numRows * 2))).updateCursor
    dsimp only
    rw [hrestored.vidMemAddr t]
    exact (hrestored.mapPage t (fun u hu => by simp [hu]) (if_pos rfl).symm).mapUserVideo _

/-! ## Runs -/

/-- The writers of the page tables. -/
inductive VideoEvent
  | tick (fr : Frame)
  | terminalSwitch (idx : Nat)
  | vidmap (screenStart : Nat)

def VideoStep (img : Image) (k : Kernel) : VideoEvent → Kernel → Prop
  | .tick fr, k' => k' = pitInterruptHandler img fr k
  | .terminalSwitch idx, k' => k' = { k with con := (k.con.terminalSwitch idx).1 }
  | .vidmap screenStart, k' => k' = (vidmapHandler screenStart k).1

theorem VideoMap.memory {c c' : Console} (h : VideoMap c) (hm : c.MemoryOf c') : VideoMap c' := by
  have hcurr : c'.currTerminal = c.currTerminal := by
    obtain ⟨phys, fault, rfl⟩ := hm
    rfl
  rw [VideoMap, hcurr]
  exact VideoAt.memory h hm

theorem VideoMap.tick {k : Kernel} (h : VideoMap k.con) (img : Image) (fr : Frame) :
    VideoMap (pitInterruptHandler img fr k).con := by
  rcases tick_console img fr k with ⟨hm, -⟩ | ⟨hm, -⟩
  · have hmem : VideoMap { k.con with videoMem := videoAddr 0 } :=
      ⟨h.text, h.pages, h.visible, h.vidMemAddr⟩
    exact hmem.memory hm
  · have hmem : VideoMap { k.con with videoMem := videoAddr (k.proc.currProcess + 1) } :=
      ⟨h.text, h.pages, h.visible, h.vidMemAddr⟩
    have hnext : VideoMap (({ k.con with videoMem := videoAddr (k.proc.currProcess + 1) } :
        Console).schedulerRemapVideo (k.proc.currProcess + 1)) :=
      VideoAt.schedulerRemapVideo hmem _
    exact hnext.memory hm

/-- **The step lemma.** -/
theorem VideoMap.step {img : Image} {k k' : Kernel} {e : VideoEvent} (h : VideoMap k.con)
    (hs : VideoStep img k e k') : VideoMap k'.con := by
  cases e with
  | tick fr =>
      obtain rfl := hs
      exact h.tick img fr
  | terminalSwitch idx =>
      obtain rfl := hs
      exact h.terminalSwitch idx
  | vidmap screenStart =>
      obtain rfl := hs
      unfold vidmapHandler
      dsimp only
      split
      · exact h
      · exact VideoAt.mapUserVideo h videoMemAddr

/-- The state `paging_initialize` and `init_terminal` leave. -/
theorem VideoMap.initial (c : Console) : VideoMap c.pagingInitialize.initTerminal := by
  have hcurr : c.pagingInitialize.initTerminal.currTerminal = 0 := rfl
  rw [VideoMap, hcurr]
  refine ⟨⟨rfl, rfl⟩, ?_, ?_, ?_⟩
  · intro t hpres
    have habsent : (c.pagingInitialize.initTerminal.pageTable (0xB9 + t.val)).present = false := by
      match t with
      | 0 => rfl
      | 1 => rfl
      | 2 => rfl
    rw [habsent] at hpres
    cases hpres
  · intro t
    match t with
    | 0 => rfl
    | 1 => rfl
    | 2 => rfl
  · intro t
    match t with
    | 0 => rfl
    | 1 => rfl
    | 2 => rfl

/-- **The video mapping in every reachable state.**  Page 0xB8 always leads to the text page; the page
of a terminal is absent, or leads to the text page if the terminal is displayed and to its own backing
page otherwise; and exactly the displayed terminal is marked visible. -/
theorem video_mapping (img : Image) {k k' : Kernel} {es : List VideoEvent} (c : Console)
    (hinit : k.con = c.pagingInitialize.initTerminal) (hrun : Run (VideoStep img) k es k') :
    ((k'.con.pageTable 0xB8).present = true ∧ 4096 * (k'.con.pageTable 0xB8).base = 0xB8000) ∧
    ∀ t : Fin 3,
      ((k'.con.pageTable (0xB9 + t.val)).present = false ∨
        4096 * (k'.con.pageTable (0xB9 + t.val)).base =
          if t = k'.con.currTerminal then 0xB8000 else 0xB9000 + 0x1000 * t.val) ∧
      ((k'.con.termArr t).visible = 1 ↔ t = k'.con.currTerminal) := by
  have hstart : VideoMap k.con := hinit ▸ VideoMap.initial c
  have h : VideoMap k'.con :=
    hrun.invariant (I := fun k => VideoMap k.con) hstart fun _ _ _ h hs => h.step hs
  refine ⟨⟨h.text.1, by rw [h.text.2]⟩, fun t => ⟨?_, ?_⟩⟩
  · cases hpres : (k'.con.pageTable (0xB9 + t.val)).present with
    | false => exact Or.inl rfl
    | true =>
        right
        rw [h.pages t hpres]
        simp only [Option.some.injEq]
        split <;> omega
  · rw [h.visible t]
    simp

/-- After a switch to terminal 1, a tick and a `vidmap`, terminal 1 is on the text page. -/
theorem video_mapping_switched :
    let k : Kernel :=
      { bootedKernel with con := bootedKernel.con.pagingInitialize.initTerminal }
    ∃ k', Run (VideoStep shellImage) k [.terminalSwitch 1, .tick (.at 0 0), .vidmap 8] k' ∧
      (4096 * (k'.con.pageTable 0xB8).base = 0xB8000) := by
  intro k
  have hrun : Run (VideoStep shellImage) k [.terminalSwitch 1, .tick (.at 0 0), .vidmap 8] _ :=
    ⟨_, rfl, _, rfl, _, rfl, rfl⟩
  exact ⟨_, hrun, (video_mapping shellImage bootedKernel.con rfl hrun).1.2⟩

/-! ## The user's video page -/

/-- **`UserVideo k`** — `page_virtual_mem[0]` is present and leads to the text page if the running
terminal is the displayed one and to its backing page otherwise. -/
def UserVideo (k : Kernel) : Prop :=
  k.con.pageVirtualMem.present = true ∧
  4096 * k.con.pageVirtualMem.base =
    if k.proc.currProcess = k.con.currTerminal then 0xB8000
    else 0xB9000 + 0x1000 * k.proc.currProcess.val

/-- The events after which the page is still right: no tick (but the very first one, which boots
terminal 0), no switch away from the running terminal, no `vidmap` from a background terminal. -/
def KeepsUserVideo (k : Kernel) : VideoEvent → Prop
  | .tick _ => k.proc.schedPid 0 = 0
  | .terminalSwitch idx =>
      idx = k.con.currTerminal.val ∨ 3 ≤ idx ∨ idx = k.proc.currProcess.val
  | .vidmap screenStart =>
      screenStart = 0 ∨ screenStart = kernelMem ∨ k.proc.currProcess = k.con.currTerminal

theorem UserVideo.congr {k k' : Kernel} (hpage : k'.con.pageVirtualMem = k.con.pageVirtualMem)
    (hcurr : k'.con.currTerminal = k.con.currTerminal)
    (hproc : k'.proc.currProcess = k.proc.currProcess) : UserVideo k' ↔ UserVideo k := by
  rw [UserVideo, UserVideo, hpage, hcurr, hproc]

/-- The page on the text page is right exactly if the running terminal is the displayed one. -/
theorem userVideo_text {k : Kernel}
    (hpage : ∃ e : PageEntry, k.con.pageVirtualMem = (e.setBasePte (videoMemAddr / 2 ^ 12)).grant) :
    UserVideo k ↔ k.proc.currProcess = k.con.currTerminal := by
  obtain ⟨e, he⟩ := hpage
  have hbase : 4096 * k.con.pageVirtualMem.base = 0xB8000 := by
    rw [he]
    rfl
  have hpres : k.con.pageVirtualMem.present = true := by
    rw [he]
    rfl
  rw [UserVideo, hbase, hpres]
  constructor
  · rintro ⟨-, h⟩
    by_contra hne
    rw [if_neg hne] at h
    omega
  · intro h
    exact ⟨rfl, (if_pos h).symm⟩

/-- After the 10-bit assignment of `scheduler_remap_video` the page is above every screen. -/
theorem userVideo_remapped {k : Kernel} {e : PageEntry} {v : Nat} (hv : v % 2 ^ 10 ≠ 0)
    (hpage : k.con.pageVirtualMem = (e.setBaseEntry v).grant) : ¬ UserVideo k := by
  rintro ⟨-, h⟩
  have hbase : k.con.pageVirtualMem.base = e.base % 2 ^ 10 + 2 ^ 10 * (v % 2 ^ 10) := by
    rw [hpage]
    rfl
  have hlt := k.proc.currProcess.isLt
  rw [hbase] at h
  split at h <;> omega

/-- **The step lemma for the user's page**: an event keeps it right exactly if it is one of
`KeepsUserVideo`. -/
theorem UserVideo.step {img : Image} {k k' : Kernel} {e : VideoEvent} (h : UserVideo k)
    (hs : VideoStep img k e k') : UserVideo k' ↔ KeepsUserVideo k e := by
  cases e with
  | tick fr =>
      obtain rfl := hs
      rcases tick_console img fr k with ⟨⟨phys, fault, hm⟩, hproc, h0⟩ | ⟨⟨phys, fault, hm⟩, -, h0⟩
      · have hsame : UserVideo (pitInterruptHandler img fr k) ↔ UserVideo k :=
          UserVideo.congr (by rw [hm]) (by rw [hm]) hproc
        exact ⟨fun _ => h0, fun _ => hsame.mpr h⟩
      · refine ⟨fun hvideo => absurd hvideo ?_, fun hboot => absurd hboot h0⟩
        refine userVideo_remapped ?_ (congrArg Console.pageVirtualMem hm)
        have hlt := (k.proc.currProcess + 1).isLt
        unfold videoMemAddr kb4
        split <;> omega
  | terminalSwitch idx =>
      obtain rfl := hs
      by_cases hnone : idx = k.con.currTerminal.val ∨ 3 ≤ idx
      · rw [terminalSwitch_of_not hnone]
        refine ⟨fun _ => ?_, fun _ => h⟩
        rcases hnone with hcur | hout
        · exact Or.inl hcur
        · exact Or.inr (Or.inl hout)
      · obtain ⟨t, rfl⟩ : ∃ t : Fin 3, t.val = idx := ⟨⟨idx, by omega⟩, rfl⟩
        have ht : t ≠ k.con.currTerminal := fun heq => hnone (Or.inl (congrArg Fin.val heq))
        rw [userVideo_text ⟨_, congrArg Console.pageVirtualMem (terminalSwitch_eq k.con ht)⟩]
        show k.proc.currProcess = (k.con.terminalSwitch t).1.currTerminal ↔ _
        rw [terminalSwitch_currTerminal]
        constructor
        · intro heq
          exact Or.inr (Or.inr (congrArg Fin.val heq.symm))
        · rintro (hcur | hout | heq)
          · exact absurd (Or.inl hcur) hnone
          · exact absurd (Or.inr hout) hnone
          · exact Fin.ext heq.symm
  | vidmap screenStart =>
      obtain rfl := hs
      by_cases hbad : screenStart = 0 ∨ screenStart = kernelMem
      · have hk : (vidmapHandler screenStart k).1 = k.cli := by simp [vidmapHandler, hbad]
        rw [hk, UserVideo.congr rfl rfl rfl]
        refine ⟨fun _ => ?_, fun _ => h⟩
        rcases hbad with hnull | hkernel
        · exact Or.inl hnull
        · exact Or.inr (Or.inl hkernel)
      · have hk : (vidmapHandler screenStart k).1 =
            { k.cli with con := k.con.mapUserVideo videoMemAddr, proc := k.cli.proc.sti } := by
          simp only [vidmapHandler, if_neg hbad]
          rfl
        rw [hk, userVideo_text ⟨k.con.pageVirtualMem, rfl⟩]
        show k.proc.currProcess = k.con.currTerminal ↔ _
        constructor
        · intro heq
          exact Or.inr (Or.inr heq)
        · rintro (hnull | hkernel | heq)
          · exact absurd (Or.inl hnull) hbad
          · exact absurd (Or.inr hkernel) hbad
          · exact heq

theorem VideoStep.total (img : Image) (k : Kernel) (e : VideoEvent) : ∃ k', VideoStep img k e k' := by
  cases e with
  | tick fr => exact ⟨_, rfl⟩
  | terminalSwitch idx => exact ⟨_, rfl⟩
  | vidmap screenStart => exact ⟨_, rfl⟩

/-- A `vidmap` that succeeds maps the text page. -/
theorem vidmap_userVideo {k0 k : Kernel} {screenStart : Nat} {ptr : Option Nat}
    (h : vidmapHandler screenStart k0 = (k, 0, ptr)) :
    UserVideo k ↔ k0.proc.currProcess = k0.con.currTerminal := by
  unfold vidmapHandler at h
  dsimp only at h
  split at h
  · simp at h
  · obtain ⟨rfl, -⟩ := Prod.mk.inj h
    exact userVideo_text ⟨k0.con.pageVirtualMem, rfl⟩

/-- **The user's video page follows the running process exactly along the runs of `KeepsUserVideo`.**
After a `vidmap` that succeeded, the page is right in every state visited exactly if the caller's
terminal was displayed and no later event is a tick, a switch away from the running terminal, or a
`vidmap` from a background terminal. -/
theorem user_video_follows_iff (img : Image) {k0 k : Kernel} {screenStart : Nat} {ptr : Option Nat}
    (hvid : vidmapHandler screenStart k0 = (k, 0, ptr)) (es : List VideoEvent) :
    AllStates (VideoStep img) UserVideo k es ↔
    k0.proc.currProcess = k0.con.currTerminal ∧ AllSteps (VideoStep img) KeepsUserVideo k es := by
  have hrule : UserVideo k →
      (AllStates (VideoStep img) UserVideo k es ↔ AllSteps (VideoStep img) KeepsUserVideo k es) :=
    fun hk => allStates_iff_allSteps (I := fun _ => True) (VideoStep.total img)
      (fun _ _ _ _ _ _ _ _ => trivial) (fun _ _ _ _ h _ hs => h.step hs) trivial hk allSteps_true
  constructor
  · intro hall
    have hk : UserVideo k := hall [] es k rfl rfl
    exact ⟨(vidmap_userVideo hvid).mp hk, (hrule hk).mp hall⟩
  · rintro ⟨hdisp, hsteps⟩
    exact (hrule ((vidmap_userVideo hvid).mpr hdisp)).mpr hsteps

/-- The displayed shell calls `vidmap`, asks for the terminal it has, and calls `vidmap` again. -/
theorem user_video_displayed :
    ∃ k, vidmapHandler 8 bootedKernel = (k, 0, some gb1) ∧
      AllStates (VideoStep shellImage) UserVideo k [.terminalSwitch 0, .vidmap 8] := by
  refine ⟨_, rfl, (user_video_follows_iff shellImage
    (show vidmapHandler 8 bootedKernel = _ from rfl) _).mpr ⟨rfl, ?_⟩⟩
  refine .cons (Or.inl rfl) fun k1 h1 => .cons (Or.inr (Or.inr ?_)) fun _ _ => allSteps_nil
  obtain rfl := h1
  show bootedKernel.proc.currProcess =
    ((bootedKernel.con.mapUserVideo videoMemAddr).terminalSwitch (0 : Fin 3)).1.currTerminal
  rw [terminalSwitch_currTerminal]
  rfl

/-- The displayed shell calls `vidmap`; after one tick the page is wrong. -/
theorem user_video_lost_by_tick :
    ∃ k k', vidmapHandler 8 bootedKernel = (k, 0, some gb1) ∧
      Run (VideoStep shellImage) k [.tick (.at 0 0)] k' ∧ ¬ UserVideo k' := by
  refine ⟨_, _, rfl, ⟨_, rfl, rfl⟩, ?_⟩
  have hstart : UserVideo (vidmapHandler 8 bootedKernel).1 :=
    (vidmap_userVideo (show vidmapHandler 8 bootedKernel = _ from rfl)).mpr rfl
  intro hvideo
  have hboot : bootedKernel.proc.schedPid 0 = 0 :=
    (hstart.step (show VideoStep shellImage _ (.tick (.at 0 0)) _ from rfl)).mp hvideo
  exact absurd hboot (by decide)

end Ece391
