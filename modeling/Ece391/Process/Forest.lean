/-
# Ece391.Process.Forest — the processes as a forest.

The live processes form a forest: the three base shells are the roots, every other process has a live
parent.  `Forest p running` adds which of them are running rather than waiting in `execute_handler`
for a child.  The chains are never walked.  That they are disjoint is kept by two local facts,
`parentWaits` (a parent is not running) and `parentInjective` (it waits for one child only).

* `Forest.launched` — the caller starts to wait and its child runs instead;
* `Forest.halted` — the child is gone and its parent runs again;
* `Forest.congr` — everything that leaves the slots, the counter and the lineages alone.
-/
import Ece391.Process.Events

namespace Ece391

/-! ## Counting the processes -/

theorem ones_congr {f g : Nat → Nat} {n : Nat} (h : ∀ j < n, f j = g j) :
    ((List.range n).filter fun j => f j = 1) = (List.range n).filter fun j => g j = 1 := by
  apply List.filter_congr
  intro j hj
  rw [h j (List.mem_range.mp hj)]

/-- Writing one entry of an array changes the number of its ones by what the entry lost and
gained. -/
theorem ones_update (f : Nat → Nat) {n i : Nat} (v : Nat) (hi : i < n) :
    ((List.range n).filter fun j => Function.update f i v j = 1).length + (if f i = 1 then 1 else 0)
      = ((List.range n).filter fun j => f j = 1).length + (if v = 1 then 1 else 0) := by
  induction n with
  | zero => omega
  | succ n ih =>
      simp only [List.range_succ, List.filter_append, List.length_append, List.filter_singleton]
      by_cases hin : i = n
      · subst hin
        -- the entries below `i` are the same in both arrays
        rw [ones_congr (g := f) (n := i) fun j hj => Function.update_of_ne (by omega) v f]
        by_cases hf : f i = 1 <;> by_cases hv : v = 1 <;> simp [hf, hv]
      · have hrest := ih (by omega)
        rw [Function.update_of_ne (by omega : n ≠ i)]
        omega

theorem exists_free_of_ones_lt {f : Nat → Nat} {n : Nat} (hf : ∀ i < n, f i = 0 ∨ f i = 1)
    (h : ((List.range n).filter fun j => f j = 1).length < n) : ∃ i < n, f i = 0 := by
  by_contra hno
  have hall : (List.range n).filter (fun j => f j = 1) = List.range n := by
    apply List.filter_eq_self.mpr
    intro j hj
    have hjn := List.mem_range.mp hj
    rcases hf j hjn with h0 | h1
    · exact absurd ⟨j, hjn, h0⟩ hno
    · simpa using h1
  rw [hall, List.length_range] at h
  omega

theorem Proc.liveCount_le (p : Proc) : p.liveCount ≤ programMax :=
  le_of_le_of_eq (List.length_filter_le _ _) List.length_range

/-- The free-slot search finds a free slot whenever there is one. -/
theorem slot_free {p : Proc} (fr : Frame) (h : ∃ i < programMax, p.pidArr i = 0) :
    p.slot fr < programMax ∧ p.pidArr (p.slot fr) = 0 := by
  obtain ⟨i, hi, hfree⟩ := h
  unfold Proc.slot freeSlot
  cases hfind : (List.range programMax).find? fun i => p.pidArr i == 0 with
  | none =>
      rw [List.find?_eq_none] at hfind
      exact absurd (by simpa using hfree) (hfind i (List.mem_range.mpr hi))
  | some j =>
      have hj := List.find?_some hfind
      exact ⟨List.mem_range.mp (List.mem_of_find?_eq_some hfind), by simpa using hj⟩

/-! ## Who a PCB is -/

/-- The fields of a PCB that say which process it is and who its parent is. -/
def Pcb.lineage (b : Pcb) : Nat × Nat × Nat := (b.pid, b.parentPid, b.parentPcb)

theorem ticked_lineage (p : Proc) (fr : Frame) (a : Nat) :
    ((p.ticked fr).pcb a).lineage = (p.pcb a).lineage := by
  obtain ⟨kesp, hpcb⟩ := ticked_pcb p fr a
  rw [hpcb]
  split <;> rfl

theorem halted_lineage (p : Proc) (a : Nat) : (p.halted.pcb a).lineage = (p.pcb a).lineage := by
  rw [halted_pcb]
  split
  next h => subst h; rfl
  next => rfl

theorem launched_pcbOf_self (p : Proc) (term : Fin 3) (fr : Frame) (slot : Nat) (args : ArgBuf) :
    ((p.launched term fr slot args).pcbOf (slot + 1)).pid = slot + 1 ∧
    ((p.launched term fr slot args).pcbOf (slot + 1)).parentPid = p.current.pid ∧
    ((p.launched term fr slot args).pcbOf (slot + 1)).parentPcb = p.pcbCurrent := by
  simp [Proc.launched, Proc.pcbOf]

theorem launched_current (p : Proc) (term : Fin 3) (fr : Frame) (slot : Nat) (args : ArgBuf) :
    (p.launched term fr slot args).current = (p.launched term fr slot args).pcbOf (slot + 1) := by
  rw [Proc.current, launched_pcbCurrent, Proc.pcbOf]

theorem launched_pcbOf_of_ne {p : Proc} {term : Fin 3} {fr : Frame} {slot n : Nat} {args : ArgBuf}
    (hslot : slot < programMax) (hn : n ≤ programMax) (hne : n ≠ slot + 1) :
    (p.launched term fr slot args).pcbOf n = p.pcbOf n := by
  have haddr : pcbAddr n ≠ pcbAddr (slot + 1) := fun h => hne (pcbAddr_injective hn hslot h)
  exact launched_pcb_of_ne p term fr slot args haddr

/-! ## Who is live -/

theorem live_launched {p : Proc} {term : Fin 3} {fr : Frame} {slot n : Nat} {args : ArgBuf}
    (hslot : slot < programMax) :
    (p.launched term fr slot args).Live n ↔ n = slot + 1 ∨ p.Live n := by
  unfold Proc.Live
  by_cases h : n = slot + 1
  · subst h
    simpa using Nat.succ_le_of_lt hslot
  · have hidx : 1 ≤ n → n - 1 ≠ slot := by omega
    constructor
    · rintro ⟨h1, h2, h3⟩
      refine Or.inr ⟨h1, h2, ?_⟩
      rwa [launched_pidArr, Function.update_of_ne (hidx h1)] at h3
    · rintro (h' | ⟨h1, h2, h3⟩)
      · exact absurd h' h
      · refine ⟨h1, h2, ?_⟩
        rwa [launched_pidArr, Function.update_of_ne (hidx h1)]

theorem live_halted {p : Proc} {n : Nat} (hpid : 1 ≤ p.current.pid) :
    p.halted.Live n ↔ p.Live n ∧ n ≠ p.current.pid := by
  unfold Proc.Live
  by_cases h : n = p.current.pid
  · subst h
    simp [Proc.halted]
  · have hidx : 1 ≤ n → n - 1 ≠ p.current.pid - 1 := by omega
    constructor
    · rintro ⟨h1, h2, h3⟩
      refine ⟨⟨h1, h2, ?_⟩, h⟩
      rwa [halted_pidArr, Function.update_of_ne (hidx h1)] at h3
    · rintro ⟨⟨h1, h2, h3⟩, -⟩
      refine ⟨h1, h2, ?_⟩
      rwa [halted_pidArr, Function.update_of_ne (hidx h1)]

theorem not_live_slot {p : Proc} {slot : Nat} (hfree : p.pidArr slot = 0) :
    ¬ p.Live (slot + 1) := by
  rintro ⟨-, -, h⟩
  rw [Nat.add_sub_cancel] at h
  omega

/-! ## The forest -/

/-- **`Forest p running`** — the live processes are a forest over the three base shells in which no
parent is running. -/
structure Forest (p : Proc) (running : Nat → Prop) : Prop where
  pidArr : ∀ i < programMax, p.pidArr i = 0 ∨ p.pidArr i = 1
  count : p.programCount = p.liveCount
  shells : ∀ n, 1 ≤ n → n ≤ 3 → p.Live n
  pid : ∀ n, p.Live n → (p.pcbOf n).pid = n
  shellParent : ∀ n, 1 ≤ n → n ≤ 3 → (p.pcbOf n).parentPcb = pcbAddr n
  parentLive : ∀ n, p.Live n → 3 < n → p.Live (p.pcbOf n).parentPid ∧ (p.pcbOf n).parentPid ≠ n
  parentPcb : ∀ n, p.Live n → 3 < n → (p.pcbOf n).parentPcb = pcbAddr (p.pcbOf n).parentPid
  parentWaits : ∀ n, p.Live n → 3 < n → ¬ running (p.pcbOf n).parentPid
  parentInjective : ∀ m n, p.Live m → 3 < m → p.Live n → 3 < n →
    (p.pcbOf m).parentPid = (p.pcbOf n).parentPid → m = n

namespace Forest

variable {p p' : Proc} {running running' : Nat → Prop}

theorem mono (h : Forest p running) (hsub : ∀ n, running' n → running n) : Forest p running' :=
  { h with parentWaits := fun n hn h3 hrun => h.parentWaits n hn h3 (hsub _ hrun) }

/-- The forest depends on the slots, the counter and the lineages only. -/
theorem congr (h : Forest p running) (hpidArr : p'.pidArr = p.pidArr)
    (hcount : p'.programCount = p.programCount)
    (hlin : ∀ n, (p'.pcbOf n).lineage = (p.pcbOf n).lineage) : Forest p' running := by
  have hlive : ∀ n, p'.Live n ↔ p.Live n := by
    intro n
    simp only [Proc.Live, hpidArr]
  simp only [Pcb.lineage, Prod.mk.injEq] at hlin
  refine
    { pidArr := ?_, count := ?_, shells := ?_, pid := ?_, shellParent := ?_, parentLive := ?_
      parentPcb := ?_, parentWaits := ?_, parentInjective := ?_ }
  · rw [hpidArr]
    exact h.pidArr
  · rw [hcount, h.count, Proc.liveCount, Proc.liveCount, hpidArr]
  · intro n h1 h3
    exact (hlive n).mpr (h.shells n h1 h3)
  · intro n hn
    rw [(hlin n).1]
    exact h.pid n ((hlive n).mp hn)
  · intro n h1 h3
    rw [(hlin n).2.2]
    exact h.shellParent n h1 h3
  · intro n hn h3
    rw [(hlin n).2.1, hlive]
    exact h.parentLive n ((hlive n).mp hn) h3
  · intro n hn h3
    rw [(hlin n).2.1, (hlin n).2.2]
    exact h.parentPcb n ((hlive n).mp hn) h3
  · intro n hn h3
    rw [(hlin n).2.1]
    exact h.parentWaits n ((hlive n).mp hn) h3
  · intro m n hm hm3 hn hn3
    rw [(hlin m).2.1, (hlin n).2.1]
    exact h.parentInjective m n ((hlive m).mp hm) hm3 ((hlive n).mp hn) hn3

theorem ticked (h : Forest p running) (fr : Frame) : Forest (p.ticked fr) running :=
  h.congr rfl rfl fun _ => ticked_lineage p fr _

theorem current_pid (h : Forest p running) {q : Nat} (hq : p.Live q)
    (hcur : p.pcbCurrent = pcbAddr q) : p.current.pid = q := by
  rw [Proc.current, hcur]
  exact h.pid q hq

theorem three_le (h : Forest p running) : 3 ≤ p.programCount := by
  have hshell : ∀ i < 3, p.pidArr i = 1 := fun i hi => (h.shells (i + 1) (by omega) (by omega)).2.2
  have hrange : List.range programMax = [0, 1, 2] ++ [3, 4, 5] := by decide
  rw [h.count, Proc.liveCount, hrange, List.filter_append, List.length_append]
  simp [hshell]

/-- The facts about the slot `execute_handler` picks. -/
theorem slot (h : Forest p running) (fr : Frame) (hcount : p.programCount < programMax) :
    p.slot fr < programMax ∧ p.pidArr (p.slot fr) = 0 ∧ 3 ≤ p.slot fr := by
  rw [h.count] at hcount
  obtain ⟨hlt, hfree⟩ := slot_free fr (exists_free_of_ones_lt h.pidArr hcount)
  refine ⟨hlt, hfree, ?_⟩
  by_contra hsmall
  have hlive := (h.shells (p.slot fr + 1) (by omega) (by omega)).2.2
  rw [Nat.add_sub_cancel] at hlive
  omega

/-- **A successful execute by process `q`**, as `launched`. -/
theorem execute {img : Image} {fr : Frame} {command : List UInt8} {k k' : Kernel} {eip q : Nat}
    (h : Forest k.proc running) (hcur : k.proc.pcbCurrent = pcbAddr q) (hq : k.proc.Live q)
    (hs : executeHandler img fr (some command) k = (k', some eip)) :
    k.proc.programCount < programMax ∧
    k'.proc = k.proc.launched k.con.currTerminal fr (k.proc.slot fr) (parseArgs command) ∧
    k'.con.currTerminal = k.con.currTerminal := by
  have hmax := (executeHandler_some hs).1
  obtain ⟨hslot, hfree, -⟩ := h.slot fr hmax
  have hne : k.proc.pcbCurrent ≠ pcbAddr (k.proc.slot fr + 1) := by
    rw [hcur]
    intro heq
    rw [pcbAddr_injective hq.2.1 hslot heq] at hq
    exact not_live_slot hfree hq
  exact ⟨hmax, executeHandler_proc hs h.three_le hne, executeHandler_currTerminal hs⟩

/-- **A successful execute**: the caller `r` waits, the child runs. -/
theorem launched (h : Forest p running) (term : Fin 3) (fr : Frame) (args : ArgBuf) {r slot : Nat}
    (hcur : p.pcbCurrent = pcbAddr r) (hr : p.Live r) (hrun : running r)
    (hslot : slot < programMax) (hfree : p.pidArr slot = 0) :
    Forest (p.launched term fr slot args) fun n => n = slot + 1 ∨ running n ∧ n ≠ r := by
  have hdead := not_live_slot hfree
  have hlive : ∀ n, (p.launched term fr slot args).Live n ↔ n = slot + 1 ∨ p.Live n :=
    fun _ => live_launched hslot
  -- the PCBs of the processes that were live are untouched, the new one has the caller as parent
  have hold : ∀ n, p.Live n → (p.launched term fr slot args).pcbOf n = p.pcbOf n := fun n hn =>
    launched_pcbOf_of_ne hslot hn.2.1 (fun heq => hdead (heq ▸ hn))
  obtain ⟨hpid, hparent, hparentPcb⟩ := launched_pcbOf_self p term fr slot args
  rw [h.current_pid hr hcur] at hparent
  have hrne : r ≠ slot + 1 := fun heq => hdead (heq ▸ hr)
  have h3 : 3 ≤ slot := by
    by_contra hsmall
    exact hdead (h.shells (slot + 1) (by omega) (by omega))
  refine
    { pidArr := ?_, count := ?_, shells := ?_, pid := ?_, shellParent := ?_, parentLive := ?_
      parentPcb := ?_, parentWaits := ?_, parentInjective := ?_ }
  · intro i hi
    rw [launched_pidArr, Function.update_apply]
    split
    · exact Or.inr rfl
    · exact h.pidArr i hi
  · have hones := ones_update p.pidArr 1 hslot
    rw [if_neg (by omega), if_pos rfl] at hones
    have hbound := p.liveCount_le
    have hcount := h.count
    unfold Proc.liveCount at hcount hbound ⊢
    rw [launched_programCount, launched_pidArr]
    unfold programMax at *
    omega
  · intro n h1 hn
    exact (hlive n).mpr (Or.inr (h.shells n h1 hn))
  · intro n hn
    rcases (hlive n).mp hn with rfl | hn
    · exact hpid
    · rw [hold n hn]
      exact h.pid n hn
  · intro n h1 hn
    rw [hold n (h.shells n h1 hn)]
    exact h.shellParent n h1 hn
  · intro n hn hn3
    rcases (hlive n).mp hn with rfl | hn
    · rw [hparent]
      exact ⟨(hlive _).mpr (Or.inr hr), hrne⟩
    · rw [hold n hn]
      obtain ⟨hpl, hpn⟩ := h.parentLive n hn hn3
      exact ⟨(hlive _).mpr (Or.inr hpl), hpn⟩
  · intro n hn hn3
    rcases (hlive n).mp hn with rfl | hn
    · rw [hparent, hparentPcb, hcur]
    · rw [hold n hn]
      exact h.parentPcb n hn hn3
  · intro n hn hn3
    rcases (hlive n).mp hn with rfl | hn
    · rw [hparent]
      rintro (heq | ⟨-, hne⟩)
      · exact hrne heq
      · exact hne rfl
    · rw [hold n hn]
      rintro (heq | ⟨hpr, -⟩)
      · exact hdead (heq ▸ (h.parentLive n hn hn3).1)
      · exact h.parentWaits n hn hn3 hpr
  · intro m n hm hm3 hn hn3 hmn
    rcases (hlive m).mp hm with rfl | hm <;> rcases (hlive n).mp hn with rfl | hn
    · rfl
    · rw [hparent, hold n hn] at hmn
      exact absurd (hmn ▸ hrun) (h.parentWaits n hn hn3)
    · rw [hparent, hold m hm] at hmn
      exact absurd (hmn ▸ hrun) (h.parentWaits m hm hm3)
    · rw [hold m hm, hold n hn] at hmn
      exact h.parentInjective m n hm hm3 hn hn3 hmn

/-- **A halt of a process `q` other than the base shells**: its parent runs instead. -/
theorem halted (h : Forest p running) {q : Nat} (hcur : p.pcbCurrent = pcbAddr q) (hq : p.Live q)
    (hbase : 3 < q) (hrun : running q) :
    Forest p.halted fun n => n = (p.pcbOf q).parentPid ∨ running n ∧ n ≠ q := by
  have hpid := h.current_pid hq hcur
  have hlive : ∀ n, p.halted.Live n ↔ p.Live n ∧ n ≠ q := by
    intro n
    rw [live_halted (by omega), hpid]
  have hlin : ∀ n, (p.halted.pcbOf n).lineage = (p.pcbOf n).lineage :=
    fun n => halted_lineage p _
  simp only [Pcb.lineage, Prod.mk.injEq] at hlin
  refine
    { pidArr := ?_, count := ?_, shells := ?_, pid := ?_, shellParent := ?_, parentLive := ?_
      parentPcb := ?_, parentWaits := ?_, parentInjective := ?_ }
  · intro i hi
    rw [halted_pidArr, Function.update_apply]
    split
    · exact Or.inl rfl
    · exact h.pidArr i hi
  · have hlt : q - 1 < programMax := by
      have := hq.2.1
      omega
    have hones := ones_update p.pidArr 0 hlt
    rw [if_pos hq.2.2, if_neg (by decide)] at hones
    have hbound := p.liveCount_le
    have hcount := h.count
    unfold Proc.liveCount at hcount hbound ⊢
    rw [halted_programCount, halted_pidArr, hpid]
    unfold programMax at *
    omega
  · intro n h1 hn
    exact (hlive n).mpr ⟨h.shells n h1 hn, by omega⟩
  · intro n hn
    rw [(hlin n).1]
    exact h.pid n ((hlive n).mp hn).1
  · intro n h1 hn
    rw [(hlin n).2.2]
    exact h.shellParent n h1 hn
  · intro n hn hn3
    have hn' := ((hlive n).mp hn).1
    rw [(hlin n).2.1]
    obtain ⟨hpl, hpn⟩ := h.parentLive n hn' hn3
    -- the halting process is running, so it is nobody's parent
    exact ⟨(hlive _).mpr ⟨hpl, fun heq => h.parentWaits n hn' hn3 (heq ▸ hrun)⟩, hpn⟩
  · intro n hn hn3
    rw [(hlin n).2.1, (hlin n).2.2]
    exact h.parentPcb n ((hlive n).mp hn).1 hn3
  · intro n hn hn3
    obtain ⟨hn', hne⟩ := (hlive n).mp hn
    rw [(hlin n).2.1]
    rintro (heq | ⟨hpr, -⟩)
    · exact hne (h.parentInjective n q hn' hn3 hq hbase heq)
    · exact h.parentWaits n hn' hn3 hpr
  · intro m n hm hm3 hn hn3 hmn
    rw [(hlin m).2.1, (hlin n).2.1] at hmn
    exact h.parentInjective m n ((hlive m).mp hm).1 hm3 ((hlive n).mp hn).1 hn3 hmn

theorem live_booted {k : Kernel} (h : Booted k) {n : Nat} (hn : k.proc.Live n) :
    1 ≤ n ∧ n ≤ 3 := by
  obtain ⟨h1, h2, h3⟩ := hn
  rw [h.pidArr (n - 1) (by omega)] at h3
  split at h3
  · omega
  · cases h3

/-- **The booted processes are a forest**, the three shells alone. -/
theorem of_booted {k : Kernel} (h : Booted k) (running : Nat → Prop) : Forest k.proc running := by
  have hsmall := fun n (hn : k.proc.Live n) => live_booted h hn
  have hlive : ∀ n, 1 ≤ n → n ≤ 3 → k.proc.Live n := by
    intro n h1 h3
    refine ⟨h1, Nat.le_trans h3 (by decide), ?_⟩
    rw [h.pidArr (n - 1) (by unfold programMax; omega), if_pos (by omega)]
  refine
    { pidArr := ?_, count := ?_, shells := hlive, pid := ?_, shellParent := h.parentPcb
      parentLive := ?_, parentPcb := ?_, parentWaits := ?_, parentInjective := ?_ }
  · intro i hi
    rw [h.pidArr i hi]
    split
    · exact Or.inr rfl
    · exact Or.inl rfl
  · have hones : (List.range programMax).filter (fun j => k.proc.pidArr j = 1) = [0, 1, 2] := by
      rw [ones_congr h.pidArr]
      decide
    rw [h.programCount, Proc.liveCount, hones]
    rfl
  · intro n hn
    obtain ⟨h1, h3⟩ := hsmall n hn
    exact h.pid n h1 h3
  all_goals
    intro n
    intros
    have := hsmall n ‹_›
    omega

end Forest

end Ece391
