/-
# Ece391.Interrupt.Service — from a device to its handler and back (`idt_exceptions.c`, `i8259.c`).

A request goes through the controllers, the descriptor table, a stub of `link.S`, `do_irq` and the table of
handlers.  The handler ends it with `send_eoi`, for the RTC with two writes.  Which handlers run when depends
on the devices and, as `pit_interrupt_handler` switches stacks, on the scheduler; so here devices raise their
lines, interrupts are taken (whatever the interrupt flag is) and the handlers go on with their writes in any
order.

`Orderly` is what holds then: a line is in service exactly while the write that ends it is still to come, and
a handler was only interrupted by one of higher priority.
-/
import Ece391.Interrupt.Controller
import Ece391.Lib.Transition

open Ece391.Lib

namespace Ece391.I8259

/-! ## The tables -/

/-- What a gate leads to: the stubs of `link.S`, `irq_0` to `irq_31` by their numbers, or the C function
`default_handler`. -/
inductive Entry
  | numbered (n : Nat)
  | device (irq : Irq)
  | sysc
  | defaultHandler

/-- `idt_desc_t`. -/
structure Gate where
  segSelector : BitVec 16
  reserved4 : BitVec 8
  reserved3 : Bool
  reserved2 : Bool
  reserved1 : Bool
  size : Bool
  reserved0 : Bool
  dpl : BitVec 2
  present : Bool
  entry : Entry

/-- `SET_IDT_ENTRY`. -/
def setIdtEntry (idt : BitVec 8 → Gate) (v : BitVec 8) (entry : Entry) : BitVec 8 → Gate :=
  Function.update idt v { idt v with entry := entry }

/-- The body of the first loop of `idt_init`. -/
def firstGate (i : BitVec 8) : Gate where
  segSelector := Linkage.kernelCs
  reserved4 := 0
  -- special case for syscall
  reserved3 := i = 0x80
  reserved2 := true
  reserved1 := true
  size := true
  reserved0 := false
  dpl := if i = 0x80 then 3 else 0
  present := true
  entry := .defaultHandler

/-- The second loop: the exceptions. -/
def exceptionGates (idt : BitVec 8 → Gate) (i : BitVec 8) : Gate :=
  if i.toNat < 32 then { idt i with entry := .numbered i.toNat } else idt i

/-- **`idtInit`** — the descriptor table after `idt_init`. -/
def idtInit : BitVec 8 → Gate :=
  let idt := exceptionGates firstGate
  let idt := setIdtEntry idt 0x21 (.device .keyboard)
  let idt := setIdtEntry idt 0x28 (.device .rtc)
  let idt := setIdtEntry idt 0x80 .sysc
  setIdtEntry idt 0x20 (.device .pit)

/-- The functions in `handler_table`. -/
inductive Handler
  | exception (n : Nat)
  | device (irq : Irq)

/-- `handler_table`. -/
def handlerTable (v : BitVec 32) : Option Handler :=
  if v.toNat < 20 then some (.exception v.toNat)
  else if v.toNat < 32 then some (.exception 1)
  else if v = 0x21 then some (.device .keyboard)
  else if v = 0x28 then some (.device .rtc)
  else if v = 0x20 then some (.device .pit)
  else none

/-- What is pushed for `do_irq`. -/
def Entry.vectorNum : Entry → Option (BitVec 32)
  | .numbered n => some (BitVec.ofNat 32 n)
  | .device irq => some irq.vector
  | .sysc | .defaultHandler => none

/-- **`handlerOn v`** — the function that `do_irq` calls after an interrupt with vector `v`. -/
def handlerOn (v : BitVec 8) : Option Handler := (idtInit v).entry.vectorNum.bind handlerTable

/-- A gate that clears the interrupt flag and is closed to user programs. -/
structure Gate.ForHardware (g : Gate) : Prop where
  present : g.present = true
  kernel : g.segSelector = Linkage.kernelCs ∧ g.dpl = 0
  interrupt : (g.reserved3, g.reserved2, g.reserved1, g.size, g.reserved0) = (false, true, true, true, false)

section Tables

variable (idt : BitVec 8 → Gate) (v i : BitVec 8) (entry : Entry)

/-- Setting an entry changes nothing else of a gate. -/
theorem setIdtEntry_keeps {P : Gate → Prop} (hP : ∀ g e, P { g with entry := e } ↔ P g) :
    P (setIdtEntry idt v entry i) ↔ P (idt i) := by
  unfold setIdtEntry
  by_cases hi : i = v
  · rw [hi, Function.update_self]
    exact hP _ _
  · rw [Function.update_of_ne hi]

/-- What does not depend on the entries is as the first loop left it. -/
theorem idtInit_keeps {P : Gate → Prop} (hP : ∀ g e, P { g with entry := e } ↔ P g) :
    P (idtInit i) ↔ P (firstGate i) := by
  unfold idtInit
  simp only [setIdtEntry_keeps _ _ _ _ hP]
  unfold exceptionGates
  split
  · exact hP _ _
  · exact Iff.rfl

/-- **The only gate that is open to user programs** is the system call. -/
theorem idtInit_dpl : (idtInit i).dpl = 3 ↔ i = 0x80 := by
  rw [idtInit_keeps i (P := fun g => g.dpl = 3) fun _ _ => Iff.rfl]
  unfold firstGate
  by_cases hi : i = 0x80 <;> simp [hi]

/-- All others clear the interrupt flag. -/
theorem idtInit_forHardware : (idtInit i).ForHardware ↔ i ≠ 0x80 := by
  rw [idtInit_keeps i (P := Gate.ForHardware) fun _ _ => ⟨fun h => ⟨h.1, h.2, h.3⟩, fun h => ⟨h.1, h.2, h.3⟩⟩]
  unfold firstGate
  constructor
  · rintro h rfl
    exact absurd h.interrupt (by simp)
  · intro hi
    refine ⟨rfl, ⟨rfl, if_neg hi⟩, ?_⟩
    show (decide (i = 0x80), true, true, true, false) = _
    rw [decide_eq_false hi]

end Tables

theorem handlerOn_vector (irq : Irq) : handlerOn (irq.vector.setWidth 8) = some (.device irq) := by
  cases irq with
  | keyboard => rfl
  | rtc => rfl
  | pit => rfl

/-! ## The machine -/

/-- A handler that runs or is interrupted, with the writes of its `send_eoi` that are still to come. -/
structure Serving where
  irq : Irq
  todo : List (BitVec 8 × BitVec 16)

/-- **`Machine`** — the controllers, and the handlers from the last one that was entered. -/
structure Machine where
  pics : Cascade
  serving : List Serving

inductive Event
  /-- A device raises its line. -/
  | raise (l : Cascade.Line)
  /-- The driver of a device calls `enable_irq`. -/
  | enable (irq : Irq)
  /-- The processor takes an interrupt. -/
  | interrupt
  /-- The `k`-th handler does its next write. -/
  | write (k : Nat)

/-- The handlers after a write of the `k`-th. -/
def wrote (serving : List Serving) (k : Nat) (irq : Irq) : List (BitVec 8 × BitVec 16) → List Serving
  | [] => serving.eraseIdx k
  | todo => serving.set k ⟨irq, todo⟩

def Machine.step (s : Machine) : Event → Option Machine
  | .raise l => some { s with pics := s.pics.raise l }
  | .enable irq => (enableIrq s.pics (irqNumber irq)).map fun pics => { s with pics := pics }
  | .interrupt =>
      (s.pics.acknowledge link).bind fun taken =>
        match handlerOn taken.1 with
        | some (.device irq) => some ⟨taken.2, ⟨irq, eoiWrites (irqNumber irq)⟩ :: s.serving⟩
        | _ => none
  | .write k =>
      s.serving[k]?.bind fun h =>
        match h.todo with
        | [] => none
        | w :: todo => (outb s.pics w.1 w.2).map fun pics => ⟨pics, wrote s.serving k h.irq todo⟩

/-- A step of the machine. -/
def Steps (s : Machine) (e : Event) (s' : Machine) : Prop := s.step e = some s'

/-! ## The invariant -/

/-- The words of `i8259_init` that stay. -/
structure SetUp (c : Cascade) : Prop where
  takesMasks : TakesMasks c
  programmed : c.Programmed link
  bases : c.master.icw2 = icw2Master ∧ c.slave.icw2 = icw2Slave

/-- **`Orderly s`** — a line is in service exactly while its end is still to come, and a handler was only
interrupted by those of higher priority. -/
structure Orderly (s : Machine) : Prop where
  setUp : SetUp s.pics
  linked : s.pics.Enabled (.master link)
  enabled : ∀ l, s.pics.Enabled l → l = .master link ∨ ∃ irq, l = irqLine irq
  todo : ∀ h ∈ s.serving, ∃ rest, rest ≠ [] ∧ rest <:+ (irqLine h.irq).served link ∧ h.todo = rest.map endWrite
  service : ∀ l, s.pics.InService l ↔ ∃ h ∈ s.serving, endWrite l ∈ h.todo
  nested : s.serving.Pairwise fun a b => level a.irq < level b.irq

section Invariant

variable {s s' : Machine}

theorem SetUp.of_words {c c' : Cascade} (h : SetUp c) (hwords : c'.words = c.words) : SetUp c' := by
  obtain ⟨⟨hmaster, hslave⟩, ⟨hlink, hid⟩, hbases⟩ := h
  simp only [Cascade.words, Pic.words, Prod.mk.injEq] at hwords
  obtain ⟨⟨m0, -, m2, m3, -⟩, s0, -, s2, s3, -⟩ := hwords
  exact ⟨⟨m0.trans hmaster, s0.trans hslave⟩, ⟨by rwa [m3], by rwa [s3]⟩, by rwa [m2, s2]⟩

/-- The vector of a device. -/
theorem SetUp.vector {c : Cascade} (h : SetUp c) (irq : Irq) : c.vector (irqLine irq) = irq.vector.setWidth 8 := by
  obtain ⟨hmaster, hslave⟩ := h.bases
  cases irq with
  | keyboard =>
      rw [irqLine, Cascade.vector, Pic.vector, hmaster]
      rfl
  | rtc =>
      rw [irqLine, Cascade.vector, Pic.vector, hslave]
      rfl
  | pit =>
      rw [irqLine, Cascade.vector, Pic.vector, hmaster]
      rfl

theorem level_eq (irq : Irq) : level irq = 8 * ((irqLine irq).masterLine link : Nat) := by
  cases irq with
  | keyboard => rfl
  | rtc => rfl
  | pit => rfl

/-- All the lines that a device has in service come through one line of the master. -/
theorem masterLine_served {link : Fin 8} {l k : Cascade.Line} (h : k ∈ l.served link) :
    k.masterLine link = l.masterLine link := by
  cases l with
  | master i =>
      obtain rfl := List.mem_singleton.mp h
      rfl
  | slave j =>
      rcases List.mem_cons.mp h with rfl | h
      · rfl
      · obtain rfl := List.mem_singleton.mp h
        rfl

/-- The line of the master is ended last. -/
theorem mem_rest {link : Fin 8} {l : Cascade.Line} {rest : List Cascade.Line} (hne : rest ≠ [])
    (hsuffix : rest <:+ l.served link) : .master (l.masterLine link) ∈ rest := by
  have hlast := hsuffix.getLast hne
  have hmem := List.getLast_mem hne
  cases l with
  | master i => rwa [hlast] at hmem
  | slave j => rwa [hlast] at hmem

theorem orderly_initialised : Orderly ⟨initialised, []⟩ where
  setUp := ⟨⟨rfl, rfl⟩, ⟨by decide, by decide⟩, ⟨rfl, rfl⟩⟩
  linked := (initialised_enabled _).mpr rfl
  enabled := fun l hl => .inl ((initialised_enabled l).mp hl)
  todo := by simp
  service := fun l => by
    cases l <;> simp [Cascade.InService, initialised, quiet]
  nested := .nil

theorem Orderly.raise (h : Orderly s) (l : Cascade.Line) : Orderly { s with pics := s.pics.raise l } where
  setUp := h.setUp.of_words (by simp)
  linked := by simpa using h.linked
  enabled := by simpa using h.enabled
  todo := h.todo
  service := by simpa using h.service
  nested := h.nested

/-- Enabling the line of a device. -/
theorem Orderly.enable (h : Orderly s) (irq : Irq) : ∃ pics, enableIrq s.pics (irqNumber irq) = some pics ∧
    Orderly { s with pics := pics } := by
  refine ⟨_, enableIrq_eq h.setUp.takesMasks _, ?_⟩
  rw [maskLine, lineOf_irqNumber, Option.elim_some]
  refine ⟨h.setUp.of_words (by simp), ?_, fun l hl => ?_, h.todo, by simpa using h.service, h.nested⟩
  · rw [Cascade.enabled_setMask]
    split
    · rfl
    · exact h.linked
  · rw [Cascade.enabled_setMask] at hl
    split at hl
    next heq => exact .inr ⟨irq, heq⟩
    next => exact h.enabled l hl

/-- Only devices interrupt. -/
theorem Orderly.ready_line (h : Orderly s) {l : Cascade.Line} (hready : s.pics.Ready link l) :
    ∃ irq, l = irqLine irq := by
  refine (h.enabled l hready.requested.2.1).resolve_left ?_
  rintro rfl
  exact hready.1 rfl

/-- **Taking an interrupt.** -/
theorem Orderly.taken (h : Orderly s) {v : BitVec 8} {pics : Cascade}
    (htaken : s.pics.acknowledge link = some (v, pics)) :
    ∃ irq, v = irq.vector.setWidth 8 ∧ s.pics.Ready link (irqLine irq) ∧ s.pics.Enabled (irqLine irq) ∧
      (∀ irq', s.pics.Ready link (irqLine irq') → level irq ≤ level irq') ∧
      (∀ h ∈ s.serving, level irq < level h.irq) ∧
      Orderly ⟨pics, ⟨irq, eoiWrites (irqNumber irq)⟩ :: s.serving⟩ := by
  obtain ⟨l, hready, hfirst, rfl, rfl⟩ := Cascade.acknowledge_some h.setUp.programmed htaken
  obtain ⟨-, henabled, hclear⟩ := hready.requested
  obtain ⟨irq, rfl⟩ := h.ready_line hready
  have hpreempts : ∀ h ∈ s.serving, level irq < level h.irq := by
    intro a ha
    obtain ⟨rest, hne, hsuffix, htodo⟩ := h.todo a ha
    have hservice : s.pics.InService (.master ((irqLine a.irq).masterLine link)) :=
      (h.service _).mpr ⟨a, ha, htodo ▸ List.mem_map_of_mem (mem_rest hne hsuffix)⟩
    rw [level_eq, level_eq]
    have hlt : (irqLine irq).masterLine link < (irqLine a.irq).masterLine link := by
      apply not_le.mp
      intro hle
      exact Bool.false_ne_true ((hclear _ hle).symm.trans hservice)
    omega
  refine ⟨irq, h.setUp.vector irq, hready, henabled, fun irq' => hfirst _, hpreempts, ?_⟩
  have heoi := eoiWrites_eq (lineOf_irqNumber irq)
  refine ⟨h.setUp.of_words (by simp), by simpa using h.linked, by simpa using h.enabled, ?_, fun l => ?_, ?_⟩
  · intro a ha
    rcases List.mem_cons.mp ha with rfl | ha
    · refine ⟨_, ?_, List.suffix_refl _, heoi⟩
      cases irqLine irq <;> simp [Cascade.Line.served]
    · exact h.todo a ha
  · rw [Cascade.inService_serve, h.service, heoi]
    simp [endWrite_injective.eq_iff, or_comm]
  · exact List.pairwise_cons.mpr ⟨hpreempts, h.nested⟩

/-- The `k`-th handler, with those above and below it. -/
theorem wrote_eq {serving : List Serving} {k : Nat} {a : Serving} (hk : serving[k]? = some a)
    (todo : List (BitVec 8 × BitVec 16)) : ∃ above below, serving = above ++ a :: below ∧
      wrote serving k a.irq todo = above ++ ((if todo = [] then [] else [⟨a.irq, todo⟩]) ++ below) := by
  obtain ⟨hlt, rfl⟩ := List.getElem?_eq_some_iff.mp hk
  refine ⟨serving.take k, serving.drop (k + 1), ?_, ?_⟩
  · rw [List.getElem_cons_drop, List.take_append_drop]
  · cases todo with
    | nil => exact List.eraseIdx_eq_take_drop_succ _ _
    | cons w todo => exact List.set_eq_take_append_cons_drop.trans (if_pos hlt)

/-- A handler has only lines of its own level in service. -/
theorem Orderly.level_of_mem (h : Orderly s) {b : Serving} (hb : b ∈ s.serving) {l : Cascade.Line}
    (hmem : endWrite l ∈ b.todo) : level b.irq = 8 * (l.masterLine link : Nat) := by
  obtain ⟨rest, -, hsuffix, htodo⟩ := h.todo b hb
  rw [htodo] at hmem
  obtain ⟨l', hl', heq⟩ := List.mem_map.mp hmem
  obtain rfl := endWrite_injective heq
  rw [level_eq, masterLine_served (hsuffix.subset hl')]

theorem Orderly.nested_wrote (h : Orderly s) {k : Nat} {a : Serving} (hk : s.serving[k]? = some a)
    (todo : List (BitVec 8 × BitVec 16)) :
    (wrote s.serving k a.irq todo).Pairwise fun a b => level a.irq < level b.irq := by
  obtain ⟨above, below, hserving, hwrote⟩ := wrote_eq hk todo
  have hirqs : ((wrote s.serving k a.irq todo).map Serving.irq).Sublist (s.serving.map Serving.irq) := by
    rw [hwrote, hserving]
    cases todo with
    | nil => simp
    | cons w todo => simp
  have hlevels : (s.serving.map Serving.irq).Pairwise fun x y => level x < level y :=
    List.pairwise_map.mpr h.nested
  have hlevels' := hlevels.sublist hirqs
  rwa [List.pairwise_map] at hlevels'

/-- **A write of a handler** ends a line that no other handler has in service. -/
theorem Orderly.writes (h : Orderly s) {k : Nat} {a : Serving} (hk : s.serving[k]? = some a) :
    ∃ (l : Cascade.Line) (rest : List Cascade.Line), a.todo = endWrite l :: rest.map endWrite ∧
      outb s.pics (endWrite l).1 (endWrite l).2 = some (s.pics.endOf l) ∧
      Orderly ⟨s.pics.endOf l, wrote s.serving k a.irq (rest.map endWrite)⟩ := by
  obtain ⟨rest, hne, hsuffix, htodo⟩ := h.todo a (List.mem_of_getElem? hk)
  obtain ⟨l, rest, rfl⟩ := List.exists_cons_of_ne_nil hne
  obtain ⟨above, below, hserving, hwrote⟩ := wrote_eq hk (rest.map endWrite)
  have hnested := h.nested
  rw [hserving] at hnested
  obtain ⟨-, hbelow, habove⟩ := List.pairwise_append.mp hnested
  -- the levels tell the handlers apart
  have hother : ∀ b ∈ above ++ below, endWrite l ∉ b.todo := by
    intro b hb hmem
    have hb' : b ∈ s.serving := by
      rw [hserving]
      rcases List.mem_append.mp hb with hb | hb
      · exact List.mem_append_left _ hb
      · exact List.mem_append_right _ (List.mem_cons_of_mem _ hb)
    have ha : endWrite l ∈ a.todo := htodo ▸ List.mem_cons_self
    have hlevel : level a.irq = level b.irq :=
      (h.level_of_mem (List.mem_of_getElem? hk) ha).trans (h.level_of_mem hb' hmem).symm
    rcases List.mem_append.mp hb with hb | hb
    · exact absurd hlevel.symm (habove b hb a List.mem_cons_self).ne
    · exact absurd hlevel ((List.pairwise_cons.mp hbelow).1 b hb).ne
  have hnodup : (l :: rest).Nodup := by
    refine List.Nodup.sublist hsuffix.sublist ?_
    cases irqLine a.irq <;> simp [Cascade.Line.served]
  have hold : ∀ b, b ∈ s.serving ↔ b ∈ above ++ below ∨ b = a := by
    intro b
    rw [hserving, List.mem_append, List.mem_append, List.mem_cons]
    tauto
  have hnew : ∀ b, b ∈ wrote s.serving k a.irq (rest.map endWrite) ↔
      b ∈ above ++ below ∨ rest ≠ [] ∧ b = ⟨a.irq, rest.map endWrite⟩ := by
    intro b
    rw [hwrote]
    cases rest with
    | nil => simp
    | cons l' rest =>
        rw [if_neg (by simp), List.mem_append, List.mem_append, List.mem_append, List.mem_singleton]
        simp only [ne_eq, reduceCtorEq, not_false_eq_true, true_and]
        tauto
  refine ⟨l, rest, htodo, outb_endWrite _ _, h.setUp.of_words (by simp), by simpa using h.linked,
    by simpa using h.enabled, fun b hb => ?_, fun k' => ?_, ?_⟩
  · rcases (hnew b).mp hb with hb | ⟨hrest, rfl⟩
    · exact h.todo b ((hold b).mpr (.inl hb))
    · exact ⟨rest, hrest, (List.suffix_cons l rest).trans hsuffix, rfl⟩
  · rw [Cascade.inService_endOf, h.service]
    constructor
    · rintro ⟨hne, b, hb, hmem⟩
      rcases (hold b).mp hb with hb | rfl
      · exact ⟨b, (hnew b).mpr (.inl hb), hmem⟩
      · rw [htodo] at hmem
        rcases List.mem_cons.mp hmem with heq | hmem
        · exact absurd (endWrite_injective heq) hne
        · refine ⟨_, (hnew _).mpr (.inr ⟨?_, rfl⟩), hmem⟩
          rintro rfl
          exact List.not_mem_nil hmem
    · rintro ⟨b, hb, hmem⟩
      rcases (hnew b).mp hb with hb' | ⟨-, rfl⟩
      · refine ⟨?_, b, (hold b).mpr (.inl hb'), hmem⟩
        rintro rfl
        exact hother b hb' hmem
      · refine ⟨?_, a, (hold a).mpr (.inr rfl), htodo ▸ List.mem_cons_of_mem _ hmem⟩
        rintro rfl
        obtain ⟨l', hl', heq⟩ := List.mem_map.mp hmem
        obtain rfl := endWrite_injective heq
        exact (List.nodup_cons.mp hnodup).1 hl'
  · exact h.nested_wrote hk _

/-- **The step lemma.** -/
theorem Orderly.step (h : Orderly s) {e : Event} (hstep : Steps s e s') : Orderly s' := by
  cases e with
  | raise l =>
      obtain rfl := Option.some.inj hstep
      exact h.raise l
  | enable irq =>
      obtain ⟨pics, hpics, horderly⟩ := h.enable irq
      obtain ⟨pics', hpics', rfl⟩ := Option.map_eq_some_iff.mp hstep
      obtain rfl := Option.some.inj (hpics.symm.trans hpics')
      exact horderly
  | interrupt =>
      obtain ⟨⟨v, pics⟩, htaken, hstep⟩ := Option.bind_eq_some_iff.mp hstep
      obtain ⟨irq, rfl, -, -, -, -, horderly⟩ := h.taken htaken
      rw [handlerOn_vector] at hstep
      obtain rfl := Option.some.inj hstep
      exact horderly
  | write k =>
      obtain ⟨a, hk, hstep⟩ := Option.bind_eq_some_iff.mp hstep
      obtain ⟨l, rest, htodo, hwritten, horderly⟩ := h.writes hk
      rw [htodo] at hstep
      dsimp only at hstep
      rw [hwritten] at hstep
      obtain rfl := Option.some.inj hstep
      exact horderly

/-- With no handler left, the requests and the masks decide. -/
theorem Orderly.quiet (h : Orderly s) (hquiet : s.serving = []) : s.pics.acknowledge link = none ↔
    ∀ irq, ¬(s.pics.Requested (irqLine irq) ∧ s.pics.Enabled (irqLine irq)) := by
  have hidle : ∀ l, ¬s.pics.InService l := by
    intro l hl
    obtain ⟨a, ha, -⟩ := (h.service l).mp hl
    rw [hquiet] at ha
    exact List.not_mem_nil ha
  rw [Cascade.acknowledge_none h.setUp.programmed]
  constructor
  · rintro hnone irq ⟨hrequested, henabled⟩
    have hlink : irqLine irq ≠ .master link := by cases irq <;> decide
    exact hnone _ (Cascade.ready_of_quiet hidle hlink h.linked hrequested henabled)
  · intro hnone l hready
    obtain ⟨irq, rfl⟩ := h.ready_line hready
    exact hnone irq ⟨hready.requested.1, hready.requested.2.1⟩

/-- The writes that are still to come. -/
def Machine.writesLeft (s : Machine) : Nat := (s.serving.flatMap Serving.todo).length

/-- **The handlers can always finish**, and nothing that is requested gets lost by it. -/
theorem Orderly.finish {n : Nat} (h : Orderly s) (hn : s.writesLeft = n) : ∃ events s', Run Steps s events s' ∧
    s'.serving = [] ∧ (∀ e ∈ events, ∃ k, e = .write k) ∧
    ∀ l, s'.pics.Requested l ↔ s.pics.Requested l := by
  induction n using Nat.strong_induction_on generalizing s with
  | _ n ih =>
    rcases hserving : s.serving with - | ⟨a, below⟩
    · exact ⟨[], s, rfl, hserving, by simp, fun _ => Iff.rfl⟩
    · have hk : s.serving[0]? = some a := by simp [hserving]
      obtain ⟨l, rest, htodo, hwritten, horderly⟩ := h.writes hk
      obtain ⟨s1, hs1⟩ : ∃ s1, s1 = Machine.mk (s.pics.endOf l) (wrote s.serving 0 a.irq (rest.map endWrite)) :=
        ⟨_, rfl⟩
      have hstep : Steps s (.write 0) s1 := by
        rw [hs1, Steps, Machine.step, hk, Option.bind_some, htodo]
        dsimp only
        rw [hwritten]
        rfl
      rw [← hs1] at horderly
      have hless : s1.writesLeft < n := by
        rw [← hn, Machine.writesLeft, Machine.writesLeft, hs1, hserving]
        cases rest with
        | nil => simp [wrote, htodo]
        | cons l' rest => simp [wrote, htodo]
      obtain ⟨events, s', hrun, hdone, hwrites, hrequested⟩ := ih _ hless horderly rfl
      refine ⟨.write 0 :: events, s', ⟨s1, hstep, hrun⟩, hdone, ?_, fun k => ?_⟩
      · intro e he
        rcases List.mem_cons.mp he with rfl | he
        · exact ⟨0, rfl⟩
        · exact hwrites e he
      · rw [hrequested, hs1]
        exact s.pics.requested_endOf l k

end Invariant

/-! ## Every run -/

/-- **`Serves s v irq`** — vector `v` is the one of device `irq`: its gate is closed to user programs and clears
the interrupt flag, and `do_irq` calls its handler.  The device has asked for it and its driver has let it
through; it comes before all others that may interrupt, and it interrupts only handlers of lower priority. -/
structure Serves (s : Machine) (v : BitVec 8) (irq : Irq) : Prop where
  gate : (idtInit v).ForHardware
  handler : handlerOn v = some (.device irq)
  requested : s.pics.Requested (irqLine irq)
  enabled : s.pics.Enabled (irqLine irq)
  first : ∀ irq', s.pics.Ready link (irqLine irq') → level irq ≤ level irq'
  preempts : ∀ a ∈ s.serving, level irq < level a.irq

section Runs

variable {c pics : Cascade} {s : Machine} {events : List Event}

theorem orderly_of_run (hinit : i8259Init c = some pics) (hrun : Run Steps ⟨pics, []⟩ events s) : Orderly s := by
  obtain rfl := Option.some.inj ((i8259Init_eq c).symm.trans hinit)
  exact hrun.invariant orderly_initialised fun _ _ _ h hstep => h.step hstep

theorem Orderly.serves (h : Orderly s) {v : BitVec 8} {pics : Cascade}
    (htaken : s.pics.acknowledge link = some (v, pics)) : ∃ irq, Serves s v irq := by
  obtain ⟨irq, rfl, hready, henabled, hfirst, hpreempts, -⟩ := h.taken htaken
  refine ⟨irq, (idtInit_forHardware _).mpr ?_, handlerOn_vector irq, hready.requested.1, henabled, hfirst, hpreempts⟩
  cases irq <;> decide

/-- **Every interrupt reaches its own handler, and none is lost.**  From any state of the controllers, after
`i8259_init` and whatever the devices, the drivers and the scheduler do: an interrupt that is taken is served by
the handler of the device that asked for it.  A line is in service exactly while the write that ends it is still
to come, and a handler was only interrupted by those of higher priority, so it is never entered twice.  The
handlers can always finish, which leaves all requests; and then a request that is let through is taken. -/
theorem interrupts_reach_handlers (hinit : i8259Init c = some pics) (hrun : Run Steps ⟨pics, []⟩ events s) :
    (∀ v pics, s.pics.acknowledge link = some (v, pics) → ∃ irq, Serves s v irq) ∧
    (∀ l, s.pics.InService l ↔ ∃ a ∈ s.serving, endWrite l ∈ a.todo) ∧
    s.serving.Pairwise (fun a b => level a.irq < level b.irq) ∧
    ∃ writes s', Run Steps s writes s' ∧ (∀ e ∈ writes, ∃ k, e = .write k) ∧
      (∀ l, s'.pics.Requested l ↔ s.pics.Requested l) ∧ s'.serving = [] ∧
      (s'.pics.acknowledge link = none ↔
        ∀ irq, ¬(s'.pics.Requested (irqLine irq) ∧ s'.pics.Enabled (irqLine irq))) := by
  have horderly := orderly_of_run hinit hrun
  obtain ⟨writes, s', hrun', hdone, hwrites, hrequested⟩ := horderly.finish rfl
  have horderly' : Orderly s' := hrun'.invariant horderly fun _ _ _ h hstep => h.step hstep
  exact ⟨fun v pics => horderly.serves, horderly.service, horderly.nested, writes, s', hrun', hwrites, hrequested,
    hdone, horderly'.quiet hdone⟩

/-- The driver of the keyboard lets it through, and a key is pressed. -/
theorem keyboard_reaches_handler : ∃ pics, enableIrq initialised 1 = some pics ∧
    ∀ v pics', (pics.raise (.master 1)).acknowledge link = some (v, pics') →
      ∃ irq, Serves ⟨pics.raise (.master 1), []⟩ v irq := by
  obtain ⟨pics, hpics, -⟩ := orderly_initialised.enable .keyboard
  have henable : Steps ⟨initialised, []⟩ (.enable .keyboard) ⟨pics, []⟩ := by
    rw [Steps, Machine.step, hpics]
    rfl
  have hrun : Run Steps ⟨initialised, []⟩ [.enable .keyboard, .raise (.master 1)]
      ⟨pics.raise (.master 1), []⟩ := ⟨_, henable, _, rfl, rfl⟩
  exact ⟨pics, hpics, (interrupts_reach_handlers (i8259Init_eq initialised) hrun).1⟩

end Runs

end Ece391.I8259
