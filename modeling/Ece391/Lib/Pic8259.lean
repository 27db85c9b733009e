/-
# Ece391.Lib.Pic8259 — the 8259 interrupt controller, and two of them in cascade.

A controller has eight lines.  What a write to its data port means depends on the writes before: after the
first initialization word the next two or three are initialization words too, and then they are the mask.
It is modelled in the 8086 mode, fully nested, with specific commands for the end of an interrupt; a command
of another kind has no result.  The requests are edges: a line that is raised stays requested until it is
served.

In a cascade the output of the slave is a line of the master.  `Ready l` is when line `l` may interrupt, and
`acknowledge` serves the highest of these (`acknowledge_some`, `acknowledge_none`).  Spurious interrupts, of a
line that drops its request in the middle, are left out.

Nothing here names a program.
-/
import Mathlib.Logic.Equiv.Fin.Basic
import Mathlib.Logic.Function.Basic
import Mathlib.Order.Fin.Basic

namespace Ece391.Lib

/-! ## One controller -/

/-- What the next byte on the data port is. -/
inductive Pic.Await
  | icw2 | icw3 | icw4 | ready
  deriving DecidableEq

/-- **`Pic`** — the requests, the lines in service, the mask, the initialization words. -/
structure Pic where
  irr : Fin 8 → Bool
  isr : Fin 8 → Bool
  imr : BitVec 8
  icw1 : BitVec 8
  icw2 : BitVec 8
  icw3 : BitVec 8
  icw4 : BitVec 8
  await : Pic.Await

namespace Pic

/-- The words that are not masks. -/
def words (p : Pic) : Await × BitVec 8 × BitVec 8 × BitVec 8 × BitVec 8 := (p.await, p.icw1, p.icw2, p.icw3, p.icw4)

/-- The first initialization word: nothing is requested, in service or masked. -/
def init (p : Pic) (b : BitVec 8) : Pic :=
  { p with irr := fun _ => false, isr := fun _ => false, imr := 0, icw1 := b, icw4 := 0, await := .icw2 }

/-- The end of the interrupt of a line. -/
def endOf (p : Pic) (i : Fin 8) : Pic := { p with isr := Function.update p.isr i false }

/-- **`command`** — a write to the command port. -/
def command (p : Pic) (b : BitVec 8) : Option Pic :=
  if b.getLsbD 4 then some (p.init b)
  else if b &&& 0xF8 = 0x60 then some (p.endOf (b.extractLsb' 0 3).toFin)
  else none

/-- **`data`** — a write to the data port. -/
def data (p : Pic) (b : BitVec 8) : Pic :=
  let last : Await := if p.icw1.getLsbD 0 then .icw4 else .ready
  match p.await with
  | .icw2 => { p with icw2 := b, await := if p.icw1.getLsbD 1 then last else .icw3 }
  | .icw3 => { p with icw3 := b, await := last }
  | .icw4 => { p with icw4 := b, await := .ready }
  | .ready => { p with imr := b }

/-- The line is raised. -/
def raise (p : Pic) (i : Fin 8) : Pic := { p with irr := Function.update p.irr i true }

/-- The bit of the mask that belongs to a line. -/
def setMask (p : Pic) (i : Fin 8) (masked : Bool) : Pic :=
  { p with imr := if masked then p.imr ||| BitVec.twoPow 8 i else p.imr &&& ~~~BitVec.twoPow 8 i }

/-- The line is served. -/
def serve (p : Pic) (i : Fin 8) : Pic :=
  { p with irr := Function.update p.irr i false, isr := Function.update p.isr i true }

/-- Neither the line nor a higher one is in service. -/
def Clear (p : Pic) (i : Fin 8) : Prop := ∀ k ≤ i, p.isr k = false

/-- The mask lets the line through. -/
def Enabled (p : Pic) (i : Fin 8) : Prop := p.imr.getLsbD i = false

/-- The line may interrupt. -/
def Ready (p : Pic) (i : Fin 8) : Prop := p.irr i = true ∧ p.Enabled i ∧ p.Clear i

instance (p : Pic) (i : Fin 8) : Decidable (p.Clear i) := inferInstanceAs (Decidable (∀ k ≤ i, _))
instance (p : Pic) (i : Fin 8) : Decidable (p.Enabled i) := inferInstanceAs (Decidable (_ = false))
instance (p : Pic) (i : Fin 8) : Decidable (p.Ready i) := inferInstanceAs (Decidable (_ ∧ _))

/-- The highest line that may interrupt; it is the one with the smallest number. -/
def pending (p : Pic) : Option (Fin 8) := Fin.find? fun i => decide (p.Ready i)

/-- The number the processor reads. -/
def vector (p : Pic) (i : Fin 8) : BitVec 8 := (p.icw2 &&& 0xF8) ||| BitVec.ofNat 8 i

theorem pending_some {p : Pic} {i : Fin 8} (h : p.pending = some i) :
    p.Ready i ∧ ∀ j < i, ¬p.Ready j := by
  obtain ⟨hready, hfirst⟩ := Fin.find?_eq_some_iff.mp h
  exact ⟨of_decide_eq_true hready, fun j hj => of_decide_eq_false (hfirst j hj)⟩

theorem pending_none {p : Pic} : p.pending = none ↔ ∀ i, ¬p.Ready i := by
  rw [pending, Fin.find?_eq_none_iff]
  exact forall_congr' fun i => decide_eq_false_iff_not

theorem enabled_setMask (p : Pic) (i k : Fin 8) (masked : Bool) :
    (p.setMask i masked).Enabled k ↔ if k = i then masked = false else p.Enabled k := by
  have hbit : (BitVec.twoPow 8 i).getLsbD k = decide (k = i) := by
    rw [BitVec.getLsbD_twoPow, decide_eq_true i.isLt, Bool.true_and]
    exact decide_eq_decide.mpr ⟨fun h => (Fin.ext h).symm, fun h => (congrArg Fin.val h).symm⟩
  unfold setMask Enabled
  cases masked with
  | false =>
      rw [if_neg Bool.false_ne_true, BitVec.getLsbD_and, BitVec.getLsbD_not, hbit]
      by_cases h : k = i <;> simp [h]
  | true =>
      rw [if_pos rfl, BitVec.getLsbD_or, hbit]
      by_cases h : k = i <;> simp [h]

theorem command_endOf (p : Pic) (i : Fin 8) : p.command (0x60 ||| BitVec.ofNat 8 i) = some (p.endOf i) := by
  have hword : ∀ i : Fin 8, (0x60 ||| BitVec.ofNat 8 i : BitVec 8).getLsbD 4 = false ∧
      (0x60 ||| BitVec.ofNat 8 i : BitVec 8) &&& 0xF8 = 0x60 ∧
      ((0x60 ||| BitVec.ofNat 8 i : BitVec 8).extractLsb' 0 3).toFin = i := by decide
  obtain ⟨hfirst, hend, hline⟩ := hword i
  rw [command, hfirst, if_neg Bool.false_ne_true, if_pos hend, hline]

end Pic

/-! ## Two in cascade -/

/-- The lines of a cascade. -/
inductive Cascade.Line
  | master (i : Fin 8)
  | slave (j : Fin 8)
  deriving DecidableEq

/-- The line of the master a request comes through. -/
def Cascade.Line.masterLine (link : Fin 8) : Line → Fin 8
  | .master i => i
  | .slave _ => link

/-- The lines in service while a line is served, in the order in which they are ended. -/
def Cascade.Line.served (link : Fin 8) : Line → List Line
  | .master i => [.master i]
  | .slave j => [.slave j, .master link]

/-- The priority, from the highest: the line of the master, and then the line of the slave. -/
def Cascade.Line.level (link : Fin 8) : Line → Nat
  | .master i => 8 * i
  | .slave j => 8 * link + j

structure Cascade where
  master : Pic
  slave : Pic

namespace Cascade

/-- The master as it is wired: its line `link` is the output of the slave. -/
def wired (link : Fin 8) (c : Cascade) : Pic :=
  { c.master with irr := Function.update c.master.irr link c.slave.pending.isSome }

def words (c : Cascade) := (c.master.words, c.slave.words)

def raise (c : Cascade) : Line → Cascade
  | .master i => { c with master := c.master.raise i }
  | .slave j => { c with slave := c.slave.raise j }

/-- A line of the slave is served by both. -/
def serve (link : Fin 8) (c : Cascade) : Line → Cascade
  | .master i => { c with master := c.master.serve i }
  | .slave j => ⟨c.master.serve link, c.slave.serve j⟩

def Requested (c : Cascade) : Line → Prop
  | .master i => c.master.irr i = true
  | .slave j => c.slave.irr j = true

def endOf (c : Cascade) : Line → Cascade
  | .master i => { c with master := c.master.endOf i }
  | .slave j => { c with slave := c.slave.endOf j }

def InService (c : Cascade) : Line → Prop
  | .master i => c.master.isr i = true
  | .slave j => c.slave.isr j = true

def setMask (c : Cascade) (masked : Bool) : Line → Cascade
  | .master i => { c with master := c.master.setMask i masked }
  | .slave j => { c with slave := c.slave.setMask j masked }

/-- The mask of its own controller lets the line through. -/
def Enabled (c : Cascade) : Line → Prop
  | .master i => c.master.Enabled i
  | .slave j => c.slave.Enabled j

def vector (c : Cascade) : Line → BitVec 8
  | .master i => c.master.vector i
  | .slave j => c.slave.vector j

/-- **`acknowledge`** — the processor takes an interrupt: it reads the vector from the master, or from the slave
if the third initialization words say that the slave is on that line. -/
def acknowledge (link : Fin 8) (c : Cascade) : Option (BitVec 8 × Cascade) :=
  (c.wired link).pending.bind fun i =>
    if c.master.icw3.getLsbD i then
      if (c.slave.icw3.extractLsb' 0 3).toFin = i then
        c.slave.pending.map fun j => (c.slave.vector j, ⟨c.master.serve i, c.slave.serve j⟩)
      else none
    else some (c.master.vector i, { c with master := c.master.serve i })

/-- **`Ready l`** — line `l` may interrupt. -/
def Ready (link : Fin 8) (c : Cascade) : Line → Prop
  | .master i => i ≠ link ∧ c.master.Ready i
  | .slave j => c.slave.Ready j ∧ c.master.Enabled link ∧ c.master.Clear link

/-- The third initialization words say how the controllers are wired. -/
structure Programmed (link : Fin 8) (c : Cascade) : Prop where
  master : ∀ i : Fin 8, c.master.icw3.getLsbD i = true ↔ i = link
  slave : (c.slave.icw3.extractLsb' 0 3).toFin = link

theorem enabled_setMask (c : Cascade) (l k : Line) (masked : Bool) :
    (c.setMask masked l).Enabled k ↔ if k = l then masked = false else c.Enabled k := by
  cases l with
  | master i =>
      cases k with
      | master k =>
          simp only [Line.master.injEq]
          exact c.master.enabled_setMask i k masked
      | slave k => exact iff_of_eq (if_neg (by simp)).symm
  | slave j =>
      cases k with
      | master k => exact iff_of_eq (if_neg (by simp)).symm
      | slave k =>
          simp only [Line.slave.injEq]
          exact c.slave.enabled_setMask j k masked

section Frames

variable (c : Cascade) (link : Fin 8) (l k : Line) (masked : Bool)

@[simp] theorem words_raise : (c.raise l).words = c.words := by cases l <;> rfl
@[simp] theorem words_serve : (c.serve link l).words = c.words := by cases l <;> rfl
@[simp] theorem words_endOf : (c.endOf l).words = c.words := by cases l <;> rfl
@[simp] theorem words_setMask : (c.setMask masked l).words = c.words := by cases l <;> rfl

@[simp] theorem enabled_raise : (c.raise l).Enabled k ↔ c.Enabled k := by cases l <;> cases k <;> rfl
@[simp] theorem enabled_serve : (c.serve link l).Enabled k ↔ c.Enabled k := by cases l <;> cases k <;> rfl
@[simp] theorem enabled_endOf : (c.endOf l).Enabled k ↔ c.Enabled k := by cases l <;> cases k <;> rfl

@[simp] theorem inService_raise : (c.raise l).InService k ↔ c.InService k := by cases l <;> cases k <;> rfl
@[simp] theorem inService_setMask : (c.setMask masked l).InService k ↔ c.InService k := by
  cases l <;> cases k <;> rfl

@[simp] theorem requested_endOf : (c.endOf l).Requested k ↔ c.Requested k := by cases l <;> cases k <;> rfl

end Frames

theorem inService_endOf (c : Cascade) (l k : Line) :
    (c.endOf l).InService k ↔ k ≠ l ∧ c.InService k := by
  cases l with
  | master i =>
      cases k with
      | master k => simp [endOf, InService, Pic.endOf, Function.update_apply]
      | slave k => simp [endOf, InService]
  | slave j =>
      cases k with
      | master k => simp [endOf, InService]
      | slave k => simp [endOf, InService, Pic.endOf, Function.update_apply]

/-- A line is in service until it is ended. -/
theorem inService_serve (c : Cascade) (link : Fin 8) (l k : Line) :
    (c.serve link l).InService k ↔ c.InService k ∨ k ∈ l.served link := by
  cases l with
  | master i =>
      cases k with
      | master k => simp [serve, InService, Pic.serve, Line.served, Function.update_apply, or_comm]
      | slave k => simp [serve, InService, Line.served]
  | slave j =>
      cases k with
      | master k => simp [serve, InService, Pic.serve, Line.served, Function.update_apply, or_comm]
      | slave k => simp [serve, InService, Pic.serve, Line.served, Function.update_apply, or_comm]

section Acknowledge

variable {link : Fin 8} {c c' : Cascade} {v : BitVec 8}

theorem wired_ready_of_ne {i : Fin 8} (hi : i ≠ link) : (c.wired link).Ready i ↔ c.master.Ready i := by
  show Function.update c.master.irr link _ i = true ∧ _ ↔ _
  rw [Function.update_of_ne hi]
  exact Iff.rfl

theorem wired_ready_link : (c.wired link).Ready link ↔
    c.slave.pending.isSome = true ∧ c.master.Enabled link ∧ c.master.Clear link := by
  show Function.update c.master.irr link _ link = true ∧ _ ↔ _
  rw [Function.update_self]
  exact Iff.rfl

/-- A line that may interrupt is requested and let through, and nothing higher is in service. -/
theorem Ready.requested {l : Line} (h : c.Ready link l) :
    c.Requested l ∧ c.Enabled l ∧ c.master.Clear (l.masterLine link) := by
  cases l with
  | master i => exact ⟨h.2.1, h.2.2.1, h.2.2.2⟩
  | slave j => exact ⟨h.1.1, h.1.2.1, h.2.2⟩

/-- With nothing in service, the mask and the request decide. -/
theorem ready_of_quiet (hquiet : ∀ l, ¬c.InService l) {l : Line} (hlink : l ≠ .master link)
    (hlinked : c.Enabled (.master link)) (hrequested : c.Requested l) (henabled : c.Enabled l) :
    c.Ready link l := by
  have hmaster : ∀ i, c.master.Clear i := fun i k _ => Bool.eq_false_iff.mpr (hquiet (.master k))
  cases l with
  | master i => exact ⟨fun hi => hlink (congrArg Line.master hi), hrequested, henabled, hmaster i⟩
  | slave j =>
      have hslave : c.slave.Clear j := fun k _ => Bool.eq_false_iff.mpr (hquiet (.slave k))
      exact ⟨⟨hrequested, henabled, hslave⟩, hlinked, hmaster link⟩

/-- A line that may interrupt is seen on the master. -/
theorem Ready.wired {l : Line} (h : c.Ready link l) : (c.wired link).Ready (l.masterLine link) := by
  cases l with
  | master i => exact (wired_ready_of_ne h.1).mpr h.2
  | slave j =>
      refine wired_ready_link.mpr ⟨Option.isSome_iff_ne_none.mpr fun hnone => ?_, h.2⟩
      exact Pic.pending_none.mp hnone j h.1

/-- The cases of `acknowledge`. -/
theorem acknowledge_cases (hprogrammed : c.Programmed link) {i : Fin 8}
    (hpending : (c.wired link).pending = some i) :
    ∃ l, c.Ready link l ∧ (∀ l', c.Ready link l' → l.level link ≤ l'.level link) ∧
      c.acknowledge link = some (c.vector l, c.serve link l) := by
  obtain ⟨hready, hfirst⟩ := Pic.pending_some hpending
  have hlowest : ∀ l', c.Ready link l' → i ≤ l'.masterLine link := fun l' hl' =>
    not_lt.mp fun hlt => hfirst _ hlt hl'.wired
  rw [acknowledge, hpending, Option.bind_some]
  by_cases hi : i = link
  · subst hi
    obtain ⟨hslave, hrest⟩ := wired_ready_link.mp hready
    obtain ⟨j, hj⟩ := Option.isSome_iff_exists.mp hslave
    obtain ⟨hjready, hjfirst⟩ := Pic.pending_some hj
    refine ⟨.slave j, ⟨hjready, hrest⟩, fun l' hl' => ?_, ?_⟩
    · have hle := hlowest l' hl'
      cases l' with
      | master k =>
          have hne : k ≠ i := hl'.1
          have hlt : i < k := lt_of_le_of_ne hle hne.symm
          show 8 * (i : Nat) + j ≤ 8 * k
          omega
      | slave j' =>
          have hjle : j ≤ j' := not_lt.mp fun hlt => hjfirst j' hlt hl'.1
          exact Nat.add_le_add_left hjle _
    · rw [if_pos ((hprogrammed.master i).mpr rfl), if_pos hprogrammed.slave, hj]
      rfl
  · refine ⟨.master i, ⟨hi, (wired_ready_of_ne hi).mp hready⟩, fun l' hl' => ?_, ?_⟩
    · have hle := hlowest l' hl'
      cases l' with
      | master k => exact Nat.mul_le_mul_left 8 hle
      | slave j' => exact (Nat.mul_le_mul_left 8 hle).trans (Nat.le_add_right _ _)
    · rw [if_neg fun hword => hi ((hprogrammed.master i).mp hword)]
      rfl

/-- **What is acknowledged** is the highest line that may interrupt; it gives its own vector, and it is served. -/
theorem acknowledge_some (hprogrammed : c.Programmed link) (h : c.acknowledge link = some (v, c')) :
    ∃ l, c.Ready link l ∧ (∀ l', c.Ready link l' → l.level link ≤ l'.level link) ∧ v = c.vector l ∧
      c' = c.serve link l := by
  obtain ⟨i, hpending, -⟩ := Option.bind_eq_some_iff.mp h
  obtain ⟨l, hready, hfirst, heq⟩ := acknowledge_cases hprogrammed hpending
  obtain ⟨rfl, rfl⟩ := Prod.mk.inj (Option.some.inj (heq.symm.trans h))
  exact ⟨l, hready, hfirst, rfl, rfl⟩

/-- **Nothing is acknowledged** exactly if no line may interrupt. -/
theorem acknowledge_none (hprogrammed : c.Programmed link) :
    c.acknowledge link = none ↔ ∀ l, ¬c.Ready link l := by
  constructor
  · intro h l hready
    rcases hpending : (c.wired link).pending with - | i
    · exact Pic.pending_none.mp hpending _ hready.wired
    · obtain ⟨l', -, -, heq⟩ := acknowledge_cases hprogrammed hpending
      exact Option.some_ne_none _ (heq.symm.trans h)
  · intro h
    rcases hpending : (c.wired link).pending with - | i
    · rw [acknowledge, hpending, Option.bind_none]
    · obtain ⟨l, hready, -⟩ := acknowledge_cases hprogrammed hpending
      exact absurd hready (h l)

end Acknowledge

end Cascade

end Ece391.Lib
