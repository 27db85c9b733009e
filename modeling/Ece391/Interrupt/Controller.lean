/-
# Ece391.Interrupt.Controller — the interrupt controllers (`i8259.c`).

`i8259_init` writes its words without looking at the controllers, which may be anywhere: a controller that is
in the middle of an initialization takes the first mask for an initialization word.  `i8259Init_eq` says that
this does no harm.  `enable_irq` and `disable_irq` read the mask, change one bit and write it back; `masks_after`
says what a sequence of such calls leaves, whatever the numbers they are called with.
-/
import Ece391.Interrupt.Link
import Ece391.Lib.Pic8259
import Mathlib.Data.Set.Insert

open Ece391.Lib

namespace Ece391.I8259

/-! ## The ports -/

def maskAll : BitVec 8 := 0xFF
def maxIrq : BitVec 32 := 15
def maxIrqMaster : BitVec 32 := 7
def slaveDiff : BitVec 32 := 8
def slaveIntr : BitVec 32 := 2

def master8259Port : BitVec 16 := 0x20
def slave8259Port : BitVec 16 := 0xA0
def master8259PortData : BitVec 16 := master8259Port + 1
def slave8259PortData : BitVec 16 := slave8259Port + 1

def icw1 : BitVec 8 := 0x11
def icw2Master : BitVec 8 := 0x20
def icw2Slave : BitVec 8 := 0x28
def icw3Master : BitVec 8 := 0x04
def icw3Slave : BitVec 8 := 0x02
def icw4 : BitVec 8 := 0x01

/-- `EOI`. -/
def eoi : BitVec 32 := 0x60

/-- The line of the master that the slave is on. -/
abbrev link : Fin 8 := 2

/-- `outb`, for the ports of the controllers and the port that only takes time. -/
def outb (c : Cascade) (data : BitVec 8) (port : BitVec 16) : Option Cascade :=
  if port = master8259Port then (c.master.command data).map fun master => { c with master := master }
  else if port = slave8259Port then (c.slave.command data).map fun slave => { c with slave := slave }
  else if port = master8259PortData then some { c with master := c.master.data data }
  else if port = slave8259PortData then some { c with slave := c.slave.data data }
  else if port = 0x80 then some c
  else none

/-- `inb`: the data ports give the masks. -/
def inb (c : Cascade) (port : BitVec 16) : Option (BitVec 8) :=
  if port = master8259PortData then some c.master.imr
  else if port = slave8259PortData then some c.slave.imr
  else none

/-- One `outb` after the other. -/
def outbs (writes : List (BitVec 8 × BitVec 16)) (c : Cascade) : Option Cascade :=
  writes.foldlM (fun c w => outb c w.1 w.2) c

section Ports

variable (c : Cascade) (b : BitVec 8)

@[simp] theorem outb_master :
    outb c b master8259Port = (c.master.command b).map fun master => { c with master := master } := rfl

@[simp] theorem outb_slave :
    outb c b slave8259Port = (c.slave.command b).map fun slave => { c with slave := slave } := rfl

@[simp] theorem outb_masterData :
    outb c b master8259PortData = some { c with master := c.master.data b } := rfl

@[simp] theorem outb_slaveData :
    outb c b slave8259PortData = some { c with slave := c.slave.data b } := rfl

@[simp] theorem inb_masterData : inb c master8259PortData = some c.master.imr := rfl

@[simp] theorem inb_slaveData : inb c slave8259PortData = some c.slave.imr := rfl

@[simp] theorem outbs_nil : outbs [] c = some c := rfl

@[simp] theorem outbs_cons (w : BitVec 8 × BitVec 16) (ws : List (BitVec 8 × BitVec 16)) :
    outbs (w :: ws) c = (outb c w.1 w.2).bind (outbs ws) := rfl

end Ports

/-! ## The functions -/

/-- What `enable_irq` and `disable_irq` have in common: a number out of bounds is ignored, and the others choose
a controller and a bit of its mask. -/
def maskIrq (change : BitVec 32 → BitVec 32 → BitVec 32) (c : Cascade) (irqNum : BitVec 32) : Option Cascade :=
  if irqNum < 0 ∨ maxIrq < irqNum then some c
  else
    let onMaster := 0 ≤ irqNum ∧ irqNum ≤ maxIrqMaster
    let port := if onMaster then master8259PortData else slave8259PortData
    let num := if onMaster then irqNum else irqNum - slaveDiff
    (inb c port).bind fun mask => outb c ((change (mask.setWidth 32) ((1 : BitVec 32) <<< num)).setWidth 8) port

/-- **`enableIrq`** — `enable_irq`. -/
def enableIrq : Cascade → BitVec 32 → Option Cascade := maskIrq fun mask bit => mask &&& ~~~bit

/-- **`disableIrq`** — `disable_irq`. -/
def disableIrq : Cascade → BitVec 32 → Option Cascade := maskIrq fun mask bit => mask ||| bit

/-- The writes of `send_eoi`. -/
def eoiWrites (irqNum : BitVec 32) : List (BitVec 8 × BitVec 16) :=
  if irqNum < 0 ∨ maxIrq < irqNum then []
  else if 0 ≤ irqNum ∧ irqNum ≤ maxIrqMaster then [((eoi ||| irqNum).setWidth 8, master8259Port)]
  else
    [((eoi ||| (irqNum - slaveDiff)).setWidth 8, slave8259Port),
     ((eoi ||| slaveIntr).setWidth 8, master8259Port)]

/-- **`sendEoi`** — `send_eoi`. -/
def sendEoi (c : Cascade) (irqNum : BitVec 32) : Option Cascade := outbs (eoiWrites irqNum) c

/-- `io_wait`. -/
def ioWait : BitVec 8 × BitVec 16 := (0, 0x80)

@[simp] theorem outb_ioWait (c : Cascade) : outb c ioWait.1 ioWait.2 = some c := rfl

/-- The writes of `i8259_init`. -/
def initWrites : List (BitVec 8 × BitVec 16) :=
  [ -- mask out all interrupts
   (maskAll, master8259PortData), (maskAll, slave8259PortData),
   -- the initialization command, which expects three more data inputs
   (icw1, master8259Port), ioWait, (icw1, slave8259Port), ioWait,
   (icw2Master, master8259PortData), ioWait, (icw2Slave, slave8259PortData), ioWait,
   (icw3Master, master8259PortData), ioWait, (icw3Slave, slave8259PortData), ioWait,
   (icw4, master8259PortData), ioWait, (icw4, slave8259PortData), ioWait,
   -- mask the interrupts again
   (maskAll, master8259PortData), (maskAll, slave8259PortData)]

/-- **`i8259Init`** — `i8259_init`. -/
def i8259Init (c : Cascade) : Option Cascade := (outbs initWrites c).bind fun c => enableIrq c slaveIntr

/-! ## After the initialization -/

/-- A controller that is set up and quiet. -/
def quiet (base cascade mask : BitVec 8) : Pic where
  irr := fun _ => false
  isr := fun _ => false
  imr := mask
  icw1 := icw1
  icw2 := base
  icw3 := cascade
  icw4 := icw4
  await := .ready

/-- What `i8259_init` leaves: only the slave is let through. -/
def initialised : Cascade := ⟨quiet icw2Master icw3Master 0xFB, quiet icw2Slave icw3Slave maskAll⟩

/-- The initialization of one controller, from any state. -/
theorem data_init (p : Pic) (base cascade mask : BitVec 8) :
    ((((p.init icw1).data base).data cascade).data icw4).data mask = quiet base cascade mask := by
  have hcascade : icw1[1] = false := by decide
  have hicw4 : icw1.getLsbD 0 = true := by decide
  simp [Pic.init, Pic.data, quiet, hcascade, hicw4]

theorem command_icw1 (p : Pic) : p.command icw1 = some (p.init icw1) := rfl

/-- **`i8259_init` works from every state**, also in the middle of an initialization. -/
theorem i8259Init_eq (c : Cascade) : i8259Init c = some initialised := by
  have hwrites : outbs initWrites c =
      some ⟨quiet icw2Master icw3Master maskAll, quiet icw2Slave icw3Slave maskAll⟩ := by
    simp only [initWrites, outbs_cons, outb_masterData, outb_slaveData, outb_master, outb_slave, outb_ioWait,
      command_icw1, Option.bind_some, Option.map_some, data_init, outbs_nil]
  rw [i8259Init, hwrites]
  rfl

/-! ## The masks -/

/-- The line of a number. -/
def lineOf (irqNum : BitVec 32) : Option Cascade.Line :=
  if irqNum.toNat ≤ 7 then some (.master (Fin.ofNat 8 irqNum.toNat))
  else if irqNum.toNat ≤ 15 then some (.slave (Fin.ofNat 8 (irqNum.toNat - 8)))
  else none

theorem outOfBounds_iff (irqNum : BitVec 32) : (irqNum < 0 ∨ maxIrq < irqNum) ↔ 15 < irqNum.toNat := by
  rw [BitVec.lt_def, BitVec.lt_def]
  simp [maxIrq]

theorem onMaster_iff (irqNum : BitVec 32) : (0 ≤ irqNum ∧ irqNum ≤ maxIrqMaster) ↔ irqNum.toNat ≤ 7 := by
  rw [BitVec.le_def, BitVec.le_def]
  simp [maxIrqMaster]

/-- `irq_num - SLAVE_DIFF`. -/
theorem sub_slaveDiff {n : Nat} (h : 8 ≤ n) : BitVec.ofNat 32 n - slaveDiff = BitVec.ofNat 32 (n - 8) := by
  obtain ⟨m, rfl⟩ := Nat.exists_eq_add_of_le' h
  rw [Nat.add_sub_cancel, BitVec.ofNat_add]
  exact BitVec.add_sub_cancel _ _

/-- The data ports take masks. -/
structure TakesMasks (c : Cascade) : Prop where
  master : c.master.await = .ready
  slave : c.slave.await = .ready

/-- The bit of a number. -/
def maskLine (c : Cascade) (masked : Bool) (irqNum : BitVec 32) : Cascade :=
  (lineOf irqNum).elim c (c.setMask masked)

/-- `change` sets or clears the bit. -/
def Changes (change : BitVec 32 → BitVec 32 → BitVec 32) (masked : Bool) : Prop :=
  ∀ (mask : BitVec 8) (i : Nat), i < 8 →
    (change (mask.setWidth 32) ((1 : BitVec 32) <<< BitVec.ofNat 32 i)).setWidth 8 =
      if masked then mask ||| BitVec.twoPow 8 i else mask &&& ~~~BitVec.twoPow 8 i

/-- Numbers out of bounds have no line; the others choose the port and the bit. -/
theorem maskIrq_eq {change : BitVec 32 → BitVec 32 → BitVec 32} {masked : Bool} (hchange : Changes change masked)
    {c : Cascade} (h : TakesMasks c) (irqNum : BitVec 32) :
    maskIrq change c irqNum = some (maskLine c masked irqNum) := by
  obtain ⟨n, hn⟩ : ∃ n, irqNum.toNat = n := ⟨_, rfl⟩
  have hnum : irqNum = BitVec.ofNat 32 n := by rw [← hn, BitVec.ofNat_toNat, BitVec.setWidth_eq]
  unfold maskIrq maskLine lineOf
  simp only [outOfBounds_iff, onMaster_iff, hn]
  by_cases hlow : n ≤ 7
  · have hword := hchange c.master.imr n (by omega)
    rw [if_neg (by omega), if_pos hlow, if_pos hlow, if_pos hlow, inb_masterData, Option.bind_some,
      outb_masterData, hnum, hword, Pic.data, h.master]
    simp [Cascade.setMask, Pic.setMask, Nat.mod_eq_of_lt (show n < 8 by omega), h.master]
  · by_cases hhigh : n ≤ 15
    · have hword := hchange c.slave.imr (n - 8) (by omega)
      rw [if_neg (by omega), if_neg hlow, if_neg hlow, if_neg hlow, if_pos hhigh, inb_slaveData, Option.bind_some,
        outb_slaveData, hnum, sub_slaveDiff (by omega), hword, Pic.data, h.slave]
      simp [Cascade.setMask, Pic.setMask, Nat.mod_eq_of_lt (show n - 8 < 8 by omega), h.slave]
    · rw [if_pos (by omega), if_neg hlow, if_neg hhigh]
      rfl

/-- `1 << num`. -/
theorem shifted_one {i : Nat} (hi : i < 8) : (1 : BitVec 32) <<< BitVec.ofNat 32 i = BitVec.twoPow 32 i := by
  rw [BitVec.shiftLeft_eq', BitVec.toNat_ofNat, Nat.mod_eq_of_lt (by omega)]
  rfl

theorem enableIrq_eq {c : Cascade} (h : TakesMasks c) (irqNum : BitVec 32) :
    enableIrq c irqNum = some (maskLine c false irqNum) := by
  apply maskIrq_eq _ h
  intro mask i hi
  rw [shifted_one hi, if_neg Bool.false_ne_true]
  ext k hk
  simp [show i < 32 by omega, eq_comm]

theorem disableIrq_eq {c : Cascade} (h : TakesMasks c) (irqNum : BitVec 32) :
    disableIrq c irqNum = some (maskLine c true irqNum) := by
  apply maskIrq_eq _ h
  intro mask i hi
  rw [shifted_one hi, if_pos rfl]
  ext k hk
  simp [show i < 32 by omega, eq_comm]

section Masks

variable {c : Cascade}

theorem maskLine_takesMasks (h : TakesMasks c) (masked : Bool) (irqNum : BitVec 32) :
    TakesMasks (maskLine c masked irqNum) := by
  unfold maskLine
  rcases lineOf irqNum with - | i | j
  · exact h
  · exact ⟨h.master, h.slave⟩
  · exact ⟨h.master, h.slave⟩

theorem enabled_maskLine (c : Cascade) (masked : Bool) (irqNum : BitVec 32) (k : Cascade.Line) :
    (maskLine c masked irqNum).Enabled k ↔ if lineOf irqNum = some k then masked = false else c.Enabled k := by
  unfold maskLine
  rcases lineOf irqNum with - | l
  · simp
  · simp only [Option.elim_some, c.enabled_setMask, Option.some.injEq, eq_comm]

/-- Everything but the masks. -/
def SameButMasks (c c' : Cascade) : Prop :=
  c' = ⟨{ c.master with imr := c'.master.imr }, { c.slave with imr := c'.slave.imr }⟩

theorem maskLine_sameButMasks (c : Cascade) (masked : Bool) (irqNum : BitVec 32) :
    SameButMasks c (maskLine c masked irqNum) := by
  unfold maskLine
  rcases lineOf irqNum with - | i | j
  · rfl
  · rfl
  · rfl

theorem SameButMasks.trans {c c' c'' : Cascade} (h : SameButMasks c c') (h' : SameButMasks c' c'') :
    SameButMasks c c'' := by
  unfold SameButMasks at h h' ⊢
  rw [h] at h'
  exact h'

/-- A call of one of the two functions. -/
inductive MaskCall
  | enable (irqNum : BitVec 32)
  | disable (irqNum : BitVec 32)

def MaskCall.run (c : Cascade) : MaskCall → Option Cascade
  | enable irqNum => enableIrq c irqNum
  | disable irqNum => disableIrq c irqNum

/-- What a call says about the lines that are let through. -/
def MaskCall.allows (lines : Set Cascade.Line) : MaskCall → Set Cascade.Line
  | enable irqNum => { l | lineOf irqNum = some l } ∪ lines
  | disable irqNum => lines \ { l | lineOf irqNum = some l }

/-- One call changes the masks as it says. -/
theorem MaskCall.run_spec (h : TakesMasks c) {lines : Set Cascade.Line} (hlines : ∀ l, c.Enabled l ↔ l ∈ lines)
    (call : MaskCall) : ∃ c', call.run c = some c' ∧ TakesMasks c' ∧ SameButMasks c c' ∧
      ∀ l, c'.Enabled l ↔ l ∈ call.allows lines := by
  cases call with
  | enable irqNum =>
      refine ⟨_, enableIrq_eq h irqNum, maskLine_takesMasks h _ _, maskLine_sameButMasks c _ _, fun l => ?_⟩
      rw [enabled_maskLine, hlines]
      by_cases hl : lineOf irqNum = some l <;> simp [allows, hl]
  | disable irqNum =>
      refine ⟨_, disableIrq_eq h irqNum, maskLine_takesMasks h _ _, maskLine_sameButMasks c _ _, fun l => ?_⟩
      rw [enabled_maskLine, hlines]
      by_cases hl : lineOf irqNum = some l <;> simp [allows, hl]

/-- Calls one after the other. -/
theorem calls_spec (h : TakesMasks c) {lines : Set Cascade.Line} (hlines : ∀ l, c.Enabled l ↔ l ∈ lines)
    (calls : List MaskCall) : ∃ c', calls.foldlM MaskCall.run c = some c' ∧ SameButMasks c c' ∧
      ∀ l, c'.Enabled l ↔ l ∈ calls.foldl MaskCall.allows lines := by
  induction calls generalizing c lines with
  | nil => exact ⟨c, rfl, rfl, hlines⟩
  | cons call calls ih =>
      obtain ⟨c1, hc1, h1, hsame, hlines1⟩ := call.run_spec h hlines
      obtain ⟨c2, hc2, hsame', hlines2⟩ := ih h1 hlines1
      refine ⟨c2, ?_, hsame.trans hsame', hlines2⟩
      rw [List.foldlM_cons, hc1]
      exact hc2

theorem initialised_enabled (l : Cascade.Line) : initialised.Enabled l ↔ l ∈ ({.master 2} : Set Cascade.Line) := by
  have hmaster : ∀ i : Fin 8, initialised.master.Enabled i ↔ i = 2 := by decide
  have hslave : ∀ j : Fin 8, ¬initialised.slave.Enabled j := by decide
  cases l with
  | master i => simpa [Cascade.Enabled] using hmaster i
  | slave j => simpa [Cascade.Enabled] using hslave j

/-- **The masks.**  Whatever state the controllers are in, after `i8259_init` and any calls of `enable_irq` and
`disable_irq`, with any numbers, the lines that are let through are the slave's and those that the calls say;
nothing is requested or in service, and the vectors start at 0x20 and 0x28. -/
theorem masks_after (c : Cascade) (calls : List MaskCall) :
    ∃ c', (i8259Init c).bind (calls.foldlM MaskCall.run) = some c' ∧ SameButMasks initialised c' ∧
      ∀ l, c'.Enabled l ↔ l ∈ calls.foldl MaskCall.allows {.master 2} := by
  rw [i8259Init_eq, Option.bind_some]
  exact calls_spec ⟨rfl, rfl⟩ initialised_enabled calls

end Masks

/-! ## The end of an interrupt -/

/-- The write that ends a line. -/
def endWrite : Cascade.Line → BitVec 8 × BitVec 16
  | .master i => (0x60 ||| BitVec.ofNat 8 i, master8259Port)
  | .slave j => (0x60 ||| BitVec.ofNat 8 j, slave8259Port)

theorem outb_endWrite (c : Cascade) (l : Cascade.Line) : outb c (endWrite l).1 (endWrite l).2 = some (c.endOf l) := by
  cases l with
  | master i =>
      rw [endWrite, outb_master, c.master.command_endOf i]
      rfl
  | slave j =>
      rw [endWrite, outb_slave, c.slave.command_endOf j]
      rfl

theorem endWrite_injective : Function.Injective endWrite := by
  have hword : ∀ i j : Fin 8, (0x60 ||| BitVec.ofNat 8 i : BitVec 8) = 0x60 ||| BitVec.ofNat 8 j → i = j := by
    decide
  intro l k h
  cases l with
  | master i =>
      cases k with
      | master k => rw [hword i k (Prod.mk.inj h).1]
      | slave k => exact absurd (Prod.mk.inj h).2 (by decide)
  | slave j =>
      cases k with
      | master k => exact absurd (Prod.mk.inj h).2 (by decide)
      | slave k => rw [hword j k (Prod.mk.inj h).1]

/-- **`send_eoi` ends the lines that are served**, the slave's first. -/
theorem eoiWrites_eq {irqNum : BitVec 32} {l : Cascade.Line} (h : lineOf irqNum = some l) :
    eoiWrites irqNum = (l.served link).map endWrite := by
  obtain ⟨n, hn⟩ : ∃ n, irqNum.toNat = n := ⟨_, rfl⟩
  have hnum : irqNum = BitVec.ofNat 32 n := by rw [← hn, BitVec.ofNat_toNat, BitVec.setWidth_eq]
  have hword : ∀ i : Nat, ((eoi ||| BitVec.ofNat 32 i).setWidth 8 : BitVec 8) = 0x60 ||| BitVec.ofNat 8 i := by
    intro i
    rw [BitVec.setWidth_or, BitVec.setWidth_ofNat_of_le (by omega)]
    rfl
  unfold lineOf at h
  unfold eoiWrites
  simp only [outOfBounds_iff, onMaster_iff, hn] at h ⊢
  by_cases hlow : n ≤ 7
  · rw [if_pos hlow] at h
    obtain rfl := Option.some.inj h
    rw [if_neg (by omega), if_pos hlow, hnum, hword]
    simp [Cascade.Line.served, endWrite, Nat.mod_eq_of_lt (show n < 8 by omega)]
  · rw [if_neg hlow] at h
    split at h
    next hhigh =>
      obtain rfl := Option.some.inj h
      rw [if_neg (by omega), if_neg hlow, hnum, sub_slaveDiff (by omega), hword]
      simp [Cascade.Line.served, endWrite, Nat.mod_eq_of_lt (show n - 8 < 8 by omega), slaveIntr, eoi]
    next => cases h

/-- All of `send_eoi`, if nothing comes in between. -/
theorem sendEoi_eq {irqNum : BitVec 32} {l : Cascade.Line} (h : lineOf irqNum = some l) (c : Cascade) :
    sendEoi c irqNum = some ((l.served link).foldl Cascade.endOf c) := by
  rw [sendEoi, eoiWrites_eq h]
  induction l.served link generalizing c with
  | nil => rfl
  | cons k rest ih =>
      rw [List.map_cons, outbs_cons, outb_endWrite, Option.bind_some, List.foldl_cons]
      exact ih _

/-! ## The devices -/

/-- `keyboardIRQ`, `RTC_IRQ`, `PIT_IRQ`. -/
def irqNumber : Irq → BitVec 32
  | .keyboard => 1
  | .rtc => 8
  | .pit => 0

def irqLine : Irq → Cascade.Line
  | .keyboard => .master 1
  | .rtc => .slave 0
  | .pit => .master 0

/-- The priority, from the highest. -/
def level (irq : Irq) : Nat := (irqLine irq).level link

theorem lineOf_irqNumber (irq : Irq) : lineOf (irqNumber irq) = some (irqLine irq) := by
  cases irq with
  | keyboard => rfl
  | rtc => rfl
  | pit => rfl

end Ece391.I8259
