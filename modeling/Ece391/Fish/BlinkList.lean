/-
# Ece391.Fish.BlinkList — the list of blinking characters.

`Listed s l` says that the list from `mp1_list_head` is finite and visits the slots `l`, none of them twice;
the loops over it are then functions of `l`.  `Effect` is what an operation does to the list, and
`Listed.run_effect` that every operation returns and does one of these things.

A slot whose `location` is 0 is free for `mp1_malloc`.  While the unlisted slots have location 0 (`Tidy`) the
slot it returns is on the list exactly if it is the slot of an entry in the top left corner, which happens when
no slot in front of that entry's is free.  `never_cyclic_iff` is the exact condition, for whole runs.
-/
import Ece391.Fish.Blink
import Ece391.Lib.Transition

open Ece391.Lib

namespace Ece391.Fish

namespace Blinkers

variable {s s' : Blinkers} {l : List Slot} {p q : Slot}

/-! ## The list -/

/-- **`Listed s l`** — the list visits the slots `l` and ends. -/
structure Listed (s : Blinkers) (l : List Slot) : Prop where
  chain : Chain s.next s.listHead l
  nodup : l.Nodup

/-- **`Tidy s l`** — the slots off the list are free for the allocator. -/
structure Tidy (s : Blinkers) (l : List Slot) : Prop extends Listed s l where
  free : ∀ p, p ∉ l → (s.blinkArray p).location = 0

/-- The slot is on the list. -/
def OnList (s : Blinkers) (p : Slot) : Prop := ∃ l, Listed s l ∧ p ∈ l

theorem Listed.unique {l' : List Slot} (h : Listed s l) (h' : Listed s l') : l = l' :=
  h.chain.unique h'.chain

theorem Listed.onList_iff (h : Listed s l) : OnList s p ↔ p ∈ l := by
  constructor
  · rintro ⟨l', h', hp⟩
    rwa [h.unique h']
  · exact fun hp => ⟨l, h, hp⟩

theorem Listed.length_le (h : Listed s l) : l.length ≤ numSlots := by
  have hcard := h.nodup.length_le_card
  rwa [Fintype.card_fin] at hcard

theorem start_tidy (vmem : Nat → UInt8) : Tidy (start vmem) [] where
  chain := rfl
  nodup := List.nodup_nil
  free _ _ := rfl

/-! ## The routines, on the list -/

/-- `mp1_malloc` returns the first slot with location 0. -/
theorem malloc_eq_some_iff :
    s.malloc = some p ↔ (s.blinkArray p).location = 0 ∧ ∀ q < p, (s.blinkArray q).location ≠ 0 := by
  rw [malloc, List.find?_eq_some_iff_getElem, beq_iff_eq]
  constructor
  · rintro ⟨hzero, i, hi, rfl, hbefore⟩
    refine ⟨hzero, fun q hq => ?_⟩
    have hqi : q.val < i := by simpa using Fin.lt_def.mp hq
    simpa using hbefore q.val hqi
  · rintro ⟨hzero, hbefore⟩
    refine ⟨hzero, p.val, by simp, by simp, fun j hj => ?_⟩
    have hne := hbefore ⟨j, hj.trans p.isLt⟩ (Fin.lt_def.mpr hj)
    simpa using hne

theorem Listed.findHelper_eq (h : Listed s l) (location : BitVec 16) :
    s.findHelper location = some (l.find? fun p => (s.blinkArray p).location == location) :=
  findFrom_eq _ h.chain h.length_le

/-- What a turn of the tasklet does to its entry: it only counts down, or the character changes and so does
the low bit of STATUS. -/
theorem turn_cases (s : Blinkers) (p : Slot) :
    (∃ countdown, s.turn p =
      { s with blinkArray := Function.update s.blinkArray p { s.blinkArray p with countdown := countdown } }) ∨
    ∃ countdown, s.turn p =
      { s.poke (if (s.blinkArray p).isOn then (s.blinkArray p).offChar else (s.blinkArray p).onChar)
          (s.blinkArray p).offset with
        blinkArray := Function.update s.blinkArray p
          { s.blinkArray p with countdown := countdown, status := (s.blinkArray p).status ^^^ 1 } } := by
  by_cases hcount : 0 < ((s.blinkArray p).countdown - 1).toInt
  · refine .inl ⟨(s.blinkArray p).countdown - 1, ?_⟩
    simp only [turn, if_pos hcount]
  · refine .inr ⟨if (s.blinkArray p).isOn then (s.blinkArray p).offLength else (s.blinkArray p).onLength, ?_⟩
    simp only [turn, if_neg hcount]

theorem turn_next (s : Blinkers) (p : Slot) : (s.turn p).next = s.next := by
  obtain ⟨countdown, heq⟩ | ⟨countdown, heq⟩ := s.turn_cases p
  · rw [heq]
  · rw [heq, poke]

theorem turn_listHead (s : Blinkers) (p : Slot) : (s.turn p).listHead = s.listHead := by
  obtain ⟨countdown, heq⟩ | ⟨countdown, heq⟩ := s.turn_cases p
  · rw [heq]
  · rw [heq, poke]

theorem turn_location (s : Blinkers) (p q : Slot) :
    ((s.turn p).blinkArray q).location = (s.blinkArray q).location := by
  obtain ⟨countdown, heq⟩ | ⟨countdown, heq⟩ := s.turn_cases p
  all_goals
    rw [heq]
    by_cases hq : q = p
    · subst hq
      simp
    · simp [hq]

theorem Listed.turn (h : Listed s l) (p : Slot) : Listed (s.turn p) l where
  chain := by
    rw [turn_next, turn_listHead]
    exact h.chain
  nodup := h.nodup

theorem taskletLoop_eq {head : Option Slot} (h : Chain s.next head l) {fuel : Nat} (hfuel : l.length ≤ fuel) :
    taskletLoop fuel head s = some (l.foldl Blinkers.turn s) := by
  induction l generalizing s head fuel with
  | nil =>
      rw [chain_nil] at h
      subst h
      cases fuel <;> rfl
  | cons p l ih =>
      obtain ⟨rfl, hrest⟩ := h
      cases fuel with
      | zero => simp at hfuel
      | succ fuel =>
          have hnext : Chain (s.turn p).next ((s.turn p).next p) l := by rwa [turn_next]
          rw [taskletLoop, ih hnext (by simpa using hfuel), List.foldl_cons]

/-- The tasklet takes each entry of the list in turn. -/
theorem Listed.tasklet_eq (h : Listed s l) : s.tasklet = some (l.foldl Blinkers.turn s) :=
  taskletLoop_eq h.chain h.length_le

/-- A property of the entries that each turn keeps is kept by the tasklet. -/
theorem foldl_turn {P : Blinkers → Prop} (hs : P s) {ps : List Slot}
    (hturn : ∀ s, P s → ∀ p ∈ ps, P (s.turn p)) : P (ps.foldl Blinkers.turn s) := by
  induction ps generalizing s with
  | nil => exact hs
  | cons p ps ih =>
      apply ih (hturn s hs p List.mem_cons_self)
      exact fun s hs q hq => hturn s hs q (List.mem_cons_of_mem p hq)

theorem Listed.insert (h : Listed s l) (hp : p ∉ l) (b : Blink) : Listed (s.insert p b) (p :: l) where
  chain := h.chain.push hp
  nodup := List.nodup_cons.mpr ⟨hp, h.nodup⟩

theorem Listed.ioctlSync_eq (h : Listed s l) (arg : BitVec 32) :
    s.ioctlSync arg = some
      (match l.find? fun p => (s.blinkArray p).location == (arg >>> 16).setWidth 16,
          l.find? fun p => (s.blinkArray p).location == (arg &&& 0xFFFF).setWidth 16 with
        | some esi, some edi => ((s.syncCopy esi edi).syncDisplay edi, 0)
        | _, _ => (s, -1)) := by
  rw [ioctlSync, h.findHelper_eq, h.findHelper_eq]
  cases l.find? fun p => (s.blinkArray p).location == (arg >>> 16).setWidth 16 with
  | none => rfl
  | some esi =>
      cases l.find? fun p => (s.blinkArray p).location == (arg &&& 0xFFFF).setWidth 16 with
      | none => rfl
      | some edi => rfl

theorem Listed.ioctlRemove_eq {l₁ l₂ : List Slot} (h : Listed s (l₁ ++ p :: l₂)) {arg : BitVec 32}
    (hfind : s.findHelper (arg.setWidth 16) = some (some p)) :
    s.ioctlRemove arg = some ((s.unlink (lastCell none l₁) p).free p, 0) := by
  have hout : p ∉ l₁ := fun hin => (List.nodup_append.mp h.nodup).2.2 p hin p List.mem_cons_self rfl
  have hlength := h.length_le
  rw [List.length_append, List.length_cons] at hlength
  have hcell : findCell s.listHead s.next p numSlots none = some (some (lastCell none l₁)) :=
    findCell_eq h.chain hout (by omega)
  simp only [ioctlRemove, hfind, hcell]

theorem Listed.unlink_free {l₁ l₂ : List Slot} (h : Listed s (l₁ ++ p :: l₂)) :
    Listed ((s.unlink (lastCell none l₁) p).free p) (l₁ ++ l₂) := by
  have hnd := List.nodup_cons.mp (List.nodup_middle.mp h.nodup)
  refine ⟨(h.chain.unlinkCell h.nodup).congr fun q hq => Function.update_of_ne ?_ _ _, hnd.2⟩
  rintro rfl
  exact hnd.1 hq

/-! ## The operations -/

/-- **`Effect s l op s' l'`** — what an operation can do to the entries `l` of the list. -/
inductive Effect (s : Blinkers) (l : List Slot) : Op → Blinkers → List Slot → Prop
  /-- A call that fails, or `find`. -/
  | stays (op : Op) : Effect s l op s l
  | adds {user : Blink} {p : Slot} (hlocation : user.location.toNat < 80 * 25) (hmalloc : s.malloc = some p) :
      Effect s l (.add user) (s.insert p (marked user)) (p :: l)
  | removes {arg : BitVec 32} {p : Slot} {l₁ l₂ : List Slot} (hl : l = l₁ ++ p :: l₂) :
      Effect s l (.remove arg) ((s.unlink (lastCell none l₁) p).free p) (l₁ ++ l₂)
  | syncs {arg : BitVec 32} {esi edi : Slot} (hesi : esi ∈ l) (hedi : edi ∈ l)
      (hhigh : (s.blinkArray esi).location = (arg >>> 16).setWidth 16)
      (hlow : (s.blinkArray edi).location = (arg &&& 0xFFFF).setWidth 16) :
      Effect s l (.sync arg) ((s.syncCopy esi edi).syncDisplay edi) l
  | ticks : Effect s l .tasklet (l.foldl Blinkers.turn s) l

theorem does_add {user : Blink} (hlocation : user.location.toNat < 80 * 25) (hmalloc : s.malloc = some p) :
    Does s (.add user) (s.insert p (marked user)) := by
  simp only [Does, run, ioctlAdd, if_neg (Nat.not_le_of_lt hlocation), hmalloc]

/-- **Over a finite list every operation returns.** -/
theorem Listed.run_effect (h : Listed s l) (op : Op) : ∃ s' l', Does s op s' ∧ Effect s l op s' l' := by
  cases op with
  | add user =>
      by_cases hlocation : 80 * 25 ≤ user.location.toNat
      · refine ⟨s, l, ?_, .stays _⟩
        rw [Does, run, ioctlAdd, if_pos hlocation]
      · cases hmalloc : s.malloc with
        | none =>
            refine ⟨s, l, ?_, .stays _⟩
            simp only [Does, run, ioctlAdd, if_neg hlocation, hmalloc]
        | some p =>
            have hlt := Nat.lt_of_not_le hlocation
            exact ⟨_, _, does_add hlt hmalloc, .adds hlt hmalloc⟩
  | remove arg =>
      have hfind := h.findHelper_eq (arg.setWidth 16)
      cases hfound : l.find? fun p => (s.blinkArray p).location == arg.setWidth 16 with
      | none =>
          refine ⟨s, l, ?_, .stays _⟩
          rw [hfound] at hfind
          simp only [Does, run, ioctlRemove, hfind, Option.map_some]
      | some p =>
          rw [hfound] at hfind
          obtain ⟨l₁, l₂, rfl⟩ := List.append_of_mem (List.mem_of_find?_eq_some hfound)
          refine ⟨_, _, ?_, .removes rfl⟩
          rw [Does, run, h.ioctlRemove_eq hfind, Option.map_some]
  | find location =>
      refine ⟨s, l, ?_, .stays _⟩
      have hfind := h.findHelper_eq location
      rw [Does, run, ioctlFind, hfind]
      cases l.find? fun p => (s.blinkArray p).location == location with
      | none => rfl
      | some p => rfl
  | sync arg =>
      have hsync := h.ioctlSync_eq arg
      cases hesi : l.find? fun p => (s.blinkArray p).location == (arg >>> 16).setWidth 16 with
      | none =>
          refine ⟨s, l, ?_, .stays _⟩
          simp only [Does, run, hsync, hesi, Option.map_some]
      | some esi =>
          cases hedi : l.find? fun p => (s.blinkArray p).location == (arg &&& 0xFFFF).setWidth 16 with
          | none =>
              refine ⟨s, l, ?_, .stays _⟩
              simp only [Does, run, hsync, hesi, hedi, Option.map_some]
          | some edi =>
              refine ⟨_, _, ?_, .syncs (List.mem_of_find?_eq_some hesi) (List.mem_of_find?_eq_some hedi)
                (by simpa using List.find?_some hesi) (by simpa using List.find?_some hedi)⟩
              simp only [Does, run, hsync, hesi, hedi, Option.map_some]
  | tasklet => exact ⟨_, _, h.tasklet_eq, .ticks⟩

/-- **`AllocatesFresh s op`** — the operation is given no slot that is on the list. -/
def AllocatesFresh (s : Blinkers) (op : Op) : Prop :=
  ∀ user p, op = .add user → user.location.toNat < 80 * 25 → s.malloc = some p → ¬ s.OnList p

/-- The operations keep the list in order, as long as no listed slot is taken for a free one. -/
theorem Effect.tidy {l' : List Slot} {op : Op} (he : Effect s l op s' l') (h : Tidy s l)
    (hfresh : AllocatesFresh s op) : Tidy s' l' := by
  cases he with
  | stays => exact h
  | @adds user p hlocation hmalloc =>
      have hp : p ∉ l := fun hin => hfresh user p rfl hlocation hmalloc (h.onList_iff.mpr hin)
      refine ⟨h.toListed.insert hp _, fun q hq => ?_⟩
      rw [List.mem_cons, not_or] at hq
      show (Function.update s.blinkArray p _ q).location = 0
      rw [Function.update_of_ne hq.1]
      exact h.free q hq.2
  | @removes arg p l₁ l₂ hl =>
      subst hl
      refine ⟨h.toListed.unlink_free, fun q hq => ?_⟩
      show (Function.update s.blinkArray p Blink.zero q).location = 0
      by_cases hqp : q = p
      · rw [hqp, Function.update_self]
        rfl
      · rw [Function.update_of_ne hqp]
        apply h.free
        rw [List.mem_append, not_or] at hq
        rw [List.mem_append, List.mem_cons]
        tauto
  | @syncs arg esi edi hesi hedi hhigh hlow =>
      refine ⟨⟨h.chain, h.nodup⟩, fun q hq => ?_⟩
      show (Function.update s.blinkArray edi _ q).location = 0
      rw [Function.update_of_ne (by rintro rfl; exact hq hedi)]
      exact h.free q hq
  | ticks =>
      refine foldl_turn (P := fun s => Tidy s l) h fun s hs p _ => ⟨hs.toListed.turn p, fun q hq => ?_⟩
      rw [turn_location]
      exact hs.free q hq

/-- **The entries stay where they are**: what is on the list after an operation is the structure just added,
or was on it before, at the same location. -/
theorem Effect.location {l' : List Slot} {op : Op} (he : Effect s l op s' l') (h : Tidy s l) (hq : q ∈ l') :
    (∃ user, op = .add user ∧ (s'.blinkArray q).location = user.location) ∨
      q ∈ l ∧ (s'.blinkArray q).location = (s.blinkArray q).location := by
  cases he with
  | stays => exact .inr ⟨hq, rfl⟩
  | @adds user p hlocation hmalloc =>
      show (∃ _, _ ∧ (Function.update s.blinkArray p (marked user) q).location = _) ∨
        q ∈ l ∧ (Function.update s.blinkArray p (marked user) q).location = _
      by_cases hqp : q = p
      · rw [hqp, Function.update_self]
        exact .inl ⟨user, rfl, rfl⟩
      · rw [Function.update_of_ne hqp]
        exact .inr ⟨List.mem_of_ne_of_mem hqp hq, rfl⟩
  | @removes arg p l₁ l₂ hl =>
      subst hl
      obtain ⟨hqp, hin⟩ := (mem_unlinked h.nodup q).mp hq
      refine .inr ⟨hin, ?_⟩
      show (Function.update s.blinkArray p Blink.zero q).location = _
      rw [Function.update_of_ne hqp]
  | @syncs arg esi edi hesi hedi hhigh hlow =>
      refine .inr ⟨hq, ?_⟩
      show (Function.update s.blinkArray edi _ q).location = _
      by_cases hqe : q = edi
      · subst hqe
        rw [Function.update_self]
        rfl
      · rw [Function.update_of_ne hqe]
  | ticks =>
      refine .inr ⟨hq, foldl_turn (P := fun t => (t.blinkArray q).location = (s.blinkArray q).location) rfl ?_⟩
      intro t ht p _
      rwa [turn_location]

/-- A step of a tidy state, by its effect. -/
theorem Tidy.does (h : Tidy s l) {op : Op} (hs : Does s op s') : ∃ l', Effect s l op s' l' := by
  obtain ⟨t, l', ht, he⟩ := h.toListed.run_effect op
  obtain rfl : s' = t := Option.some.inj (hs.symm.trans ht)
  exact ⟨l', he⟩

/-! ## The main result -/

/-- **`Acyclic s`** — the list is finite, its entries are distinct slots, and so every loop over it ends: every
operation returns. -/
def Acyclic (s : Blinkers) : Prop := (∃ l, Listed s l) ∧ ∀ op, ∃ s', Does s op s'

/-- **`AddsSafely s op`** — the operation adds no structure while an entry has location 0 and all slots in
front of that entry's are on the list. -/
def AddsSafely (s : Blinkers) (op : Op) : Prop :=
  ∀ user, op = .add user → user.location.toNat < 80 * 25 →
    ∀ p, s.OnList p → (s.blinkArray p).location = 0 → ∃ q < p, ¬ s.OnList q

theorem Listed.acyclic (h : Listed s l) : Acyclic s := by
  refine ⟨⟨l, h⟩, fun op => ?_⟩
  obtain ⟨s', l', hs, -⟩ := h.run_effect op
  exact ⟨s', hs⟩

/-- **When the allocator returns a free slot.** -/
theorem Tidy.allocatesFresh_iff (h : Tidy s l) (op : Op) : AllocatesFresh s op ↔ AddsSafely s op := by
  constructor
  · intro hfresh user hop hlocation p hp hzero
    by_contra hall
    push Not at hall
    -- the first slot with location 0 is this one or one in front of it
    have hsome : s.malloc.isSome := List.find?_isSome.mpr ⟨p, List.mem_finRange p, by simpa using hzero⟩
    obtain ⟨m, hm⟩ := Option.isSome_iff_exists.mp hsome
    obtain ⟨-, hfirst⟩ := malloc_eq_some_iff.mp hm
    refine hfresh user m hop hlocation hm ?_
    rcases lt_trichotomy m p with hlt | rfl | hgt
    · exact hall m hlt
    · exact hp
    · exact absurd hzero (hfirst p hgt)
  · intro hsafe user p hop hlocation hmalloc hp
    obtain ⟨hzero, hfirst⟩ := malloc_eq_some_iff.mp hmalloc
    obtain ⟨q, hq, hfree⟩ := hsafe user hop hlocation p hp hzero
    exact hfirst q hq (h.free q fun hin => hfree (h.onList_iff.mpr hin))

/-- **When the list never becomes cyclic.**  For every sequence of operations from an empty list and a zeroed
array: in every state reached the list is finite, its nodes are distinct slots and all loops end, and no
structure is given a slot that is on the list, exactly if no structure is added while an entry of location 0
stands behind nothing but listed slots. -/
theorem never_cyclic_iff (vmem : Nat → UInt8) (ops : List Op) :
    AllStates Does Acyclic (start vmem) ops ∧ AllSteps Does AllocatesFresh (start vmem) ops ↔
      AllSteps Does AddsSafely (start vmem) ops := by
  refine allStates_and_allSteps_iff (I := fun s => ∃ l, Tidy s l) ?_ ?_ ⟨[], start_tidy vmem⟩
    (start_tidy vmem).acyclic allSteps_true
  · rintro s op s' ⟨l, hl⟩ - - hfresh hs -
    obtain ⟨l', he⟩ := hl.does hs
    exact ⟨l', he.tidy hl hfresh⟩
  · rintro s op ⟨l, hl⟩ - -
    rw [hl.allocatesFresh_iff op, and_iff_left_iff_imp]
    intro hsafe s' hs
    obtain ⟨l', he⟩ := hl.does hs
    exact (he.tidy hl ((hl.allocatesFresh_iff op).mpr hsafe)).acyclic

/-- A structure without characters at a location. -/
def blinkAt (location : BitVec 16) : Blink := { Blink.zero with location := location }

/-- **The top left corner twice**: the second structure is given the slot of the first, which becomes its own
successor. -/
theorem corner_slot_reused :
    (blinkAt 0).location.toNat < 80 * 25 ∧ (blinkAt 5).location.toNat < 80 * 25 ∧
    ¬AllSteps Does AllocatesFresh (start fun _ => 0) [.add (blinkAt 0), .add (blinkAt 5)] := by
  have hlow : (blinkAt 0).location.toNat < 80 * 25 := by decide
  refine ⟨hlow, by decide, fun hfresh => ?_⟩
  have hfirst : (start fun _ => 0).malloc = some 0 :=
    malloc_eq_some_iff.mpr ⟨rfl, fun q hq => absurd hq (Fin.not_lt_zero q)⟩
  have hlisted : Listed ((start fun _ => 0).insert 0 (marked (blinkAt 0))) [0] :=
    (start_tidy _).toListed.insert List.not_mem_nil _
  have hsecond : ((start fun _ => 0).insert 0 (marked (blinkAt 0))).malloc = some 0 :=
    malloc_eq_some_iff.mpr ⟨rfl, fun q hq => absurd hq (Fin.not_lt_zero q)⟩
  exact hfresh [.add (blinkAt 0)] (.add (blinkAt 5)) [] _ rfl ⟨_, does_add hlow hfirst, rfl⟩ (blinkAt 5) 0 rfl
    (by decide) hsecond (hlisted.onList_iff.mpr (List.mem_singleton.mpr rfl))

/-! ## Runs that leave the corner alone -/

/-- No entry is in the top left corner. -/
def OffCorner (s : Blinkers) (l : List Slot) : Prop := ∀ p ∈ l, (s.blinkArray p).location ≠ 0

/-- Then a slot with location 0 is a free one. -/
theorem Tidy.allocatesFresh (h : Tidy s l) (hcorner : OffCorner s l) (op : Op) : AllocatesFresh s op :=
  fun _ p _ _ hmalloc hp => hcorner p (h.onList_iff.mp hp) (malloc_eq_some_iff.mp hmalloc).1

theorem Effect.offCorner {l' : List Slot} {op : Op} (he : Effect s l op s' l') (h : Tidy s l)
    (hcorner : OffCorner s l) (hop : ∀ user, op = .add user → user.location ≠ 0) : OffCorner s' l' := by
  intro q hq
  obtain ⟨user, hadd, hlocation⟩ | ⟨hin, hlocation⟩ := he.location h hq
  · rw [hlocation]
    exact hop user hadd
  · rw [hlocation]
    exact hcorner q hin

/-- **A run that adds nothing in the top left corner meets the condition.** -/
theorem addsSafely_of_ne_zero (vmem : Nat → UInt8) {ops : List Op}
    (hops : ∀ user, .add user ∈ ops → user.location ≠ 0) : AllSteps Does AddsSafely (start vmem) ops := by
  intro before op after s hbefore hrun
  have hlabels : AllSteps Does (fun _ op => ∀ user, op = .add user → user.location ≠ 0) (start vmem) before :=
    allSteps_of_mem fun a ha user hadd => hops user (by
      rw [hbefore, ← hadd]
      exact List.mem_append_left _ ha)
  obtain ⟨l, h, hcorner⟩ := (hrun.restrict_of_allSteps hlabels).invariant
    (I := fun s => ∃ l, Tidy s l ∧ OffCorner s l) ⟨[], start_tidy vmem, nofun⟩ (by
      rintro s op s' ⟨l, h, hcorner⟩ ⟨hop, hs⟩
      obtain ⟨l', he⟩ := h.does hs
      exact ⟨l', he.tidy h (h.allocatesFresh hcorner op), he.offCorner h hcorner hop⟩)
  exact fun user _ _ p hp hzero => absurd hzero (hcorner p (h.onList_iff.mp hp))

end Blinkers

end Ece391.Fish
