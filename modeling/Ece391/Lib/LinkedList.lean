/-
# Ece391.Lib.LinkedList — singly linked lists with the links in the nodes.

A list is a head pointer and a `next` pointer in every node; `Chain next p l` says that following the
links from `p` visits exactly the nodes `l` and then ends.  The loops of C code over such lists are
written with fuel, `none` meaning that the fuel ran out while the loop was still going: a loop over
`n` nodes that is still going after `n` of them has come back to a node and never ends.

* `Chain.push`, `Chain.unlink` and `Chain.unlinkCell` — the splices, on the links;
* `walk_eq`, `findFrom_eq`, `findCell_eq` — each loop in terms of the list it runs over;
* `Filed` — several lists over one set of nodes, every node recording the list it is on, kept by both
  splices.

Nothing here names a program: the nodes are of an arbitrary type.
-/
import Mathlib.Logic.Function.Basic
import Mathlib.Data.List.Nodup
import Mathlib.Tactic.Common

namespace Ece391.Lib

variable {α : Type*}

/-! ## Chains -/

/-- **`Chain next p l`** — the links from `p` visit the nodes `l` in order and end. -/
def Chain (next : α → Option α) (p : Option α) : List α → Prop
  | [] => p = none
  | a :: l => p = some a ∧ Chain next (next a) l

@[simp] theorem chain_nil {next : α → Option α} {p : Option α} : Chain next p [] ↔ p = none := Iff.rfl

@[simp] theorem chain_cons {next : α → Option α} {p : Option α} {a : α} {l : List α} :
    Chain next p (a :: l) ↔ p = some a ∧ Chain next (next a) l := Iff.rfl

/-- A chain depends on the links of its own nodes only. -/
theorem Chain.congr {next next' : α → Option α} {p : Option α} {l : List α} (h : Chain next p l)
    (hnext : ∀ a ∈ l, next' a = next a) : Chain next' p l := by
  induction l generalizing p with
  | nil => exact h
  | cons a l ih =>
      obtain ⟨hp, hrest⟩ := h
      refine ⟨hp, ?_⟩
      rw [hnext a List.mem_cons_self]
      exact ih hrest fun b hb => hnext b (List.mem_cons_of_mem a hb)

/-- The links determine the nodes. -/
theorem Chain.unique {next : α → Option α} {p : Option α} {l l' : List α} (h : Chain next p l)
    (h' : Chain next p l') : l = l' := by
  induction l generalizing p l' with
  | nil =>
      rw [chain_nil] at h
      subst h
      cases l' with
      | nil => rfl
      | cons b l' => cases h'.1
  | cons a l ih =>
      obtain ⟨rfl, hrest⟩ := h
      cases l' with
      | nil => cases h'
      | cons b l' =>
          obtain ⟨hab, hrest'⟩ := h'
          obtain rfl := Option.some.inj hab
          rw [ih hrest hrest']

/-! ## The splices -/

/-- The first node taken out: the head pointer takes over its link. -/
theorem Chain.unlink_head {next : α → Option α} {p : Option α} {l : List α} {a : α}
    (h : Chain next p (a :: l)) : Chain next (next a) l := h.2

section Splice

variable [DecidableEq α]

/-- A new node in front. -/
theorem Chain.push {next : α → Option α} {p : Option α} {l : List α} (h : Chain next p l) {a : α}
    (ha : a ∉ l) : Chain (Function.update next a p) (some a) (a :: l) := by
  refine ⟨rfl, ?_⟩
  rw [Function.update_self]
  refine h.congr fun b hb => Function.update_of_ne ?_ _ _
  rintro rfl
  exact ha hb

/-- A later node taken out: the node before takes over its link. -/
theorem Chain.unlink {next : α → Option α} {p : Option α} {l₁ l₂ : List α} {a b : α}
    (h : Chain next p (l₁ ++ b :: a :: l₂)) (hnd : (l₁ ++ b :: a :: l₂).Nodup) :
    Chain (Function.update next b (next a)) p (l₁ ++ b :: l₂) := by
  induction l₁ generalizing p with
  | nil =>
      obtain ⟨hp, -, hrest⟩ := h
      refine ⟨hp, ?_⟩
      rw [Function.update_self]
      refine hrest.congr fun c hc => Function.update_of_ne ?_ _ _
      rintro rfl
      simp [hc] at hnd
  | cons c l₁ ih =>
      obtain ⟨hp, hrest⟩ := h
      rw [List.cons_append, List.nodup_cons] at hnd
      have hne : c ≠ b := by
        rintro rfl
        exact hnd.1 (List.mem_append_right l₁ List.mem_cons_self)
      refine ⟨hp, ?_⟩
      rw [Function.update_of_ne hne]
      exact ih hrest hnd.2

end Splice

/-! ## The loops -/

/-- Follow the links to the end. -/
def walk (next : α → Option α) : Nat → Option α → Option (List α)
  | _, none => some []
  | 0, some _ => none
  | n + 1, some a => (walk next n (next a)).map (a :: ·)

theorem walk_eq {next : α → Option α} {p : Option α} {l : List α} (h : Chain next p l) {n : Nat}
    (hn : l.length ≤ n) : walk next n p = some l := by
  induction l generalizing p n with
  | nil =>
      rw [chain_nil] at h
      subst h
      cases n <;> rfl
  | cons a l ih =>
      obtain ⟨rfl, hrest⟩ := h
      cases n with
      | zero => simp at hn
      | succ n => rw [walk, ih hrest (by simpa using hn), Option.map_some]

/-- `for (a = p; NULL != a; a = a->next) if (test (a)) return a;` and NULL at the end. -/
def findFrom (next : α → Option α) (test : α → Bool) : Nat → Option α → Option (Option α)
  | _, none => some none
  | 0, some _ => none
  | n + 1, some a => if test a then some (some a) else findFrom next test n (next a)

theorem findFrom_eq {next : α → Option α} (test : α → Bool) {p : Option α} {l : List α}
    (h : Chain next p l) {n : Nat} (hn : l.length ≤ n) :
    findFrom next test n p = some (l.find? test) := by
  induction l generalizing p n with
  | nil =>
      rw [chain_nil] at h
      subst h
      cases n <;> rfl
  | cons a l ih =>
      obtain ⟨rfl, hrest⟩ := h
      cases n with
      | zero => simp at hn
      | succ n =>
          rw [findFrom, ih hrest (by simpa using hn), List.find?_cons]
          cases test a <;> rfl

section FindCell

variable [DecidableEq α]

/-- The pointer in a cell: `none` is the head pointer's cell, `some b` the link of `b`. -/
def cellAt (head : Option α) (next : α → Option α) : Option α → Option α
  | none => head
  | some b => next b

/-- The loop over pointers to pointers that looks for the cell holding `a`; the inner `none` is the end
of the list. -/
def findCell (head : Option α) (next : α → Option α) (a : α) :
    Nat → Option α → Option (Option (Option α))
  | n, c =>
    match n, cellAt head next c with
    | _, none => some none
    | 0, some _ => none
    | n + 1, some b => if a = b then some (some c) else findCell head next a n (some b)

/-- The cell reached from `c` by passing over the nodes `l`. -/
def lastCell : Option α → List α → Option α
  | c, [] => c
  | _, b :: l => lastCell (some b) l

omit [DecidableEq α] in
theorem lastCell_append (c : Option α) (l : List α) (b : α) : lastCell c (l ++ [b]) = some b := by
  induction l generalizing c with
  | nil => rfl
  | cons d l ih => exact ih (some d)

/-- The cell found is that of the node before. -/
theorem findCell_eq {head : Option α} {next : α → Option α} {a : α} {l₁ l₂ : List α} {c : Option α}
    (h : Chain next (cellAt head next c) (l₁ ++ a :: l₂)) (ha : a ∉ l₁) {n : Nat}
    (hn : l₁.length < n) : findCell head next a n c = some (some (lastCell c l₁)) := by
  induction l₁ generalizing c n with
  | nil =>
      obtain ⟨hp, -⟩ := h
      cases n with
      | zero => simp at hn
      | succ n =>
          unfold findCell
          rw [hp]
          simp only [if_true]
          rfl
  | cons b l₁ ih =>
      obtain ⟨hp, hrest⟩ := h
      rw [List.mem_cons, not_or] at ha
      cases n with
      | zero => simp at hn
      | succ n =>
          have hnext := ih (c := some b) hrest ha.2 (by simpa using hn)
          unfold findCell
          rw [hp]
          simp only [if_neg ha.1, hnext]
          rfl

/-! ## Stores through a cell -/

/-- The head pointer after a store through a cell. -/
def headAfter (head v : Option α) : Option α → Option α
  | none => v
  | some _ => head

/-- The links after a store through a cell. -/
def storeNext (next : α → Option α) (v : Option α) : Option α → α → Option α
  | none => next
  | some b => Function.update next b v

/-- **A node is taken out through its cell**, wherever in the list it is. -/
theorem Chain.unlinkCell {head : Option α} {next : α → Option α} {l₁ l₂ : List α} {a : α}
    (h : Chain next head (l₁ ++ a :: l₂)) (hnd : (l₁ ++ a :: l₂).Nodup) :
    Chain (storeNext next (next a) (lastCell none l₁)) (headAfter head (next a) (lastCell none l₁))
      (l₁ ++ l₂) := by
  rcases List.eq_nil_or_concat l₁ with rfl | ⟨l, b, rfl⟩
  · exact h.unlink_head
  · rw [List.concat_eq_append] at h hnd ⊢
    rw [lastCell_append]
    rw [List.append_assoc] at h hnd ⊢
    exact h.unlink hnd

end FindCell

/-! ## Several lists over one set of nodes -/

/-- What is left of a list without repetitions when one node is taken out. -/
theorem mem_unlinked {l₁ l₂ : List α} {a : α} (hnd : (l₁ ++ a :: l₂).Nodup) (b : α) :
    b ∈ l₁ ++ l₂ ↔ b ≠ a ∧ b ∈ l₁ ++ a :: l₂ := by
  rw [List.nodup_middle, List.nodup_cons] at hnd
  rw [List.mem_append, List.mem_append, List.mem_cons]
  constructor
  · intro hb
    have hne : b ≠ a := by
      rintro rfl
      exact hnd.1 (List.mem_append.mpr hb)
    refine ⟨hne, ?_⟩
    rcases hb with hb | hb
    · exact Or.inl hb
    · exact Or.inr (Or.inr hb)
  · rintro ⟨hne, hb | hb | hb⟩
    · exact Or.inl hb
    · exact absurd hb hne
    · exact Or.inr hb

section Filed

variable {ρ : Type*}

/-- **`Filed head next loc`** — each list is finite and free of repetitions, and holds exactly the nodes
that record it as theirs. -/
def Filed (head : ρ → Option α) (next : α → Option α) (loc : α → Option ρ) : Prop :=
  ∀ r, ∃ l, Chain next (head r) l ∧ l.Nodup ∧ ∀ a, a ∈ l ↔ loc a = some r

variable [DecidableEq α] [DecidableEq ρ] {head : ρ → Option α} {next : α → Option α}
  {loc : α → Option ρ}

/-- The head pointers after a store through a cell of list `r`. -/
def storeHead (head : ρ → Option α) (r : ρ) (v : Option α) : Option α → ρ → Option α
  | none => Function.update head r v
  | some _ => head

omit [DecidableEq α] in
theorem storeHead_self (head : ρ → Option α) (r : ρ) (v c : Option α) :
    storeHead head r v c r = headAfter (head r) v c := by
  cases c with
  | none => exact Function.update_self r v head
  | some b => rfl

/-- **A node goes on a list** that was on none. -/
theorem Filed.push (h : Filed head next loc) {a : α} (ha : loc a = none) (r : ρ) :
    Filed (Function.update head r (some a)) (Function.update next a (head r))
      (Function.update loc a (some r)) := by
  intro r'
  obtain ⟨l, hchain, hnd, hmem⟩ := h r'
  have hout : a ∉ l := by
    rw [hmem, ha]
    exact nofun
  by_cases hr : r' = r
  · subst hr
    refine ⟨a :: l, ?_, List.nodup_cons.mpr ⟨hout, hnd⟩, fun b => ?_⟩
    · rw [Function.update_self]
      exact hchain.push hout
    · by_cases hb : b = a
      · subst hb
        simp
      · rw [List.mem_cons, Function.update_of_ne hb, hmem]
        simp [hb]
  · refine ⟨l, ?_, hnd, fun b => ?_⟩
    · rw [Function.update_of_ne hr]
      refine hchain.congr fun b hb => Function.update_of_ne ?_ _ _
      rintro rfl
      exact hout hb
    · by_cases hb : b = a
      · subst hb
        rw [Function.update_self]
        exact iff_of_false hout fun heq => hr (Option.some.inj heq).symm
      · rw [Function.update_of_ne hb, hmem]

/-- **A node comes off its list**: the loop finds its cell, and the store through the cell takes it
out. -/
theorem Filed.unlink (h : Filed head next loc) {a : α} {r : ρ} (ha : loc a = some r) {n : Nat}
    (hn : ∀ l : List α, l.Nodup → l.length ≤ n) :
    ∃ c, findCell (head r) next a n none = some (some c) ∧
      Filed (storeHead head r (next a) c) (storeNext next (next a) c) (Function.update loc a none) := by
  obtain ⟨l, hchain, hnd, hmem⟩ := h r
  obtain ⟨l₁, l₂, rfl⟩ := List.append_of_mem ((hmem a).mpr ha)
  have hout : a ∉ l₁ := fun hin => (List.nodup_append.mp hnd).2.2 a hin a List.mem_cons_self rfl
  have hlen : l₁.length < n := by
    have := hn _ hnd
    rw [List.length_append, List.length_cons] at this
    omega
  refine ⟨lastCell none l₁, findCell_eq hchain hout hlen, fun r' => ?_⟩
  have hnd' : (l₁ ++ l₂).Nodup := (List.nodup_cons.mp (List.nodup_middle.mp hnd)).2
  have hmem' : ∀ b, b ∈ l₁ ++ l₂ ↔ Function.update loc a none b = some r := by
    intro b
    rw [mem_unlinked hnd b, hmem b]
    by_cases hb : b = a
    · subst hb
      simp
    · simp [hb]
  by_cases hr : r' = r
  · subst hr
    refine ⟨l₁ ++ l₂, ?_, hnd', hmem'⟩
    rw [storeHead_self]
    exact hchain.unlinkCell hnd
  · -- another list holds neither the node nor the one before it
    obtain ⟨l', hchain', hnd'', hmem''⟩ := h r'
    refine ⟨l', ?_, hnd'', fun b => ?_⟩
    · rcases List.eq_nil_or_concat l₁ with rfl | ⟨l, b, rfl⟩
      · show Chain next (Function.update head r (next a) r') l'
        rw [Function.update_of_ne hr]
        exact hchain'
      · rw [List.concat_eq_append, lastCell_append]
        refine hchain'.congr fun d hd => Function.update_of_ne ?_ _ _
        rintro rfl
        have hd' : loc d = some r := (hmem d).mp (by simp)
        rw [hmem'' d, hd'] at hd
        exact hr (Option.some.inj hd).symm
    · rw [hmem'' b]
      by_cases hb : b = a
      · subst hb
        rw [ha, Function.update_self]
        exact iff_of_false (fun heq => hr (Option.some.inj heq).symm) nofun
      · rw [Function.update_of_ne hb]

end Filed

end Ece391.Lib
