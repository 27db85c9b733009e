/-
# Ece391.Lib.Trace — programs and loops that log the memory accesses they make.

A straight-line program is a `Traced`: the state it leads to, and the accesses it makes on the way.  It is
put together by `seq`, `cond` and `each`; `Safe` is the triple for it, with a condition that every access
meets and one rule for each way to put programs together.

A loop is given by its `turn`: whether it goes on, the state after the turn, and the accesses of the turn.
The fuel bounds the number of turns, and a loop that has not come to its end by then has no result; so
`loop … = some r` says that the loop terminates, and `loop_mono` that the fuel plays no other part.
`loop_total` is the rule for them, with an invariant, a measure that decreases, and a condition that every
access of every turn meets.

Nothing here names a program.
-/
import Mathlib.Tactic.Common

namespace Ece391.Lib

variable {σ ι α : Type*}

/-! ## Straight-line programs -/

/-- **`Traced σ ι`** — a program on the states `σ` that makes accesses `ι`. -/
structure Traced (σ ι : Type*) where
  state : σ → σ
  log : σ → List ι

namespace Traced

/-- An assignment that makes none of the accesses logged. -/
def lift (f : σ → σ) : Traced σ ι := ⟨f, fun _ => []⟩

/-- Accesses that leave the state alone. -/
def access (touched : σ → List ι) : Traced σ ι := ⟨id, touched⟩

def skip : Traced σ ι := lift id

def andThen (p q : Traced σ ι) : Traced σ ι :=
  ⟨fun s => q.state (p.state s), fun s => p.log s ++ q.log (p.state s)⟩

/-- One program after the other. -/
def seq : List (Traced σ ι) → Traced σ ι
  | [] => skip
  | p :: ps => p.andThen (seq ps)

def cond (b : σ → Prop) [DecidablePred b] (p q : Traced σ ι) : Traced σ ι :=
  ⟨fun s => if b s then p.state s else q.state s, fun s => if b s then p.log s else q.log s⟩

/-- A loop over a list. -/
def each (xs : List α) (p : α → Traced σ ι) : Traced σ ι := seq (xs.map p)

@[simp] theorem state_lift (f : σ → σ) (s : σ) : (lift f : Traced σ ι).state s = f s := rfl
@[simp] theorem log_lift (f : σ → σ) (s : σ) : (lift f : Traced σ ι).log s = [] := rfl
@[simp] theorem state_access (touched : σ → List ι) (s : σ) : (access touched).state s = s := rfl
@[simp] theorem log_access (touched : σ → List ι) (s : σ) : (access touched).log s = touched s := rfl
@[simp] theorem state_skip (s : σ) : (skip : Traced σ ι).state s = s := rfl
@[simp] theorem log_skip (s : σ) : (skip : Traced σ ι).log s = [] := rfl
@[simp] theorem state_seq_nil (s : σ) : (seq [] : Traced σ ι).state s = s := rfl
@[simp] theorem log_seq_nil (s : σ) : (seq [] : Traced σ ι).log s = [] := rfl

@[simp] theorem state_seq_cons (p : Traced σ ι) (ps : List (Traced σ ι)) (s : σ) :
    (seq (p :: ps)).state s = (seq ps).state (p.state s) := rfl

@[simp] theorem log_seq_cons (p : Traced σ ι) (ps : List (Traced σ ι)) (s : σ) :
    (seq (p :: ps)).log s = p.log s ++ (seq ps).log (p.state s) := rfl

@[simp] theorem state_cond (b : σ → Prop) [DecidablePred b] (p q : Traced σ ι) (s : σ) :
    (cond b p q).state s = if b s then p.state s else q.state s := rfl

@[simp] theorem log_cond (b : σ → Prop) [DecidablePred b] (p q : Traced σ ι) (s : σ) :
    (cond b p q).log s = if b s then p.log s else q.log s := rfl

theorem state_each (xs : List α) (p : α → Traced σ ι) (s : σ) :
    (each xs p).state s = xs.foldl (fun s x => (p x).state s) s := by
  induction xs generalizing s with
  | nil => rfl
  | cons x xs ih => exact ih ((p x).state s)

/-- **`Safe P ok Q p`** — from a state with `P`, the program leads to one with `Q` and every access it
makes is `ok`. -/
def Safe (P : σ → Prop) (ok : ι → Prop) (Q : σ → Prop) (p : Traced σ ι) : Prop :=
  ∀ s, P s → Q (p.state s) ∧ ∀ a ∈ p.log s, ok a

section Rules

variable {P Q R I : σ → Prop} {ok : ι → Prop} {p q : Traced σ ι}

theorem Safe.lift {f : σ → σ} (h : ∀ s, P s → Q (f s)) : Safe P ok Q (lift f) := fun s hs =>
  ⟨h s hs, fun _ ha => absurd ha List.not_mem_nil⟩

theorem Safe.skip : Safe P ok P skip := .lift fun _ hs => hs

theorem Safe.access {touched : σ → List ι} (h : ∀ s, P s → ∀ a ∈ touched s, ok a) :
    Safe P ok P (access touched) := fun s hs => ⟨hs, h s hs⟩

theorem Safe.andThen (hp : Safe P ok Q p) (hq : Safe Q ok R q) : Safe P ok R (p.andThen q) := by
  intro s hs
  obtain ⟨hQ, hlog⟩ := hp s hs
  obtain ⟨hR, hlog'⟩ := hq _ hQ
  refine ⟨hR, fun a ha => ?_⟩
  rcases List.mem_append.mp ha with ha | ha
  · exact hlog a ha
  · exact hlog' a ha

theorem Safe.nil (h : ∀ s, P s → Q s) : Safe P ok Q (seq []) := .lift h

theorem Safe.cons {ps : List (Traced σ ι)} (hp : Safe P ok Q p) (hps : Safe Q ok R (seq ps)) :
    Safe P ok R (seq (p :: ps)) := hp.andThen hps

/-- An assignment, with the accesses it makes. -/
theorem Safe.touch {touched : σ → List ι} {f : σ → σ} (hlog : ∀ s, P s → ∀ a ∈ touched s, ok a)
    (hf : ∀ s, P s → Q (f s)) : Safe P ok Q (seq [Traced.access touched, Traced.lift f]) :=
  .cons (.access hlog) (.cons (.lift hf) (.nil fun _ hs => hs))

theorem Safe.cond {b : σ → Prop} [DecidablePred b] (hp : Safe (fun s => P s ∧ b s) ok Q p)
    (hq : Safe (fun s => P s ∧ ¬ b s) ok Q q) : Safe P ok Q (cond b p q) := by
  intro s hs
  rw [state_cond, log_cond]
  split
  next hb => exact hp s ⟨hs, hb⟩
  next hb => exact hq s ⟨hs, hb⟩

/-- Consequence. -/
theorem Safe.mono {P' Q' : σ → Prop} (h : Safe P ok Q p) (hP : ∀ s, P' s → P s) (hQ : ∀ s, Q s → Q' s) :
    Safe P' ok Q' p := fun s hs => ⟨hQ _ (h s (hP s hs)).1, (h s (hP s hs)).2⟩

theorem Safe.weaken {ok' : ι → Prop} (h : Safe P ok Q p) (hok : ∀ a, ok a → ok' a) : Safe P ok' Q p :=
  fun s hs => ⟨(h s hs).1, fun a ha => hok a ((h s hs).2 a ha)⟩

/-- The rule for a loop over a list, with its invariant. -/
theorem Safe.each {xs : List α} {p : α → Traced σ ι} (h : ∀ x ∈ xs, Safe I ok I (p x)) :
    Safe I ok I (each xs p) := by
  induction xs with
  | nil => exact .nil fun _ hs => hs
  | cons x xs ih =>
      exact .cons (h x List.mem_cons_self) (ih fun y hy => h y (List.mem_cons_of_mem x hy))

end Rules

end Traced

/-! ## Loops -/

/-- The outcome of one turn. -/
structure Turn (σ ι : Type*) where
  next : Bool
  state : σ
  log : List ι

/-- **`loop turn fuel s`** — turns from `s` until one does not go on: the last state and all accesses. -/
def loop (turn : σ → Turn σ ι) : Nat → σ → Option (σ × List ι)
  | 0, _ => none
  | fuel + 1, s =>
      if (turn s).next then
        (loop turn fuel (turn s).state).map fun r => (r.1, (turn s).log ++ r.2)
      else some ((turn s).state, (turn s).log)

/-- More fuel does not change the result. -/
theorem loop_mono {turn : σ → Turn σ ι} {s : σ} {r : σ × List ι} {m n : Nat} (hmn : m ≤ n)
    (h : loop turn m s = some r) : loop turn n s = some r := by
  induction m generalizing n s r with
  | zero => cases h
  | succ m ih =>
      obtain ⟨n, rfl⟩ : ∃ n', n = n' + 1 := ⟨n - 1, by omega⟩
      unfold loop at h ⊢
      split
      next hnext =>
        rw [if_pos hnext] at h
        obtain ⟨r', hr', heq⟩ := Option.map_eq_some_iff.mp h
        rw [ih (Nat.le_of_succ_le_succ hmn) hr', Option.map_some, heq]
      next hnext =>
        rw [if_neg hnext] at h
        exact h

/-- A turn that goes on is followed by a loop with a result, if it is part of one. -/
theorem loop_eq_of_next {turn : σ → Turn σ ι} {s : σ} {r : σ × List ι} {fuel : Nat}
    (hnext : (turn s).next = true) (h : loop turn fuel s = some r) :
    ∃ fuel' r', loop turn fuel' (turn s).state = some r' ∧ r = (r'.1, (turn s).log ++ r'.2) := by
  cases fuel with
  | zero => cases h
  | succ fuel =>
      rw [loop, if_pos hnext] at h
      obtain ⟨r', hr', heq⟩ := Option.map_eq_some_iff.mp h
      exact ⟨fuel, r', hr', heq.symm⟩

/-- The accesses of the first turn are in the log. -/
theorem mem_log_of_loop_eq {turn : σ → Turn σ ι} {s : σ} {r : σ × List ι} {fuel : Nat}
    (h : loop turn fuel s = some r) {a : ι} (ha : a ∈ (turn s).log) : a ∈ r.2 := by
  cases fuel with
  | zero => cases h
  | succ fuel =>
      by_cases hnext : (turn s).next = true
      · obtain ⟨_, r', _, rfl⟩ := loop_eq_of_next hnext h
        exact List.mem_append_left _ ha
      · rw [loop, if_neg hnext, Option.some.injEq] at h
        rw [← h]
        exact ha

/-- **The loop rule, for total correctness.**  A turn from a state with the invariant `I` makes accesses
that are `ok`; if it goes on, `I` holds again and the measure is smaller; if not, `Q` holds. -/
theorem loop_total {turn : σ → Turn σ ι} {I Q : σ → Prop} {ok : ι → Prop} (μ : σ → Nat)
    (hlog : ∀ s, I s → ∀ a ∈ (turn s).log, ok a)
    (hnext : ∀ s, I s → (turn s).next = true → I (turn s).state ∧ μ (turn s).state < μ s)
    (hdone : ∀ s, I s → (turn s).next = false → Q (turn s).state) {s : σ} (hs : I s) {fuel : Nat}
    (hfuel : μ s < fuel) : ∃ r, loop turn fuel s = some r ∧ Q r.1 ∧ ∀ a ∈ r.2, ok a := by
  induction fuel generalizing s with
  | zero => omega
  | succ fuel ih =>
      unfold loop
      cases hgo : (turn s).next with
      | false => exact ⟨_, rfl, hdone s hs hgo, hlog s hs⟩
      | true =>
          obtain ⟨hI, hμ⟩ := hnext s hs hgo
          obtain ⟨r, hr, hQ, hok⟩ := ih hI (by omega)
          refine ⟨(r.1, (turn s).log ++ r.2), ?_, hQ, fun a ha => ?_⟩
          · rw [if_pos rfl, hr, Option.map_some]
          · rcases List.mem_append.mp ha with hnow | hlater
            · exact hlog s hs a hnow
            · exact hok a hlater

end Ece391.Lib
