/-
# Ece391.Lib.Interrupt — a straight-line program with interrupts.

The program is a list of operations on a state.  An interrupt may be taken before an operation
whenever the state enables it; the operation itself is taken only when the program is running, which a
handler that switches to other work can make false for a while.  Interrupts after the last operation
do not belong to the program.

`Interrupted.head` takes an execution apart at its first operation, and `Interrupted.of_ops` /
`Interrupted.of_ticks` put one together.
-/
import Mathlib.Tactic.Common

namespace Ece391.Lib

variable {σ τ : Type*} {enabled running : σ → Prop} {tick : τ → σ → σ}

/-- The state after a list of interrupts. -/
def ticks (tick : τ → σ → σ) (ts : List τ) (s : σ) : σ := ts.foldl (fun s t => tick t s) s

@[simp] theorem ticks_nil (s : σ) : ticks tick [] s = s := rfl

@[simp] theorem ticks_cons (t : τ) (ts : List τ) (s : σ) :
    ticks tick (t :: ts) s = ticks tick ts (tick t s) := rfl

/-- **`Interrupted enabled running tick ops s ts s'`** — the program `ops`, started in `s` and
interrupted by `ts` in this order, ends in `s'`. -/
inductive Interrupted (enabled running : σ → Prop) (tick : τ → σ → σ) :
    List (σ → σ) → σ → List τ → σ → Prop
  | done (s : σ) : Interrupted enabled running tick [] s [] s
  | op {f : σ → σ} {ops : List (σ → σ)} {s s' : σ} {ts : List τ} : running s →
      Interrupted enabled running tick ops (f s) ts s' →
      Interrupted enabled running tick (f :: ops) s ts s'
  | tick {f : σ → σ} {ops : List (σ → σ)} {s s' : σ} {t : τ} {ts : List τ} : enabled s →
      Interrupted enabled running tick (f :: ops) (tick t s) ts s' →
      Interrupted enabled running tick (f :: ops) s (t :: ts) s'

namespace Interrupted

/-- The interrupts before the first operation: there are none unless the start enables one, and the
program is running after them. -/
theorem head {f : σ → σ} {ops : List (σ → σ)} {s s' : σ} {ts : List τ}
    (h : Interrupted enabled running tick (f :: ops) s ts s') :
    ∃ ts₁ ts₂, ts = ts₁ ++ ts₂ ∧ (ts₁ = [] ∨ enabled s) ∧ running (ticks tick ts₁ s) ∧
      Interrupted enabled running tick ops (f (ticks tick ts₁ s)) ts₂ s' := by
  generalize hops : f :: ops = fops at h
  induction h with
  | done s => cases hops
  | op hrun hrest _ =>
      cases hops
      exact ⟨[], _, rfl, Or.inl rfl, hrun, hrest⟩
  | tick hen _ ih =>
      obtain ⟨ts₁, ts₂, rfl, -, hrun, hrest⟩ := ih hops
      exact ⟨_ :: ts₁, ts₂, rfl, Or.inr hen, hrun, hrest⟩

/-- Nothing follows the last operation. -/
theorem nil {s s' : σ} {ts : List τ} (h : Interrupted enabled running tick [] s ts s') :
    ts = [] ∧ s' = s := by
  cases h
  exact ⟨rfl, rfl⟩

/-- Operations taken without an interrupt. -/
theorem of_ops {ops rest : List (σ → σ)} {s s' : σ} {ts : List τ} (hrun : running s)
    (hops : ∀ f ∈ ops, ∀ s, running s → running (f s))
    (h : Interrupted enabled running tick rest (ops.foldl (fun s f => f s) s) ts s') :
    Interrupted enabled running tick (ops ++ rest) s ts s' := by
  induction ops generalizing s with
  | nil => exact h
  | cons f ops ih =>
      refine .op hrun (ih (hops f (by simp) s hrun) (fun g hg => hops g (by simp [hg])) h)

/-- A program that is not interrupted. -/
theorem uninterrupted {ops : List (σ → σ)} {s : σ} (hrun : running s)
    (hops : ∀ f ∈ ops, ∀ s, running s → running (f s)) :
    Interrupted enabled running tick ops s [] (ops.foldl (fun s f => f s) s) := by
  rw [← List.append_nil ops]
  refine of_ops hrun hops ?_
  rw [List.append_nil]
  exact .done _

/-- Interrupts taken in a row, each of them enabled when it is taken. -/
theorem of_ticks {ops : List (σ → σ)} {s s' : σ} {ts ts' : List τ} (hops : ops ≠ [])
    (hen : ∀ ts₁, ts₁ <+: ts → enabled (ticks tick ts₁ s))
    (h : Interrupted enabled running tick ops (ticks tick ts s) ts' s') :
    Interrupted enabled running tick ops s (ts ++ ts') s' := by
  obtain ⟨f, rest, rfl⟩ := List.exists_cons_of_ne_nil hops
  induction ts generalizing s with
  | nil => exact h
  | cons t ts ih =>
      refine .tick (hen [] (List.nil_prefix ..)) (ih ?_ h)
      intro ts₁ hpre
      exact hen (t :: ts₁) (List.cons_prefix_cons.mpr ⟨rfl, hpre⟩)

end Interrupted

end Ece391.Lib
