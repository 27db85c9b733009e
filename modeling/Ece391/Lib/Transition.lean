/-
# Ece391.Lib.Transition — runs of a labelled transition relation.

A run is a list of labels read left to right.  The two facts every safety argument below leans on
are `run_append` (a run splits at any label) and `Run.invariant` (what one step preserves, a whole
run preserves).  `restrict` is the sub-relation of the steps that meet a condition on the state
BEFORE the step; `AllSteps` / `AllStates` say the same thing from the outside, as a property of every
step taken, respectively every state visited, along one fixed run.

Nothing here names a program: the states and the labels are arbitrary types.
-/
import Mathlib.Tactic.Common

namespace Ece391.Lib

variable {σ α : Type*}

/-- **`Run R s as s'`** — reading the labels `as` in order leads from `s` to `s'` through `R`. -/
def Run (R : σ → α → σ → Prop) : σ → List α → σ → Prop
  | s, [], s' => s = s'
  | s, a :: as, s' => ∃ m, R s a m ∧ Run R m as s'

@[simp] theorem run_nil {R : σ → α → σ → Prop} {s s' : σ} : Run R s [] s' ↔ s = s' := Iff.rfl

@[simp] theorem run_cons {R : σ → α → σ → Prop} {s s' : σ} {a : α} {as : List α} :
    Run R s (a :: as) s' ↔ ∃ m, R s a m ∧ Run R m as s' := Iff.rfl

theorem run_append {R : σ → α → σ → Prop} {s s' : σ} {as bs : List α} :
    Run R s (as ++ bs) s' ↔ ∃ m, Run R s as m ∧ Run R m bs s' := by
  induction as generalizing s with
  | nil => simp
  | cons a as ih =>
      simp only [List.cons_append, run_cons, ih]
      constructor
      · rintro ⟨m, hm, n, hn, hs'⟩
        exact ⟨n, ⟨m, hm, hn⟩, hs'⟩
      · rintro ⟨n, ⟨m, hm, hn⟩, hs'⟩
        exact ⟨m, hm, n, hn, hs'⟩

theorem run_snoc {R : σ → α → σ → Prop} {s s' : σ} {as : List α} {a : α} :
    Run R s (as ++ [a]) s' ↔ ∃ m, Run R s as m ∧ R m a s' := by
  simp [run_append]

/-- **The run rule.** What holds initially and is preserved by every step holds at the end. -/
theorem Run.invariant {R : σ → α → σ → Prop} {I : σ → Prop} {s s' : σ} {as : List α}
    (hrun : Run R s as s') (hinit : I s) (hstep : ∀ s a s', I s → R s a s' → I s') : I s' := by
  induction as generalizing s with
  | nil =>
      rw [run_nil] at hrun
      exact hrun ▸ hinit
  | cons a as ih =>
      obtain ⟨m, hm, hrest⟩ := hrun
      exact ih hrest (hstep s a m hinit hm)

/-- **The progress rule.**  If a label of `P` can always be read where the invariant holds, a list of such
labels has a run. -/
theorem exists_run {R : σ → α → σ → Prop} {I : σ → Prop} {P : α → Prop}
    (hstep : ∀ s a, I s → P a → ∃ s', R s a s' ∧ I s') {s : σ} (hinit : I s) {as : List α}
    (hok : ∀ a ∈ as, P a) : ∃ s', Run R s as s' := by
  induction as generalizing s with
  | nil => exact ⟨s, rfl⟩
  | cons a as ih =>
      obtain ⟨m, hm, hIm⟩ := hstep s a hinit (hok a List.mem_cons_self)
      obtain ⟨s', hrun⟩ := ih hIm fun b hb => hok b (List.mem_cons_of_mem _ hb)
      exact ⟨s', m, hm, hrun⟩

/-- **`restrict ok R`** — the steps of `R` taken from a state that meets `ok` for the label. -/
def restrict (ok : σ → α → Prop) (R : σ → α → σ → Prop) (s : σ) (a : α) (s' : σ) : Prop :=
  ok s a ∧ R s a s'

/-- Every step along the run `as` from `s` is taken from a state that meets `ok` for its label. -/
def AllSteps (R : σ → α → σ → Prop) (ok : σ → α → Prop) (s : σ) (as : List α) : Prop :=
  ∀ before a after m, as = before ++ a :: after → Run R s before m → ok m a

/-- Every state visited along the run `as` from `s`, both ends included, satisfies `P`. -/
def AllStates (R : σ → α → σ → Prop) (P : σ → Prop) (s : σ) (as : List α) : Prop :=
  ∀ before after m, as = before ++ after → Run R s before m → P m

theorem allSteps_nil {R : σ → α → σ → Prop} {ok : σ → α → Prop} {s : σ} : AllSteps R ok s [] := by
  intro before a after m has _
  exact absurd has.symm (by simp)

/-- The condition that asks nothing. -/
theorem allSteps_true {R : σ → α → σ → Prop} {s : σ} {as : List α} :
    AllSteps R (fun _ _ => True) s as := fun _ _ _ _ _ _ => trivial

/-- A condition on the labels alone. -/
theorem allSteps_of_mem {R : σ → α → σ → Prop} {ok : α → Prop} {s : σ} {as : List α}
    (h : ∀ a ∈ as, ok a) : AllSteps R (fun _ a => ok a) s as := by
  intro before a after m has _
  exact h a (by simp [has])

theorem AllSteps.and {R : σ → α → σ → Prop} {ok ok' : σ → α → Prop} {s : σ} {as : List α}
    (h : AllSteps R ok s as) (h' : AllSteps R ok' s as) :
    AllSteps R (fun m a => ok m a ∧ ok' m a) s as := fun before a after m has hrun =>
  ⟨h before a after m has hrun, h' before a after m has hrun⟩

theorem AllSteps.cons {R : σ → α → σ → Prop} {ok : σ → α → Prop} {s : σ} {a : α} {as : List α}
    (hok : ok s a) (h : ∀ m, R s a m → AllSteps R ok m as) : AllSteps R ok s (a :: as) := by
  intro before b after m has hrun
  cases before with
  | nil =>
      obtain ⟨rfl, rfl⟩ := List.cons.inj has
      obtain rfl := hrun
      exact hok
  | cons c before =>
      obtain ⟨rfl, hrest⟩ := List.cons.inj has
      obtain ⟨n, hn, hm⟩ := hrun
      exact h n hn before b after m hrest hm

theorem AllSteps.tail {R : σ → α → σ → Prop} {ok : σ → α → Prop} {s m : σ} {a : α} {as : List α}
    (h : AllSteps R ok s (a :: as)) (hm : R s a m) : AllSteps R ok m as := by
  intro before b after n has hrun
  exact h (a :: before) b after n (by rw [has, List.cons_append]) ⟨m, hm, hrun⟩

/-- A run all of whose steps meet the condition is a run of the restricted relation. -/
theorem Run.restrict_of_allSteps {R : σ → α → σ → Prop} {ok : σ → α → Prop} {s s' : σ}
    {as : List α} (hrun : Run R s as s') (hok : AllSteps R ok s as) :
    Run (restrict ok R) s as s' := by
  induction as generalizing s with
  | nil => exact hrun
  | cons a as ih =>
      obtain ⟨m, hm, hrest⟩ := hrun
      exact ⟨m, ⟨hok [] a as s rfl rfl, hm⟩, ih hrest (hok.tail hm)⟩

theorem allStates_nil {R : σ → α → σ → Prop} {P : σ → Prop} {s : σ} (h : P s) :
    AllStates R P s [] := by
  intro before after m has hrun
  obtain ⟨rfl, rfl⟩ := List.append_eq_nil_iff.mp has.symm
  obtain rfl := hrun
  exact h

theorem AllStates.cons {R : σ → α → σ → Prop} {P : σ → Prop} {s : σ} {a : α} {as : List α} (hP : P s)
    (h : ∀ m, R s a m → AllStates R P m as) : AllStates R P s (a :: as) := by
  intro before after m has hrun
  cases before with
  | nil =>
      obtain rfl := hrun
      exact hP
  | cons b before =>
      obtain ⟨rfl, hrest⟩ := List.cons.inj has
      obtain ⟨n, hn, hm⟩ := hrun
      exact h n hn before after m hrest hm

theorem AllStates.tail {R : σ → α → σ → Prop} {P : σ → Prop} {s m : σ} {a : α} {as : List α}
    (h : AllStates R P s (a :: as)) (hm : R s a m) : AllStates R P m as := by
  intro before after n has hrun
  exact h (a :: before) after n (by rw [has, List.cons_append]) ⟨m, hm, hrun⟩

theorem AllStates.of_append {R : σ → α → σ → Prop} {P : σ → Prop} {s : σ} {as bs : List α}
    (h : AllStates R P s (as ++ bs)) : AllStates R P s as := by
  intro before after m has hrun
  exact h before (after ++ bs) m (by rw [has, List.append_assoc]) hrun

/-- A property of the states visited, along a prefix and along what each of its runs leaves. -/
theorem AllStates.append {R : σ → α → σ → Prop} {P : σ → Prop} {s : σ} {as bs : List α}
    (h : AllStates R P s as) (hrest : ∀ m, Run R s as m → AllStates R P m bs) :
    AllStates R P s (as ++ bs) := by
  induction as generalizing s with
  | nil => exact hrest s rfl
  | cons a as ih =>
      refine .cons (h [] (a :: as) s rfl rfl) fun m hm => ?_
      exact ih (h.tail hm) fun n hn => hrest n ⟨m, hm, hn⟩

theorem AllStates.snoc {R : σ → α → σ → Prop} {P : σ → Prop} {s : σ} {as : List α} {a : α}
    (h : AllStates R P s as) (hlast : ∀ s', Run R s (as ++ [a]) s' → P s') :
    AllStates R P s (as ++ [a]) := by
  refine h.append fun m hm => .cons (h as [] m (List.append_nil as).symm hm) fun n hn => allStates_nil ?_
  exact hlast n (run_snoc.mpr ⟨m, hm, hn⟩)

/-- A property of the states visited, as one of the steps: each starts in a state that has it. -/
theorem AllStates.before {R : σ → α → σ → Prop} {P : σ → Prop} {s : σ} {as : List α}
    (h : AllStates R P s as) : AllSteps R (fun m _ => P m) s as := fun before a after m has hrun =>
  h before (a :: after) m has hrun

/-- ... and leads to one. -/
theorem AllStates.steps {R : σ → α → σ → Prop} {P : σ → Prop} {s : σ} {as : List α}
    (h : AllStates R P s as) : AllSteps R (fun m a => ∀ m', R m a m' → P m') s as := by
  intro before a after m has hrun m' hm'
  apply h (before ++ [a]) after m'
  · rw [has, List.append_assoc, List.singleton_append]
  · exact run_snoc.mpr ⟨m, hrun, hm'⟩

/-- The run rule with a property of the states visited at hand: the step may use that the property
holds in the state it leads to. -/
theorem Run.invariant_of_allStates {R : σ → α → σ → Prop} {P I : σ → Prop} {s s' : σ}
    {as : List α} (hrun : Run R s as s') (hall : AllStates R P s as) (hinit : I s)
    (hstep : ∀ s a s', I s → R s a s' → P s' → I s') : I s' := by
  apply (hrun.restrict_of_allSteps hall.steps).invariant hinit
  rintro s a s' hI ⟨hP, hs⟩
  exact hstep s a s' hI hs (hP s' hs)

/-- Runs of a deterministic relation end in one state. -/
theorem Run.unique {R : σ → α → σ → Prop} (hdet : ∀ s a s₁ s₂, R s a s₁ → R s a s₂ → s₁ = s₂)
    {s s₁ s₂ : σ} {as : List α} (h₁ : Run R s as s₁) (h₂ : Run R s as s₂) : s₁ = s₂ := by
  induction as generalizing s with
  | nil => exact h₁.symm.trans h₂
  | cons a as ih =>
      obtain ⟨m₁, hm₁, hr₁⟩ := h₁
      obtain ⟨m₂, hm₂, hr₂⟩ := h₂
      obtain rfl := hdet s a m₁ m₂ hm₁ hm₂
      exact ih hr₁ hr₂

/-- The condition on the steps of a run passes to each of its prefixes. -/
theorem AllSteps.of_append {R : σ → α → σ → Prop} {ok : σ → α → Prop} {s : σ} {as bs : List α}
    (h : AllSteps R ok s (as ++ bs)) : AllSteps R ok s as := by
  intro before a after m has hrun
  exact h before a (after ++ bs) m (by rw [has, List.append_assoc, List.cons_append]) hrun

/-- ... and to what is left of the run after a prefix. -/
theorem AllSteps.after {R : σ → α → σ → Prop} {ok : σ → α → Prop} {s m : σ} {as bs : List α}
    (h : AllSteps R ok s (as ++ bs)) (hrun : Run R s as m) : AllSteps R ok m bs := by
  intro before a after n hbs hn
  exact h (as ++ before) a after n (by rw [hbs, List.append_assoc]) (run_append.mpr ⟨m, hrun, hn⟩)

/-- A condition on the steps, of a prefix and of what each of its runs leaves. -/
theorem AllSteps.append {R : σ → α → σ → Prop} {ok : σ → α → Prop} {s : σ} {as bs : List α}
    (h : AllSteps R ok s as) (hrest : ∀ m, Run R s as m → AllSteps R ok m bs) :
    AllSteps R ok s (as ++ bs) := by
  induction as generalizing s with
  | nil => exact hrest s rfl
  | cons a as ih =>
      refine .cons (h [] a as s rfl rfl) fun m hm => ?_
      exact ih (h.tail hm) fun n hn => hrest n ⟨m, hm, hn⟩

/-- **The exact-condition rule.**  If a step of the domain `dom` from a state with `P` leads to `P`
exactly when it meets `ok`, then `P` holds along a run of such steps exactly when all of them meet `ok`.
An invariant `I` of the states with `P` may be carried along. -/
theorem allStates_iff_allSteps {R : σ → α → σ → Prop} {P I : σ → Prop} {dom ok : σ → α → Prop}
    (htotal : ∀ s a, ∃ s', R s a s')
    (hinv : ∀ s a s', I s → P s → dom s a → R s a s' → P s' → I s')
    (hstep : ∀ s a s', I s → P s → dom s a → R s a s' → (P s' ↔ ok s a)) {s : σ} (hI : I s) (hP : P s)
    {as : List α} (hdom : AllSteps R dom s as) : AllStates R P s as ↔ AllSteps R ok s as := by
  induction as generalizing s with
  | nil => exact ⟨fun _ => allSteps_nil, fun _ => allStates_nil hP⟩
  | cons a as ih =>
      have hda : dom s a := hdom [] a as s rfl rfl
      constructor
      · intro h
        obtain ⟨m, hm⟩ := htotal s a
        have hnext : ∀ m, R s a m → P m := fun m hm => h [a] as m rfl ⟨m, hm, rfl⟩
        refine .cons ((hstep s a m hI hP hda hm).mp (hnext m hm)) fun n hn => ?_
        exact (ih (hinv s a n hI hP hda hn (hnext n hn)) (hnext n hn) (hdom.tail hn)).mp (h.tail hn)
      · intro h
        refine .cons hP fun n hn => ?_
        have hPn : P n := (hstep s a n hI hP hda hn).mpr (h [] a as s rfl rfl)
        exact (ih (hinv s a n hI hP hda hn hPn) hPn (hdom.tail hn)).mpr (h.tail hn)

/-- **The exact-condition rule for states and steps.**  If a step of the domain `dom` from a state with
`P` is `good` and leads to `P` exactly when it meets `ok`, then along a run of such steps every state has
`P` and every step is `good` exactly when all steps meet `ok`.  An invariant `I` that good steps between
states with `P` preserve may be carried along. -/
theorem allStates_and_allSteps_iff {R : σ → α → σ → Prop} {P I : σ → Prop} {dom good ok : σ → α → Prop}
    (hinv : ∀ s a s', I s → P s → dom s a → good s a → R s a s' → P s' → I s')
    (hstep : ∀ s a, I s → P s → dom s a → ((good s a ∧ ∀ s', R s a s' → P s') ↔ ok s a)) {s : σ}
    (hI : I s) (hP : P s) {as : List α} (hdom : AllSteps R dom s as) :
    AllStates R P s as ∧ AllSteps R good s as ↔ AllSteps R ok s as := by
  induction as generalizing s with
  | nil => exact ⟨fun _ => allSteps_nil, fun _ => ⟨allStates_nil hP, allSteps_nil⟩⟩
  | cons a as ih =>
      have hda : dom s a := hdom [] a as s rfl rfl
      constructor
      · rintro ⟨hstates, hgood⟩
        have hgoods : good s a := hgood [] a as s rfl rfl
        have hnext : ∀ m, R s a m → P m := fun m hm => hstates [a] as m rfl ⟨m, hm, rfl⟩
        refine .cons ((hstep s a hI hP hda).mp ⟨hgoods, hnext⟩) fun m hm => ?_
        have hIm : I m := hinv s a m hI hP hda hgoods hm (hnext m hm)
        exact (ih hIm (hnext m hm) (hdom.tail hm)).mp ⟨hstates.tail hm, hgood.tail hm⟩
      · intro hok
        obtain ⟨hgoods, hnext⟩ := (hstep s a hI hP hda).mpr (hok [] a as s rfl rfl)
        have hrest : ∀ m, R s a m → AllStates R P m as ∧ AllSteps R good m as := fun m hm =>
          (ih (hinv s a m hI hP hda hgoods hm (hnext m hm)) (hnext m hm) (hdom.tail hm)).mpr (hok.tail hm)
        exact ⟨.cons hP fun m hm => (hrest m hm).1, .cons hgoods fun m hm => (hrest m hm).2⟩

end Ece391.Lib
