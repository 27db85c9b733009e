/-
# Ece391.MissileCommand.Explosions — what an explosion destroys (`mp1/mp1-given.c`).

`missile_explode` runs over the list of missiles.  An explosion of the player destroys the enemy missiles
around it that are not exploding yet, one of the enemy destroys the base it is over.  The value it returns is
meant to say whether anything has changed, which is `missileExplode_zero_iff`; and `explosions_conserve` says
that no missile is counted twice, however many explosions there are.

The missiles are in the memory that `mp1_malloc` gives; here they are the values of an arbitrary type.  The
score and the value returned are integers: there are fewer missiles than an `int` can count.
-/
import Ece391.Lib.LinkedList
import Ece391.Lib.Transition
import Ece391.MissileCommand.Crosshairs
import Mathlib.Algebra.BigOperators.Fin

open Ece391.Lib

namespace Ece391.MissileCommand

variable {α : Type*} [DecidableEq α]

/-! ## The program -/

/-- **`Sky`** — `mp1_missile_list` with the missiles and their links, `base_alive` and `mp1_score`. -/
structure Sky (α : Type*) where
  missileList : Option α
  next : α → Option α
  missile : α → Missile
  baseAlive : Nat → Int8
  score : Int

/-- The block of one base in `explode_base`. -/
def killBase (alive : Nat → Int8) (base : Nat) : Int × (Nat → Int8) :=
  (if alive base ≠ 0 then 1 else 0, Function.update alive base 0)

/-- **`explodeBase`** — `explode_base`. -/
def explodeBase (x y : Int) (alive : Nat → Int8) : Int × (Nat → Int8) :=
  if y ≥ 23 then
    if 17 ≤ x ∧ x ≤ 23 then killBase alive 0
    else if 37 ≤ x ∧ x ≤ 43 then killBase alive 1
    else if 57 ≤ x ∧ x ≤ 63 then killBase alive 2
    else (0, alive)
  else (0, alive)

namespace Sky

/-- `m->exploded = 50`. -/
def setExploded (s : Sky α) (m : α) : Sky α :=
  { s with missile := Function.update s.missile m { s.missile m with exploded := 50 } }

/-- The test in the loop: another missile close to `m`. -/
def Hits (s : Sky α) (m i : α) : Prop :=
  i ≠ m ∧
    let dx := Int.shiftRight (s.missile m).x 16 - Int.shiftRight (s.missile i).x 16
    let dy := Int.shiftRight (s.missile m).y 16 - Int.shiftRight (s.missile i).y 16
    dx ≥ -2 ∧ dx ≤ 2 ∧ dy ≥ -1 ∧ dy ≤ 1 ∧
      (s.missile i).exploded = 0 ∧ (s.missile i).c = 'e' ∧ (s.missile m).c = '*'

instance (s : Sky α) (m : α) : DecidablePred (s.Hits m) := fun i => by
  unfold Hits; infer_instance

/-- The body of the test. -/
def strike (s : Sky α) (i : α) : Sky α := { s with score := s.score + 1 }.setExploded i

/-- The loop, from a missile on; `none` if it does not end in as many turns. -/
def explodeLoop (m : α) : Nat → Option α → Sky α → Int → Option (Int × Sky α)
  | _, none, s, exploded => some (exploded, s)
  | 0, some _, _, _ => none
  | n + 1, some i, s, exploded =>
      if s.Hits m i then explodeLoop m n (s.next i) (s.strike i) (exploded + 1)
      else explodeLoop m n (s.next i) s exploded

/-- The first test. -/
def arm (s : Sky α) (m : α) : Sky α := if (s.missile m).exploded = 0 then s.setExploded m else s

/-- What comes before the loop. -/
def explodeSelf (s : Sky α) (m : α) : Int × Sky α :=
  let s := s.arm m
  if (s.missile m).c = 'e' then
    let r := explodeBase (Int.shiftRight (s.missile m).x 16) (Int.shiftRight (s.missile m).y 16) s.baseAlive
    (r.1, { s with baseAlive := r.2 })
  else (0, s)

/-- **`missileExplode`** — `missile_explode`, with the value returned. -/
def missileExplode (fuel : Nat) (s : Sky α) (m : α) : Option (Int × Sky α) :=
  let r := s.explodeSelf m
  explodeLoop m fuel r.2.missileList r.2 r.1

/-! ## The loop -/

/-- The list of missiles. -/
def Listed (s : Sky α) (l : List α) : Prop := Chain s.next s.missileList l ∧ l.Nodup

/-- The missiles of `l` that are hit are destroyed. -/
def struck (s : Sky α) (m : α) (l : List α) : Sky α :=
  { s with
    score := s.score + l.countP fun i => s.Hits m i
    missile := fun i => if i ∈ l ∧ s.Hits m i then { s.missile i with exploded := 50 } else s.missile i }

section Loop

variable {s : Sky α} {m : α}

/-- A missile that is hit is no longer in the way of the others. -/
theorem hits_strike {i j : α} (hi : s.Hits m i) (hj : j ≠ i) : (s.strike i).Hits m j ↔ s.Hits m j := by
  have hmissile : ∀ k ≠ i, (s.strike i).missile k = s.missile k := fun k hk => Function.update_of_ne hk _ _
  unfold Hits
  rw [hmissile j hj, hmissile m hi.1.symm]

theorem struck_nil : s.struck m [] = s := by
  simp [struck]

theorem struck_cons_of_hits {i : α} {l : List α} (hi : s.Hits m i) (hl : i ∉ l) :
    (s.strike i).struck m l = s.struck m (i :: l) := by
  have hsame : ∀ j ∈ l, (s.strike i).Hits m j ↔ s.Hits m j := fun j hj =>
    hits_strike hi (ne_of_mem_of_not_mem hj hl)
  have hcount : l.countP (fun j => (s.strike i).Hits m j) = l.countP fun j => s.Hits m j :=
    List.countP_congr fun j hj => by simpa using hsame j hj
  unfold struck
  rw [hcount, List.countP_cons_of_pos (by simpa using hi)]
  refine Sky.mk.injEq .. |>.mpr ⟨rfl, rfl, funext fun j => ?_, rfl, ?_⟩
  · by_cases hj : j = i
    · subst hj
      rw [if_neg fun h => hl h.1, if_pos ⟨List.mem_cons_self, hi⟩]
      exact Function.update_self _ _ _
    · have hmissile : (s.strike i).missile j = s.missile j := Function.update_of_ne hj _ _
      rw [hmissile]
      by_cases hmem : j ∈ l
      · simp only [hsame j hmem, hmem, List.mem_cons_of_mem]
      · rw [if_neg fun h => hmem h.1, if_neg fun h => (List.mem_cons.mp h.1).elim hj hmem]
  · show s.score + 1 + _ = s.score + _
    push_cast
    omega

theorem struck_cons_of_not {i : α} {l : List α} (hi : ¬s.Hits m i) : s.struck m (i :: l) = s.struck m l := by
  unfold struck
  rw [List.countP_cons_of_neg (by simpa using hi)]
  refine Sky.mk.injEq .. |>.mpr ⟨rfl, rfl, funext fun j => ?_, rfl, rfl⟩
  by_cases hj : j = i
  · subst hj
    rw [if_neg fun h => hi h.2, if_neg fun h => hi h.2]
  · simp only [List.mem_cons, hj, false_or]

/-- **The loop** destroys what is hit, and counts it. -/
theorem explodeLoop_spec {p : Option α} {l : List α} (h : Chain s.next p l) (hnodup : l.Nodup) {n : Nat}
    (hn : l.length ≤ n) (exploded : Int) : explodeLoop m n p s exploded =
      some (exploded + l.countP fun i => s.Hits m i, s.struck m l) := by
  induction l generalizing p n s exploded with
  | nil =>
      obtain rfl := h
      rw [struck_nil]
      cases n <;> simp [explodeLoop]
  | cons i l ih =>
      obtain ⟨rfl, hrest⟩ := h
      obtain ⟨hi, hl⟩ := List.nodup_cons.mp hnodup
      obtain ⟨n, rfl⟩ := Nat.exists_eq_add_of_le' (Nat.one_le_of_lt hn)
      rw [explodeLoop]
      by_cases hhit : s.Hits m i
      · have hsame : l.countP (fun j => (s.strike i).Hits m j) = l.countP fun j => s.Hits m j :=
          List.countP_congr fun j hj => by
            simpa using hits_strike hhit (ne_of_mem_of_not_mem hj hi)
        rw [if_pos hhit, ih (s := s.strike i) hrest hl (Nat.le_of_succ_le_succ hn), struck_cons_of_hits hhit hi,
          hsame, List.countP_cons_of_pos (by simpa using hhit)]
        push_cast
        congr 2
        omega
      · rw [if_neg hhit, ih hrest hl (Nat.le_of_succ_le_succ hn), struck_cons_of_not hhit,
          List.countP_cons_of_neg (by simpa using hhit)]

end Loop

/-! ## One explosion -/

/-- The bases that are alive. -/
def basesAlive (alive : Nat → Int8) : Int :=
  (if alive 0 ≠ 0 then 1 else 0) + (if alive 1 ≠ 0 then 1 else 0) + (if alive 2 ≠ 0 then 1 else 0)

theorem killBase_spec (alive : Nat → Int8) {base : Nat} (h : base < 3) :
    basesAlive alive = basesAlive (killBase alive base).2 + (killBase alive base).1 ∧
    ((killBase alive base).1 = 0 ↔ (killBase alive base).2 = alive) ∧ 0 ≤ (killBase alive base).1 := by
  unfold killBase
  dsimp only
  by_cases hbase : alive base = 0
  · have hsame : Function.update alive base 0 = alive := by rw [← hbase, Function.update_eq_self]
    simp [hsame, hbase]
  · have hchanged : Function.update alive base 0 ≠ alive := fun h =>
      hbase ((congrFun h base).symm.trans (Function.update_self _ _ _))
    refine ⟨?_, by simp [hbase, hchanged], by simp [hbase]⟩
    unfold basesAlive
    rw [if_pos hbase]
    obtain rfl | rfl | rfl : base = 0 ∨ base = 1 ∨ base = 2 := by omega
    · simp [hbase]
      omega
    · simp [hbase]
      omega
    · simp [hbase]

/-- **An explosion over the bases** kills at most one, and counts it. -/
theorem explodeBase_spec (x y : Int) (alive : Nat → Int8) :
    basesAlive alive = basesAlive (explodeBase x y alive).2 + (explodeBase x y alive).1 ∧
    ((explodeBase x y alive).1 = 0 ↔ (explodeBase x y alive).2 = alive) ∧ 0 ≤ (explodeBase x y alive).1 := by
  have hnone : basesAlive alive = basesAlive alive + 0 ∧ ((0 : Int) = 0 ↔ alive = alive) ∧ (0 : Int) ≤ 0 := by simp
  unfold explodeBase
  split
  · split
    · exact killBase_spec alive (by decide)
    · split
      · exact killBase_spec alive (by decide)
      · split
        · exact killBase_spec alive (by decide)
        · exact hnone
  · exact hnone

/-- No base comes back. -/
theorem explodeBase_dead (x y : Int) {alive : Nat → Int8} {b : Nat} (h : alive b = 0) :
    (explodeBase x y alive).2 b = 0 := by
  have hkill : ∀ base, (killBase alive base).2 b = 0 := fun base => by
    by_cases hb : b = base
    · subst hb
      exact Function.update_self _ _ _
    · exact (Function.update_of_ne hb _ _).trans h
  unfold explodeBase
  split
  · split
    · exact hkill 0
    · split
      · exact hkill 1
      · split
        · exact hkill 2
        · exact h
  · exact h

section Explosion

variable {s : Sky α} {m : α} {l : List α}

/-- What the first test leaves: `m` explodes, and is otherwise as it was. -/
theorem arm_spec (s : Sky α) (m : α) : (∀ i ≠ m, (s.arm m).missile i = s.missile i) ∧
    (∃ n ≠ 0, (s.arm m).missile m = { s.missile m with exploded := n }) ∧
    s.arm m = { s with missile := (s.arm m).missile } := by
  unfold arm
  split
  next => exact ⟨fun i hi => Function.update_of_ne hi _ _, ⟨50, by decide, Function.update_self _ _ _⟩, rfl⟩
  next hexploded => exact ⟨fun _ _ => rfl, ⟨_, hexploded, rfl⟩, rfl⟩

/-- What comes before the loop changes `m` and the bases, and counts the bases. -/
theorem explodeSelf_spec (s : Sky α) (m : α) : ∃ alive bases,
    s.explodeSelf m = (bases, { s.arm m with baseAlive := alive }) ∧
    basesAlive s.baseAlive = basesAlive alive + bases ∧ (bases = 0 ↔ alive = s.baseAlive) ∧ 0 ≤ bases ∧
    ∀ b, s.baseAlive b = 0 → alive b = 0 := by
  have halive : (s.arm m).baseAlive = s.baseAlive := by rw [(arm_spec s m).2.2]
  unfold explodeSelf
  dsimp only
  split
  · rw [halive]
    obtain ⟨hcount, hsame, hpos⟩ := explodeBase_spec (Int.shiftRight ((s.arm m).missile m).x 16)
      (Int.shiftRight ((s.arm m).missile m).y 16) s.baseAlive
    exact ⟨_, _, rfl, hcount, hsame, hpos, fun b => explodeBase_dead _ _⟩
  · exact ⟨s.baseAlive, 0, by rw [← halive], by simp⟩

/-- The test of the loop does not see what came before. -/
theorem hits_arm {s' : Sky α} (hs' : s'.missile = (s.arm m).missile) (i : α) : s'.Hits m i ↔ s.Hits m i := by
  obtain ⟨hother, ⟨n, -, hself⟩, -⟩ := arm_spec s m
  unfold Hits
  rw [hs', hself]
  refine and_congr_right fun hi => ?_
  rw [hother i hi]

/-- **`Explosion s m l r s'`** — what an explosion of `m` does: the missiles of the list that are hit are
destroyed, and so may be one base; the score rises by the missiles, and both are counted in the result. -/
structure Explosion (s : Sky α) (m : α) (l : List α) (r : Int) (s' : Sky α) : Prop where
  listed : s'.Listed l
  hit : ∀ i ≠ m, s'.missile i =
    if i ∈ l ∧ s.Hits m i then { s.missile i with exploded := 50 } else s.missile i
  self : ∃ n ≠ 0, s'.missile m = { s.missile m with exploded := n }
  score : s'.score = s.score + l.countP fun i => s.Hits m i
  bases : r = (s'.score - s.score) + (basesAlive s.baseAlive - basesAlive s'.baseAlive)
  fewer : basesAlive s'.baseAlive ≤ basesAlive s.baseAlive ∧
    (basesAlive s'.baseAlive = basesAlive s.baseAlive ↔ s'.baseAlive = s.baseAlive)
  dead : ∀ b, s.baseAlive b = 0 → s'.baseAlive b = 0

theorem missileExplode_explosion (h : s.Listed l) {n : Nat} (hn : l.length ≤ n) (m : α) :
    ∃ r s', missileExplode n s m = some (r, s') ∧ Explosion s m l r s' := by
  obtain ⟨alive, bases, hself, hcount, hsame, hpos, hdead⟩ := explodeSelf_spec s m
  obtain ⟨hother, ⟨k, hk, harmed⟩, harm⟩ := arm_spec s m
  obtain ⟨s1, hs1⟩ : ∃ s1, s1 = { s.arm m with baseAlive := alive } := ⟨_, rfl⟩
  have hmissile : s1.missile = (s.arm m).missile := by rw [hs1]
  have hnext : s1.next = s.next := by rw [hs1, harm]
  have hlist : s1.missileList = s.missileList := by rw [hs1, harm]
  have hscore : s1.score = s.score := by rw [hs1, harm]
  have halive : s1.baseAlive = alive := by rw [hs1]
  have hchain : Chain s1.next s1.missileList l := by rw [hnext, hlist]; exact h.1
  have hhits : l.countP (fun i => s1.Hits m i) = l.countP fun i => s.Hits m i :=
    List.countP_congr fun i _ => by simpa using hits_arm hmissile i
  refine ⟨bases + l.countP fun i => s.Hits m i, s1.struck m l, ?_, ⟨hchain, h.2⟩, fun i hi => ?_, ?_, ?_, ?_, ?_, fun b hb => ?_⟩
  · rw [missileExplode, hself, ← hs1]
    dsimp only
    rw [explodeLoop_spec hchain h.2 hn, hhits]
  · show (if i ∈ l ∧ s1.Hits m i then _ else _) = _
    simp only [hits_arm hmissile, hmissile, hother i hi]
  · refine ⟨k, hk, ?_⟩
    show (if m ∈ l ∧ s1.Hits m m then _ else _) = _
    rw [if_neg fun hm => hm.2.1 rfl, hmissile, harmed]
  · show s1.score + _ = _
    rw [hscore, hhits]
  · show _ = (s1.score + _ - s.score) + (_ - basesAlive s1.baseAlive)
    rw [hscore, hhits, hcount, halive]
    omega
  · show basesAlive s1.baseAlive ≤ _ ∧ (basesAlive s1.baseAlive = _ ↔ s1.baseAlive = _)
    rw [hcount, halive, ← hsame]
    omega
  · show s1.baseAlive b = 0
    rw [halive]
    exact hdead b hb

/-- **The value returned** is zero exactly if neither a base nor another missile has changed. -/
theorem Explosion.zero_iff {r : Int} {s' : Sky α} (h : Explosion s m l r s') :
    r = 0 ↔ s'.baseAlive = s.baseAlive ∧ ∀ i ≠ m, s'.missile i = s.missile i := by
  obtain ⟨hfewer, hsame⟩ := h.fewer
  have hscore := h.score
  have hbases := h.bases
  have hcount : (l.countP fun i => s.Hits m i) = 0 ↔ ∀ i ≠ m, s'.missile i = s.missile i := by
    rw [List.countP_eq_zero]
    constructor
    · intro hnone i hi
      rw [h.hit i hi]
      exact if_neg fun hhit => hnone i hhit.1 (decide_eq_true hhit.2)
    · intro hkept i hi hhit
      have hhits : s.Hits m i := of_decide_eq_true hhit
      have heq := hkept i hhits.1
      rw [h.hit i hhits.1, if_pos ⟨hi, hhits⟩] at heq
      have hintact : (s.missile i).exploded = 0 := hhits.2.2.2.2.2.1
      rw [← heq] at hintact
      exact absurd hintact (show (50 : Int) ≠ 0 by decide)
  rw [← hsame, ← hcount]
  omega

/-- **One explosion.**  However long the list is, the loop ends.  The other missiles change exactly if they are
enemies that are not exploding yet, within two columns and one row of an explosion of the player; the score
rises by their number, at most one base dies, and the value returned is zero exactly if nothing but `m` has
changed. -/
theorem missileExplode_changes (h : s.Listed l) {n : Nat} (hn : l.length ≤ n) (m : α) :
    ∃ r s', s.missileExplode n m = some (r, s') ∧
      (∀ i ≠ m, s'.missile i =
        if i ∈ l ∧ s.Hits m i then { s.missile i with exploded := 50 } else s.missile i) ∧
      (s'.score = s.score + l.countP fun i => s.Hits m i) ∧
      (r = 0 ↔ s'.baseAlive = s.baseAlive ∧ ∀ i ≠ m, s'.missile i = s.missile i) := by
  obtain ⟨r, s', hrun, hexplosion⟩ := missileExplode_explosion h hn m
  exact ⟨r, s', hrun, hexplosion.hit, hexplosion.score, hexplosion.zero_iff⟩

end Explosion

/-- A missile of the player in front of one of the enemy, in the same place. -/
def twoMissiles : Sky (Fin 2) where
  missileList := some 0
  next := fun i => if i = 0 then some 1 else none
  missile := fun i => ⟨0, 0, 0, 0, 0, 0, 0, if i = 0 then '*' else 'e'⟩
  baseAlive := fun _ => 1
  score := 0

theorem twoMissiles_listed : twoMissiles.Listed [0, 1] := ⟨⟨rfl, rfl, rfl⟩, by simp⟩

theorem enemy_destroyed : ∃ r s', twoMissiles.missileExplode 2 0 = some (r, s') ∧ s'.score = 1 ∧ r ≠ 0 := by
  obtain ⟨r, s', hrun, hhit, hscore, hzero⟩ := missileExplode_changes twoMissiles_listed (n := 2) (by simp) 0
  have hone : s'.score = 1 := by
    rw [hscore]
    decide
  refine ⟨r, s', hrun, hone, fun hr => ?_⟩
  have hsame := (hzero.mp hr).2 1 (by decide)
  rw [hhit 1 (by decide), if_pos (by decide)] at hsame
  exact absurd (congrArg Missile.exploded hsame) (by decide)

/-! ## Every run of explosions -/

/-- An enemy missile that is not exploding yet. -/
def Intact (s : Sky α) (i : α) : Prop := (s.missile i).exploded = 0 ∧ (s.missile i).c = 'e'

instance (s : Sky α) : DecidablePred s.Intact := fun i => by
  unfold Intact; infer_instance

/-- The number of them on the list. -/
def intact (s : Sky α) (l : List α) : Nat := l.countP fun i => s.Intact i

/-- An explosion, with the value returned. -/
def Explodes (fuel : Nat) (s : Sky α) (e : α × Int) (s' : Sky α) : Prop :=
  s.missileExplode fuel e.1 = some (e.2, s')

/-- A disjoint union is counted in two parts. -/
theorem countP_add {β : Type*} {P Q R : β → Prop} [DecidablePred P] [DecidablePred Q] [DecidablePred R] {l : List β}
    (hunion : ∀ i ∈ l, P i ↔ Q i ∨ R i) (hdisjoint : ∀ i ∈ l, Q i → ¬R i) :
    l.countP (fun i => P i) = l.countP (fun i => Q i) + l.countP fun i => R i := by
  induction l with
  | nil => simp
  | cons i l ih =>
      have hrest := ih (fun j hj => hunion j (List.mem_cons_of_mem _ hj))
        fun j hj => hdisjoint j (List.mem_cons_of_mem _ hj)
      have hi := hunion i List.mem_cons_self
      have hnot := hdisjoint i List.mem_cons_self
      rw [List.countP_cons, List.countP_cons, List.countP_cons, hrest]
      by_cases hQ : Q i
      · simp [hi.mpr (.inl hQ), hQ, hnot hQ]
        omega
      · by_cases hR : R i
        · simp [hi.mpr (.inr hR), hQ, hR]
          omega
        · simp [hQ, hR, mt hi.mp (not_or.mpr ⟨hQ, hR⟩)]

section Runs

variable {s s' : Sky α} {m : α} {l : List α} {r : Int}

/-- The intact enemies are those that stay, those that are hit, and `m` if it was one. -/
theorem Explosion.intact_eq (h : Explosion s m l r s') : s.intact l =
    s'.intact l + l.countP fun i => s.Hits m i ∨ i = m ∧ s.Intact i := by
  obtain ⟨k, hk, hself⟩ := h.self
  have hgone : ¬s'.Intact m := fun hm => hk (by rw [← hm.1, hself])
  refine countP_add (fun i hi => ?_) fun i hi hstays => ?_
  · by_cases him : i = m
    · subst him
      simp [hgone, Hits]
    · simp only [him, false_and, or_false, Intact, h.hit i him, hi, true_and]
      by_cases hhit : s.Hits m i
      · obtain ⟨hexploded, hc, -⟩ := hhit.2.2.2.2.2
        simp [hhit, hexploded, hc]
      · simp [hhit]
  · rintro (hhit | ⟨rfl, -⟩)
    · have hexploded : (s'.missile i).exploded = 0 := hstays.1
      rw [h.hit i hhit.1, if_pos ⟨hi, hhit⟩] at hexploded
      exact absurd hexploded (show (50 : Int) ≠ 0 by decide)
    · exact hgone hstays

/-- What an explosion does to the whole: nothing gets another kind, and what explodes goes on. -/
theorem Explosion.keeps (h : Explosion s m l r s') (i : α) : (s'.missile i).c = (s.missile i).c ∧
    ((s.missile i).exploded ≠ 0 → (s'.missile i).exploded ≠ 0) := by
  by_cases hi : i = m
  · subst hi
    obtain ⟨k, hk, hself⟩ := h.self
    rw [hself]
    exact ⟨rfl, fun _ => hk⟩
  · rw [h.hit i hi]
    split
    · exact ⟨rfl, fun _ => show (50 : Int) ≠ 0 by decide⟩
    · exact ⟨rfl, id⟩

/-- **`Conserved s l es s'`** — the balance of a run of explosions. -/
structure Conserved (s : Sky α) (l : List α) (es : List (α × Int)) (s' : Sky α) : Prop where
  listed : s'.Listed l
  returned : (es.map Prod.snd).sum =
    (s'.score - s.score) + (basesAlive s.baseAlive - basesAlive s'.baseAlive)
  once : 0 ≤ s'.score - s.score ∧ (s'.score - s.score) + s'.intact l ≤ s.intact l
  others : (∀ e ∈ es, (s.missile e.1).c ≠ 'e') → (s'.score - s.score) + s'.intact l = s.intact l
  bases : basesAlive s'.baseAlive ≤ basesAlive s.baseAlive
  dead : ∀ b, s.baseAlive b = 0 → s'.baseAlive b = 0
  keeps : ∀ i, (s'.missile i).c = (s.missile i).c ∧
    ((s.missile i).exploded ≠ 0 → (s'.missile i).exploded ≠ 0)

theorem Conserved.cons {s'' : Sky α} {es : List (α × Int)} (h : Explosion s m l r s')
    (hrest : Conserved s' l es s'') : Conserved s l ((m, r) :: es) s'' := by
  have hintact := h.intact_eq
  have hscore := h.score
  have hbases := h.bases
  have hreturned := hrest.returned
  have hhits : (l.countP fun i => s.Hits m i) ≤ l.countP fun i => s.Hits m i ∨ i = m ∧ s.Intact i :=
    List.countP_mono_left fun i _ hi => by simpa using Or.inl (of_decide_eq_true hi)
  obtain ⟨honce, hless⟩ := hrest.once
  refine ⟨hrest.listed, ?_, ⟨by omega, by omega⟩, fun hothers => ?_, hrest.bases.trans h.fewer.1,
    fun b hb => hrest.dead b (h.dead b hb), fun i => ?_⟩
  · rw [List.map_cons, List.sum_cons, hreturned, hbases]
    omega
  · have hm : (s.missile m).c ≠ 'e' := hothers (m, r) List.mem_cons_self
    have hsame : (l.countP fun i => s.Hits m i ∨ i = m ∧ s.Intact i) = l.countP fun i => s.Hits m i := by
      refine List.countP_congr fun i _ => ?_
      simp only [decide_eq_true_eq, or_iff_left_iff_imp]
      rintro ⟨rfl, hi⟩
      exact absurd hi.2 hm
    have hlater := hrest.others fun e he => by
      rw [(h.keeps e.1).1]
      exact hothers e (List.mem_cons_of_mem _ he)
    omega
  · obtain ⟨hc, hexploded⟩ := h.keeps i
    obtain ⟨hc', hexploded'⟩ := hrest.keeps i
    exact ⟨hc'.trans hc, fun hi => hexploded' (hexploded hi)⟩

/-- **The score is right.**  Any explosions of any missiles, one after the other, all end.  The values returned
add up to the rise of the score and the bases lost; the rise of the score and the intact enemies that are left
are at most the intact enemies there were, and as many unless an enemy missile explodes itself.  So none is
counted twice, and no base that is dead comes back. -/
theorem explosions_conserve (h : s.Listed l) {n : Nat} (hn : l.length ≤ n) (ms : List α) :
    ∃ es s', es.map Prod.fst = ms ∧ Run (Explodes n) s es s' ∧ Conserved s l es s' := by
  induction ms generalizing s with
  | nil => exact ⟨[], s, rfl, rfl, h, by simp, by simp, by simp, le_refl _, fun _ => id, fun _ => ⟨rfl, id⟩⟩
  | cons m ms ih =>
      obtain ⟨r, s1, hexplodes, hexplosion⟩ := missileExplode_explosion h hn m
      obtain ⟨es, s', hes, hrun, hconserved⟩ := ih hexplosion.listed
      refine ⟨(m, r) :: es, s', ?_, ⟨s1, hexplodes, hrun⟩, hconserved.cons hexplosion⟩
      rw [List.map_cons, hes]

/-- The missile of the player explodes twice. -/
theorem enemy_counted_once : ∃ es s', es.map Prod.fst = [0, 0] ∧ Run (Explodes 2) twoMissiles es s' ∧
    Conserved twoMissiles [0, 1] es s' := explosions_conserve twoMissiles_listed (by simp) [0, 0]

end Runs

end Sky

end Ece391.MissileCommand
