/-
# Ece391.MissileCommand.Crosshairs — firing at the crosshairs (`mp1/missile-command.c`).

`update_crosshairs` walks the crosshairs over the screen, column 79 and row 24 being the last ones, and
fires missiles at them from the lower right corner.  `make_missile` scales the direction to the speed of the
missile, which takes a division by its length; the arithmetic is that of `int`.

A missile fired at the corner it starts from has no direction: the length is zero, and so is the divisor
(`updateCrosshairs_isOk_iff`).  From everywhere else the arithmetic is safe, since the screen is small: the
squares stay below 2^13 before the shift by 16, and the distances times the speed below 2^14.
-/
import Mathlib.Data.Nat.Sqrt
import Mathlib.Tactic.Linarith
import Ece391.Lib.Checked
import Ece391.Lib.Transition

open Ece391.Lib

namespace Ece391.MissileCommand

/-! ## The program -/

/-- `command_t`. -/
inductive Command
  | noKey | quit | left | right | up | down | fire
  deriving DecidableEq, Repr

/-- `struct missile`, without the link of the list that the driver keeps. -/
structure Missile where
  x : Int
  y : Int
  vx : Int
  vy : Int
  destX : Int
  destY : Int
  exploded : Int
  c : Char
  deriving DecidableEq, Repr

/-- `mag = sqrt (...)`: the root is exact enough for its integer part. -/
def isqrt (n : Int) : Except Fault Int := int32 (Nat.sqrt n.toNat)

/-- **`makeMissile`** — `make_missile`.  The lower 16 bits of a shifted coordinate are zero, so `| 0x8000` adds
the half. -/
def makeMissile (sx sy dx dy : Int) (c : Char) (vel : Int) : Except Fault Missile := do
  let x ← shl32 sx 16
  let y ← shl32 sy 16
  let vx ← sub32 dx sx
  let vy ← sub32 dy sy
  let xx ← mul32 vx vx
  let yy ← mul32 vy vy
  let square ← add32 xx yy
  let scaled ← shl32 square 16
  let mag ← isqrt scaled
  let left ← shl32 vx 16
  let left ← mul32 left vel
  let mvx ← div32 left mag
  let down ← shl32 vy 16
  let down ← mul32 down vel
  let mvy ← div32 down mag
  return ⟨x + 0x8000, y + 0x8000, mvx, mvy, dx, dy, 0, c⟩

/-- The static variables of `update_crosshairs`, and the count of missiles fired. -/
structure Crosshairs where
  chx : Int
  chy : Int
  fired : Int
  deriving DecidableEq, Repr

/-- The middle of the screen. -/
def start : Crosshairs := ⟨80 / 2, 25 / 2, 0⟩

/-- What is asked of the driver. -/
inductive Request
  | addMissile (m : Missile)
  | moveXhairs (d : UInt32)
  deriving DecidableEq, Repr

/-- `dx` and `dy`. -/
def Command.step : Command → Int × Int
  | .left => (-1, 0)
  | .right => (1, 0)
  | .up => (0, -1)
  | .down => (0, 1)
  | .noKey | .quit | .fire => (0, 0)

/-- The two tests of a coordinate after it moved: `stop` is where the first begins to clip, to `last`. -/
def clip (stop last n : Int) : Int :=
  let n := if stop ≤ n then last else n
  if 0 > n then 0 else n

/-- **`updateCrosshairs`** — `update_crosshairs`.  The rows are clipped from 24 on, the columns from 80. -/
def updateCrosshairs (s : Crosshairs) (cmd : Command) : Except Fault (Crosshairs × Option Request) :=
  match cmd with
  | .fire => do
      let m ← makeMissile 79 24 s.chx s.chy '*' 200
      return ({ s with fired := s.fired + 1 }, some (.addMissile m))
  | cmd =>
      let (dx, dy) := cmd.step
      if dx ≠ 0 ∨ dy ≠ 0 then
        let low : UInt32 := 0xFFFF
        let d := (UInt32.ofInt dx &&& low) ||| (UInt32.ofInt dy &&& low) <<< 16
        .ok ({ s with chx := clip 80 79 (s.chx + dx), chy := clip 24 24 (s.chy + dy) },
          some (.moveXhairs d))
      else .ok (s, none)

/-- **`Updates s cmd s'`** — a command is carried out. -/
def Updates (s : Crosshairs) (cmd : Command) (s' : Crosshairs) : Prop :=
  ∃ request, updateCrosshairs s cmd = .ok (s', request)

/-! ## Where the crosshairs can be -/

/-- The crosshairs are on the screen. -/
def OnScreen (x y : Int) : Prop := (0 ≤ x ∧ x ≤ 79) ∧ 0 ≤ y ∧ y ≤ 24

instance (x y : Int) : Decidable (OnScreen x y) := by
  unfold OnScreen; infer_instance

theorem onScreen_start : OnScreen start.chx start.chy := by decide

theorem clip_range {stop last n : Int} (hstop : stop ≤ last + 1) (hlast : 0 ≤ last) :
    0 ≤ clip stop last n ∧ clip stop last n ≤ last := by
  unfold clip
  dsimp only
  split <;> split <;> omega

theorem Updates.onScreen {s s' : Crosshairs} {cmd : Command} (h : Updates s cmd s')
    (hs : OnScreen s.chx s.chy) : OnScreen s'.chx s'.chy := by
  obtain ⟨request, h⟩ := h
  unfold updateCrosshairs at h
  split at h
  · cases hm : makeMissile 79 24 s.chx s.chy '*' 200 with
    | error e =>
        rw [hm] at h
        cases h
    | ok m =>
        rw [hm] at h
        cases h
        exact hs
  · dsimp only at h
    split at h
    · cases h
      exact ⟨clip_range (by decide) (by decide), clip_range (by decide) (by decide)⟩
    · cases h
      exact hs

/-! ## The arithmetic of a missile -/

section Arithmetic

variable {sx sy dx dy vel : Int}

/-- The length of the direction, scaled up by 2^8. -/
def magnitude (vx vy : Int) : Int := Nat.sqrt ((vx * vx + vy * vy) * 2 ^ 16).toNat

theorem square_range {v : Int} (hv : -79 ≤ v ∧ v ≤ 79) : 0 ≤ v * v ∧ v * v ≤ 6241 := by
  constructor
  · exact mul_self_nonneg v
  · nlinarith

/-- The length is zero only if there is no direction. -/
theorem magnitude_pos {vx vy : Int} (h : ¬(vx = 0 ∧ vy = 0)) : 0 < magnitude vx vy := by
  have hsquare : 0 < vx * vx + vy * vy := by
    rcases not_and_or.mp h with hx | hy
    · have hpos : 0 < vx * vx := mul_self_pos.mpr hx
      have hnonneg := mul_self_nonneg vy
      omega
    · have hpos : 0 < vy * vy := mul_self_pos.mpr hy
      have hnonneg := mul_self_nonneg vx
      omega
  have hroot : 0 < Nat.sqrt ((vx * vx + vy * vy) * 2 ^ 16).toNat := Nat.sqrt_pos.mpr (by omega)
  exact Int.natCast_pos.mpr hroot

theorem isqrt_of_range {n : Int} (h : 0 ≤ n ∧ n < 2 ^ 31) : isqrt n = .ok (Nat.sqrt n.toNat) := by
  have hle : Nat.sqrt n.toNat ≤ n.toNat := Nat.sqrt_le_self _
  refine int32_of_range ?_
  unfold IsInt32
  omega

/-- **A missile on the screen**, at a speed of at most 200: it has the velocity that the formula gives over the
integers, or no direction. -/
theorem makeMissile_eq (hs : OnScreen sx sy) (hd : OnScreen dx dy) (c : Char) (hvel : 0 ≤ vel ∧ vel ≤ 200) :
    makeMissile sx sy dx dy c vel =
      if dx - sx = 0 ∧ dy - sy = 0 then .error .divisionByZero
      else .ok ⟨sx * 2 ^ 16 + 0x8000, sy * 2 ^ 16 + 0x8000,
        ((dx - sx) * 2 ^ 16 * vel).tdiv (magnitude (dx - sx) (dy - sy)),
        ((dy - sy) * 2 ^ 16 * vel).tdiv (magnitude (dx - sx) (dy - sy)), dx, dy, 0, c⟩ := by
  obtain ⟨hsx, hsy⟩ := hs
  obtain ⟨hdx, hdy⟩ := hd
  have hvx : -79 ≤ dx - sx ∧ dx - sx ≤ 79 := by omega
  have hvy : -79 ≤ dy - sy ∧ dy - sy ≤ 79 := by omega
  unfold makeMissile
  rw [shl32_of_range (show IsInt32 (sx * 2 ^ 16) by unfold IsInt32; omega), ok_bind,
    shl32_of_range (show IsInt32 (sy * 2 ^ 16) by unfold IsInt32; omega), ok_bind,
    sub32_of_range (show IsInt32 (dx - sx) by unfold IsInt32; omega), ok_bind,
    sub32_of_range (show IsInt32 (dy - sy) by unfold IsInt32; omega), ok_bind]
  generalize dx - sx = vx at hvx ⊢
  generalize dy - sy = vy at hvy ⊢
  have hxx := square_range hvx
  have hyy := square_range hvy
  have hscaled : ∀ v : Int, -79 ≤ v ∧ v ≤ 79 → -2 ^ 31 < v * 2 ^ 16 * vel ∧ v * 2 ^ 16 * vel < 2 ^ 31 := by
    intro v hv
    constructor <;> nlinarith
  have hx := hscaled vx hvx
  have hy := hscaled vy hvy
  rw [mul32_of_range (show IsInt32 (vx * vx) by unfold IsInt32; omega), ok_bind,
    mul32_of_range (show IsInt32 (vy * vy) by unfold IsInt32; omega), ok_bind,
    add32_of_range (show IsInt32 (vx * vx + vy * vy) by unfold IsInt32; omega), ok_bind,
    shl32_of_range (show IsInt32 ((vx * vx + vy * vy) * 2 ^ 16) by unfold IsInt32; omega), ok_bind,
    isqrt_of_range (by omega), ok_bind,
    shl32_of_range (show IsInt32 (vx * 2 ^ 16) by unfold IsInt32; omega), ok_bind,
    mul32_of_range (show IsInt32 (vx * 2 ^ 16 * vel) from ⟨by omega, by omega⟩), ok_bind]
  by_cases hzero : vx = 0 ∧ vy = 0
  · obtain ⟨rfl, rfl⟩ := hzero
    rw [if_pos ⟨rfl, rfl⟩]
    rfl
  · have hmag : 0 < (Nat.sqrt ((vx * vx + vy * vy) * 2 ^ 16).toNat : Int) := magnitude_pos hzero
    rw [if_neg hzero, div32_of_pos hx hmag, ok_bind,
      shl32_of_range (show IsInt32 (vy * 2 ^ 16) by unfold IsInt32; omega), ok_bind,
      mul32_of_range (show IsInt32 (vy * 2 ^ 16 * vel) from ⟨by omega, by omega⟩), ok_bind,
      div32_of_pos hy hmag, ok_bind]
    rfl

end Arithmetic

/-! ## The main result -/

/-- **`Fires s cmd`** — the call of `make_missile`, if the command makes one, computes a velocity. -/
def Fires (s : Crosshairs) (cmd : Command) : Prop :=
  cmd = .fire → ∃ m, makeMissile 79 24 s.chx s.chy '*' 200 = .ok m

/-- **Firing is safe exactly while the crosshairs are not where the missiles start.**  For every sequence of
commands from the start of the game. -/
theorem firing_safe_iff (cmds : List Command) :
    AllSteps Updates Fires start cmds ↔
      AllSteps Updates (fun s cmd => cmd = .fire → ¬(s.chx = 79 ∧ s.chy = 24)) start cmds := by
  have hstep : ∀ s : Crosshairs, OnScreen s.chx s.chy → ∀ cmd,
      Fires s cmd ↔ (cmd = .fire → ¬(s.chx = 79 ∧ s.chy = 24)) := by
    intro s hs cmd
    refine imp_congr_right fun _ => ?_
    rw [makeMissile_eq (by decide) hs '*' (by decide)]
    by_cases hcorner : s.chx - 79 = 0 ∧ s.chy - 24 = 0
    · rw [if_pos hcorner]
      apply iff_of_false
      · rintro ⟨m, hm⟩
        cases hm
      · omega
    · rw [if_neg hcorner]
      refine iff_of_true ⟨_, rfl⟩ ?_
      omega
  have honScreen : ∀ {before : List Command} {s : Crosshairs}, Run Updates start before s →
      OnScreen s.chx s.chy := fun hrun =>
    hrun.invariant (I := fun s => OnScreen s.chx s.chy) onScreen_start fun _ _ _ h hs => hs.onScreen h
  constructor
  · intro h before cmd after s hcmds hrun
    exact (hstep s (honScreen hrun) cmd).mp (h before cmd after s hcmds hrun)
  · intro h before cmd after s hcmds hrun
    exact (hstep s (honScreen hrun) cmd).mpr (h before cmd after s hcmds hrun)

/-- The commands in order. -/
def carryOut (s : Crosshairs) : List Command → Except Fault Crosshairs
  | [] => .ok s
  | cmd :: cmds => do
      let (s, _) ← updateCrosshairs s cmd
      carryOut s cmds

theorem run_of_carryOut {s s' : Crosshairs} {cmds : List Command} (h : carryOut s cmds = .ok s') :
    Run Updates s cmds s' := by
  induction cmds generalizing s with
  | nil => exact Except.ok.inj h
  | cons cmd cmds ih =>
      unfold carryOut at h
      cases hupdate : updateCrosshairs s cmd with
      | error e =>
          rw [hupdate] at h
          cases h
      | ok result =>
          rw [hupdate] at h
          exact ⟨result.1, ⟨result.2, hupdate⟩, ih h⟩

/-- To the lower right corner of the screen. -/
def toTheCorner : List Command := List.replicate 39 .right ++ List.replicate 12 .down

/-- The division there is one by zero. -/
theorem corner_fire_divides_by_zero :
    ∃ s, Run Updates start toTheCorner s ∧ makeMissile 79 24 s.chx s.chy '*' 200 = .error .divisionByZero ∧
      ¬AllSteps Updates Fires start (toTheCorner ++ [.fire]) := by
  have hrun : Run Updates start toTheCorner ⟨79, 24, 0⟩ := run_of_carryOut (by decide +kernel)
  have hzero : makeMissile 79 24 79 24 '*' 200 = .error .divisionByZero := by decide
  refine ⟨_, hrun, hzero, fun h => ?_⟩
  obtain ⟨m, hm⟩ := h toTheCorner .fire [] _ rfl hrun rfl
  rw [hzero] at hm
  cases hm

end Ece391.MissileCommand
