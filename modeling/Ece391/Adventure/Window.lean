/-
# Ece391.Adventure.Window — what the functions of `modex.c` do to the pixels of the window.

The byte of a logical pixel is at `pixelOff`, wherever the window is: the planes are `scrollSize` bytes
apart, plane 3 first, and a row is `scrollXWidth` bytes.  A window that `Fits` has all its pixels inside
the buffer, in distinct bytes, although the planes are one byte longer than `scrollSize` when the
window starts at an `x` that is no multiple of four.

There is one lemma for each function: a line is drawn into the pixels of the line and no others, a
pixel in both the old and the new window keeps its value when the window moves, and the screen shows
the window.
-/
import Ece391.Adventure.Modex
import Ece391.Lib.Transition

open Ece391.Lib

namespace Ece391.Adventure

namespace ModeX

/-! ## The layout -/

/-- **`pixelOff s x y`** — the offset in `build` of the pixel `(x, y)` of the logical plane. -/
def pixelOff (s : ModeX) (x y : Int) : Int :=
  s.img3 + (3 - x % 4) * scrollSize + x / 4 + y * scrollXWidth

/-- The pixel is in the window. -/
def InWindow (s : ModeX) (x y : Int) : Prop :=
  (s.showX ≤ x ∧ x < s.showX + scrollXDim) ∧ s.showY ≤ y ∧ y < s.showY + scrollYDim

/-- **`Fits s`** — the first byte of plane 3 and the last of plane 0 are inside the buffer. -/
structure Fits (s : ModeX) : Prop where
  low : 0 ≤ s.img3Off + s.showX / 4 + s.showY * scrollXWidth
  high : s.img3Off + 3 * scrollSize + (s.showX + scrollXDim - 1) / 4 +
    (s.showY + scrollYDim - 1) * scrollXWidth < buildBufSize

variable {s : ModeX} {x y x' y' : Int}

theorem pixelOff_eq : s.pixelOff x y = s.img3Off + 256 + (3 - x % 4) * 14560 + x / 4 + y * 80 := rfl

theorem inWindow_iff : s.InWindow x y ↔
    (s.showX ≤ x ∧ x < s.showX + 320) ∧ s.showY ≤ y ∧ y < s.showY + 182 := Iff.rfl

theorem fits_iff : s.Fits ↔ 0 ≤ s.img3Off + s.showX / 4 + s.showY * 80 ∧
    s.img3Off + 43680 + (s.showX + 319) / 4 + (s.showY + 181) * 80 < 78241 := by
  have hx : s.showX + scrollXDim - 1 = s.showX + 319 := by
    show s.showX + 320 - 1 = s.showX + 319
    omega
  have hy : s.showY + scrollYDim - 1 = s.showY + 181 := by
    show s.showY + 182 - 1 = s.showY + 181
    omega
  constructor
  · rintro ⟨hlow, hhigh⟩
    rw [hx, hy] at hhigh
    exact ⟨hlow, hhigh⟩
  · rintro ⟨hlow, hhigh⟩
    refine ⟨hlow, ?_⟩
    rw [hx, hy]
    exact hhigh

theorem buildSpan_has_iff {o : Int} : buildSpan.Has o ↔ 256 ≤ o ∧ o < 256 + 78241 := Iff.rfl

/-- Every pixel of the window is inside the buffer. -/
theorem Fits.has (h : s.Fits) (hw : s.InWindow x y) : buildSpan.Has (s.pixelOff x y) := by
  rw [fits_iff] at h
  rw [inWindow_iff] at hw
  rw [buildSpan_has_iff, pixelOff_eq]
  omega

/-- Distinct pixels of the window are in distinct bytes. -/
theorem pixelOff_inj (hw : s.InWindow x y) (hw' : s.InWindow x' y')
    (h : s.pixelOff x y = s.pixelOff x' y') : x = x' ∧ y = y' := by
  rw [inWindow_iff] at hw hw'
  rw [pixelOff_eq, pixelOff_eq] at h
  -- two planes are further apart than two bytes of one plane, the byte of the shift included
  have hplane : x % 4 = x' % 4 := by
    rcases Int.lt_trichotomy (x % 4) (x' % 4) with hlt | heq | hgt
    · omega
    · exact heq
    · omega
  have hbyte : x / 4 + y * 80 = x' / 4 + y' * 80 := by omega
  omega

end ModeX

/-! ## Lines -/

section Lines

variable {s : ModeX}

theorem drawColumn_eq (buf : Line) (pOff base : Int) (n i : Nat) (build : Int → UInt8) :
    drawColumn buf pOff n i (base + i * scrollXWidth) build =
      writeEach buildSpan (fun k : Nat => base + k * scrollXWidth + pOff * scrollSize)
        (fun k => some (buf k)) (List.range' i n) build := by
  induction n generalizing i build with
  | zero => rfl
  | succ n ih =>
      have hnext : base + i * scrollXWidth + scrollXWidth = base + (i + 1 : Nat) * scrollXWidth := by
        rw [Int.natCast_add, Int.add_mul, Int.add_assoc]
        rfl
      rw [drawColumn, List.range'_succ, writeEach, Option.bind_some, hnext, funext (ih (i + 1))]

theorem drawRow_eq (buf : Line) (base x : Int) (n i : Nat) (build : Int → UInt8) :
    drawRow buf n i (base + (x + i) / 4) (3 - (x + i) % 4) build =
      writeEach buildSpan (fun k : Nat => base + (x + k) / 4 + (3 - (x + k) % 4) * scrollSize)
        (fun k => some (buf k)) (List.range' i n) build := by
  induction n generalizing i build with
  | zero => rfl
  | succ n ih =>
      rw [drawRow, List.range'_succ, writeEach, Option.bind_some]
      congr 1
      funext build
      rw [← ih (i + 1), Int.natCast_add, Int.natCast_one]
      -- after plane 0 comes plane 3 of the next byte
      split
      · have haddr : base + (x + (i + 1)) / 4 = base + (x + i) / 4 + 1 := by omega
        have hplane : 3 - (x + (i + 1)) % 4 = 3 := by omega
        rw [haddr, hplane]
      · have haddr : base + (x + (i + 1)) / 4 = base + (x + i) / 4 := by omega
        have hplane : 3 - (x + (i + 1)) % 4 = 3 - (x + i) % 4 - 1 := by omega
        rw [haddr, hplane]

/-- A loop that stores the values of a line into pixels of the window. -/
theorem ModeX.Fits.writeEach (h : s.Fits) (px py : Nat → Int) (buf : Line) (n : Nat)
    (hw : ∀ k < n, s.InWindow (px k) (py k)) (hinj : ∀ j k, px j = px k → py j = py k → j = k) :
    ∃ build, Lib.writeEach buildSpan (fun k => s.pixelOff (px k) (py k)) (fun k => some (buf k))
        (List.range' 0 n) s.build = some build ∧
      (∀ k < n, build (s.pixelOff (px k) (py k)) = buf k) ∧
      ∀ x y, s.InWindow x y → (∀ k < n, ¬(x = px k ∧ y = py k)) →
        build (s.pixelOff x y) = s.build (s.pixelOff x y) := by
  have hmem : ∀ k ∈ List.range' 0 n, k < n := fun k hk => by
    rw [← List.range_eq_range'] at hk
    exact List.mem_range.mp hk
  obtain ⟨build, hbuild, hcells, hframe⟩ := writeEach_spec (S := buildSpan)
    (fun k => s.pixelOff (px k) (py k)) (fun k : Nat => buf k) (List.range' 0 n) s.build
    (fun k _ => rfl) (fun k hk => h.has (hw k (hmem k hk)))
    (List.Pairwise.imp_of_mem (fun {j k} hj hk (hne : j ≠ k) heq =>
      have hxy := ModeX.pixelOff_inj (hw j (hmem j hj)) (hw k (hmem k hk)) heq
      hne (hinj j k hxy.1 hxy.2)) List.nodup_range')
  refine ⟨build, hbuild, fun k hk => hcells k ?_, fun x y hxy hother => ?_⟩
  · rw [← List.range_eq_range']
    exact List.mem_range.mpr hk
  · exact hframe _ fun k hk heq =>
      hother k (hmem k hk) (ModeX.pixelOff_inj hxy (hw k (hmem k hk)) heq)

/-- **A row.**  The pixels of the row take the values of the line and no other pixel of the window
changes; outside the window there is no row. -/
theorem drawHorizLine_spec (horizLineFn : Int → Int → Line) (h : s.Fits) (y : Int) :
    ∃ ret build, drawHorizLine horizLineFn s y = some (ret, { s with build := build }) ∧
      ∀ X Y, s.InWindow X Y → build (s.pixelOff X Y) =
        if Y = y + s.showY then horizLineFn s.showX Y (X - s.showX)
        else s.build (s.pixelOff X Y) := by
  unfold drawHorizLine
  split
  case isTrue hout =>
      refine ⟨-1, s.build, rfl, fun X Y hw => ?_⟩
      rw [ModeX.InWindow] at hw
      rw [if_neg (by omega)]
  case isFalse hin =>
      obtain ⟨build, hbuild, hrow, hrest⟩ := h.writeEach (fun k => s.showX + k)
        (fun _ => y + s.showY) (horizLineFn s.showX (y + s.showY)) scrollXDim.toNat
        (fun k hk => by rw [ModeX.InWindow]; omega) (fun j k hjk _ => by omega)
      have hadr : (fun k : Nat => s.img3 + (y + s.showY) * scrollXWidth + (s.showX + k) / 4 +
          (3 - (s.showX + k) % 4) * scrollSize) =
          fun k : Nat => s.pixelOff (s.showX + k) (y + s.showY) := by
        funext k
        rw [ModeX.pixelOff]
        omega
      have hloop := drawRow_eq (horizLineFn s.showX (y + s.showY))
        (s.img3 + (y + s.showY) * scrollXWidth) s.showX scrollXDim.toNat 0 s.build
      rw [hadr, hbuild, Int.natCast_zero, Int.add_zero, Int.add_right_comm] at hloop
      refine ⟨0, build, congrArg (Option.map _) hloop, fun X Y hw => ?_⟩
      split
      case isTrue hY =>
          rw [ModeX.InWindow] at hw
          obtain ⟨k, hk⟩ := Int.eq_ofNat_of_zero_le (show 0 ≤ X - s.showX by omega)
          obtain rfl : X = s.showX + k := by omega
          rw [hY, hrow k (by omega), hk]
      case isFalse hY => exact hrest X Y hw fun k _ hk => hY hk.2

/-- **A column.**  The same for the pixels of a column. -/
theorem drawVertLine_spec (vertLineFn : Int → Int → Line) (h : s.Fits) (x : Int) :
    ∃ ret build, drawVertLine vertLineFn s x = some (ret, { s with build := build }) ∧
      ∀ X Y, s.InWindow X Y → build (s.pixelOff X Y) =
        if X = x + s.showX then vertLineFn X s.showY (Y - s.showY)
        else s.build (s.pixelOff X Y) := by
  unfold drawVertLine
  split
  case isTrue hout =>
      refine ⟨-1, s.build, rfl, fun X Y hw => ?_⟩
      rw [ModeX.InWindow] at hw
      rw [if_neg (by omega)]
  case isFalse hin =>
      obtain ⟨build, hbuild, hcolumn, hrest⟩ := h.writeEach (fun _ => x + s.showX)
        (fun k => s.showY + k) (vertLineFn (x + s.showX) s.showY) scrollYDim.toNat
        (fun k hk => by rw [ModeX.InWindow]; omega) (fun j k _ hjk => by omega)
      have hadr : (fun k : Nat => s.img3 + (x + s.showX) / 4 + s.showY * scrollXWidth +
          k * scrollXWidth + (3 - (x + s.showX) % 4) * scrollSize) =
          fun k : Nat => s.pixelOff (x + s.showX) (s.showY + k) := by
        funext k
        rw [ModeX.pixelOff, Int.add_mul]
        omega
      have hloop := drawColumn_eq (vertLineFn (x + s.showX) s.showY) (3 - (x + s.showX) % 4)
        (s.img3 + (x + s.showX) / 4 + s.showY * scrollXWidth) scrollYDim.toNat 0 s.build
      rw [hadr, hbuild, Int.natCast_zero, Int.zero_mul, Int.add_zero] at hloop
      refine ⟨0, build, congrArg (Option.map _) hloop, fun X Y hw => ?_⟩
      split
      case isTrue hX =>
          rw [ModeX.InWindow] at hw
          obtain ⟨k, hk⟩ := Int.eq_ofNat_of_zero_le (show 0 ≤ Y - s.showY by omega)
          obtain rfl : Y = s.showY + k := by omega
          rw [hX, hcolumn k (by omega), hk]
      case isFalse hX => exact hrest X Y hw fun k _ hk => hX hk.1

end Lines

/-! ## The window moves -/

section Moves

variable {s : ModeX}

/-- Where `set_view_window` puts a window that no longer fits. -/
theorem ModeX.fits_baseInit {x y : Int} (hx : s.showX = x) (hy : s.showY = y)
    (hoff : s.img3Off = buildBaseInit - x / 4 - y * scrollXWidth) : s.Fits := by
  change s.img3Off = 10000 - x / 4 - y * 80 at hoff
  rw [ModeX.fits_iff, hoff, hx, hy]
  omega

/-- The copy of `set_view_window`, in the direction it takes. -/
theorem copyEach_window (start target : Int) (n : Nat) (build : Int → UInt8)
    (hstart : ∀ i < n, buildSpan.Has (start + i)) (htarget : ∀ i < n, buildSpan.Has (target + i)) :
    ∃ build', copyEach buildSpan target start
        (if start < target then (List.range n).reverse else List.range n) build = some build' ∧
      ∀ i < n, build' (target + i) = build (start + i) := by
  split
  case isTrue hlt =>
      obtain ⟨build', hbuild', hcells, -⟩ := copyEach_spec target start (List.range n).reverse build
        (fun i hi => hstart i (List.mem_range.mp (List.mem_reverse.mp hi)))
        (fun i hi => htarget i (List.mem_range.mp (List.mem_reverse.mp hi)))
        (pairwise_fresh_down (Int.le_of_lt hlt) n)
      exact ⟨build', hbuild', fun i hi => hcells i (List.mem_reverse.mpr (List.mem_range.mpr hi))⟩
  case isFalse hge =>
      obtain ⟨build', hbuild', hcells, -⟩ := copyEach_spec target start (List.range n) build
        (fun i hi => hstart i (List.mem_range.mp hi)) (fun i hi => htarget i (List.mem_range.mp hi))
        (pairwise_fresh_up (Int.not_lt.mp hge) n)
      exact ⟨build', hbuild', fun i hi => hcells i (List.mem_range.mpr hi)⟩

/-- **A move of the window.**  The new window fits and a pixel in both windows keeps its value. -/
theorem setViewWindow_spec (h : s.Fits) (x y : Int) :
    ∃ s', setViewWindow s x y = some s' ∧ (s'.showX = x ∧ s'.showY = y) ∧ s'.Fits ∧
      s'.targetImg = s.targetImg ∧
      ∀ X Y, s.InWindow X Y → s'.InWindow X Y →
        s'.build (s'.pixelOff X Y) = s.build (s.pixelOff X Y) := by
  unfold setViewWindow
  dsimp only
  split
  case isTrue hfits => exact ⟨_, rfl, ⟨rfl, rfl⟩, ⟨hfits.1, hfits.2⟩, rfl, fun _ _ _ _ => rfl⟩
  split
  case isTrue hapart =>
      refine ⟨_, rfl, ⟨rfl, rfl⟩, ModeX.fits_baseInit rfl rfl rfl, rfl, fun X Y hold hnew => ?_⟩
      rw [ModeX.InWindow] at hold hnew
      dsimp only at hnew
      omega
  case isFalse hoverlap =>
      -- the corners of the part that stays visible
      generalize hsx : (if x > s.showX then x else s.showX) = startX
      generalize hex : (if x > s.showX then s.showX else x) + scrollXDim - 1 = endX
      generalize hsy : (if y > s.showY then y else s.showY) = startY
      generalize hey : (if y > s.showY then s.showY else y) + scrollYDim - 1 = endY
      have hx : startX = x ∧ endX = s.showX + 319 ∧ s.showX < x ∨
          startX = s.showX ∧ endX = x + 319 ∧ x ≤ s.showX := by
        change _ + (320 : Int) - 1 = _ at hex
        split at hsx <;> omega
      have hy : startY = y ∧ endY = s.showY + 181 ∧ s.showY < y ∨
          startY = s.showY ∧ endY = y + 181 ∧ y ≤ s.showY := by
        change _ + (182 : Int) - 1 = _ at hey
        split at hsy <;> omega
      have hnear : x < s.showX + 320 ∧ s.showX < x + 320 ∧ y < s.showY + 182 ∧ s.showY < y + 182 := by
        change ¬(x ≤ s.showX - 320 ∨ x ≥ s.showX + 320 ∨ y ≤ s.showY - 182 ∨ y ≥ s.showY + 182)
          at hoverlap
        omega
      clear hsx hex hsy hey hoverlap
      rw [ModeX.fits_iff] at h
      obtain ⟨n, hn⟩ : ∃ n : Nat, n = (endX / 4 + endY * 80 + 1 - (startX / 4 + startY * 80) +
        43680).toNat := ⟨_, rfl⟩
      obtain ⟨build', hbuild', hcells⟩ := copyEach_window
        (s.img3Off + 256 + (startX / 4 + startY * 80))
        (10000 - x / 4 - y * 80 + 256 + (startX / 4 + startY * 80)) n s.build
        (fun i hi => by rw [ModeX.buildSpan_has_iff]; omega)
        (fun i hi => by rw [ModeX.buildSpan_has_iff]; omega)
      rw [hn] at hbuild'
      refine ⟨_, congrArg (Option.map _) hbuild', ⟨rfl, rfl⟩, ModeX.fits_baseInit rfl rfl rfl, rfl,
        fun X Y hold hnew => ?_⟩
      rw [ModeX.inWindow_iff] at hold hnew
      dsimp only at hnew
      -- the pixel is one of the bytes copied
      obtain ⟨k, hk⟩ := Int.eq_ofNat_of_zero_le
        (show 0 ≤ (3 - X % 4) * 14560 + X / 4 + Y * 80 - (startX / 4 + startY * 80) by omega)
      have hcopied := hcells k (by omega)
      rw [← hk] at hcopied
      have hnewOff : 10000 - x / 4 - y * 80 + 256 + (startX / 4 + startY * 80) +
          ((3 - X % 4) * 14560 + X / 4 + Y * 80 - (startX / 4 + startY * 80)) =
          10000 - x / 4 - y * 80 + 256 + (3 - X % 4) * 14560 + X / 4 + Y * 80 := by omega
      have holdOff : s.img3Off + 256 + (startX / 4 + startY * 80) +
          ((3 - X % 4) * 14560 + X / 4 + Y * 80 - (startX / 4 + startY * 80)) =
          s.img3Off + 256 + (3 - X % 4) * 14560 + X / 4 + Y * 80 := by omega
      rw [hnewOff, holdOff] at hcopied
      exact hcopied

end Moves

/-! ## The screen -/

section Screen

variable {s : ModeX}

theorem copyImage_spec (build : Int → UInt8) {img : Int} {scrAddr : UInt16} (plane : Int → UInt8)
    (hsrc : ∀ j : Nat, j < 14560 → buildSpan.Has (img + j)) (hdst : scrAddr.toNat + 14560 ≤ 65536) :
    ∃ plane', copyImage build img scrAddr plane = some plane' ∧
      ∀ j : Nat, j < 14560 → plane' (scrAddr.toNat + j) = build (img + j) := by
  obtain ⟨plane', hplane', hcells, -⟩ := writeEach_spec (S := videoSpan)
    (fun j : Nat => (scrAddr.toNat : Int) + j) (fun j => build (img + j)) (List.range 14560) plane
    (fun j hj => fetch_of_has (hsrc j (List.mem_range.mp hj)))
    (fun j hj => by
      have hj := List.mem_range.mp hj
      show (0 : Int) ≤ _ ∧ _ < (65536 : Int)
      omega)
    (List.nodup_range.imp fun hne heq => hne (by omega))
  exact ⟨plane', hplane', fun j hj => hcells j (List.mem_range.mpr hj)⟩

/-- The source address of a plane of the display. -/
def ModeX.planeAddr (s : ModeX) (i : Nat) : Int :=
  s.img3 + s.showX / 4 + s.showY * scrollXWidth + (3 - s.showX % 4 - i + 4) % 4 * scrollSize +
    if 3 - s.showX % 4 < i then 1 else 0

/-- Plane `c % 4` of the display starts with the pixels of its columns, row by row. -/
theorem ModeX.planeAddr_eq (s : ModeX) (c r : Nat) :
    s.planeAddr (c % 4) + (80 * r + c / 4 : Nat) = s.pixelOff (s.showX + c) (s.showY + r) := by
  rw [ModeX.pixelOff_eq]
  show s.img3Off + 256 + s.showX / 4 + s.showY * 80 + _ % 4 * 14560 + _ + _ = _
  split <;> omega

/-- All of a plane is inside the buffer. -/
theorem ModeX.Fits.planeAddr_has (h : s.Fits) {i j : Nat} (hi : i < 4) (hj : j < 14560) :
    buildSpan.Has (s.planeAddr i + j) := by
  have hpixel := s.planeAddr_eq (j % 80 * 4 + i) (j / 80)
  have hplane : (j % 80 * 4 + i) % 4 = i := by omega
  have hbyte : 80 * (j / 80) + (j % 80 * 4 + i) / 4 = j := by omega
  rw [hplane, hbyte] at hpixel
  rw [hpixel]
  apply h.has
  rw [ModeX.inWindow_iff]
  omega

theorem showPlanes_spec (h : s.Fits) {target : UInt16} (htarget : target.toNat + 14560 ≤ 65536)
    (planes : List Nat) (hplanes : ∀ i ∈ planes, i < 4) (hnodup : planes.Nodup)
    (video : Nat → Int → UInt8) :
    ∃ video', showPlanes s.build (s.img3 + s.showX / 4 + s.showY * scrollXWidth) (3 - s.showX % 4)
        target planes video = some video' ∧
      (∀ i ∈ planes, ∀ j : Nat, j < 14560 →
        video' i (target.toNat + j) = s.build (s.planeAddr i + j)) ∧
      ∀ i, i ∉ planes → video' i = video i := by
  induction planes generalizing video with
  | nil => exact ⟨video, rfl, nofun, fun _ _ => rfl⟩
  | cons i planes ih =>
      rw [List.nodup_cons] at hnodup
      obtain ⟨plane, hplane, hcells⟩ := copyImage_spec s.build (video i)
        (fun j hj => h.planeAddr_has (hplanes i List.mem_cons_self) hj) htarget
      obtain ⟨video', hvideo', hthese, hothers⟩ := ih
        (fun k hk => hplanes k (List.mem_cons_of_mem _ hk)) hnodup.2 (Function.update video i plane)
      refine ⟨video', ?_, ?_, ?_⟩
      · rw [showPlanes]
        exact (congrArg (Option.bind · _) hplane).trans hvideo'
      · intro k hk j hj
        rcases List.mem_cons.mp hk with rfl | hk
        · rw [hothers k hnodup.1, Function.update_self]
          exact hcells j hj
        · exact hthese k hk j hj
      · intro k hk
        rw [List.mem_cons, not_or] at hk
        rw [hothers k hk.2, Function.update_of_ne hk.1]

/-- **The screen.**  Video memory shows the window on the page that was not displayed. -/
theorem showScreen_spec (h : s.Fits) (htarget : (s.targetImg ^^^ 0x4000).toNat + 14560 ≤ 65536) :
    ∃ s', showScreen s = some s' ∧ s'.targetImg = s.targetImg ^^^ 0x4000 ∧
      s'.startAddr = s'.targetImg ∧
      (s'.build = s.build ∧ s'.img3Off = s.img3Off ∧ s'.showX = s.showX ∧ s'.showY = s.showY) ∧
      ∀ c r : Nat, c < 320 → r < 182 →
        s'.video (c % 4) (s'.targetImg.toNat + (80 * r + c / 4 : Nat)) =
          s.build (s.pixelOff (s.showX + c) (s.showY + r)) := by
  obtain ⟨video, hvideo, hcells, -⟩ := showPlanes_spec h htarget (List.range 4)
    (fun i hi => List.mem_range.mp hi) List.nodup_range s.video
  unfold showScreen
  dsimp only
  rw [hvideo]
  refine ⟨_, rfl, rfl, rfl, ⟨rfl, rfl, rfl, rfl⟩, fun c r hc hr => ?_⟩
  rw [← s.planeAddr_eq]
  exact hcells (c % 4) (List.mem_range.mpr (by omega)) _ (by omega)

end Screen

end Ece391.Adventure
