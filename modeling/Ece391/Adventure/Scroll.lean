/-
# Ece391.Adventure.Scroll — panning over the photo of a room (`mp2/adventure.c`).

`move_photo_*` move the window by some pixels, up to the edge of the photo, and draw the lines that came
into view; `redraw_room` draws all of them.  `Shown scene d` says that the build buffer holds the picture
of the room on the whole window, and that the window is where `map_x` and `map_y` are.  A redraw at the
origin establishes it and every move preserves it, so the screen shows the same picture however the
window got where it is (`scrolling_shows_picture`).

`map_x` and `map_y` are unsigned, the speeds and the distance are not: the conversions between them are
`toUnsigned` and `toSigned`.
-/
import Ece391.Adventure.Render
import Ece391.Adventure.Window

open Ece391.Lib

namespace Ece391.Adventure

/-! ## The moves -/

/-- Conversion to `unsigned int`, and to `int`. -/
def toUnsigned (n : Int) : Int := n % 2 ^ 32
def toSigned (n : Int) : Int := (n + 2 ^ 31) % 2 ^ 32 - 2 ^ 31

/-- `game_info_t`; the room is the scene the functions below are about. -/
structure GameInfo where
  mapX : Int
  mapY : Int
  xSpeed : Int
  ySpeed : Int

/-- The game information and the state of `modex.c`. -/
structure Display where
  game : GameInfo
  screen : ModeX

/-- A loop that draws lines; their return values are not looked at. -/
def drawEach (draw : ModeX → Int → Option (Int × ModeX)) : List Int → ModeX → Option ModeX
  | [], s => some s
  | i :: is, s => (draw s i).bind fun drawn => drawEach draw is drawn.2

/-- The end of each move: shift the logical view and draw the newly exposed lines. -/
def shiftView (s : ModeX) (game : GameInfo) (draw : ModeX → Int → Option (Int × ModeX))
    (lines : List Int) : Option Display :=
  (setViewWindow s (toSigned game.mapX) (toSigned game.mapY)).bind fun s =>
    (drawEach draw lines s).map (Display.mk game)

/-- The lines `0 .. delta - 1`, and the lines `dim - 1, dim - 2, .. dim - delta`. -/
def firstLines (delta : Int) : List Int := (List.range delta.toNat).map fun idx : Nat => (idx : Int)
def lastLines (dim delta : Int) : List Int :=
  (List.range' 1 delta.toNat).map fun idx : Nat => dim - (idx : Int)

section Moves

variable (scene : Scene)

/-- **`redrawRoom`** — `redraw_room`. -/
def redrawRoom (s : ModeX) : Option ModeX :=
  drawEach (drawHorizLine (fillHorizBuffer scene)) (firstLines scrollYDim) s

/-- **`movePhotoDown`** — `move_photo_down`. -/
def movePhotoDown (d : Display) : Option Display :=
  let delta := toSigned (if toUnsigned d.game.ySpeed > d.game.mapY then d.game.mapY
    else toUnsigned d.game.ySpeed)
  let game := { d.game with mapY := toUnsigned (d.game.mapY - delta) }
  shiftView d.screen game (drawHorizLine (fillHorizBuffer scene)) (firstLines delta)

/-- **`movePhotoLeft`** — `move_photo_left`. -/
def movePhotoLeft (d : Display) : Option Display :=
  let delta := toSigned (scene.view.width - scrollXDim - d.game.mapX)
  let delta := if d.game.xSpeed > delta then delta else d.game.xSpeed
  let game := { d.game with mapX := toUnsigned (d.game.mapX + delta) }
  shiftView d.screen game (drawVertLine (fillVertBuffer scene)) (lastLines scrollXDim delta)

/-- **`movePhotoRight`** — `move_photo_right`. -/
def movePhotoRight (d : Display) : Option Display :=
  let delta := toSigned (if toUnsigned d.game.xSpeed > d.game.mapX then d.game.mapX
    else toUnsigned d.game.xSpeed)
  let game := { d.game with mapX := toUnsigned (d.game.mapX - delta) }
  shiftView d.screen game (drawVertLine (fillVertBuffer scene)) (firstLines delta)

/-- **`movePhotoUp`** — `move_photo_up`. -/
def movePhotoUp (d : Display) : Option Display :=
  let delta := toSigned (scene.view.height - scrollYDim - d.game.mapY)
  let delta := if d.game.ySpeed > delta then delta else d.game.ySpeed
  let game := { d.game with mapY := toUnsigned (d.game.mapY + delta) }
  shiftView d.screen game (drawHorizLine (fillHorizBuffer scene)) (lastLines scrollYDim delta)

/-- The way the photo moves. -/
inductive Direction
  | down | left | right | up
  deriving DecidableEq, Repr

/-- A move at a given speed. -/
def movePhoto (d : Display) : Direction × Int → Option Display
  | (.down, speed) => movePhotoDown scene { d with game := { d.game with ySpeed := speed } }
  | (.left, speed) => movePhotoLeft scene { d with game := { d.game with xSpeed := speed } }
  | (.right, speed) => movePhotoRight scene { d with game := { d.game with xSpeed := speed } }
  | (.up, speed) => movePhotoUp scene { d with game := { d.game with ySpeed := speed } }

/-- A walk over the photo. -/
def movePhotos : List (Direction × Int) → Display → Option Display
  | [], d => some d
  | m :: ms, d => (movePhoto scene d m).bind (movePhotos ms)

end Moves

/-! ## Drawing lines of the picture -/

section Draw

variable {scene : Scene} {s : ModeX}

/-- What one line does, a loop over lines does: a pixel of the window on one of the lines shows the
picture afterwards, and so does one that showed it before. -/
theorem drawEach_spec {draw : ModeX → Int → Option (Int × ModeX)} {L : Int → Int → Int → Prop}
    (hdraw : ∀ build i, ∃ ret build', draw { s with build := build } i =
        some (ret, { s with build := build' }) ∧
      ∀ X Y, s.InWindow X Y → L i X Y ∨ build (s.pixelOff X Y) = scene.picture X Y →
        build' (s.pixelOff X Y) = scene.picture X Y)
    (lines : List Int) (build : Int → UInt8) :
    ∃ build', drawEach draw lines { s with build := build } = some { s with build := build' } ∧
      ∀ X Y, s.InWindow X Y →
        (∃ i ∈ lines, L i X Y) ∨ build (s.pixelOff X Y) = scene.picture X Y →
        build' (s.pixelOff X Y) = scene.picture X Y := by
  induction lines generalizing build with
  | nil =>
      refine ⟨build, rfl, fun X Y _ h => ?_⟩
      rcases h with ⟨i, hi, -⟩ | h
      · cases hi
      · exact h
  | cons i lines ih =>
      obtain ⟨ret, build1, hbuild1, hline⟩ := hdraw build i
      obtain ⟨build2, hbuild2, hlines⟩ := ih build1
      refine ⟨build2, ?_, fun X Y hw h => hlines X Y hw ?_⟩
      · rw [drawEach, hbuild1, Option.bind_some, hbuild2]
      · rcases h with ⟨j, hj, hon⟩ | h
        · rcases List.mem_cons.mp hj with rfl | hj
          · exact .inr (hline X Y hw (.inl hon))
          · exact .inl ⟨j, hj, hon⟩
        · exact .inr (hline X Y hw (.inr h))

/-- Rows of the photo. -/
theorem drawRows_spec (h : s.Fits) (hx : 0 ≤ s.showX ∧ s.showX + scrollXDim ≤ scene.view.width)
    (lines : List Int) :
    ∃ build, drawEach (drawHorizLine (fillHorizBuffer scene)) lines s =
        some { s with build := build } ∧
      ∀ X Y, s.InWindow X Y →
        (∃ i ∈ lines, Y = i + s.showY) ∨ s.build (s.pixelOff X Y) = scene.picture X Y →
        build (s.pixelOff X Y) = scene.picture X Y := by
  refine drawEach_spec (s := s) (L := fun i _ Y => Y = i + s.showY) (fun build i => ?_) lines s.build
  obtain ⟨ret, build', hbuild', hpixels⟩ := drawHorizLine_spec (s := { s with build := build })
    (fillHorizBuffer scene) ⟨h.low, h.high⟩ i
  refine ⟨ret, build', hbuild', fun X Y hw hpixel => ?_⟩
  have hvalue : build' (s.pixelOff X Y) =
      if Y = i + s.showY then fillHorizBuffer scene s.showX Y (X - s.showX)
      else build (s.pixelOff X Y) := hpixels X Y hw
  by_cases hY : Y = i + s.showY
  · have hwx := hw.1
    have hX : s.showX + (X - s.showX) = X := by omega
    rw [if_pos hY, fillHorizBuffer_eq (by omega) (by omega), hX] at hvalue
    exact hvalue
  · rw [if_neg hY] at hvalue
    exact hvalue.trans (hpixel.resolve_left hY)

/-- Columns of the photo. -/
theorem drawColumns_spec (h : s.Fits) (hy : 0 ≤ s.showY ∧ s.showY + scrollYDim ≤ scene.view.height)
    (lines : List Int) :
    ∃ build, drawEach (drawVertLine (fillVertBuffer scene)) lines s =
        some { s with build := build } ∧
      ∀ X Y, s.InWindow X Y →
        (∃ i ∈ lines, X = i + s.showX) ∨ s.build (s.pixelOff X Y) = scene.picture X Y →
        build (s.pixelOff X Y) = scene.picture X Y := by
  refine drawEach_spec (s := s) (L := fun i X _ => X = i + s.showX) (fun build i => ?_) lines s.build
  obtain ⟨ret, build', hbuild', hpixels⟩ := drawVertLine_spec (s := { s with build := build })
    (fillVertBuffer scene) ⟨h.low, h.high⟩ i
  refine ⟨ret, build', hbuild', fun X Y hw hpixel => ?_⟩
  have hvalue : build' (s.pixelOff X Y) =
      if X = i + s.showX then fillVertBuffer scene X s.showY (Y - s.showY)
      else build (s.pixelOff X Y) := hpixels X Y hw
  by_cases hX : X = i + s.showX
  · have hwy := hw.2
    have hY : s.showY + (Y - s.showY) = Y := by omega
    rw [if_pos hX, fillVertBuffer_eq (by omega) (by omega), hY] at hvalue
    exact hvalue
  · rw [if_neg hX] at hvalue
    exact hvalue.trans (hpixel.resolve_left hX)

end Draw

/-! ## The invariant -/

/-- The two pages of video memory. -/
def ModeX.OnPage (s : ModeX) : Prop := s.targetImg = 5760 ∨ s.targetImg = 22144

/-- **`Shown scene d`** — the window is at `(map_x, map_y)`, inside the photo, and every pixel of it
shows the picture. -/
structure Shown (scene : Scene) (d : Display) : Prop where
  fits : d.screen.Fits
  page : d.screen.OnPage
  atX : d.screen.showX = d.game.mapX
  atY : d.screen.showY = d.game.mapY
  insideX : 0 ≤ d.game.mapX ∧ d.game.mapX + scrollXDim ≤ scene.view.width
  insideY : 0 ≤ d.game.mapY ∧ d.game.mapY + scrollYDim ≤ scene.view.height
  picture : ∀ X Y, d.screen.InWindow X Y →
    d.screen.build (d.screen.pixelOff X Y) = scene.picture X Y

section Shift

variable {scene : Scene} {d : Display} {game : GameInfo}

theorem toSigned_of_lt {n : Int} (h : 0 ≤ n ∧ n < 2 ^ 31) : toSigned n = n := by
  rw [toSigned, Int.emod_eq_of_lt (by omega) (by omega)]
  omega

theorem toUnsigned_of_lt {n : Int} (h : 0 ≤ n ∧ n < 2 ^ 31) : toUnsigned n = n :=
  Int.emod_eq_of_lt h.1 (by omega)

@[simp] theorem mem_firstLines {delta i : Int} : i ∈ firstLines delta ↔ 0 ≤ i ∧ i < delta := by
  rw [firstLines, List.mem_map]
  constructor
  · rintro ⟨idx, hidx, rfl⟩
    rw [List.mem_range] at hidx
    omega
  · intro hi
    refine ⟨i.toNat, List.mem_range.mpr (by omega), by omega⟩

@[simp] theorem mem_lastLines {dim delta i : Int} :
    i ∈ lastLines dim delta ↔ dim - delta ≤ i ∧ i < dim := by
  rw [lastLines, List.mem_map]
  constructor
  · rintro ⟨idx, hidx, rfl⟩
    rw [List.mem_range'_1] at hidx
    omega
  · intro hi
    refine ⟨(dim - i).toNat, List.mem_range'_1.mpr (by omega), by omega⟩

/-- A shift of the view keeps the picture if each pixel of the new window was in the old one or is on
one of the lines drawn. -/
theorem Shown.shiftView (h : Shown scene d) {draw : ModeX → Int → Option (Int × ModeX)}
    {lines : List Int} {L : Int → Int → Prop}
    (hx : 0 ≤ game.mapX ∧ game.mapX + scrollXDim ≤ scene.view.width)
    (hy : 0 ≤ game.mapY ∧ game.mapY + scrollYDim ≤ scene.view.height)
    (hdraw : ∀ s : ModeX, s.Fits → s.showX = game.mapX → s.showY = game.mapY →
      ∃ build, drawEach draw lines s = some { s with build := build } ∧
        ∀ X Y, s.InWindow X Y → L X Y ∨ s.build (s.pixelOff X Y) = scene.picture X Y →
          build (s.pixelOff X Y) = scene.picture X Y)
    (hcover : ∀ X Y, (game.mapX ≤ X ∧ X < game.mapX + scrollXDim) ∧
        game.mapY ≤ Y ∧ Y < game.mapY + scrollYDim → L X Y ∨ d.screen.InWindow X Y) :
    ∃ d', Adventure.shiftView d.screen game draw lines = some d' ∧ Shown scene d' := by
  have hwidth := scene.view.width_lt
  have hheight := scene.view.height_lt
  change 0 ≤ game.mapX ∧ game.mapX + 320 ≤ _ at hx
  change 0 ≤ game.mapY ∧ game.mapY + 182 ≤ _ at hy
  obtain ⟨s, hs, hat, hfits, hpage, hkept⟩ := setViewWindow_spec h.fits game.mapX game.mapY
  obtain ⟨build, hbuild, hpixels⟩ := hdraw s hfits hat.1 hat.2
  refine ⟨⟨game, { s with build := build }⟩, ?_, ?_⟩
  · rw [Adventure.shiftView, toSigned_of_lt (by omega), toSigned_of_lt (by omega), hs,
      Option.bind_some, hbuild]
    rfl
  · refine ⟨⟨hfits.low, hfits.high⟩, ?_, hat.1, hat.2, hx, hy, fun X Y hw => ?_⟩
    · rw [ModeX.OnPage, hpage]
      exact h.page
    · refine hpixels X Y hw ?_
      have hnew := hw
      rw [ModeX.InWindow] at hnew
      dsimp only at hnew
      rw [hat.1, hat.2] at hnew
      rcases hcover X Y hnew with hon | hold
      · exact .inl hon
      · exact .inr ((hkept X Y hold hw).trans (h.picture X Y hold))

/-- A shift along the rows. -/
theorem Shown.shiftRows (h : Shown scene d) {lines : List Int} (hx : game.mapX = d.game.mapX)
    (hy : 0 ≤ game.mapY ∧ game.mapY + scrollYDim ≤ scene.view.height)
    (hlines : ∀ Y, game.mapY ≤ Y ∧ Y < game.mapY + scrollYDim →
      Y - game.mapY ∈ lines ∨ d.game.mapY ≤ Y ∧ Y < d.game.mapY + scrollYDim) :
    ∃ d', Adventure.shiftView d.screen game (drawHorizLine (fillHorizBuffer scene)) lines = some d' ∧
      Shown scene d' := by
  have hinside := h.insideX
  rw [← hx] at hinside
  refine h.shiftView (L := fun _ Y => ∃ i ∈ lines, Y = i + game.mapY) hinside hy ?_ ?_
  · intro s hfits hatX hatY
    rw [← hatY]
    exact drawRows_spec hfits (hatX ▸ hinside) lines
  · intro X Y hXY
    rcases hlines Y hXY.2 with hmem | hold
    · exact .inl ⟨_, hmem, by omega⟩
    · rw [ModeX.InWindow, h.atX, h.atY, ← hx]
      exact .inr ⟨hXY.1, hold⟩

/-- A shift along the columns. -/
theorem Shown.shiftColumns (h : Shown scene d) {lines : List Int} (hy : game.mapY = d.game.mapY)
    (hx : 0 ≤ game.mapX ∧ game.mapX + scrollXDim ≤ scene.view.width)
    (hlines : ∀ X, game.mapX ≤ X ∧ X < game.mapX + scrollXDim →
      X - game.mapX ∈ lines ∨ d.game.mapX ≤ X ∧ X < d.game.mapX + scrollXDim) :
    ∃ d', Adventure.shiftView d.screen game (drawVertLine (fillVertBuffer scene)) lines = some d' ∧
      Shown scene d' := by
  have hinside := h.insideY
  rw [← hy] at hinside
  refine h.shiftView (L := fun X _ => ∃ i ∈ lines, X = i + game.mapX) hx hinside ?_ ?_
  · intro s hfits hatX hatY
    rw [← hatX]
    exact drawColumns_spec hfits (hatY ▸ hinside) lines
  · intro X Y hXY
    rcases hlines X hXY.1 with hmem | hold
    · exact .inl ⟨_, hmem, by omega⟩
    · rw [ModeX.InWindow, h.atX, h.atY, ← hy]
      exact .inr ⟨hold, hXY.2⟩

/-! ## Each move -/

/-- The distance of a move towards the origin. -/
theorem delta_back {speed map : Int} (hspeed : 1 ≤ speed ∧ speed ≤ 6) (hmap : 0 ≤ map ∧ map < 2 ^ 16) :
    ∃ delta, toSigned (if toUnsigned speed > map then map else toUnsigned speed) = delta ∧
      (0 ≤ delta ∧ delta ≤ map) ∧ toUnsigned (map - delta) = map - delta := by
  rw [toUnsigned_of_lt (by omega)]
  split
  · exact ⟨map, toSigned_of_lt (by omega), by omega, toUnsigned_of_lt (by omega)⟩
  · exact ⟨speed, toSigned_of_lt (by omega), by omega, toUnsigned_of_lt (by omega)⟩

/-- The distance of a move away from the origin, `room` being what is left of the photo. -/
theorem delta_forth {speed map room : Int} (hspeed : 1 ≤ speed ∧ speed ≤ 6)
    (hmap : 0 ≤ map ∧ map < 2 ^ 16) (hroom : 0 ≤ room ∧ room < 2 ^ 16) :
    ∃ delta, (if speed > toSigned room then toSigned room else speed) = delta ∧
      (0 ≤ delta ∧ delta ≤ room) ∧ toUnsigned (map + delta) = map + delta := by
  rw [toSigned_of_lt (by omega)]
  split
  · exact ⟨room, rfl, by omega, toUnsigned_of_lt (by omega)⟩
  · exact ⟨speed, rfl, by omega, toUnsigned_of_lt (by omega)⟩

theorem Shown.mapX_lt (h : Shown scene d) : 0 ≤ d.game.mapX ∧ d.game.mapX < 2 ^ 16 := by
  have hinside := h.insideX
  have hwidth := scene.view.width_lt
  have hdim : scrollXDim = 320 := rfl
  omega

theorem Shown.mapY_lt (h : Shown scene d) : 0 ≤ d.game.mapY ∧ d.game.mapY < 2 ^ 16 := by
  have hinside := h.insideY
  have hheight := scene.view.height_lt
  have hdim : scrollYDim = 182 := rfl
  omega

theorem Shown.movePhotoDown (h : Shown scene d) (hspeed : 1 ≤ d.game.ySpeed ∧ d.game.ySpeed ≤ 6) :
    ∃ d', movePhotoDown scene d = some d' ∧ Shown scene d' := by
  obtain ⟨delta, hdelta, hrange, hmap⟩ := delta_back hspeed h.mapY_lt
  have hinside := h.insideY
  unfold Adventure.movePhotoDown
  dsimp only
  rw [hdelta, hmap]
  refine h.shiftRows rfl ?_ fun Y hY => ?_
  · dsimp only
    omega
  · rw [mem_firstLines]
    dsimp only at hY ⊢
    omega

theorem Shown.movePhotoRight (h : Shown scene d) (hspeed : 1 ≤ d.game.xSpeed ∧ d.game.xSpeed ≤ 6) :
    ∃ d', movePhotoRight scene d = some d' ∧ Shown scene d' := by
  obtain ⟨delta, hdelta, hrange, hmap⟩ := delta_back hspeed h.mapX_lt
  have hinside := h.insideX
  unfold Adventure.movePhotoRight
  dsimp only
  rw [hdelta, hmap]
  refine h.shiftColumns rfl ?_ fun X hX => ?_
  · dsimp only
    omega
  · rw [mem_firstLines]
    dsimp only at hX ⊢
    omega

theorem Shown.movePhotoUp (h : Shown scene d) (hspeed : 1 ≤ d.game.ySpeed ∧ d.game.ySpeed ≤ 6) :
    ∃ d', movePhotoUp scene d = some d' ∧ Shown scene d' := by
  have hinside := h.insideY
  have hheight := scene.view.height_lt
  have hdim : scrollYDim = 182 := rfl
  obtain ⟨delta, hdelta, hrange, hmap⟩ := delta_forth hspeed h.mapY_lt
    (show 0 ≤ scene.view.height - scrollYDim - d.game.mapY ∧ _ < (2 ^ 16 : Int) by omega)
  unfold Adventure.movePhotoUp
  dsimp only
  rw [hdelta, hmap]
  refine h.shiftRows rfl ?_ fun Y hY => ?_
  · dsimp only
    omega
  · rw [mem_lastLines]
    dsimp only at hY ⊢
    omega

theorem Shown.movePhotoLeft (h : Shown scene d) (hspeed : 1 ≤ d.game.xSpeed ∧ d.game.xSpeed ≤ 6) :
    ∃ d', movePhotoLeft scene d = some d' ∧ Shown scene d' := by
  have hinside := h.insideX
  have hwidth := scene.view.width_lt
  have hdim : scrollXDim = 320 := rfl
  obtain ⟨delta, hdelta, hrange, hmap⟩ := delta_forth hspeed h.mapX_lt
    (show 0 ≤ scene.view.width - scrollXDim - d.game.mapX ∧ _ < (2 ^ 16 : Int) by omega)
  unfold Adventure.movePhotoLeft
  dsimp only
  rw [hdelta, hmap]
  refine h.shiftColumns rfl ?_ fun X hX => ?_
  · dsimp only
    omega
  · rw [mem_lastLines]
    dsimp only at hX ⊢
    omega

/-- One move. -/
theorem Shown.movePhoto (h : Shown scene d) {m : Direction × Int} (hspeed : 1 ≤ m.2 ∧ m.2 ≤ 6) :
    ∃ d', movePhoto scene d m = some d' ∧ Shown scene d' := by
  -- the speeds are not part of the invariant
  have hset : ∀ xSpeed ySpeed, Shown scene
      { d with game := { d.game with xSpeed := xSpeed, ySpeed := ySpeed } } := fun _ _ =>
    ⟨h.fits, h.page, h.atX, h.atY, h.insideX, h.insideY, h.picture⟩
  obtain ⟨dir, speed⟩ := m
  cases dir with
  | down => exact (hset d.game.xSpeed speed).movePhotoDown hspeed
  | left => exact (hset speed d.game.ySpeed).movePhotoLeft hspeed
  | right => exact (hset speed d.game.ySpeed).movePhotoRight hspeed
  | up => exact (hset d.game.xSpeed speed).movePhotoUp hspeed

/-- A walk. -/
theorem Shown.movePhotos (h : Shown scene d) {moves : List (Direction × Int)}
    (hspeeds : ∀ m ∈ moves, 1 ≤ m.2 ∧ m.2 ≤ 6) :
    ∃ d', movePhotos scene moves d = some d' ∧ Shown scene d' := by
  induction moves generalizing d with
  | nil => exact ⟨d, rfl, h⟩
  | cons m moves ih =>
      obtain ⟨d1, hd1, h1⟩ := h.movePhoto (hspeeds m List.mem_cons_self)
      obtain ⟨d2, hd2, h2⟩ := ih h1 fun m hm => hspeeds m (List.mem_cons_of_mem _ hm)
      refine ⟨d2, ?_, h2⟩
      rw [Adventure.movePhotos, hd1, Option.bind_some, hd2]

end Shift

/-! ## The calls that come before -/

/-- The calls into `modex.c` between `set_mode_X` and a redraw, the callbacks drawing anything. -/
inductive Call
  | setViewWindow (x y : Int)
  | drawHorizLine (horizLineFn : Int → Int → Line) (y : Int)
  | drawVertLine (vertLineFn : Int → Int → Line) (x : Int)
  | showScreen

/-- **`Calls s c s'`** — the call takes `s` to `s'`. -/
def Calls (s : ModeX) (c : Call) (s' : ModeX) : Prop :=
  match c with
  | .setViewWindow x y => setViewWindow s x y = some s'
  | .drawHorizLine horizLineFn y => ∃ ret, drawHorizLine horizLineFn s y = some (ret, s')
  | .drawVertLine vertLineFn x => ∃ ret, drawVertLine vertLineFn s x = some (ret, s')
  | .showScreen => showScreen s = some s'

theorem ModeX.OnPage.swap {s : ModeX} (h : s.OnPage) :
    (s.targetImg ^^^ 0x4000 = 5760 ∨ s.targetImg ^^^ 0x4000 = 22144) ∧
      (s.targetImg ^^^ 0x4000).toNat + 14560 ≤ 65536 := by
  rcases h with h | h
  · rw [h]
    decide
  · rw [h]
    decide

theorem Calls.fits {s s' : ModeX} {c : Call} (h : s.Fits ∧ s.OnPage) (hcall : Calls s c s') :
    s'.Fits ∧ s'.OnPage := by
  obtain ⟨hfits, hpage⟩ := h
  cases c with
  | setViewWindow x y =>
      obtain ⟨s1, hs1, -, hfits1, hpage1, -⟩ := setViewWindow_spec hfits x y
      obtain rfl := Option.some.inj (hs1.symm.trans hcall)
      exact ⟨hfits1, by rw [ModeX.OnPage, hpage1]; exact hpage⟩
  | drawHorizLine horizLineFn y =>
      obtain ⟨ret, hcall⟩ := hcall
      obtain ⟨ret1, build, hs1, -⟩ := drawHorizLine_spec horizLineFn hfits y
      obtain ⟨-, rfl⟩ := Prod.mk.inj (Option.some.inj (hs1.symm.trans hcall))
      exact ⟨⟨hfits.low, hfits.high⟩, hpage⟩
  | drawVertLine vertLineFn x =>
      obtain ⟨ret, hcall⟩ := hcall
      obtain ⟨ret1, build, hs1, -⟩ := drawVertLine_spec vertLineFn hfits x
      obtain ⟨-, rfl⟩ := Prod.mk.inj (Option.some.inj (hs1.symm.trans hcall))
      exact ⟨⟨hfits.low, hfits.high⟩, hpage⟩
  | showScreen =>
      obtain ⟨s1, hs1, hpage1, -, ⟨-, hoff, hx, hy⟩, -⟩ := showScreen_spec hfits hpage.swap.2
      obtain rfl := Option.some.inj (hs1.symm.trans hcall)
      refine ⟨?_, by rw [ModeX.OnPage, hpage1]; exact hpage.swap.1⟩
      rw [ModeX.fits_iff] at hfits ⊢
      rw [hoff, hx, hy]
      exact hfits

theorem setModeX_fits (build : Int → UInt8) : (setModeX build).Fits ∧ (setModeX build).OnPage :=
  ⟨ModeX.fits_baseInit rfl rfl rfl, .inl (show UInt16.ofNat (statusBarSize * 4) = 5760 by decide)⟩

/-! ## The main result -/

/-- A redraw at the origin shows the picture. -/
theorem redrawRoom_shown {scene : Scene} {s : ModeX} (h : s.Fits ∧ s.OnPage)
    (horigin : s.showX = 0 ∧ s.showY = 0)
    (hphoto : 320 ≤ scene.view.width ∧ 182 ≤ scene.view.height) (xSpeed ySpeed : Int) :
    ∃ s', redrawRoom scene s = some s' ∧ Shown scene ⟨⟨0, 0, xSpeed, ySpeed⟩, s'⟩ := by
  have hx : 0 ≤ (0 : Int) ∧ 0 + scrollXDim ≤ scene.view.width := by
    show 0 ≤ (0 : Int) ∧ 0 + (320 : Int) ≤ _
    omega
  have hy : 0 ≤ (0 : Int) ∧ 0 + scrollYDim ≤ scene.view.height := by
    show 0 ≤ (0 : Int) ∧ 0 + (182 : Int) ≤ _
    omega
  obtain ⟨build, hbuild, hpixels⟩ := drawRows_spec h.1 (by rw [horigin.1]; exact hx)
    (firstLines scrollYDim)
  refine ⟨_, hbuild, ⟨h.1.low, h.1.high⟩, h.2, horigin.1, horigin.2, hx, hy, fun X Y hw => ?_⟩
  refine hpixels X Y hw (.inl ⟨Y - s.showY, ?_, by omega⟩)
  rw [mem_firstLines]
  have hrows : s.showY ≤ Y ∧ Y < s.showY + scrollYDim := hw.2
  omega

/-- **Scrolling shows the picture.**  Whatever was drawn before, after a redraw at the origin and any walk
over the photo at speeds from 1 to 6, the screen shows at each column `c` and row `r` the picture at
`(map_x + c, map_y + r)`. -/
theorem scrolling_shows_picture {scene : Scene} {build : Int → UInt8} {calls : List Call} {s : ModeX}
    {xSpeed ySpeed : Int} {moves : List (Direction × Int)}
    (hrun : Run Calls (setModeX build) calls s) (horigin : s.showX = 0 ∧ s.showY = 0)
    (hphoto : 320 ≤ scene.view.width ∧ 182 ≤ scene.view.height)
    (hspeeds : ∀ m ∈ moves, 1 ≤ m.2 ∧ m.2 ≤ 6) :
    ∃ s' d shown, redrawRoom scene s = some s' ∧
      movePhotos scene moves ⟨⟨0, 0, xSpeed, ySpeed⟩, s'⟩ = some d ∧
      showScreen d.screen = some shown ∧
      ∀ c r : Nat, c < 320 → r < 182 →
        shown.video (c % 4) (shown.targetImg.toNat + (80 * r + c / 4 : Nat)) =
          scene.picture (d.game.mapX + c) (d.game.mapY + r) := by
  have hready : s.Fits ∧ s.OnPage := hrun.invariant (I := fun s => s.Fits ∧ s.OnPage)
    (setModeX_fits build) fun _ _ _ h hcall => hcall.fits h
  obtain ⟨s', hs', hshown⟩ := redrawRoom_shown hready horigin hphoto xSpeed ySpeed
  obtain ⟨d, hd, hwalked⟩ := hshown.movePhotos hspeeds
  obtain ⟨shown, hscreen, -, -, -, hvideo⟩ := showScreen_spec hwalked.fits hwalked.page.swap.2
  refine ⟨s', d, shown, hs', hd, hscreen, fun c r hc hr => ?_⟩
  rw [hvideo c r hc hr, hwalked.atX, hwalked.atY]
  apply hwalked.picture
  rw [ModeX.inWindow_iff, hwalked.atX, hwalked.atY]
  omega

/-- A photo larger than the window with one object that sticks out of it. -/
def framedScene : Scene where
  view := ⟨⟨400, 240, by decide, by decide⟩, fun i => UInt8.ofNat (i % 64)⟩
  objects := [⟨390, 5, ⟨⟨20, 30, by decide, by decide⟩, fun i => UInt8.ofNat (i % 65)⟩⟩]

/-- A walk to the lower right and back up, from the state `set_mode_X` leaves. -/
theorem framed_scene_scrolls :
    ∃ s' d shown, redrawRoom framedScene (setModeX fun _ => 0) = some s' ∧
      movePhotos framedScene [(.left, 6), (.up, 2), (.left, 1), (.down, 6)] ⟨⟨0, 0, 2, 2⟩, s'⟩ =
        some d ∧
      showScreen d.screen = some shown ∧
      ∀ c r : Nat, c < 320 → r < 182 →
        shown.video (c % 4) (shown.targetImg.toNat + (80 * r + c / 4 : Nat)) =
          framedScene.picture (d.game.mapX + c) (d.game.mapY + r) :=
  scrolling_shows_picture (show Run Calls (setModeX fun _ => 0) [] _ from rfl) ⟨rfl, rfl⟩
    (by decide) (by decide)

end Ece391.Adventure
