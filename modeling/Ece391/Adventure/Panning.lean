/-
# Ece391.Adventure.Panning — the view stays on the photo.

`map_x` and `map_y` are unsigned.  A move towards the origin takes the smaller of the speed and the
position, which never wraps.  A move away from it takes the smaller of the speed and what is left of the
photo, and what is left is `room_photo_width (..) - SCROLL_X_DIM - map_x`: an unsigned number, read back
as an `int`.  On a photo narrower than the window it is negative, the comparison prefers it to the speed,
and the view jumps to the other end of the unsigned range.

`read_photo` has an upper limit for the sides of a photo and no lower one.  The view stays on the photo
exactly if the photo is no smaller than the window (`panning_stays_inside_iff`).
-/
import Ece391.Adventure.PhotoFile
import Ece391.Adventure.Scroll

open Ece391.Lib

namespace Ece391.Adventure

/-! ## Entering a room -/

/-- `MOTION_SPEED`, and the speeds of the game: three times as fast with the board or the jetpack. -/
def motionSpeed : Int := 2

def GameSpeed (speed : Int) : Prop := speed = motionSpeed ∨ speed = motionSpeed * 3

/-- **`enterRoom`** — what `game_loop` does first in a new room: the window goes to the origin and the room is
drawn. -/
def enterRoom (scene : Scene) (d : Display) : Option Display :=
  let game := { d.game with mapX := 0, mapY := 0 }
  (setViewWindow d.screen (toSigned game.mapX) (toSigned game.mapY)).bind fun s =>
    (redrawRoom scene s).map (Display.mk game)

/-- **`Pans scene d m d'`** — a move over the photo. -/
def Pans (scene : Scene) (d : Display) (m : Direction × Int) (d' : Display) : Prop :=
  movePhoto scene d m = some d'

/-! ## The property -/

/-- The window is on the photo; on a photo smaller than the window, at its origin. -/
def Inside (view : Photo) (game : GameInfo) : Prop :=
  (0 ≤ game.mapX ∧ game.mapX ≤ max 0 (view.width - scrollXDim)) ∧
    0 ≤ game.mapY ∧ game.mapY ≤ max 0 (view.height - scrollYDim)

/-- The unsigned value of an expression is its value. -/
def Exact (n : Int) : Prop := toUnsigned n = n

/-- The distance of `move_photo_down` and `move_photo_right`. -/
def deltaBack (speed map : Int) : Int := toSigned (if toUnsigned speed > map then map else toUnsigned speed)

/-- The distance of `move_photo_left` and `move_photo_up`. -/
def deltaForth (size dim speed map : Int) : Int :=
  if speed > toSigned (size - dim - map) then toSigned (size - dim - map) else speed

/-- Nothing wraps around in a move towards the origin: the speed, the distance, the new position. -/
def BackExact (speed map : Int) : Prop :=
  Exact speed ∧ Exact (deltaBack speed map) ∧ Exact (map - deltaBack speed map)

/-- Nothing wraps around in a move away from it: what is left of the photo, the distance, the new
position. -/
def ForthExact (size dim speed map : Int) : Prop :=
  (Exact (size - dim) ∧ Exact (size - dim - map)) ∧ Exact (deltaForth size dim speed map) ∧
    Exact (map + deltaForth size dim speed map)

def NoWrap (view : Photo) (game : GameInfo) : Direction × Int → Prop
  | (.down, speed) => BackExact speed game.mapY
  | (.left, speed) => ForthExact view.width scrollXDim speed game.mapX
  | (.right, speed) => BackExact speed game.mapX
  | (.up, speed) => ForthExact view.height scrollYDim speed game.mapY

/-- **`PansInside scene d`** — every sequence of moves at the speeds of the game can be made from `d`, stays
on the photo and has no wrap-around. -/
def PansInside (scene : Scene) (d : Display) : Prop :=
  ∀ moves : List (Direction × Int), (∀ m ∈ moves, GameSpeed m.2) →
    (∃ d', Run (Pans scene) d moves d') ∧
      AllStates (Pans scene) (fun d => Inside scene.view d.game) d moves ∧
      AllSteps (Pans scene) (fun d m => NoWrap scene.view d.game m) d moves

section Moves

variable {scene : Scene} {d : Display}

theorem GameSpeed.range {speed : Int} (h : GameSpeed speed) : 1 ≤ speed ∧ speed ≤ 6 := by
  change speed = 2 ∨ speed = 2 * 3 at h
  omega

theorem exact_of_lt {n : Int} (h : 0 ≤ n ∧ n < 2 ^ 31) : Exact n := toUnsigned_of_lt h

theorem Exact.nonneg {n : Int} (h : Exact n) : 0 ≤ n := by
  rw [← h]
  exact Int.emod_nonneg _ (by decide)

theorem backExact {speed map : Int} (hspeed : 1 ≤ speed ∧ speed ≤ 6) (hmap : 0 ≤ map ∧ map < 2 ^ 16) :
    BackExact speed map := by
  obtain ⟨delta, hdelta, hrange, hexact⟩ := delta_back hspeed hmap
  change deltaBack speed map = delta at hdelta
  rw [BackExact, hdelta]
  exact ⟨exact_of_lt (by omega), exact_of_lt (by omega), hexact⟩

theorem forthExact {size dim speed map : Int} (hspeed : 1 ≤ speed ∧ speed ≤ 6)
    (hmap : 0 ≤ map ∧ map < 2 ^ 16) (hroom : 0 ≤ size - dim - map ∧ size - dim - map < 2 ^ 16) :
    ForthExact size dim speed map := by
  obtain ⟨delta, hdelta, hrange, hexact⟩ := delta_forth hspeed hmap hroom
  change deltaForth size dim speed map = delta at hdelta
  rw [ForthExact, hdelta]
  exact ⟨⟨exact_of_lt (by omega), exact_of_lt (by omega)⟩, exact_of_lt (by omega), hexact⟩

/-- Where the picture is shown the window is on the photo. -/
theorem Shown.inside (h : Shown scene d) : Inside scene.view d.game := by
  have hx := h.insideX
  have hy := h.insideY
  exact ⟨⟨hx.1, by omega⟩, hy.1, by omega⟩

theorem Shown.noWrap (h : Shown scene d) {m : Direction × Int} (hspeed : 1 ≤ m.2 ∧ m.2 ≤ 6) :
    NoWrap scene.view d.game m := by
  have hx := h.insideX
  have hy := h.insideY
  have hwidth := scene.view.width_lt
  have hheight := scene.view.height_lt
  have hdims : scrollXDim = 320 ∧ scrollYDim = 182 := ⟨rfl, rfl⟩
  obtain ⟨dir, speed⟩ := m
  cases dir with
  | down => exact backExact hspeed h.mapY_lt
  | left => exact forthExact hspeed h.mapX_lt (by omega)
  | right => exact backExact hspeed h.mapX_lt
  | up => exact forthExact hspeed h.mapY_lt (by omega)

/-- On a photo no smaller than the window. -/
theorem Shown.pansInside (h : Shown scene d) : PansInside scene d := by
  intro moves hmoves
  have hshown : ∀ {before after : List (Direction × Int)} {m : Display}, moves = before ++ after →
      Run (Pans scene) d before m → Shown scene m := by
    intro before after m hsplit hrun
    have hspeeds : AllSteps (Pans scene) (fun _ a => GameSpeed a.2) d before :=
      allSteps_of_mem fun a ha => hmoves a (hsplit ▸ List.mem_append_left _ ha)
    refine (hrun.restrict_of_allSteps hspeeds).invariant h ?_
    rintro m a m' hm ⟨hspeed, hstep⟩
    obtain ⟨m1, hm1, hshown1⟩ := hm.movePhoto hspeed.range
    obtain rfl := Option.some.inj (hm1.symm.trans hstep)
    exact hshown1
  refine ⟨?_, ?_, ?_⟩
  · exact exists_run (I := Shown scene) (P := fun m => GameSpeed m.2)
      (fun _ _ hm hspeed => hm.movePhoto hspeed.range) h hmoves
  · intro before after m hsplit hrun
    exact (hshown hsplit hrun).inside
  · intro before a after m hsplit hrun
    have hmem : a ∈ moves := by simp [hsplit]
    exact (hshown hsplit hrun).noWrap (hmoves a hmem).range

/-- The first move towards the right or the lower edge finds out. -/
theorem PansInside.size (h : PansInside scene d) :
    320 ≤ scene.view.width ∧ 182 ≤ scene.view.height := by
  have hfirst : ∀ dir, NoWrap scene.view d.game (dir, motionSpeed) := by
    intro dir
    refine (h [(dir, motionSpeed)] fun m hm => ?_).2.2 [] _ [] d rfl rfl
    obtain rfl := List.mem_singleton.mp hm
    exact .inl rfl
  have hleft : 0 ≤ (scene.view.width : Int) - 320 := (hfirst .left).1.1.nonneg
  have hup : 0 ≤ (scene.view.height : Int) - 182 := (hfirst .up).1.1.nonneg
  omega

/-- Drawing the rows of a window that fits. -/
theorem redrawRoom_total (scene : Scene) {s : ModeX} (h : s.Fits) : ∃ s', redrawRoom scene s = some s' ∧ s'.Fits := by
  have hrows : ∀ (lines : List Int) (s : ModeX), s.Fits →
      ∃ s', drawEach (drawHorizLine (fillHorizBuffer scene)) lines s = some s' ∧ s'.Fits := by
    intro lines
    induction lines with
    | nil => exact fun s h => ⟨s, rfl, h⟩
    | cons i lines ih =>
        intro s h
        obtain ⟨ret, build, hbuild, -⟩ := drawHorizLine_spec (fillHorizBuffer scene) h i
        obtain ⟨s', hs', hfits⟩ := ih { s with build := build } ⟨h.low, h.high⟩
        exact ⟨s', by rw [drawEach, hbuild, Option.bind_some, hs'], hfits⟩
  exact hrows _ s h

/-- Entering a room. -/
theorem enterRoom_spec (scene : Scene) {s : ModeX} (h : s.Fits ∧ s.OnPage) (game : GameInfo) :
    ∃ s', enterRoom scene ⟨game, s⟩ = some ⟨{ game with mapX := 0, mapY := 0 }, s'⟩ ∧ s'.Fits ∧
      (320 ≤ scene.view.width ∧ 182 ≤ scene.view.height →
        Shown scene ⟨{ game with mapX := 0, mapY := 0 }, s'⟩) := by
  obtain ⟨s1, hs1, hat, hfits, hpage, -⟩ := setViewWindow_spec h.1 0 0
  have hready : s1.Fits ∧ s1.OnPage := ⟨hfits, by rw [ModeX.OnPage, hpage]; exact h.2⟩
  obtain ⟨s2, hs2, hfits2⟩ := redrawRoom_total scene hfits
  refine ⟨s2, ?_, hfits2, fun hphoto => ?_⟩
  · change (setViewWindow s 0 0).bind _ = _
    rw [hs1, Option.bind_some, hs2]
    rfl
  · obtain ⟨s3, hs3, hshown⟩ := redrawRoom_shown hready hat hphoto game.xSpeed game.ySpeed
    obtain rfl := Option.some.inj (hs2.symm.trans hs3)
    exact hshown

/-- On a photo narrower than the window the first move to the left goes off the photo. -/
theorem movePhotoLeft_narrow (h : d.screen.Fits) (horigin : d.game.mapX = 0)
    (hwidth : scene.view.width < 320) {speed : Int} (hspeed : GameSpeed speed) :
    ∃ d', Pans scene d (.left, speed) d' ∧ d'.game.mapX = 2 ^ 32 + scene.view.width - 320 := by
  have hdelta : deltaForth scene.view.width scrollXDim speed 0 = scene.view.width - 320 := by
    have hroom : toSigned ((scene.view.width : Int) - scrollXDim - 0) = scene.view.width - 320 := by
      change ((scene.view.width : Int) - 320 - 0 + 2 ^ 31) % 2 ^ 32 - 2 ^ 31 = _
      omega
    have hrange := hspeed.range
    rw [deltaForth, hroom, if_pos (by omega)]
  have hmap : toUnsigned (0 + deltaForth scene.view.width scrollXDim speed 0) =
      2 ^ 32 + scene.view.width - 320 := by
    rw [hdelta]
    change (0 + ((scene.view.width : Int) - 320)) % 2 ^ 32 = _
    omega
  have hlines : lastLines scrollXDim (deltaForth scene.view.width scrollXDim speed 0) = [] := by
    have hnone : ((scene.view.width : Int) - 320).toNat = 0 := by omega
    rw [hdelta, lastLines, hnone]
    rfl
  obtain ⟨s, hs, -⟩ := setViewWindow_spec h
    (toSigned (toUnsigned (0 + deltaForth scene.view.width scrollXDim speed 0))) (toSigned d.game.mapY)
  refine ⟨⟨{ d.game with mapX := toUnsigned (0 + deltaForth scene.view.width scrollXDim speed 0),
                         xSpeed := speed }, s⟩, ?_, hmap⟩
  change shiftView d.screen { d.game with
    mapX := toUnsigned (d.game.mapX + deltaForth scene.view.width scrollXDim speed d.game.mapX),
    xSpeed := speed } _ (lastLines scrollXDim (deltaForth scene.view.width scrollXDim speed d.game.mapX)) = _
  rw [horigin, hlines, shiftView, hs]
  rfl

end Moves

/-! ## The main result -/

/-- **Panning stays on the photo exactly if the photo is no smaller than the window.**  For every room,
entered whatever was on the screen before. -/
theorem panning_stays_inside_iff (scene : Scene) {build : Int → UInt8} {calls : List Call} {s : ModeX}
    (hrun : Run Calls (setModeX build) calls s) (game : GameInfo) :
    ∃ d, enterRoom scene ⟨game, s⟩ = some d ∧ (d.game.mapX = 0 ∧ d.game.mapY = 0) ∧
      (PansInside scene d ↔ 320 ≤ scene.view.width ∧ 182 ≤ scene.view.height) := by
  have hready : s.Fits ∧ s.OnPage := hrun.invariant (I := fun s => s.Fits ∧ s.OnPage)
    (setModeX_fits build) fun _ _ _ h hcall => hcall.fits h
  obtain ⟨s', hs', -, hshown⟩ := enterRoom_spec scene hready game
  exact ⟨_, hs', ⟨rfl, rfl⟩, PansInside.size, fun hphoto => (hshown hphoto).pansInside⟩

/-- The first room, its photo larger than the window. -/
theorem framed_scene_pans_inside :
    ∃ d, enterRoom framedScene ⟨⟨0, 0, 2, 2⟩, setModeX fun _ => 0⟩ = some d ∧
      (d.game.mapX = 0 ∧ d.game.mapY = 0) ∧
      (PansInside framedScene d ↔ 320 ≤ framedScene.view.width ∧ 182 ≤ framedScene.view.height) :=
  panning_stays_inside_iff framedScene (show Run Calls (setModeX fun _ => 0) [] _ from rfl) ⟨0, 0, 2, 2⟩

/-- A photo file of one pixel. -/
def dotPhoto : List UInt8 := [1, 0, 1, 0, 0xFF, 0xFF]

/-- `read_photo` accepts it.  Panned to the left once, the view is 319 pixels before the end of the unsigned
range. -/
theorem dot_photo_pans_outside : ∃ view d d', readPhoto (fun _ => 0) dotPhoto = some view ∧
    enterRoom ⟨view, []⟩ ⟨⟨0, 0, 2, 2⟩, setModeX fun _ => 0⟩ = some d ∧
    Run (Pans ⟨view, []⟩) d [(.left, 2)] d' ∧ d'.game.mapX = 4294966977 ∧ ¬Inside view d'.game ∧
    ¬PansInside ⟨view, []⟩ d := by
  obtain ⟨view, hview, hwidth⟩ : ∃ view, readPhoto (fun _ => 0) dotPhoto = some view ∧ view.width = 1 :=
    ⟨_, rfl, rfl⟩
  obtain ⟨s, hs, hfits, -⟩ := enterRoom_spec ⟨view, []⟩ (setModeX_fits fun _ => 0) ⟨0, 0, 2, 2⟩
  obtain ⟨d', hd', hmap⟩ : ∃ d', Pans ⟨view, []⟩ ⟨⟨0, 0, 2, 2⟩, s⟩ (.left, 2) d' ∧
      d'.game.mapX = 2 ^ 32 + view.width - 320 :=
    movePhotoLeft_narrow hfits rfl (by rw [hwidth]; decide) (.inl rfl)
  rw [hwidth] at hmap
  refine ⟨view, _, d', hview, hs, ⟨d', hd', rfl⟩, hmap, ?_, fun h => ?_⟩
  · rintro ⟨⟨-, hx⟩, -⟩
    rw [hmap, hwidth] at hx
    exact absurd hx (by decide)
  · have hsize : 320 ≤ view.width := h.size.1
    omega

end Ece391.Adventure
