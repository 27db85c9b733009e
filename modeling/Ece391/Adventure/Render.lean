/-
# Ece391.Adventure.Render — the images of lines (`mp2/photo.c`).

Two functions draw a line of the current room, one a row and the other a column: first the photo, then
each object in the order of the contents list, clipped to the line, transparent pixels skipped.

`Scene.picture` is what both are for: the colour of a pixel of the room, line or no line.  On the pixels
of the photo the two functions agree with it (`fillHorizBuffer_eq`, `fillVertBuffer_eq`).

Indices are unbounded integers here; those into a photo fit an `int`, since no side is longer than
1024.
-/
import Mathlib.Data.List.Induction
import Ece391.Adventure.Modex
import Ece391.Adventure.Contents

open Ece391.Lib

namespace Ece391.Adventure

/-- `OBJ_CLR_TRANSP`. -/
def objClrTransp : UInt8 := 0x40

/-- An object as it is drawn. -/
structure Sprite where
  x : Int
  y : Int
  img : Image

/-- What the current room shows. -/
structure Scene where
  view : Photo
  objects : List Sprite

/-- The pixel data `img->img[i]`. -/
def Photo.pixel (view : Photo) (i : Int) : UInt8 := view.img i.toNat
def Image.pixel (img : Image) (i : Int) : UInt8 := img.img i.toNat

/-- The photo of the room and the objects the loop over its contents meets. -/
def World.scene (w : World) (r : RoomId) : Option Scene :=
  (w.room r).view.bind fun view =>
    (w.contentsList r).bind fun ids =>
      (ids.mapM fun o => (w.object o).img.map (Sprite.mk (w.object o).x (w.object o).y)).map
        (Scene.mk view)

/-! ## The two functions -/

/-- Transparent pixels are not copied. -/
def putPixel (buf : Line) (idx : Int) (pixel : UInt8) : Line :=
  if objClrTransp ≠ pixel then Function.update buf idx pixel else buf

/-- The loop that copies the pixels of an object until the line or the image ends. -/
def copyPixels (dim size : Int) (pixel : Int → UInt8) (buf : Line) (idx pos : Int) : Line :=
  if dim > idx ∧ size > pos then
    copyPixels dim size pixel (putPixel buf idx (pixel pos)) (idx + 1) (pos + 1)
  else buf
termination_by (dim - idx).toNat

/-- The body of the loop over the objects in `fill_horiz_buffer`. -/
def drawAcross (x y : Int) (buf : Line) (obj : Sprite) : Line :=
  if y < obj.y ∨ y ≥ obj.y + obj.img.height ∨ x + scrollXDim ≤ obj.x ∨ x ≥ obj.x + obj.img.width then
    buf
  else
    let yoff := (y - obj.y) * obj.img.width
    let idx := if x ≤ obj.x then obj.x - x else 0
    let imgx := if x ≤ obj.x then 0 else x - obj.x
    copyPixels scrollXDim obj.img.width (fun imgx => obj.img.pixel (yoff + imgx)) buf idx imgx

/-- **`fillHorizBuffer`** — `fill_horiz_buffer`: the row from the pixel `(x, y)` on. -/
def fillHorizBuffer (scene : Scene) (x y : Int) : Line :=
  scene.objects.foldl (drawAcross x y) fun idx =>
    if 0 ≤ x + idx ∧ scene.view.width > x + idx then
      scene.view.pixel (scene.view.width * y + x + idx)
    else 0

/-- The body of the loop over the objects in `fill_vert_buffer`. -/
def drawDown (x y : Int) (buf : Line) (obj : Sprite) : Line :=
  if x < obj.x ∨ x ≥ obj.x + obj.img.width ∨ y + scrollYDim ≤ obj.y ∨ y ≥ obj.y + obj.img.height then
    buf
  else
    let xoff := x - obj.x
    let idx := if y ≤ obj.y then obj.y - y else 0
    let imgy := if y ≤ obj.y then 0 else y - obj.y
    copyPixels scrollYDim obj.img.height (fun imgy => obj.img.pixel (xoff + obj.img.width * imgy))
      buf idx imgy

/-- **`fillVertBuffer`** — `fill_vert_buffer`: the column from the pixel `(x, y)` on. -/
def fillVertBuffer (scene : Scene) (x y : Int) : Line :=
  scene.objects.foldl (drawDown x y) fun idx =>
    if 0 ≤ y + idx ∧ scene.view.height > y + idx then
      scene.view.pixel (scene.view.width * (y + idx) + x)
    else 0

/-! ## The picture -/

/-- The object covers the pixel. -/
def Sprite.Covers (obj : Sprite) (x y : Int) : Prop :=
  obj.x ≤ x ∧ x < obj.x + obj.img.width ∧ obj.y ≤ y ∧ y < obj.y + obj.img.height

instance (obj : Sprite) (x y : Int) : Decidable (obj.Covers x y) := by
  unfold Sprite.Covers; infer_instance

/-- The colour of the object at a pixel it covers. -/
def Sprite.colour (obj : Sprite) (x y : Int) : UInt8 :=
  obj.img.pixel ((y - obj.y) * obj.img.width + (x - obj.x))

/-- The object laid over a pixel of a given colour. -/
def Sprite.overlay (x y : Int) (under : UInt8) (obj : Sprite) : UInt8 :=
  if obj.Covers x y ∧ obj.colour x y ≠ objClrTransp then obj.colour x y else under

/-- **`Scene.picture`** — the photo overlaid by the objects in list order. -/
def Scene.picture (scene : Scene) (x y : Int) : UInt8 :=
  scene.objects.foldl (Sprite.overlay x y) (scene.view.pixel (scene.view.width * y + x))

theorem putPixel_self (buf : Line) (idx : Int) (pixel : UInt8) :
    putPixel buf idx pixel idx = if pixel ≠ objClrTransp then pixel else buf idx := by
  unfold putPixel
  by_cases h : pixel = objClrTransp
  · simp [h]
  · rw [if_pos (Ne.symm h), if_pos h, Function.update_self]

theorem putPixel_of_ne (buf : Line) {idx k : Int} (pixel : UInt8) (hk : k ≠ idx) :
    putPixel buf idx pixel k = buf k := by
  unfold putPixel
  split
  · exact Function.update_of_ne hk _ _
  · rfl

theorem copyPixels_apply (dim size : Int) (pixel : Int → UInt8) (buf : Line) (idx pos k : Int) :
    copyPixels dim size pixel buf idx pos k =
      if (idx ≤ k ∧ k < dim ∧ k - idx + pos < size) ∧ pixel (k - idx + pos) ≠ objClrTransp then
        pixel (k - idx + pos)
      else buf k := by
  fun_induction copyPixels dim size pixel buf idx pos with
  | case1 buf idx pos h ih =>
      have hshift : k - (idx + 1) + (pos + 1) = k - idx + pos := by omega
      rw [ih, hshift]
      by_cases hk : k = idx
      · -- the pixel of this round; later rounds do not come back to it
        subst hk
        have hpos : k - k + pos = pos := by omega
        have hnow : k ≤ k ∧ k < dim ∧ pos < size := by omega
        rw [hpos, if_neg (by omega), putPixel_self]
        simp only [hnow, true_and]
      · have hrange : idx + 1 ≤ k ↔ idx ≤ k := by omega
        rw [putPixel_of_ne _ _ hk]
        simp only [hrange]
  | case2 buf idx pos h => rw [if_neg (by omega)]

/-- A row of an object is the object laid over the row. -/
theorem drawAcross_eq {x y k : Int} (hk : 0 ≤ k ∧ k < scrollXDim) (buf : Line) (obj : Sprite) :
    drawAcross x y buf obj k = Sprite.overlay (x + k) y (buf k) obj := by
  unfold drawAcross Sprite.overlay Sprite.Covers Sprite.colour
  split
  · rw [if_neg (by omega)]
  · rw [copyPixels_apply]
    have hpos : (k - if x ≤ obj.x then obj.x - x else 0) + (if x ≤ obj.x then 0 else x - obj.x) =
        x + k - obj.x := by split <;> omega
    rw [hpos]
    refine if_congr (and_congr_left fun _ => ?_) rfl rfl
    split <;> omega

/-- A column of an object is the object laid over the column. -/
theorem drawDown_eq {x y k : Int} (hk : 0 ≤ k ∧ k < scrollYDim) (buf : Line) (obj : Sprite) :
    drawDown x y buf obj k = Sprite.overlay x (y + k) (buf k) obj := by
  unfold drawDown Sprite.overlay Sprite.Covers Sprite.colour
  split
  · rw [if_neg (by omega)]
  · rw [copyPixels_apply]
    have hpos : (k - if y ≤ obj.y then obj.y - y else 0) + (if y ≤ obj.y then 0 else y - obj.y) =
        y + k - obj.y := by split <;> omega
    rw [hpos, Int.mul_comm, Int.add_comm (x - obj.x)]
    refine if_congr (and_congr_left fun _ => ?_) rfl rfl
    split <;> omega

/-- Drawing objects pixel by pixel. -/
theorem foldl_apply {draw : Line → Sprite → Line} {overlay : UInt8 → Sprite → UInt8} {k : Int}
    (h : ∀ buf obj, draw buf obj k = overlay (buf k) obj) (objects : List Sprite) (buf : Line) :
    objects.foldl draw buf k = objects.foldl overlay (buf k) := by
  induction objects generalizing buf with
  | nil => rfl
  | cons obj objects ih => rw [List.foldl_cons, ih, h, List.foldl_cons]

/-- **A row of the photo.**  It shows the picture. -/
theorem fillHorizBuffer_eq {scene : Scene} {x y k : Int} (hk : 0 ≤ k ∧ k < scrollXDim)
    (hphoto : 0 ≤ x + k ∧ x + k < scene.view.width) :
    fillHorizBuffer scene x y k = scene.picture (x + k) y := by
  rw [fillHorizBuffer, Scene.picture, foldl_apply (drawAcross_eq hk), if_pos (by omega), Int.add_assoc]

/-- **A column of the photo.**  It shows the picture. -/
theorem fillVertBuffer_eq {scene : Scene} {x y k : Int} (hk : 0 ≤ k ∧ k < scrollYDim)
    (hphoto : 0 ≤ y + k ∧ y + k < scene.view.height) :
    fillVertBuffer scene x y k = scene.picture x (y + k) := by
  rw [fillVertBuffer, Scene.picture, foldl_apply (drawDown_eq hk), if_pos (by omega)]

/-! ## The topmost object -/

/-- The object shows a colour of its own at the pixel. -/
def Sprite.Shows (obj : Sprite) (x y : Int) : Prop := obj.Covers x y ∧ obj.colour x y ≠ objClrTransp

instance (obj : Sprite) (x y : Int) : Decidable (obj.Shows x y) := by
  unfold Sprite.Shows; infer_instance

/-- **`Scene.topmost`** — the last object in list order that shows at the pixel. -/
def Scene.topmost (scene : Scene) (x y : Int) : Option Sprite :=
  (scene.objects.filter fun obj => obj.Shows x y).getLast?

/-- Objects drawn one after the other leave the colour of the last one that shows. -/
theorem foldl_overlay (objects : List Sprite) (x y : Int) (under : UInt8) :
    objects.foldl (Sprite.overlay x y) under =
      (((objects.filter fun obj => obj.Shows x y).getLast?).map fun obj => obj.colour x y).getD under := by
  induction objects using List.reverseRecOn with
  | nil => rfl
  | append_singleton objects obj ih =>
      rw [List.foldl_append, List.foldl_cons, List.foldl_nil, ih, List.filter_append]
      by_cases hobj : obj.Shows x y
      · have hlast : [obj].filter (fun obj => obj.Shows x y) = [obj] := by simp [hobj]
        rw [hlast, List.getLast?_append, Sprite.overlay, if_pos (show _ ∧ _ from hobj)]
        rfl
      · have hlast : [obj].filter (fun obj => obj.Shows x y) = [] := by simp [hobj]
        rw [hlast, List.append_nil, Sprite.overlay, if_neg (show ¬(_ ∧ _) from hobj)]

theorem Scene.picture_eq (scene : Scene) (x y : Int) :
    scene.picture x y =
      ((scene.topmost x y).map fun obj => obj.colour x y).getD
        (scene.view.pixel (scene.view.width * y + x)) :=
  foldl_overlay scene.objects x y _

/-- **The two renderers draw one picture.**  Whatever line a pixel of the photo is drawn on, row or column,
it gets the colour of the topmost object, and that of the photo if there is none. -/
theorem renderers_agree (scene : Scene) {X Y x y : Int} (hX : 0 ≤ X ∧ X < scene.view.width)
    (hY : 0 ≤ Y ∧ Y < scene.view.height) (hx : 0 ≤ X - x ∧ X - x < scrollXDim)
    (hy : 0 ≤ Y - y ∧ Y - y < scrollYDim) :
    fillHorizBuffer scene x Y (X - x) = fillVertBuffer scene X y (Y - y) ∧
      fillHorizBuffer scene x Y (X - x) =
        ((scene.topmost X Y).map fun obj => obj.colour X Y).getD
          (scene.view.pixel (scene.view.width * Y + X)) := by
  have hacross : x + (X - x) = X := by omega
  have hdown : y + (Y - y) = Y := by omega
  have hrow : fillHorizBuffer scene x Y (X - x) = scene.picture X Y := by
    rw [fillHorizBuffer_eq hx (by omega), hacross]
  have hcolumn : fillVertBuffer scene X y (Y - y) = scene.picture X Y := by
    rw [fillVertBuffer_eq hy (by omega), hdown]
  exact ⟨hrow.trans hcolumn.symm, hrow.trans (scene.picture_eq X Y)⟩

/-- Two objects over each other, the upper one with holes and sticking out to the left. -/
def stackedScene : Scene where
  view := ⟨⟨360, 300, by decide, by decide⟩, fun i => UInt8.ofNat (i % 64)⟩
  objects :=
    [⟨-3, 5, ⟨⟨24, 16, by decide, by decide⟩, fun _ => 0x11⟩⟩,
     ⟨-7, 9, ⟨⟨24, 16, by decide, by decide⟩, fun i => UInt8.ofNat (i % 65)⟩⟩]

/-- A pixel of both objects, on a row that starts left of the photo and on a column from its top. -/
theorem stacked_scene_agrees :
    fillHorizBuffer stackedScene (-2) 9 (2 - -2) = fillVertBuffer stackedScene 2 0 (9 - 0) ∧
      fillHorizBuffer stackedScene (-2) 9 (2 - -2) =
        ((stackedScene.topmost 2 9).map fun obj => obj.colour 2 9).getD
          (stackedScene.view.pixel (stackedScene.view.width * 9 + 2)) :=
  renderers_agree stackedScene (by decide) (by decide) (by decide) (by decide)

/-! ## The scene of a room -/

/-- Every room of a world in order has a scene. -/
theorem Sound.scene {w : World} (h : Sound w) (r : RoomId) :
    ∃ scene, w.scene r = some scene ∧ (w.room r).view = some scene.view := by
  obtain ⟨view, hview⟩ := Option.ne_none_iff_exists'.mp (h.view r)
  obtain ⟨ids, hids⟩ := Option.isSome_iff_exists.mp (h.listed.loopsEnd.contentsList r)
  have hsprites : ∀ ids : List ObjId, ∃ sprites,
      (ids.mapM fun o => (w.object o).img.map (Sprite.mk (w.object o).x (w.object o).y)) =
        some sprites := by
    intro ids
    induction ids with
    | nil => exact ⟨[], rfl⟩
    | cons o ids ih =>
        obtain ⟨sprites, hsprites⟩ := ih
        obtain ⟨img, himg⟩ := Option.ne_none_iff_exists'.mp (h.img o)
        refine ⟨⟨(w.object o).x, (w.object o).y, img⟩ :: sprites, ?_⟩
        rw [List.mapM_cons, hsprites, himg]
        rfl
  obtain ⟨sprites, hs⟩ := hsprites ids
  refine ⟨⟨view, sprites⟩, ?_, hview⟩
  rw [World.scene, hview, Option.bind_some, hids, Option.bind_some, hs]
  rfl

/-- **The drawing loops end.**  In every state of every game the room of the player has a scene. -/
theorem scene_of_run {readPhoto : String → Option Photo} {readObjImage : String → Option Image}
    {rand : ObjId → Nat → Nat} {w : World} {g : Game} {actions : List (Action × (Nat → Nat))}
    (hbuild : buildWorld readPhoto readObjImage rand = some (.ok w))
    (hrun : Run Plays (startGame w) actions g) (r : RoomId) :
    ∃ scene, g.world.scene r = some scene ∧ (g.world.room r).view = some scene.view :=
  (Game.Ready.of_run hbuild hrun).1.scene r

end Ece391.Adventure
