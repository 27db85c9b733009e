/-
# Ece391.Adventure.Loop — the event loop of the game (`game_loop` of `mp2/adventure.c`).

An iteration draws the room if the player just came, shows the screen, waits for the tick and does what one
command says.  The keyboard, the world, the view window and the build buffer, each with an invariant of its
own, meet here, and so do the things the loop has to get right: when to draw, at what speed to move the photo,
and when the game is over.

`Running` is what an iteration starts from.  Unless the room is about to be entered, the build buffer shows it.
The loop redraws on `TC_REDRAW_ROOM` and enters on `TC_CHANGE_ROOM`, and by `Outcome.repaints` this is enough.
`photo.c` has a pointer to the current room of its own, set by `prep_room`; drawing with another room than the
player's is not modelled, and no run gets there.

The status bar, the thread that clears its messages and the clock are left out.
-/
import Ece391.Adventure.Panning
import Ece391.Adventure.Repaint
import Ece391.Adventure.Typed

open Ece391.Lib

namespace Ece391.Adventure

/-! ## The session -/

/-- `game_condition_t`. -/
inductive GameCondition
  | quit | won
  deriving DecidableEq, Repr

/-- **`Session`** — what an iteration starts from: the world, `game_info` (the room, and the rest with the
screen), `cur_room` of `photo.c`, the keyboard with the bytes not read yet, the messages shown so far, and
`enter_room`. -/
structure Session where
  world : World
  room : Option RoomId
  curRoom : Option RoomId
  display : Display
  keys : Keys
  stdin : List UInt8
  status : List String
  enterRoom : Bool

/-- `init_game` and `set_mode_X`, with the room about to be entered. -/
def initGame (w : World) (build : Int → UInt8) : Session where
  world := w
  room := (startGame w).room
  curRoom := none
  display := ⟨⟨0, 0, motionSpeed, motionSpeed⟩, setModeX build⟩
  keys := bootKeys
  stdin := []
  status := []
  enterRoom := true

/-- The speeds after `typed_cmd_drop` and `typed_cmd_get`. -/
def adjustSpeeds (w : World) (game : GameInfo) : Verb → GameInfo
  | .drop =>
      { game with
        xSpeed := if w.loc .board = some .inventory then game.xSpeed else motionSpeed
        ySpeed := if w.loc .jetpack = some .inventory then game.ySpeed else motionSpeed }
  | .get =>
      { game with
        xSpeed := if w.loc .board = some .inventory then motionSpeed * 3 else game.xSpeed
        ySpeed := if w.loc .jetpack = some .inventory then motionSpeed * 3 else game.ySpeed }
  | _ => game

namespace Session

/-- The game the player plays. -/
def game (s : Session) : Game := ⟨s.world, s.room⟩

/-- What the drawing functions draw. -/
def scene (s : Session) : Option Scene :=
  s.room.bind fun r => if s.curRoom = some r then s.world.scene r else none

/-- `reset_typed_command`. -/
def resetTyped (s : Session) : Session := { s with keys := { s.keys with typing := resetTypedCommand } }

/-- The block under `if (enter_room)`. -/
def enter (s : Session) : Option Session :=
  let s := { s.resetTyped with curRoom := s.room }
  s.scene.bind fun scene =>
    (Adventure.enterRoom scene s.display).map fun d => { s with display := d, enterRoom := false }

/-- **`present`** — the first half of an iteration, up to `show_screen`. -/
def present (s : Session) : Option Session :=
  (if s.enterRoom then s.enter else some s).bind fun s =>
    (showScreen s.display.screen).map fun screen => { s with display := { s.display with screen := screen } }

/-- A move over the photo. -/
def pan (s : Session) (move : Scene → Display → Option Display) : Option Session :=
  s.scene.bind fun scene => (move scene s.display).map fun d => { s with display := d }

/-- What an action leaves. -/
def follow (s : Session) (reply : Reply) : Session :=
  { s with world := reply.world, room := reply.room, status := s.status ++ reply.status }

/-- A move to another room: `enter_room = (TC_CHANGE_ROOM == ..)`. -/
def move (s : Session) (attempt : World → RoomId → Option Reply) : Option Session :=
  s.room.bind fun r => (attempt s.world r).map fun reply =>
    { s.follow reply with enterRoom := reply.action = .changeRoom }

/-- The end of `handle_typing`, by the result of the command. -/
def typedResult (s : Session) : TcAction → Option (Bool × Session)
  | .changeRoom => some (true, s)
  | .allowEdit => some (false, s)
  | .discardText => some (false, s.resetTyped)
  | .redrawRoom =>
      s.scene.bind fun scene => (redrawRoom scene s.display.screen).map fun screen =>
        (false, { s.resetTyped with display := { s.display with screen := screen } })

/-- **`handleTyping`** — `handle_typing`, with the value it returns. -/
def handleTyping (s : Session) (rand : Nat → Nat) : Option (Bool × Session) :=
  match splitCommand s.keys.typing.chars with
  | none => some (false, s)
  | some (verb, arg) =>
      match findVerb verb with
      | none => some (false, { s with status := s.status ++ ["What are you babbling about?"] })
      | some cmd =>
          s.room.bind fun r => (act s.world r rand (.typed cmd (String.ofList arg))).bind fun reply =>
            let display := { s.display with game := adjustSpeeds reply.world s.display.game cmd }
            ({ s.follow reply with display := display } : Session).typedResult reply.action

/-- The `switch` over the command. -/
def obey (s : Session) (rand : Nat → Nat) : Cmd → Option Session
  | .up => s.pan movePhotoDown
  | .right => s.pan movePhotoLeft
  | .down => s.pan movePhotoUp
  | .left => s.pan movePhotoRight
  | .moveLeft => s.move fun w r => tryToMoveLeft w r rand
  | .enter => s.move fun w r => tryToEnter w r rand
  | .moveRight => s.move fun w r => tryToMoveRight w r rand
  | .typed => (s.handleTyping rand).map fun (changed, s) => if changed then { s with enterRoom := true } else s
  | .none | .quit => some s

/-- **`respond`** — the second half: a command is read and done, `arrived` being the bytes that came. -/
def respond (s : Session) (arrived : List UInt8) (rand : Nat → Nat) :
    Option (Option GameCondition × Session) :=
  let read := getCommand (s.stdin ++ arrived) s.keys
  let s := { s with keys := read.2.1, stdin := read.2.2 }
  if read.1 = .quit then some (some .quit, s)
  else (s.obey rand read.1).map fun s => (if s.room = none then some .won else none, s)

/-- **`tick`** — an iteration of `game_loop`; it returns a condition if the loop ends. -/
def tick (s : Session) (input : List UInt8 × (Nat → Nat)) : Option (Option GameCondition × Session) :=
  s.present.bind fun s => s.respond input.1 input.2

end Session

/-- An iteration after which the loop goes on. -/
def Ticks (s : Session) (input : List UInt8 × (Nat → Nat)) (s' : Session) : Prop :=
  s.tick input = some (none, s')

/-! ## The invariant -/

/-- The photo fills the window. -/
def Large (view : Photo) : Prop := 320 ≤ view.width ∧ 182 ≤ view.height

/-- The speed, with and without what makes the player fast. -/
def speedWith (has : Prop) [Decidable has] : Int := if has then motionSpeed * 3 else motionSpeed

/-- The player is fast along the rows with the board, and along the columns with the jetpack. -/
structure Geared (w : World) (game : GameInfo) : Prop where
  xSpeed : game.xSpeed = speedWith (w.loc .board = some .inventory)
  ySpeed : game.ySpeed = speedWith (w.loc .jetpack = some .inventory)

/-- **`Running s`** — between two iterations. -/
structure Running (s : Session) : Prop where
  screen : s.display.screen.Fits ∧ s.display.screen.OnPage
  sound : Sound s.world
  player : ∀ r, s.room = some r → Ready s.world r
  photos : s.world.Photos Large
  geared : Geared s.world s.display.game
  shown : s.enterRoom = false → ∃ scene, s.scene = some scene ∧ Shown scene s.display

section Speeds

theorem speedWith_range (has : Prop) [Decidable has] : 1 ≤ speedWith has ∧ speedWith has ≤ 6 := by
  unfold speedWith
  split
  · decide
  · decide

/-- An action that carries nothing keeps the speeds. -/
theorem Geared.outcome {w : World} {game : GameInfo} (h : Geared w game) {a : Action} {r here : RoomId}
    {reply : Reply} (ho : Outcome a w r here reply) (ha : ∀ l, ¬a.Carries l) : Geared reply.world game := by
  have hboard := (ho.carried (o := .board) (by decide)).resolve_right (ha _)
  have hjetpack := (ho.carried (o := .jetpack) (by decide)).resolve_right (ha _)
  exact ⟨by rw [h.xSpeed, hboard], by rw [h.ySpeed, hjetpack]⟩

/-- Entering a room keeps the speeds. -/
theorem Geared.enter {w : World} {game : GameInfo} (h : Geared w game) :
    Geared w { game with mapX := 0, mapY := 0 } := ⟨h.xSpeed, h.ySpeed⟩

/-- What `get` does to the speed of one thing that is not put down by it. -/
theorem speed_get {now before : Prop} [Decidable now] [Decidable before] (h : before → now) :
    (if now then motionSpeed * 3 else speedWith before) = speedWith now := by
  unfold speedWith
  by_cases hnow : now
  · rw [if_pos hnow, if_pos hnow]
  · rw [if_neg hnow, if_neg hnow, if_neg fun hbefore => hnow (h hbefore)]

/-- What `drop` does to the speed of one thing that is not picked up by it. -/
theorem speed_drop {now before : Prop} [Decidable now] [Decidable before] (h : now → before) :
    (if now then speedWith before else motionSpeed) = speedWith now := by
  unfold speedWith
  by_cases hnow : now
  · rw [if_pos hnow, if_pos hnow, if_pos (h hnow)]
  · rw [if_neg hnow, if_neg hnow]

/-- **The speeds follow the board and the jetpack.** -/
theorem Geared.typed {w : World} {r here : RoomId} {game : GameInfo} (h : Geared w game) {verb : Verb}
    {arg : String} {reply : Reply} (ho : Outcome (.typed verb arg) w r here reply) :
    Geared reply.world (adjustSpeeds reply.world game verb) := by
  cases verb with
  | get =>
      have hkeeps : ∀ o, ¬Ordinary o → w.loc o = some .inventory → reply.world.loc o = some .inventory :=
        fun o hfast hhad => (ho.carried hfast).elim (fun heq => heq.trans hhad) id
      refine ⟨?_, ?_⟩
      · show (if _ then _ else game.xSpeed) = _
        rw [h.xSpeed]
        exact speed_get (hkeeps .board (by decide))
      · show (if _ then _ else game.ySpeed) = _
        rw [h.ySpeed]
        exact speed_get (hkeeps .jetpack (by decide))
  | drop =>
      have hhad : ∀ o, ¬Ordinary o → reply.world.loc o = some .inventory → w.loc o = some .inventory :=
        fun o hfast hhas => (ho.carried hfast).elim (fun heq => heq.symm.trans hhas) fun hout => absurd hhas hout
      refine ⟨?_, ?_⟩
      · show (if _ then game.xSpeed else _) = _
        rw [h.xSpeed]
        exact speed_drop (hhad .board (by decide))
      · show (if _ then game.ySpeed else _) = _
        rw [h.ySpeed]
        exact speed_drop (hhad .jetpack (by decide))
  | _ => exact h.outcome ho fun _ => id

end Speeds

/-! ## What is on the screen -/

/-- **`OnScreen scene d`** — the displayed page shows, at each column and row of the window, the picture at
`(map_x, map_y)`. -/
def OnScreen (scene : Scene) (d : Display) : Prop :=
  ∀ c r : Nat, c < 320 → r < 182 →
    d.screen.video (c % 4) (d.screen.startAddr.toNat + (80 * r + c / 4 : Nat)) =
      scene.picture (d.game.mapX + c) (d.game.mapY + r)

section Screen

variable {scene scene' : Scene} {d d' : Display}

/-- The invariant of the screen without the picture. -/
theorem Shown.screen (h : Shown scene d) : d.screen.Fits ∧ d.screen.OnPage := ⟨h.fits, h.page⟩

/-- The speeds are no part of the picture. -/
theorem Shown.adjust (h : Shown scene d) (w : World) (verb : Verb) :
    Shown scene { d with game := adjustSpeeds w d.game verb } := by
  have hset : ∀ xSpeed ySpeed, Shown scene
      { d with game := { d.game with xSpeed := xSpeed, ySpeed := ySpeed } } := fun _ _ =>
    ⟨h.fits, h.page, h.atX, h.atY, h.insideX, h.insideY, h.picture⟩
  cases verb with
  | get => exact hset _ _
  | drop => exact hset _ _
  | _ => exact h

/-- Drawing all rows where the window is. -/
theorem Shown.redraw (h : Shown scene d) (hview : scene'.view = scene.view) :
    ∃ screen, redrawRoom scene' d.screen = some screen ∧ Shown scene' { d with screen := screen } := by
  have hx := h.insideX
  have hy := h.insideY
  rw [← hview] at hx hy
  obtain ⟨build, hbuild, hpixels⟩ := drawRows_spec h.fits (by rw [h.atX]; exact hx) (firstLines scrollYDim)
  refine ⟨_, hbuild, ⟨h.fits.low, h.fits.high⟩, h.page, h.atX, h.atY, hx, hy, fun X Y hw => ?_⟩
  refine hpixels X Y hw (.inl ⟨Y - d.screen.showY, ?_, by omega⟩)
  have hrows : d.screen.showY ≤ Y ∧ Y < d.screen.showY + scrollYDim := hw.2
  rw [mem_firstLines]
  omega

/-- Showing the screen. -/
theorem Shown.showScreen (h : Shown scene d) :
    ∃ screen, Adventure.showScreen d.screen = some screen ∧ Shown scene { d with screen := screen } ∧
      OnScreen scene { d with screen := screen } := by
  obtain ⟨screen, hscreen, htarget, hstart, ⟨hbuild, hoff, hx, hy⟩, hvideo⟩ :=
    showScreen_spec h.fits h.page.swap.2
  have hfits : screen.Fits := by
    have hfits := h.fits
    rw [ModeX.fits_iff] at hfits ⊢
    rw [hoff, hx, hy]
    exact hfits
  have hpixel : ∀ X Y, screen.pixelOff X Y = d.screen.pixelOff X Y := fun X Y => by
    rw [ModeX.pixelOff_eq, ModeX.pixelOff_eq, hoff]
  have hwindow : ∀ X Y, screen.InWindow X Y ↔ d.screen.InWindow X Y := fun X Y => by
    rw [ModeX.inWindow_iff, ModeX.inWindow_iff, hx, hy]
  refine ⟨screen, hscreen, ⟨hfits, ?_, hx.trans h.atX, hy.trans h.atY, h.insideX, h.insideY, ?_⟩, ?_⟩
  · show screen.OnPage
    rw [ModeX.OnPage, htarget]
    exact h.page.swap.1
  · intro X Y hw
    show screen.build (screen.pixelOff X Y) = _
    rw [hbuild, hpixel]
    exact h.picture X Y ((hwindow X Y).mp hw)
  · intro c r hc hr
    show screen.video (c % 4) (screen.startAddr.toNat + _) = _
    rw [hstart, hvideo c r hc hr, h.atX, h.atY]
    apply h.picture
    rw [ModeX.inWindow_iff, h.atX, h.atY]
    omega

/-- A move over the photo keeps the speeds. -/
theorem shiftView_game {s : ModeX} {game : GameInfo} {draw : ModeX → Int → Option (Int × ModeX)}
    {lines : List Int} (h : shiftView s game draw lines = some d) : d.game = game := by
  obtain ⟨s1, -, h⟩ := Option.bind_eq_some_iff.mp h
  obtain ⟨s2, -, rfl⟩ := Option.map_eq_some_iff.mp h
  rfl

end Screen

/-! ## The two halves of an iteration -/

section Steps

variable {s : Session} {r : RoomId}

/-- In a game that goes on, the room that is shown is the one that was prepared. -/
theorem Running.scene_eq (h : Running s) (hroom : s.room = some r) (henter : s.enterRoom = false) :
    ∃ scene, s.curRoom = some r ∧ s.world.scene r = some scene ∧ s.scene = some scene ∧
      Shown scene s.display := by
  obtain ⟨scene, hscene, hshown⟩ := h.shown henter
  have hdrawn := hscene
  rw [Session.scene, hroom, Option.bind_some] at hdrawn
  split at hdrawn
  next hcur => exact ⟨scene, hcur, hdrawn, hscene, hshown⟩
  next => cases hdrawn

/-- **The first half shows the room.** -/
theorem Running.present (h : Running s) (hroom : s.room = some r) :
    ∃ s' scene, s.present = some s' ∧ s'.game = s.game ∧ s'.stdin = s.stdin ∧ s'.enterRoom = false ∧ Running s' ∧
      s'.world.scene r = some scene ∧ Shown scene s'.display ∧ OnScreen scene s'.display := by
  have hentered : ∃ s1 scene, (if s.enterRoom then s.enter else some s) = some s1 ∧ s1.game = s.game ∧
      s1.stdin = s.stdin ∧ s1.enterRoom = false ∧ s1.curRoom = some r ∧ s1.world.scene r = some scene ∧
      Shown scene s1.display ∧ Geared s1.world s1.display.game := by
    cases henter : s.enterRoom with
    | false =>
        obtain ⟨scene, hcur, hscene, -, hshown⟩ := h.scene_eq hroom henter
        exact ⟨s, scene, rfl, rfl, rfl, henter, hcur, hscene, hshown, h.geared⟩
    | true =>
        obtain ⟨scene, hscene, hview⟩ := h.sound.scene r
        have hlarge : Large scene.view := h.photos.1 r scene.view hview
        obtain ⟨screen, hscreen, -, hshown⟩ := enterRoom_spec scene h.screen s.display.game
        have hdrawn : ({ s.resetTyped with curRoom := s.room } : Session).scene = some scene := by
          show s.room.bind _ = _
          rw [hroom, Option.bind_some]
          exact (if_pos rfl).trans hscene
        refine ⟨{ s.resetTyped with
          curRoom := s.room
          display := ⟨{ s.display.game with mapX := 0, mapY := 0 }, screen⟩
          enterRoom := false }, scene, ?_, rfl, rfl, rfl, hroom, hscene, hshown hlarge, h.geared.enter⟩
        rw [if_pos rfl, Session.enter]
        dsimp only
        rw [hdrawn, Option.bind_some]
        exact congrArg (Option.map _) hscreen
  obtain ⟨s1, scene, hs1, hgame, hstdin, henter, hcur, hscene, hshown, hgeared⟩ := hentered
  obtain ⟨screen, hscreen, hshown', honscreen⟩ := hshown.showScreen
  obtain ⟨hworld, hroom'⟩ := Game.mk.inj hgame
  refine ⟨{ s1 with display := { s1.display with screen := screen } }, scene, ?_, hgame, hstdin, henter,
    ⟨hshown'.screen, ?_, ?_, ?_, hgeared, fun _ => ⟨scene, ?_, hshown'⟩⟩, hscene, hshown', honscreen⟩
  · rw [Session.present, hs1, Option.bind_some, hscreen]
    rfl
  · show Sound s1.world
    rw [hworld]
    exact h.sound
  · show ∀ r, s1.room = some r → Ready s1.world r
    rw [hworld, hroom']
    exact h.player
  · show s1.world.Photos Large
    rw [hworld]
    exact h.photos
  · show s1.room.bind _ = _
    rw [hroom', hroom, Option.bind_some]
    exact (if_pos hcur).trans hscene

/-- The keyboard is no part of the invariant. -/
theorem Running.setKeys (h : Running s) (keys : Keys) (stdin : List UInt8) :
    Running { s with keys := keys, stdin := stdin } :=
  ⟨h.screen, h.sound, h.player, h.photos, h.geared, h.shown⟩

/-- A move over the photo. -/
theorem Running.pan (h : Running s) (hroom : s.room = some r) (henter : s.enterRoom = false)
    {move : Scene → Display → Option Display}
    (hmove : ∀ {scene : Scene} {d : Display}, Shown scene d → (1 ≤ d.game.xSpeed ∧ d.game.xSpeed ≤ 6) →
      (1 ≤ d.game.ySpeed ∧ d.game.ySpeed ≤ 6) → ∃ d', move scene d = some d' ∧ Shown scene d' ∧
        d'.game.xSpeed = d.game.xSpeed ∧ d'.game.ySpeed = d.game.ySpeed) :
    ∃ s', s.pan move = some s' ∧ Running s' := by
  obtain ⟨scene, -, -, hscene, hshown⟩ := h.scene_eq hroom henter
  obtain ⟨d, hd, hshown', hx, hy⟩ := hmove hshown (by rw [h.geared.xSpeed]; exact speedWith_range _)
    (by rw [h.geared.ySpeed]; exact speedWith_range _)
  refine ⟨{ s with display := d }, ?_, hshown'.screen, h.sound, h.player, h.photos, ?_, fun _ => ?_⟩
  · rw [Session.pan, hscene, Option.bind_some, hd]
    rfl
  · exact ⟨hx.trans h.geared.xSpeed, hy.trans h.geared.ySpeed⟩
  · exact ⟨scene, hscene, hshown'⟩

/-- **What an action leaves.**  If it says that the room changed, the next iteration enters it; if it asks for a
redraw, the redraw is enough; and otherwise the picture is still the right one. -/
theorem Running.follow (h : Running s) (hroom : s.room = some r) (henter : s.enterRoom = false)
    {a : Action} {rand : Nat → Nat} {reply : Reply} (hreply : act s.world r rand a = some reply)
    {game : GameInfo} (hgame : ∀ scene, Shown scene s.display → Shown scene { s.display with game := game })
    (hgeared : Geared reply.world game) :
    Running { s.follow reply with display := { s.display with game := game }, enterRoom := true } ∧
    (reply.action ≠ .changeRoom → reply.action ≠ .redrawRoom →
      Running { s.follow reply with display := { s.display with game := game } }) ∧
    (reply.action = .redrawRoom → ∃ scene screen,
      ({ s.follow reply with display := { s.display with game := game } } : Session).scene = some scene ∧
      redrawRoom scene s.display.screen = some screen ∧
      Running { s.follow reply with display := ⟨game, screen⟩ }) := by
  obtain ⟨here, hstands, houtcome⟩ := (h.player r hroom).outcome_of hreply
  obtain ⟨hsound, hplayer⟩ := houtcome.ready (h.player r hroom) hstands
  have hphotos := houtcome.photos h.photos
  obtain ⟨scene, hcur, hscene, -, hshown⟩ := h.scene_eq hroom henter
  -- the player is still in the room that is prepared
  have hdrawn : reply.action ≠ .changeRoom → ∃ scene', scene'.view = scene.view ∧
      (reply.action ≠ .redrawRoom → scene' = scene) ∧
      ({ s.follow reply with display := { s.display with game := game } } : Session).scene = some scene' := by
    intro haction
    obtain ⟨hstays, hview, hsame⟩ := houtcome.repaints haction
    obtain ⟨scene', hscene', hview'⟩ := hsound.scene r
    obtain ⟨scene₀, hscene₀, hview₀⟩ := h.sound.scene r
    obtain rfl := Option.some.inj (hscene₀.symm.trans hscene)
    refine ⟨scene', ?_, fun hredraw => ?_, ?_⟩
    · rw [hview₀] at hview
      exact Option.some.inj (hview'.symm.trans hview)
    · rw [hsame hredraw, hscene] at hscene'
      exact (Option.some.inj hscene').symm
    · show reply.room.bind _ = _
      rw [hstays, Option.bind_some]
      exact (if_pos hcur).trans hscene'
  refine ⟨⟨h.screen, hsound, hplayer, hphotos, hgeared, nofun⟩, fun hchange hredraw => ?_, fun hredraw => ?_⟩
  · obtain ⟨scene', -, hsame, hscene'⟩ := hdrawn hchange
    obtain rfl := hsame hredraw
    exact ⟨h.screen, hsound, hplayer, hphotos, hgeared, fun _ => ⟨scene', hscene', hgame _ hshown⟩⟩
  · obtain ⟨scene', hview, -, hscene'⟩ := hdrawn (by rw [hredraw]; nofun)
    obtain ⟨screen, hscreen, hshown'⟩ := (hgame _ hshown).redraw hview
    exact ⟨scene', screen, hscene', hscreen, hshown'.screen, hsound, hplayer, hphotos, hgeared,
      fun _ => ⟨scene', hscene', hshown'⟩⟩

/-- A move to another room. -/
theorem Running.move (h : Running s) (hroom : s.room = some r) (henter : s.enterRoom = false)
    {rand : Nat → Nat} (attempt : World → RoomId → Option Reply) {a : Action}
    (hact : attempt s.world r = act s.world r rand a) (htyped : ∀ verb arg, a ≠ .typed verb arg)
    (hcarries : ∀ l, ¬a.Carries l) : ∃ s', s.move attempt = some s' ∧ Running s' := by
  obtain ⟨here, reply, -, hreply, houtcome⟩ := (h.player r hroom).outcome rand a
  have hattempt : attempt s.world r = some reply := hact.trans hreply
  have hsame : ∀ scene, Shown scene s.display → Shown scene { s.display with game := s.display.game } :=
    fun _ h => h
  obtain ⟨hentered, hstill, -⟩ := h.follow hroom henter hreply hsame (h.geared.outcome houtcome hcarries)
  refine ⟨{ s.follow reply with enterRoom := reply.action = .changeRoom }, ?_, ?_⟩
  · rw [Session.move, hroom, Option.bind_some, hattempt]
    rfl
  · by_cases hchange : reply.action = .changeRoom
    · rw [decide_eq_true hchange]
      exact hentered
    · have hrunning := hstill hchange (houtcome.silent htyped)
      rw [decide_eq_false hchange, ← henter]
      exact hrunning

/-- A typed line. -/
theorem Running.handleTyping (h : Running s) (hroom : s.room = some r) (henter : s.enterRoom = false)
    (rand : Nat → Nat) : ∃ changed s', s.handleTyping rand = some (changed, s') ∧
      Running (if changed then { s' with enterRoom := true } else s') := by
  have hidle : ∀ status : List String, Running { s with status := status } := fun status =>
    ⟨h.screen, h.sound, h.player, h.photos, h.geared, h.shown⟩
  unfold Session.handleTyping
  split
  next => exact ⟨false, s, rfl, h⟩
  next verb arg _ =>
    split
    next => exact ⟨false, _, rfl, hidle _⟩
    next cmd _ =>
      obtain ⟨here, reply, -, hreply, houtcome⟩ :=
        (h.player r hroom).outcome rand (.typed cmd (String.ofList arg))
      obtain ⟨hentered, hstill, hredraw⟩ := h.follow hroom henter hreply
        (fun _ hshown => hshown.adjust reply.world cmd) (h.geared.typed houtcome)
      rw [hroom, Option.bind_some, hreply, Option.bind_some]
      dsimp only
      cases haction : reply.action with
      | changeRoom => exact ⟨true, _, rfl, hentered⟩
      | allowEdit => exact ⟨false, _, rfl, hstill (by rw [haction]; nofun) (by rw [haction]; nofun)⟩
      | discardText =>
          have hrunning := hstill (by rw [haction]; nofun) (by rw [haction]; nofun)
          exact ⟨false, _, rfl, hrunning.setKeys _ s.stdin⟩
      | redrawRoom =>
          obtain ⟨scene, screen, hscene, hscreen, hrunning⟩ := hredraw haction
          refine ⟨false, _, ?_, hrunning.setKeys { s.keys with typing := resetTypedCommand } s.stdin⟩
          rw [Session.typedResult, hscene, Option.bind_some]
          dsimp only
          rw [hscreen]
          rfl

/-- **Every command can be obeyed.** -/
theorem Running.obey (h : Running s) (hroom : s.room = some r) (henter : s.enterRoom = false)
    (rand : Nat → Nat) (cmd : Cmd) : ∃ s', s.obey rand cmd = some s' ∧ Running s' := by
  cases cmd with
  | none => exact ⟨s, rfl, h⟩
  | quit => exact ⟨s, rfl, h⟩
  | up =>
      refine h.pan hroom henter fun hshown _ hy => ?_
      obtain ⟨d', hd', hshown'⟩ := hshown.movePhotoDown hy
      have hgame := shiftView_game hd'
      exact ⟨d', hd', hshown', by rw [hgame], by rw [hgame]⟩
  | down =>
      refine h.pan hroom henter fun hshown _ hy => ?_
      obtain ⟨d', hd', hshown'⟩ := hshown.movePhotoUp hy
      have hgame := shiftView_game hd'
      exact ⟨d', hd', hshown', by rw [hgame], by rw [hgame]⟩
  | left =>
      refine h.pan hroom henter fun hshown hx _ => ?_
      obtain ⟨d', hd', hshown'⟩ := hshown.movePhotoRight hx
      have hgame := shiftView_game hd'
      exact ⟨d', hd', hshown', by rw [hgame], by rw [hgame]⟩
  | right =>
      refine h.pan hroom henter fun hshown hx _ => ?_
      obtain ⟨d', hd', hshown'⟩ := hshown.movePhotoLeft hx
      have hgame := shiftView_game hd'
      exact ⟨d', hd', hshown', by rw [hgame], by rw [hgame]⟩
  | moveLeft =>
      exact h.move hroom henter (fun w r => tryToMoveLeft w r rand) (a := .moveLeft) rfl
        nofun fun _ => id
  | enter =>
      exact h.move hroom henter (fun w r => tryToEnter w r rand) (a := .enter) rfl
        nofun fun _ => id
  | moveRight =>
      exact h.move hroom henter (fun w r => tryToMoveRight w r rand) (a := .moveRight) rfl
        nofun fun _ => id
  | typed =>
      obtain ⟨changed, s', hs', hrunning⟩ := h.handleTyping hroom henter rand
      refine ⟨_, ?_, hrunning⟩
      rw [Session.obey, hs']
      rfl

/-- **The second half has a result.** -/
theorem Running.respond (h : Running s) (hroom : s.room = some r) (henter : s.enterRoom = false)
    (arrived : List UInt8) (rand : Nat → Nat) :
    ∃ outcome s', s.respond arrived rand = some (outcome, s') ∧ Running s' := by
  obtain ⟨read, hread⟩ : ∃ read, getCommand (s.stdin ++ arrived) s.keys = read := ⟨_, rfl⟩
  have hread' := h.setKeys read.2.1 read.2.2
  unfold Session.respond
  rw [hread]
  dsimp only
  split
  · exact ⟨_, _, rfl, hread'⟩
  · obtain ⟨s', hs', hrunning⟩ := hread'.obey hroom henter rand read.1
    rw [hs']
    exact ⟨_, _, rfl, hrunning⟩

end Steps

/-! ## The loop and the game -/

section Refinement

variable {s s' : Session}

/-- Drawing and showing do nothing to the game. -/
theorem present_game (h : s.present = some s') : s'.game = s.game := by
  obtain ⟨s1, hs1, h⟩ := Option.bind_eq_some_iff.mp h
  obtain ⟨screen, -, rfl⟩ := Option.map_eq_some_iff.mp h
  show s1.game = s.game
  split at hs1
  · obtain ⟨scene, -, hs1⟩ := Option.bind_eq_some_iff.mp hs1
    obtain ⟨d, -, rfl⟩ := Option.map_eq_some_iff.mp hs1
    rfl
  · cases hs1
    rfl

/-- Entering a room resets the typed text. -/
theorem present_keys (h : s.present = some s') :
    s'.keys = (if s.enterRoom then { s.keys with typing := resetTypedCommand } else s.keys) ∧
      s'.stdin = s.stdin ∧ s'.enterRoom = false := by
  obtain ⟨s1, hs1, h⟩ := Option.bind_eq_some_iff.mp h
  obtain ⟨screen, -, rfl⟩ := Option.map_eq_some_iff.mp h
  show s1.keys = _ ∧ s1.stdin = _ ∧ s1.enterRoom = _
  split at hs1
  next henter =>
    obtain ⟨scene, -, hs1⟩ := Option.bind_eq_some_iff.mp hs1
    obtain ⟨d, -, rfl⟩ := Option.map_eq_some_iff.mp hs1
    rw [henter]
    exact ⟨rfl, rfl, rfl⟩
  next henter =>
    cases hs1
    exact ⟨(if_neg henter).symm, rfl, by simpa using henter⟩

theorem pan_game {move : Scene → Display → Option Display} (h : s.pan move = some s') : s'.game = s.game := by
  obtain ⟨scene, -, h⟩ := Option.bind_eq_some_iff.mp h
  obtain ⟨d, -, rfl⟩ := Option.map_eq_some_iff.mp h
  rfl

theorem typedResult_game {action : TcAction} {changed : Bool} (h : s.typedResult action = some (changed, s')) :
    s'.game = s.game := by
  cases action with
  | changeRoom =>
      cases h
      rfl
  | allowEdit =>
      cases h
      rfl
  | discardText =>
      cases h
      rfl
  | redrawRoom =>
      obtain ⟨scene, -, h⟩ := Option.bind_eq_some_iff.mp h
      obtain ⟨screen, -, h⟩ := Option.map_eq_some_iff.mp h
      cases h
      rfl

/-- The action a typed line stands for. -/
def typedAction (typing : Typing) : Option Action :=
  (splitCommand typing.chars).bind fun (verb, arg) =>
    (findVerb verb).map fun cmd => .typed cmd (String.ofList arg)

/-- The action a command stands for. -/
def Session.action (s : Session) : Cmd → Option Action
  | .moveLeft => some .moveLeft
  | .enter => some .enter
  | .moveRight => some .moveRight
  | .typed => typedAction s.keys.typing
  | _ => none

/-- The game goes on by the action, or stays as it is if there is none. -/
def Obeys (g : Game) (rand : Nat → Nat) (a : Option Action) (g' : Game) : Prop :=
  match a with
  | none => g' = g
  | some a => Plays g (a, rand) g'

/-- The game goes on by one action, or stays as it is. -/
def Follows (g : Game) (rand : Nat → Nat) (g' : Game) : Prop := g' = g ∨ ∃ a, Plays g (a, rand) g'

theorem Obeys.follows {g g' : Game} {rand : Nat → Nat} {a : Option Action} (h : Obeys g rand a g') :
    Follows g rand g' := by
  cases a with
  | none => exact .inl h
  | some a => exact .inr ⟨a, h⟩

theorem move_obeys {rand : Nat → Nat} {attempt : World → RoomId → Option Reply} {a : Action}
    (hact : ∀ w r, attempt w r = act w r rand a) (h : s.move attempt = some s') :
    Obeys s.game rand (some a) s'.game := by
  obtain ⟨r, hroom, h⟩ := Option.bind_eq_some_iff.mp h
  obtain ⟨reply, hreply, rfl⟩ := Option.map_eq_some_iff.mp h
  exact ⟨r, reply, hroom, (hact s.world r).symm.trans hreply, rfl⟩

theorem handleTyping_obeys {rand : Nat → Nat} {changed : Bool} (h : s.handleTyping rand = some (changed, s')) :
    Obeys s.game rand (typedAction s.keys.typing) s'.game := by
  unfold Session.handleTyping at h
  unfold typedAction
  split at h
  next hsplit =>
    cases h
    rw [hsplit]
    rfl
  next verb arg hsplit =>
    rw [hsplit, Option.bind_some]
    dsimp only
    split at h
    next hverb =>
      cases h
      rw [hverb]
      rfl
    next cmd hverb =>
      obtain ⟨r, hroom, h⟩ := Option.bind_eq_some_iff.mp h
      obtain ⟨reply, hreply, h⟩ := Option.bind_eq_some_iff.mp h
      have hgame := typedResult_game h
      rw [hverb]
      exact ⟨r, reply, hroom, hreply, hgame⟩

/-- **A command is obeyed by the action it stands for.** -/
theorem obey_obeys {rand : Nat → Nat} {cmd : Cmd} (h : s.obey rand cmd = some s') :
    Obeys s.game rand (s.action cmd) s'.game := by
  cases cmd with
  | none =>
      cases h
      rfl
  | quit =>
      cases h
      rfl
  | up => exact pan_game h
  | right => exact pan_game h
  | down => exact pan_game h
  | left => exact pan_game h
  | moveLeft => exact move_obeys (fun _ _ => rfl) h
  | enter => exact move_obeys (fun _ _ => rfl) h
  | moveRight => exact move_obeys (fun _ _ => rfl) h
  | typed =>
      obtain ⟨⟨changed, s1⟩, hs1, rfl⟩ := Option.map_eq_some_iff.mp h
      have hobeys := handleTyping_obeys hs1
      dsimp only
      split
      · exact hobeys
      · exact hobeys

/-- **An iteration is one action at most**, and the loop ends with `GAME_WON` exactly if the room becomes
NULL. -/
theorem tick_follows {input : List UInt8 × (Nat → Nat)} {outcome : Option GameCondition}
    (hroom : s.room ≠ none) (h : s.tick input = some (outcome, s')) :
    Follows s.game input.2 s'.game ∧ (outcome = some .won ↔ s'.room = none) := by
  obtain ⟨s1, hs1, h⟩ := Option.bind_eq_some_iff.mp h
  have hgame := present_game hs1
  have hroom1 : s1.room = s.room := congrArg Game.room hgame
  unfold Session.respond at h
  dsimp only at h
  split at h
  · cases h
    refine ⟨.inl hgame, iff_of_false nofun ?_⟩
    show s1.room ≠ none
    rw [hroom1]
    exact hroom
  · obtain ⟨s2, hs2, heq⟩ := Option.map_eq_some_iff.mp h
    obtain ⟨rfl, rfl⟩ := Prod.mk.inj heq
    have hfollows := (obey_obeys hs2).follows
    refine ⟨hgame ▸ hfollows, ?_⟩
    split
    next hnone => exact iff_of_true rfl hnone
    next hsome => exact iff_of_false nofun hsome

/-- What an iteration reads, and that it obeys it. -/
theorem tick_reads {input : List UInt8 × (Nat → Nat)} {outcome : Option GameCondition} {cmd : Cmd}
    {keys : Keys} {rest : List UInt8} (h : s.tick input = some (outcome, s'))
    (hread : getCommand (s.stdin ++ input.1)
      (if s.enterRoom then { s.keys with typing := resetTypedCommand } else s.keys) = (cmd, keys, rest))
    (hquit : cmd ≠ .quit) :
    ∃ s1 : Session, s1.game = s.game ∧ s1.keys = keys ∧ s1.stdin = rest ∧ s1.enterRoom = false ∧
      s1.obey input.2 cmd = some s' ∧ outcome = if s'.room = none then some .won else none := by
  obtain ⟨s1, hs1, h⟩ := Option.bind_eq_some_iff.mp h
  obtain ⟨hkeys, hstdin, henter⟩ := present_keys hs1
  rw [← hkeys, ← hstdin] at hread
  unfold Session.respond at h
  rw [hread] at h
  dsimp only at h
  rw [if_neg hquit] at h
  obtain ⟨s2, hs2, heq⟩ := Option.map_eq_some_iff.mp h
  obtain ⟨rfl, rfl⟩ := Prod.mk.inj heq
  have hgame : s1.game = s.game := present_game hs1
  exact ⟨{ s1 with keys := keys, stdin := rest }, hgame, rfl, rfl, henter, hs2, rfl⟩

end Refinement

/-! ## Every run of the loop -/

section Runs

variable {readPhoto : String → Option Photo} {readObjImage : String → Option Image}
  {rand : ObjId → Nat → Nat} {w : World} {build : Int → UInt8} {inputs : List (List UInt8 × (Nat → Nat))}
  {s s' : Session}

theorem Running.start (hbuild : buildWorld readPhoto readObjImage rand = some (.ok w))
    (hphotos : w.Photos Large) : Running (initGame w build) where
  screen := setModeX_fits build
  sound := sound_of_build hbuild
  player := (Game.Ready.start (sound_of_build hbuild)).2
  photos := hphotos
  geared := by
    have hloc := (built_linked hbuild).loc
    have hboard : w.loc .board ≠ some .inventory := by
      rw [hloc]
      decide
    have hjetpack : w.loc .jetpack ≠ some .inventory := by
      rw [hloc]
      decide
    exact ⟨(if_neg hboard).symm, (if_neg hjetpack).symm⟩
  shown := nofun

/-- **An iteration has a result**, and unless the player has won or quit the next one can start. -/
theorem Running.tick (h : Running s) (hroom : s.room ≠ none) (input : List UInt8 × (Nat → Nat)) :
    ∃ outcome s', s.tick input = some (outcome, s') ∧ Running s' := by
  obtain ⟨r, hr⟩ := Option.ne_none_iff_exists'.mp hroom
  obtain ⟨s1, scene, hs1, hgame, -, henter, hrunning, -⟩ := h.present hr
  have hr1 : s1.room = some r := (congrArg Game.room hgame).trans hr
  obtain ⟨outcome, s', hs', hrunning'⟩ := hrunning.respond hr1 henter input.1 input.2
  refine ⟨outcome, s', ?_, hrunning'⟩
  rw [Session.tick, hs1, Option.bind_some, hs']

theorem running_of_run (hread : ∀ file view, readPhoto file = some view → Large view)
    (hbuild : buildWorld readPhoto readObjImage rand = some (.ok w))
    (hrun : Run Ticks (initGame w build) inputs s) : Running s ∧ s.room ≠ none := by
  refine hrun.invariant (I := fun s => Running s ∧ s.room ≠ none)
    ⟨.start hbuild (photos_of_build hread hbuild), Option.some_ne_none _⟩ ?_
  rintro m input m' ⟨hm, hroom⟩ htick
  obtain ⟨outcome, m1, hm1, hrunning⟩ := hm.tick hroom input
  obtain ⟨rfl, rfl⟩ := Prod.mk.inj (Option.some.inj (hm1.symm.trans htick))
  exact ⟨hrunning, fun hnone => (nomatch (tick_follows hroom htick).2.mpr hnone)⟩

/-- **The screen shows the room of the player.**  With photos that fill the window, whatever is typed, in every
iteration of the loop the room that is shown is the player's; each pixel of the window has the colour of the
topmost object there or of the photo; the window is on the photo; and the photo moves three times as fast along
the rows exactly while the board is in the inventory, along the columns while the jetpack is.  Every iteration
has a result. -/
theorem loop_shows_room (hread : ∀ file view, readPhoto file = some view → Large view)
    (hbuild : buildWorld readPhoto readObjImage rand = some (.ok w))
    (hrun : Run Ticks (initGame w build) inputs s) :
    ∃ r s' scene, s.room = some r ∧ s.present = some s' ∧ s'.game = s.game ∧ s'.world.scene r = some scene ∧
      OnScreen scene s'.display ∧ Inside scene.view s'.display.game ∧ Geared s'.world s'.display.game ∧
      ∀ arrived rand, (s'.respond arrived rand).isSome := by
  obtain ⟨hrunning, hroom⟩ := running_of_run hread hbuild hrun
  obtain ⟨r, hr⟩ := Option.ne_none_iff_exists'.mp hroom
  obtain ⟨s', scene, hs', hgame, -, henter, hrunning', hscene, hshown, honscreen⟩ := hrunning.present hr
  have hr' : s'.room = some r := (congrArg Game.room hgame).trans hr
  refine ⟨r, s', scene, hr, hs', hgame, hscene, honscreen, hshown.inside, hrunning'.geared, fun arrived rand => ?_⟩
  obtain ⟨outcome, s2, hs2, -⟩ := hrunning'.respond hr' henter arrived rand
  rw [hs2]
  rfl

theorem plain_large : Large plainPhoto := ⟨by decide, by decide⟩

/-- The letter "i", typed. -/
def letterI : Typing := ⟨[105], by decide, fun _ hc => List.mem_singleton.mp hc ▸ rfl⟩

/-- The right arrow, and then "i": the photo moves, and the player looks into the inventory. -/
theorem two_iterations : ∃ w s1 s2,
    buildWorld (fun _ => some plainPhoto) (fun _ => some plainImage) (fun _ _ => 0) = some (.ok w) ∧
    (initGame w fun _ => 0).tick ([27, 91, 67], fun _ => 0) = some (none, s1) ∧
    s1.tick ([105, 10], fun _ => 0) = some (none, s2) ∧ s2.room = some .inventory := by
  obtain ⟨w, hbuild⟩ := plain_world_builds
  obtain ⟨hstart, hroom⟩ := running_of_run (fun _ _ h => Option.some.inj h ▸ plain_large) hbuild
    (show Run Ticks (initGame w fun _ => 0) [] _ from rfl)
  -- the arrow
  obtain ⟨outcome, s1, htick, hrunning⟩ := hstart.tick hroom ([27, 91, 67], fun _ => 0)
  obtain ⟨p, hgame, hkeys, hstdin, henter, hobey, rfl⟩ :=
    tick_reads htick (show getCommand [27, 91, 67] bootKeys = (.right, ⟨0, resetTypedCommand, .right⟩, []) by
      decide) nofun
  obtain ⟨scene, -, hobey⟩ := Option.bind_eq_some_iff.mp hobey
  obtain ⟨d, -, rfl⟩ := Option.map_eq_some_iff.mp hobey
  have hroom1 : p.room = some .eastEvrt := congrArg Game.room hgame
  have hgoes : ¬p.room = none := by
    rw [hroom1]
    nofun
  -- the letter and the return key
  obtain ⟨outcome, s2, htick2, -⟩ := hrunning.tick hgoes ([105, 10], fun _ => 0)
  obtain ⟨q, hgame2, hkeys2, -, -, hobey2, rfl⟩ :=
    tick_reads htick2
      (show getCommand (p.stdin ++ [105, 10]) (if p.enterRoom then { p.keys with typing := resetTypedCommand }
            else p.keys) =
          (.typed, ⟨0, letterI, .typed⟩, []) by
        rw [hstdin, henter, hkeys]
        decide)
      nofun
  have hobeys := obey_obeys hobey2
  have haction : q.action .typed = some (.typed .inventory "") := by
    show typedAction q.keys.typing = _
    rw [hkeys2]
    decide
  rw [haction, hgame2] at hobeys
  obtain ⟨r, reply, hr, hreply, hgame3⟩ := hobeys
  obtain rfl : RoomId.eastEvrt = r := Option.some.inj (hroom1.symm.trans hr)
  obtain rfl := Option.some.inj hreply
  have hroom2 : s2.room = some .inventory := congrArg Game.room hgame3
  refine ⟨w, _, s2, hbuild, htick.trans ?_, htick2.trans ?_, hroom2⟩
  · exact congrArg (fun outcome => some (outcome, _)) (if_neg hgoes)
  · rw [if_neg (by rw [hroom2]; nofun)]

/-- The inventory is on the screen. -/
theorem inventory_on_screen : ∃ w s s' scene,
    buildWorld (fun _ => some plainPhoto) (fun _ => some plainImage) (fun _ _ => 0) = some (.ok w) ∧
    Run Ticks (initGame w fun _ => 0) [([27, 91, 67], fun _ => 0), ([105, 10], fun _ => 0)] s ∧
    s.present = some s' ∧ s'.world.scene .inventory = some scene ∧ OnScreen scene s'.display := by
  obtain ⟨w, s1, s2, hbuild, htick, htick2, hroom⟩ := two_iterations
  have hrun : Run Ticks (initGame w fun _ => 0) [([27, 91, 67], fun _ => 0), ([105, 10], fun _ => 0)] s2 :=
    ⟨s1, htick, s2, htick2, rfl⟩
  obtain ⟨r, s', scene, hr, hs', -, hscene, honscreen, -⟩ :=
    loop_shows_room (fun _ _ h => Option.some.inj h ▸ plain_large) hbuild hrun
  obtain rfl := Option.some.inj (hroom.symm.trans hr)
  exact ⟨w, s2, s', scene, hbuild, hrun, hs', hscene, honscreen⟩

end Runs

/-! ## The loop plays the game -/

section Games

variable {s s' : Session}

/-- **`Traces w s inputs`** — the player is in a room, and the game is one the player can play: an action at most
for each iteration, with the random numbers of that iteration. -/
def Traces (w : World) (s : Session) (inputs : List (List UInt8 × (Nat → Nat))) : Prop :=
  ∃ actions, Run Plays (startGame w) actions s.game ∧ (actions.map Prod.snd).Sublist (inputs.map Prod.snd)

theorem Traces.tick {w : World} {inputs : List (List UInt8 × (Nat → Nat))} {input : List UInt8 × (Nat → Nat)}
    (h : Traces w s inputs) (hfollows : Follows s.game input.2 s'.game) : Traces w s' (inputs ++ [input]) := by
  obtain ⟨actions, hrun, hsub⟩ := h
  rcases hfollows with hgame | ⟨a, hplays⟩
  · refine ⟨actions, hgame ▸ hrun, ?_⟩
    rw [List.map_append]
    exact hsub.trans (List.sublist_append_left _ _)
  · refine ⟨actions ++ [(a, input.2)], run_snoc.mpr ⟨s.game, hrun, hplays⟩, ?_⟩
    rw [List.map_append, List.map_append]
    exact hsub.append_right _

/-- Every run of the loop. -/
theorem traces_of_run {w : World} {build : Int → UInt8} {inputs : List (List UInt8 × (Nat → Nat))}
    (hrun : Run Ticks (initGame w build) inputs s) : s.room ≠ none ∧ Traces w s inputs := by
  induction inputs using List.reverseRecOn generalizing s with
  | nil =>
      cases hrun
      exact ⟨Option.some_ne_none _, ⟨[], rfl, List.Sublist.refl _⟩⟩
  | append_singleton inputs input ih =>
      obtain ⟨m, hbefore, htick⟩ := run_snoc.mp hrun
      obtain ⟨hroom, htraces⟩ := ih hbefore
      obtain ⟨hfollows, hwon⟩ := tick_follows hroom htick
      exact ⟨fun hnone => (nomatch hwon.mpr hnone), htraces.tick hfollows⟩

/-- **The loop plays the game.**  Whatever is typed, the iterations of the loop are a game of the actions of
`world.c`, at most one for each.  The loop returns `GAME_WON` exactly if the room becomes NULL; then every
accomplishment is reached, and the plane can take off. -/
theorem loop_plays_game {readPhoto : String → Option Photo} {readObjImage : String → Option Image}
    {rand : ObjId → Nat → Nat} {w : World} {build : Int → UInt8}
    {inputs : List (List UInt8 × (Nat → Nat))} {input : List UInt8 × (Nat → Nat)}
    {outcome : Option GameCondition}
    (hbuild : buildWorld readPhoto readObjImage rand = some (.ok w))
    (hrun : Run Ticks (initGame w build) inputs s) (htick : s.tick input = some (outcome, s')) :
    Traces w s' (inputs ++ [input]) ∧ (outcome = some .won ↔ s'.room = none) ∧
      (outcome = some .won → (∀ f, s'.world.flags f) ∧ (s'.world.room .cockpit).enter = some .overWill) := by
  obtain ⟨hroom, htraces⟩ := traces_of_run hrun
  obtain ⟨hfollows, hwon⟩ := tick_follows hroom htick
  have htraces' := htraces.tick hfollows
  refine ⟨htraces', hwon, fun houtcome => ?_⟩
  obtain ⟨actions, hplayed, -⟩ := htraces'
  obtain ⟨here, hearned, -, -, hlast⟩ := Told.of_run hbuild hplayed
  obtain ⟨hbook, htux⟩ := hlast (hwon.mp houtcome)
  exact hearned.finish hbook htux

/-- Of the two iterations the second is an action. -/
theorem inventory_is_played : ∃ w s1 s2,
    buildWorld (fun _ => some plainPhoto) (fun _ => some plainImage) (fun _ _ => 0) = some (.ok w) ∧
    (initGame w fun _ => 0).tick ([27, 91, 67], fun _ => 0) = some (none, s1) ∧
    s1.tick ([105, 10], fun _ => 0) = some (none, s2) ∧ s2.room = some .inventory ∧
    Traces w s2 [([27, 91, 67], fun _ => 0), ([105, 10], fun _ => 0)] := by
  obtain ⟨w, s1, s2, hbuild, htick, htick2, hroom⟩ := two_iterations
  have hrun : Run Ticks (initGame w fun _ => 0) [([27, 91, 67], fun _ => 0)] s1 := ⟨s1, htick, rfl⟩
  exact ⟨w, s1, s2, hbuild, htick, htick2, hroom, (loop_plays_game hbuild hrun htick2).1⟩

end Games

end Ece391.Adventure
