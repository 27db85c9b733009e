/-
# Ece391.Adventure.Modex — the build buffer and the mode X screen (`mp2/modex.c`).

The scrolling region of the screen is a window of `scrollXDim` by `scrollYDim` pixels on a logical
plane.  The window is drawn line by line into the build buffer, four planes in reverse order, and
`show_screen` copies the planes to video memory.  `set_view_window` moves the window; most of the time
that moves nothing in the buffer, and otherwise what stays visible is copied to its new place.

Offsets are relative to the start of `build`, so the pointer `img3` is the offset `img3_off +
MEM_FENCE_WIDTH`, as it is assigned wherever `img3_off` is.  An access outside the buffer proper, the
memory fence included, gives `none`.  `x >> 2` is the quotient `x / 4` rounded down and `x & 3` the
remainder.
-/
import Ece391.Lib.Memory

open Ece391.Lib

namespace Ece391.Adventure

/-! ## Dimensions -/

def imageXDim : Int := 320
def imageYDim : Int := 200
def scrollXDim : Int := imageXDim
def scrollYDim : Int := imageYDim - 18
def scrollXWidth : Int := imageXDim / 4

/-- The space for one plane of an image, and for all four of them. -/
def scrollSize : Int := scrollXWidth * scrollYDim
def screenSize : Int := scrollSize * 4 + 1

def buildBufSize : Int := screenSize + 20000
def buildBaseInit : Int := (buildBufSize - screenSize) / 2
def memFenceWidth : Int := 256
def memFenceMagic : UInt8 := 0xF3
def modeXMemSize : Int := 65536
def statusBarSize : Nat := 18 * 320 / 4

/-- The part of `build` between the fences. -/
def buildSpan : Span := ⟨memFenceWidth, memFenceWidth + buildBufSize⟩

/-- One plane of video memory. -/
def videoSpan : Span := ⟨0, modeXMemSize⟩

/-- The buffer for the image of a line. -/
abbrev Line := Int → UInt8

/-- The file-scope variables of `modex.c`, the planes of video memory and the start address of the
display. -/
structure ModeX where
  build : Int → UInt8
  img3Off : Int
  showX : Int
  showY : Int
  targetImg : UInt16
  video : Nat → Int → UInt8
  startAddr : UInt16

namespace ModeX

/-- The pointer `img3`. -/
def img3 (s : ModeX) : Int := s.img3Off + memFenceWidth

end ModeX

/-- **`setModeX`** — a successful `set_mode_X`, whatever the buffer held. -/
def setModeX (build : Int → UInt8) : ModeX where
  build o :=
    if 0 ≤ o ∧ o < memFenceWidth ∨
        buildBufSize + memFenceWidth ≤ o ∧ o < buildBufSize + 2 * memFenceWidth then memFenceMagic
    else build o
  img3Off := buildBaseInit
  showX := 0
  showY := 0
  targetImg := UInt16.ofNat (statusBarSize * 4)
  video _ _ := 0
  startAddr := 0

/-! ## `set_view_window` -/

/-- **`setViewWindow`** — `set_view_window`. -/
def setViewWindow (s : ModeX) (scrX scrY : Int) : Option ModeX :=
  let oldX := s.showX
  let oldY := s.showY
  let s := { s with showX := scrX, showY := scrY }
  -- the new window lies within the buffer
  if s.img3Off + scrX / 4 + scrY * scrollXWidth ≥ 0 ∧
      s.img3Off + 3 * scrollSize + (scrX + scrollXDim - 1) / 4 +
        (scrY + scrollYDim - 1) * scrollXWidth < buildBufSize then some s
  -- nothing stays visible
  else if scrX ≤ oldX - scrollXDim ∨ scrX ≥ oldX + scrollXDim ∨
      scrY ≤ oldY - scrollYDim ∨ scrY ≥ oldY + scrollYDim then
    some { s with img3Off := buildBaseInit - scrX / 4 - scrY * scrollXWidth }
  else
    let startX := if scrX > oldX then scrX else oldX
    let endX := (if scrX > oldX then oldX else scrX) + scrollXDim - 1
    let startY := if scrY > oldY then scrY else oldY
    let endY := (if scrY > oldY then oldY else scrY) + scrollYDim - 1
    let startOff := startX / 4 + startY * scrollXWidth
    let startAddr := s.img3 + startOff
    let length := endX / 4 + endY * scrollXWidth + 1 - startOff + 3 * scrollSize
    let s := { s with img3Off := buildBaseInit - s.showX / 4 - s.showY * scrollXWidth }
    let targetAddr := s.img3 + startOff
    let order := if startAddr < targetAddr then (List.range length.toNat).reverse
      else List.range length.toNat
    (copyEach buildSpan targetAddr startAddr order s.build).map fun build => { s with build := build }

/-! ## `show_screen` -/

/-- **`copyImage`** — `copy_image`: one plane of the window to the plane selected by the write mask. -/
def copyImage (build : Int → UInt8) (img : Int) (scrAddr : UInt16) :
    (Int → UInt8) → Option (Int → UInt8) :=
  writeEach videoSpan (fun j : Nat => (scrAddr.toNat : Int) + j)
    (fun j => fetch buildSpan build (img + j)) (List.range 14560)

/-- The loop over the video planes. -/
def showPlanes (build : Int → UInt8) (addr pOff : Int) (target : UInt16) :
    List Nat → (Nat → Int → UInt8) → Option (Nat → Int → UInt8)
  | [], video => some video
  | i :: is, video =>
      (copyImage build (addr + (pOff - i + 4) % 4 * scrollSize + if pOff < i then 1 else 0) target
        (video i)).bind fun plane =>
          showPlanes build addr pOff target is (Function.update video i plane)

/-- **`showScreen`** — `show_screen`. -/
def showScreen (s : ModeX) : Option ModeX :=
  let pOff := 3 - s.showX % 4
  let target := s.targetImg ^^^ 0x4000
  let addr := s.img3 + s.showX / 4 + s.showY * scrollXWidth
  (showPlanes s.build addr pOff target (List.range 4) s.video).map fun video =>
    { s with targetImg := target, video := video, startAddr := target }

/-! ## The lines -/

section Lines

-- the callbacks that produce the image of a line from its first pixel
variable (horizLineFn vertLineFn : Int → Int → Line)

/-- The loop of `draw_vert_line`, with `n` pixels to go. -/
def drawColumn (buf : Line) (pOff : Int) :
    Nat → Nat → Int → (Int → UInt8) → Option (Int → UInt8)
  | 0, _, _, build => some build
  | n + 1, i, addr, build =>
      (store buildSpan build (addr + pOff * scrollSize) (buf i)).bind
        (drawColumn buf pOff n (i + 1) (addr + scrollXWidth))

/-- **`drawVertLine`** — `draw_vert_line`: the return value and the state. -/
def drawVertLine (s : ModeX) (x : Int) : Option (Int × ModeX) :=
  if x < 0 ∨ x ≥ scrollXDim then some (-1, s)
  else
    let x := x + s.showX
    let buf := vertLineFn x s.showY
    let addr := s.img3 + x / 4 + s.showY * scrollXWidth
    let pOff := 3 - x % 4
    (drawColumn buf pOff scrollYDim.toNat 0 addr s.build).map fun build => (0, { s with build := build })

/-- The loop of `draw_horiz_line`, with `n` pixels to go. -/
def drawRow (buf : Line) : Nat → Nat → Int → Int → (Int → UInt8) → Option (Int → UInt8)
  | 0, _, _, _, build => some build
  | n + 1, i, addr, pOff, build =>
      (store buildSpan build (addr + pOff * scrollSize) (buf i)).bind fun build =>
        if pOff - 1 < 0 then drawRow buf n (i + 1) (addr + 1) 3 build
        else drawRow buf n (i + 1) addr (pOff - 1) build

/-- **`drawHorizLine`** — `draw_horiz_line`. -/
def drawHorizLine (s : ModeX) (y : Int) : Option (Int × ModeX) :=
  if y < 0 ∨ y ≥ scrollYDim then some (-1, s)
  else
    let y := y + s.showY
    let buf := horizLineFn s.showX y
    let addr := s.img3 + s.showX / 4 + y * scrollXWidth
    let pOff := 3 - s.showX % 4
    (drawRow buf scrollXDim.toNat 0 addr pOff s.build).map fun build => (0, { s with build := build })

end Lines

end Ece391.Adventure
