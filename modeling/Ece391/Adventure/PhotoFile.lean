/-
# Ece391.Adventure.PhotoFile — photo and object files, written by one program and read by another.

`mp2photo.c` turns a 24-bit BMP file into a room photo (5:6:5 bits a pixel) or, compiled the other way,
into an object image (2:2:2 bits, bright yellow is transparent).  `photo.c` reads both, keeps 2:2:2
bits, and turns the rows upside down: a file starts with the bottom row, an image in memory with the
top one.

A file is the list of its bytes, and reading uses the list up; opening, seeking and allocating succeed.
`mem` is what `malloc` returned.  The writer counts rows and columns in 16 bits while the sizes have
32, so its loops get fuel and a loop that never ends has no result; the header check rules that out.
-/
import Mathlib.Algebra.Group.Nat.Defs
import Mathlib.Data.Nat.Bitwise
import Ece391.Adventure.Render

namespace Ece391.Adventure

/-! ## Bytes and colors -/

/-- The value of bytes in little-endian order. -/
def le (bs : List UInt8) : Nat := bs.foldr (fun b n => b.toNat + 256 * n) 0

/-- The two bytes of a `uint16_t`. -/
def le16 (n : Nat) : List UInt8 := [UInt8.ofNat n, UInt8.ofNat (n / 256)]

/-- The color of a photo file: 5:6:5 bits. -/
def rgb565 (r g b : UInt8) : Nat :=
  ((r.toNat >>> 3) <<< 11) ||| ((g.toNat >>> 2) <<< 5) ||| (b.toNat >>> 3)

/-- The color in memory and in an object file: 2:2:2 bits. -/
def rgb222 (r g b : UInt8) : UInt8 :=
  UInt8.ofNat (((r.toNat >>> 6) <<< 4) ||| ((g.toNat >>> 6) <<< 2) ||| (b.toNat >>> 6))

/-- What `read_photo` keeps of a pixel. -/
def photoColor (pixel : Nat) : UInt8 :=
  UInt8.ofNat (((pixel >>> 14) <<< 4) ||| (((pixel >>> 9) &&& 0x3) <<< 2) ||| ((pixel >>> 3) &&& 0x3))

/-- The color of an object file: bright yellow is mapped to transparent. -/
def objectColor (r g b : UInt8) : UInt8 :=
  if rgb222 r g b = 0x3C then objClrTransp else rgb222 r g b

/-! ## The writer (`mp2photo.c`) -/

/-- `bmp_header_t`, the fields that are used. -/
structure BmpHeader where
  pixelOffset : Nat
  imgWidth : Nat
  imgHeight : Nat
  planes : Nat
  bitsPerPixel : Nat
  compressionType : Nat
  imgSize : Nat

/-- `bmp_row_width`, in 32 bits: rows are padded to a multiple of 4 bytes. -/
def bmpRowWidth (h : BmpHeader) : Nat := 4 * ((3 * h.imgWidth + 3) % 2 ^ 32 / 4)

/-- The header after the two bytes of the magic sequence. -/
def freadHeader (file : List UInt8) : Option BmpHeader :=
  let field := fun pos size => le ((file.drop (2 + pos)).take size)
  if 38 ≤ file.length then
    some ⟨field 8 4, field 16 4, field 20 4, field 24 2, field 26 2, field 28 4, field 32 4⟩
  else none

/-- **`bmpHeaderCheck`** — `bmp_header_check`: the header, or what is printed. -/
def bmpHeaderCheck (fname : String) (file : List UInt8) : Except String BmpHeader :=
  if file.take 2 ≠ [0x42, 0x4D] then .error (fname ++ " does not appear to be a BMP file.\n")
  else
    match freadHeader file with
    | none => .error (fname ++ " does not appear to be a BMP file.\n")
    | some h =>
        if 4096 < h.imgWidth ∨ 4096 < h.imgHeight ∨ 1 ≠ h.planes ∨ 24 ≠ h.bitsPerPixel ∨
            0 ≠ h.compressionType then
          .error (fname ++ " must be 24-bit-color on one plane with no compression.\n")
        else if h.imgSize ≠ bmpRowWidth h * h.imgHeight % 2 ^ 32 then
          .error (fname ++ " image size incorrect in BMP/DIB header.\n")
        else .ok h

/-- `read_bmp_image_data`: one item of `img_size` bytes. -/
def readBmpImageData (file : List UInt8) (h : BmpHeader) : Option (List UInt8) :=
  if 0 < h.imgSize ∧ h.pixelOffset + h.imgSize ≤ file.length then
    some ((file.drop h.pixelOffset).take h.imgSize)
  else none

/-- The loop `for (i = 0; n > i; i++)` with a counter of 16 bits: the bytes its rounds write. -/
def for16 (n : Nat) (body : Nat → Option (List UInt8)) : Nat → Nat → Option (List UInt8)
  | 0, _ => none
  | fuel + 1, i =>
      if n > i then
        (body i).bind fun out => (for16 n body fuel ((i + 1) % 2 ^ 16)).map fun rest => out ++ rest
      else some []

/-- Red, green and blue of a pixel; in the file blue comes first. -/
def bmpPixel (h : BmpHeader) (img : List UInt8) (x y : Nat) : UInt8 × UInt8 × UInt8 :=
  (img.getD (bmpRowWidth h * y + 3 * x + 2) 0, img.getD (bmpRowWidth h * y + 3 * x + 1) 0,
    img.getD (bmpRowWidth h * y + 3 * x) 0)

/-- **`writeOutputFile`** — `write_output_file`; `color` is the part the two variants differ in. -/
def writeOutputFile (color : UInt8 → UInt8 → UInt8 → List UInt8) (h : BmpHeader) (img : List UInt8) :
    Option (List UInt8) :=
  (for16 h.imgHeight (fun y =>
    for16 h.imgWidth (fun x =>
      let (r, g, b) := bmpPixel h img x y
      some (color r g b)) (2 ^ 16) 0) (2 ^ 16) 0).map fun data =>
    le16 h.imgWidth ++ le16 h.imgHeight ++ data

/-- The two variants. -/
def writePhoto (h : BmpHeader) (img : List UInt8) : Option (List UInt8) :=
  writeOutputFile (fun r g b => le16 (rgb565 r g b)) h img
def writeObjImage (h : BmpHeader) (img : List UInt8) : Option (List UInt8) :=
  writeOutputFile (fun r g b => [objectColor r g b]) h img

/-! ## The reader (`photo.c`) -/

def maxPhotoWidth : Nat := 1024
def maxPhotoHeight : Nat := 1024
def maxObjectWidth : Nat := 160
def maxObjectHeight : Nat := 100

/-- The header of a photo or object file, and the rest of the file. -/
def freadPhotoHeader : List UInt8 → Option (PhotoHeader × List UInt8)
  | a :: b :: c :: d :: rest =>
      some (⟨a.toNat + 256 * b.toNat, c.toNat + 256 * d.toNat,
        by have := a.toNat_lt; have := b.toNat_lt; omega,
        by have := c.toNat_lt; have := d.toNat_lt; omega⟩, rest)
  | _ => none

/-- The next pixel of a photo file, as it is stored. -/
def freadPhotoPixel : List UInt8 → Option (UInt8 × List UInt8)
  | a :: b :: rest => some (photoColor (a.toNat + 256 * b.toNat), rest)
  | _ => none

/-- The next pixel of an object file. -/
def freadObjPixel : List UInt8 → Option (UInt8 × List UInt8)
  | a :: rest => some (a, rest)
  | _ => none

/-- The loop over rows from bottom to top and over columns from left to right: `(x, y)` in order. -/
def scan (hdr : PhotoHeader) : List (Nat × Nat) :=
  (List.range hdr.height).reverse.flatMap fun y => (List.range hdr.width).map fun x => (x, y)

/-- The body of the loop. -/
def readPixels (fread : List UInt8 → Option (UInt8 × List UInt8)) (width : Nat) :
    List (Nat × Nat) → List UInt8 → (Nat → UInt8) → Option (Nat → UInt8)
  | [], _, img => some img
  | (x, y) :: rest, file, img =>
      (fread file).bind fun (pixel, file) =>
        readPixels fread width rest file (Function.update img (width * y + x) pixel)

/-- `read_photo` and `read_obj_image`, with the limits and the pixel format as parameters. -/
def readImage (maxWidth maxHeight : Nat) (fread : List UInt8 → Option (UInt8 × List UInt8))
    (mem : Nat → UInt8) (file : List UInt8) : Option (PhotoHeader × (Nat → UInt8)) :=
  (freadPhotoHeader file).bind fun (hdr, rest) =>
    if maxWidth < hdr.width ∨ maxHeight < hdr.height then none
    else (readPixels fread hdr.width (scan hdr) rest mem).map fun img => (hdr, img)

/-- **`readPhoto`** — `read_photo`. -/
def readPhoto (mem : Nat → UInt8) (file : List UInt8) : Option Photo :=
  (readImage maxPhotoWidth maxPhotoHeight freadPhotoPixel mem file).map fun (hdr, img) => ⟨hdr, img⟩

/-- **`readObjImage`** — `read_obj_image`. -/
def readObjImage (mem : Nat → UInt8) (file : List UInt8) : Option Image :=
  (readImage maxObjectWidth maxObjectHeight freadObjPixel mem file).map fun (hdr, img) => ⟨hdr, img⟩

/-! ## Colors round trip -/

theorem rgb565_eq (r g b : UInt8) :
    rgb565 r g b = r.toNat / 8 * 2048 + g.toNat / 4 * 32 + b.toNat / 8 := by
  have hg := g.toNat_lt
  have hb := b.toNat_lt
  have hlow : ((g.toNat >>> 2) <<< 5) ||| (b.toNat >>> 3) = g.toNat / 4 * 32 + b.toNat / 8 := by
    simp only [Nat.shiftRight_eq_div_pow]
    rw [← Nat.shiftLeft_add_eq_or_of_lt (by omega), Nat.shiftLeft_eq]
  unfold rgb565
  rw [Nat.or_assoc, hlow, ← Nat.shiftLeft_add_eq_or_of_lt (by omega), Nat.shiftLeft_eq,
    Nat.shiftRight_eq_div_pow, Nat.add_assoc]

/-- **5:6:5 bits are enough for 2:2:2.** -/
theorem photoColor_rgb565 (r g b : UInt8) : photoColor (rgb565 r g b) = rgb222 r g b := by
  have hr := r.toNat_lt
  have hg := g.toNat_lt
  have hb := b.toNat_lt
  have hmask : ∀ n : Nat, n &&& 0x3 = n % 4 := fun n => Nat.and_two_pow_sub_one_eq_mod n 2
  have hred : rgb565 r g b >>> 14 = r.toNat >>> 6 := by
    rw [rgb565_eq]
    simp only [Nat.shiftRight_eq_div_pow]
    omega
  have hgreen : rgb565 r g b >>> 9 % 4 = g.toNat >>> 6 := by
    rw [rgb565_eq]
    simp only [Nat.shiftRight_eq_div_pow]
    omega
  have hblue : rgb565 r g b >>> 3 % 4 = b.toNat >>> 6 := by
    rw [rgb565_eq]
    simp only [Nat.shiftRight_eq_div_pow]
    omega
  unfold photoColor rgb222
  rw [hmask, hmask, hred, hgreen, hblue]

/-- A `uint16_t` read back. -/
theorem le16_toNat {n : Nat} (h : n < 2 ^ 16) :
    (UInt8.ofNat n).toNat + 256 * (UInt8.ofNat (n / 256)).toNat = n := by
  simp only [UInt8.toNat_ofNat']
  omega

theorem rgb565_lt (r g b : UInt8) : rgb565 r g b < 2 ^ 16 := by
  have hr := r.toNat_lt
  have hg := g.toNat_lt
  have hb := b.toNat_lt
  rw [rgb565_eq]
  omega

theorem freadPhotoPixel_rgb565 (r g b : UInt8) (rest : List UInt8) :
    freadPhotoPixel (le16 (rgb565 r g b) ++ rest) = some (rgb222 r g b, rest) := by
  show some (photoColor (_ + 256 * _), rest) = _
  rw [le16_toNat (rgb565_lt r g b), photoColor_rgb565]

/-! ## What is written -/

/-- A counter of 16 bits is wide enough for a bound of 16 bits. -/
theorem for16_eq {n : Nat} {body : Nat → Option (List UInt8)} {out : Nat → List UInt8}
    (hn : n < 2 ^ 16) (hbody : ∀ i, body i = some (out i)) {fuel i : Nat} (hi : i ≤ n)
    (hfuel : n - i < fuel) : for16 n body fuel i = some ((List.range' i (n - i)).flatMap out) := by
  induction fuel generalizing i with
  | zero => exact absurd hfuel (Nat.not_lt_zero _)
  | succ fuel ih =>
      unfold for16
      split
      next hlt =>
        have hlen : n - i = (n - (i + 1)) + 1 := by omega
        have hwrap : (i + 1) % 2 ^ 16 = i + 1 := Nat.mod_eq_of_lt (by omega)
        rw [hbody, Option.bind_some, hwrap, ih (by omega) (by omega), hlen, List.range'_succ,
          List.flatMap_cons, Option.map_some]
      next hlt =>
        have hlen : n - i = 0 := by omega
        rw [hlen]
        rfl

theorem writeOutputFile_eq (color : UInt8 → UInt8 → UInt8 → List UInt8) {h : BmpHeader}
    (img : List UInt8) (hwidth : h.imgWidth < 2 ^ 16) (hheight : h.imgHeight < 2 ^ 16) :
    writeOutputFile color h img = some (le16 h.imgWidth ++ le16 h.imgHeight ++
      (List.range h.imgHeight).flatMap fun y => (List.range h.imgWidth).flatMap fun x =>
        color (bmpPixel h img x y).1 (bmpPixel h img x y).2.1 (bmpPixel h img x y).2.2) := by
  have hrow : ∀ y, for16 h.imgWidth (fun x => some (color (bmpPixel h img x y).1
      (bmpPixel h img x y).2.1 (bmpPixel h img x y).2.2)) (2 ^ 16) 0 = some
        ((List.range h.imgWidth).flatMap fun x => color (bmpPixel h img x y).1
          (bmpPixel h img x y).2.1 (bmpPixel h img x y).2.2) := by
    intro y
    rw [for16_eq hwidth (fun x => rfl) (Nat.zero_le _) (by omega), Nat.sub_zero,
      ← List.range_eq_range']
  unfold writeOutputFile
  rw [for16_eq hheight hrow (Nat.zero_le _) (by omega), Nat.sub_zero, ← List.range_eq_range',
    Option.map_some]

/-! ## What is read -/

/-- Where a pixel is stored. -/
def cellOf (width : Nat) (p : Nat × Nat) : Nat := width * p.2 + p.1

/-- The loop stores every pixel it reads, if no two of them share a cell. -/
theorem readPixels_spec (fread : List UInt8 → Option (UInt8 × List UInt8)) {width : Nat}
    {file : Nat × Nat → List UInt8} {pixel : Nat × Nat → UInt8}
    (hread : ∀ p rest, fread (file p ++ rest) = some (pixel p, rest)) {ps : List (Nat × Nat)}
    (hcells : ps.Pairwise fun p q => cellOf width p ≠ cellOf width q) (img : Nat → UInt8) :
    ∃ img', readPixels fread width ps (ps.flatMap file) img = some img' ∧
      (∀ p ∈ ps, img' (cellOf width p) = pixel p) ∧
      ∀ a, (∀ p ∈ ps, a ≠ cellOf width p) → img' a = img a := by
  induction ps generalizing img with
  | nil => exact ⟨img, rfl, nofun, fun _ _ => rfl⟩
  | cons p ps ih =>
      obtain ⟨hfirst, hrest⟩ := List.pairwise_cons.mp hcells
      obtain ⟨img', himg', hin, hout⟩ := ih hrest (Function.update img (cellOf width p) (pixel p))
      refine ⟨img', ?_, fun q hq => ?_, fun a ha => ?_⟩
      · rw [List.flatMap_cons, readPixels, hread, Option.bind_some]
        exact himg'
      · rcases List.mem_cons.mp hq with rfl | hq
        · rw [hout _ hfirst, Function.update_self]
        · exact hin q hq
      · rw [hout a fun q hq => ha q (List.mem_cons_of_mem p hq),
          Function.update_of_ne (ha p List.mem_cons_self)]

theorem mem_scan {hdr : PhotoHeader} {x y : Nat} :
    (x, y) ∈ scan hdr ↔ x < hdr.width ∧ y < hdr.height := by
  simp [scan, and_comm]

/-- Two pixels of an image never share a cell. -/
theorem scan_pairwise (hdr : PhotoHeader) :
    (scan hdr).Pairwise fun p q => cellOf hdr.width p ≠ cellOf hdr.width q := by
  rw [scan, List.pairwise_flatMap]
  refine ⟨fun y _ => ?_, ?_⟩
  · rw [List.pairwise_map]
    refine List.pairwise_lt_range.imp fun {x x'} hlt heq => ?_
    have hsame : hdr.width * y + x = hdr.width * y + x' := heq
    omega
  · rw [List.pairwise_reverse]
    refine List.pairwise_lt_range.imp fun {y y'} hlt => ?_
    intro p hp q hq heq
    obtain ⟨x, hx, rfl⟩ := List.mem_map.mp hp
    obtain ⟨x', hx', rfl⟩ := List.mem_map.mp hq
    have hrow := congrArg (· / hdr.width) heq
    have hpos : 0 < hdr.width := Nat.zero_lt_of_lt (List.mem_range.mp hx)
    simp only [cellOf, Nat.mul_add_div hpos, Nat.div_eq_of_lt (List.mem_range.mp hx),
      Nat.div_eq_of_lt (List.mem_range.mp hx')] at hrow
    omega

/-- **The order of the file is the order of the loop**: its rows from the top are the BMP's from the
bottom. -/
theorem scan_flatMap (hdr : PhotoHeader) (out : Nat → Nat → List UInt8) :
    ((List.range hdr.height).flatMap fun y => (List.range hdr.width).flatMap fun x => out x y) =
      (scan hdr).flatMap fun p => out p.1 (hdr.height - 1 - p.2) := by
  have hrows : (List.range hdr.height).reverse =
      (List.range hdr.height).map fun y => hdr.height - 1 - y := by
    rw [List.range_eq_range', List.reverse_range', ← List.range_eq_range', Nat.zero_add]
  rw [scan, hrows, List.flatMap_map, List.flatMap_assoc]
  apply List.flatMap_congr
  intro y hy
  have hback : hdr.height - 1 - (hdr.height - 1 - y) = y := by
    have hlt := List.mem_range.mp hy
    omega
  rw [List.flatMap_map]
  simp only [hback]

/-- **What one program writes the other reads**: sizes within the limits, and a pixel format whose
encoding decodes. -/
theorem readImage_write (color : UInt8 → UInt8 → UInt8 → List UInt8)
    (fread : List UInt8 → Option (UInt8 × List UInt8)) (decoded : UInt8 → UInt8 → UInt8 → UInt8)
    (hcolor : ∀ r g b rest, fread (color r g b ++ rest) = some (decoded r g b, rest))
    {h : BmpHeader} (img : List UInt8) {maxWidth maxHeight : Nat} (hwidth : h.imgWidth ≤ maxWidth)
    (hheight : h.imgHeight ≤ maxHeight) (hmaxWidth : maxWidth < 2 ^ 16) (hmaxHeight : maxHeight < 2 ^ 16)
    (mem : Nat → UInt8) :
    ∃ file hdr pixels, writeOutputFile color h img = some file ∧
      readImage maxWidth maxHeight fread mem file = some (hdr, pixels) ∧
      hdr.width = h.imgWidth ∧ hdr.height = h.imgHeight ∧
      ∀ x y, x < h.imgWidth → y < h.imgHeight → pixels (hdr.width * y + x) =
        decoded (bmpPixel h img x (h.imgHeight - 1 - y)).1
          (bmpPixel h img x (h.imgHeight - 1 - y)).2.1 (bmpPixel h img x (h.imgHeight - 1 - y)).2.2 := by
  obtain ⟨hdr, hhdr, hw, hh⟩ : ∃ hdr : PhotoHeader, (∀ rest, freadPhotoHeader
      (le16 h.imgWidth ++ le16 h.imgHeight ++ rest) = some (hdr, rest)) ∧
      hdr.width = h.imgWidth ∧ hdr.height = h.imgHeight :=
    ⟨_, fun rest => rfl, le16_toNat (by omega), le16_toNat (by omega)⟩
  have hwrite := writeOutputFile_eq color img (show h.imgWidth < 2 ^ 16 by omega)
    (show h.imgHeight < 2 ^ 16 by omega)
  rw [← hw, ← hh, scan_flatMap hdr fun x y =>
    color (bmpPixel h img x y).1 (bmpPixel h img x y).2.1 (bmpPixel h img x y).2.2] at hwrite
  obtain ⟨pixels, hpixels, hin, -⟩ := readPixels_spec fread (fun p rest => hcolor _ _ _ rest)
    (scan_pairwise hdr) mem
  refine ⟨_, hdr, pixels, hwrite, ?_, hw, hh, fun x y hx hy => ?_⟩
  · rw [readImage, hw, hh, hhdr, Option.bind_some]
    dsimp only
    rw [if_neg (by omega), hpixels, Option.map_some]
  · have hcell := hin (x, y) (mem_scan.mpr ⟨by omega, by omega⟩)
    exact hcell

/-! ## Round trip -/

/-- What the header check guarantees. -/
theorem bmpHeaderCheck_ok {fname : String} {file : List UInt8} {h : BmpHeader}
    (hcheck : bmpHeaderCheck fname file = .ok h) : h.imgWidth ≤ 4096 ∧ h.imgHeight ≤ 4096 ∧
    h.imgSize = bmpRowWidth h * h.imgHeight % 2 ^ 32 := by
  unfold bmpHeaderCheck at hcheck
  split at hcheck
  · cases hcheck
  split at hcheck
  · cases hcheck
  split at hcheck
  · cases hcheck
  next hformat =>
    split at hcheck
    · cases hcheck
    next hsize =>
      cases hcheck
      exact ⟨by omega, by omega, not_not.mp hsize⟩

/-- Every pixel of an accepted image is inside its data. -/
theorem bmpPixel_in_data {fname : String} {file img : List UInt8} {h : BmpHeader}
    (hcheck : bmpHeaderCheck fname file = .ok h) (hdata : readBmpImageData file h = some img)
    {x y : Nat} (hx : x < h.imgWidth) (hy : y < h.imgHeight) :
    bmpRowWidth h * y + 3 * x + 2 < img.length := by
  obtain ⟨hwidth, hheight, hsize⟩ := bmpHeaderCheck_ok hcheck
  have hrow : 3 * h.imgWidth ≤ bmpRowWidth h ∧ bmpRowWidth h ≤ 12288 := by
    rw [bmpRowWidth, Nat.mod_eq_of_lt (by omega)]
    omega
  have htotal : bmpRowWidth h * h.imgHeight ≤ 12288 * 4096 := Nat.mul_le_mul hrow.2 hheight
  have hrows : bmpRowWidth h * (y + 1) ≤ bmpRowWidth h * h.imgHeight := Nat.mul_le_mul_left _ hy
  have hlen : img.length = h.imgSize := by
    unfold readBmpImageData at hdata
    split at hdata
    next hfits =>
      cases hdata
      rw [List.length_take, List.length_drop]
      omega
    next => cases hdata
  rw [hlen, hsize, Nat.mod_eq_of_lt (by omega)]
  rw [Nat.mul_succ] at hrows
  omega

/-- The direct quantisation of a source pixel. -/
def quantised (h : BmpHeader) (img : List UInt8) (x y : Nat) : UInt8 :=
  rgb222 (bmpPixel h img x y).1 (bmpPixel h img x y).2.1 (bmpPixel h img x y).2.2

/-- **The photo format round-trips to the direct quantisation.**  For every BMP file that passes the
check, of at most 1024 by 1024 pixels, the photo written is read back with the same size, and its pixel
in column `x` of row `y` from the top is the quantised one of BMP row `height - 1 - y`.  Within the limits
of objects, the object file is read back with the same pixels, but 0x40 for 0x3C. -/
theorem photo_file_round_trip {fname : String} {file img : List UInt8} {h : BmpHeader}
    (hcheck : bmpHeaderCheck fname file = .ok h) (hdata : readBmpImageData file h = some img)
    (hwidth : h.imgWidth ≤ 1024) (hheight : h.imgHeight ≤ 1024) (mem mem' : Nat → UInt8) :
    ∃ out p, writePhoto h img = some out ∧ readPhoto mem out = some p ∧
      p.width = h.imgWidth ∧ p.height = h.imgHeight ∧
      (∀ x y, x < h.imgWidth → y < h.imgHeight →
        bmpRowWidth h * (h.imgHeight - 1 - y) + 3 * x + 2 < img.length ∧
        p.img (p.width * y + x) = quantised h img x (h.imgHeight - 1 - y)) ∧
      (h.imgWidth ≤ 160 → h.imgHeight ≤ 100 →
        ∃ out' o, writeObjImage h img = some out' ∧ readObjImage mem' out' = some o ∧
          o.width = h.imgWidth ∧ o.height = h.imgHeight ∧
          ∀ x y, x < h.imgWidth → y < h.imgHeight → o.img (o.width * y + x) =
            if p.img (p.width * y + x) = 0x3C then 0x40 else p.img (p.width * y + x)) := by
  obtain ⟨out, hdr, pixels, hwrite, hread, hw, hh, hpixels⟩ := readImage_write
    _ freadPhotoPixel rgb222 freadPhotoPixel_rgb565 img hwidth hheight (by omega) (by omega) mem
  have hphoto : readPhoto mem out = some ⟨hdr, pixels⟩ := by
    show (readImage 1024 1024 freadPhotoPixel mem out).map _ = _
    rw [hread]
    rfl
  refine ⟨out, ⟨hdr, pixels⟩, hwrite, hphoto, hw, hh, fun x y hx hy => ?_, fun hobjW hobjH => ?_⟩
  · exact ⟨bmpPixel_in_data hcheck hdata hx (by omega), hpixels x y hx hy⟩
  · obtain ⟨out', hdr', pixels', hwrite', hread', hw', hh', hpixels'⟩ := readImage_write
      (fun r g b => [objectColor r g b]) freadObjPixel objectColor (fun _ _ _ _ => rfl) img hobjW hobjH
      (by omega) (by omega) mem'
    have hobject : readObjImage mem' out' = some ⟨hdr', pixels'⟩ := by
      show (readImage 160 100 freadObjPixel mem' out').map _ = _
      rw [hread']
      rfl
    refine ⟨out', ⟨hdr', pixels'⟩, hwrite', hobject, hw', hh', fun x y hx hy => ?_⟩
    show pixels' (hdr'.width * y + x) = _
    rw [hpixels' x y hx hy]
    show objectColor _ _ _ = if pixels (hdr.width * y + x) = 0x3C then 0x40
      else pixels (hdr.width * y + x)
    rw [hpixels x y hx hy]
    rfl

/-- A BMP file of two pixels, blue above bright yellow; the lower row comes first. -/
def blueYellowBmp : List UInt8 :=
  [0x42, 0x4D] ++ [0, 0, 0, 0, 0, 0, 0, 0, 38, 0, 0, 0, 40, 0, 0, 0, 1, 0, 0, 0, 2, 0, 0, 0] ++
  [1, 0, 24, 0, 0, 0, 0, 0, 8, 0, 0, 0] ++ [0, 0xFF, 0xFF, 0, 0xFF, 0, 0, 0]

/-- In memory the blue pixel comes first; the yellow one is transparent in the object file only. -/
theorem blue_yellow_round_trip : ∃ h img out p out' o,
    bmpHeaderCheck "flag.bmp" blueYellowBmp = .ok h ∧ readBmpImageData blueYellowBmp h = some img ∧
    writePhoto h img = some out ∧ readPhoto (fun _ => 0) out = some p ∧
    p.img 0 = 0x03 ∧ p.img 1 = 0x3C ∧
    writeObjImage h img = some out' ∧ readObjImage (fun _ => 0) out' = some o ∧
    o.img 0 = 0x03 ∧ o.img 1 = 0x40 := by
  have hcheck : bmpHeaderCheck "flag.bmp" blueYellowBmp = .ok ⟨38, 1, 2, 1, 24, 0, 8⟩ := rfl
  have hdata : readBmpImageData blueYellowBmp ⟨38, 1, 2, 1, 24, 0, 8⟩ =
      some [0, 0xFF, 0xFF, 0, 0xFF, 0, 0, 0] := rfl
  obtain ⟨out, p, hwrite, hread, hwidth, -, hpixels, hobject⟩ := photo_file_round_trip hcheck hdata
    (by decide) (by decide) (fun _ => 0) (fun _ => 0)
  obtain ⟨out', o, hwrite', hread', hwidth', -, hpixels'⟩ := hobject (by decide) (by decide)
  rw [hwidth] at hpixels hpixels'
  rw [hwidth'] at hpixels'
  have hblue : p.img 0 = 0x03 := (hpixels 0 0 (by decide) (by decide)).2
  have hyellow : p.img 1 = 0x3C := (hpixels 0 1 (by decide) (by decide)).2
  have hblue' : o.img 0 = if p.img 0 = 0x3C then 0x40 else p.img 0 := hpixels' 0 0 (by decide) (by decide)
  have hyellow' : o.img 1 = if p.img 1 = 0x3C then 0x40 else p.img 1 := hpixels' 0 1 (by decide) (by decide)
  refine ⟨_, _, out, p, out', o, hcheck, hdata, hwrite, hread, hblue, hyellow, hwrite', hread', ?_, ?_⟩
  · rw [hblue', hblue]
    rfl
  · rw [hyellow', hyellow]
    rfl

end Ece391.Adventure
