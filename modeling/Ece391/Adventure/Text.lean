/-
# Ece391.Adventure.Text — text in the status bar (`mp2/text.c`).

`text_to_graphics` paints the image of the status bar: the background first, then the bits of the font, one
character after the other.  The image is stored plane by plane, as the screen wants it.  The plane of a bit
is taken from its place in the character and not from its column on the screen; that is the same plane since
every text starts at a column that is a multiple of four.

A store outside the image makes the function fail in this model, and so does a character that has no row in
`font_data`, or a position that leaves the start column unset.
-/
import Mathlib.Data.Nat.Bitwise
import Ece391.Adventure.Scroll

open Ece391.Lib

namespace Ece391.Adventure

/-! ## The font -/

/-- `font_data`: the sixteen bytes of each character, the top row first. -/
def glyphs : List Nat :=
  [0x00000000000000000000000000000000, 0x00007E81A58181BD9981817E00000000,
   0x00007EFFDBFFFFC3E7FFFF7E00000000, 0x000000006CFEFEFEFE7C381000000000,
   0x0000000010387CFE7C38100000000000, 0x000000183C3CE7E7E718183C00000000,
   0x000000183C7EFFFF7E18183C00000000, 0x000000000000183C3C18000000000000,
   0xFFFFFFFFFFFFE7C3C3E7FFFFFFFFFFFF, 0x00000000003C664242663C0000000000,
   0xFFFFFFFFFFC399BDBD99C3FFFFFFFFFF, 0x00001E0E1A3278CCCCCCCC7800000000,
   0x00003C666666663C187E181800000000, 0x00003F333F3030303070F0E000000000,
   0x00007F637F6363636367E7E6C0000000, 0x0000001818DB3CE73CDB181800000000,
   0x0080C0E0F0F8FEF8F0E0C08000000000, 0x0002060E1E3EFE3E1E0E060200000000,
   0x0000183C7E1818187E3C180000000000, 0x00006666666666666600666600000000,
   0x00007FDBDBDB7B1B1B1B1B1B00000000, 0x007CC660386CC6C66C380CC67C000000,
   0x0000000000000000FEFEFEFE00000000, 0x0000183C7E1818187E3C187E00000000,
   0x0000183C7E1818181818181800000000, 0x0000181818181818187E3C1800000000,
   0x0000000000180CFE0C18000000000000, 0x00000000003060FE6030000000000000,
   0x000000000000C0C0C0FE000000000000, 0x0000000000286CFE6C28000000000000,
   0x000000001038387C7CFEFE0000000000, 0x00000000FEFE7C7C3838100000000000,
   0x00000000000000000000000000000000, 0x0000183C3C3C18181800181800000000,
   0x00666666240000000000000000000000, 0x0000006C6CFE6C6C6CFE6C6C00000000,
   0x18187CC6C2C07C060686C67C18180000, 0x00000000C2C60C183060C68600000000,
   0x0000386C6C3876DCCCCCCC7600000000, 0x00303030600000000000000000000000,
   0x00000C18303030303030180C00000000, 0x000030180C0C0C0C0C0C183000000000,
   0x0000000000663CFF3C66000000000000, 0x000000000018187E1818000000000000,
   0x00000000000000000018181830000000, 0x00000000000000FE0000000000000000,
   0x00000000000000000000181800000000, 0x0000000002060C183060C08000000000,
   0x0000386CC6C6C6C6C6C66C3800000000, 0x00001838781818181818187E00000000,
   0x00007CC6060C183060C0C6FE00000000, 0x00007CC606063C060606C67C00000000,
   0x00000C1C3C6CCCFE0C0C0C1E00000000, 0x0000FEC0C0C0FC060606C67C00000000,
   0x00003860C0C0FCC6C6C6C67C00000000, 0x0000FEC606060C183030303000000000,
   0x00007CC6C6C67CC6C6C6C67C00000000, 0x00007CC6C6C67E0606060C7800000000,
   0x00000000181800000018180000000000, 0x00000000181800000018183000000000,
   0x000000060C18306030180C0600000000, 0x00000000007E00007E00000000000000,
   0x0000006030180C060C18306000000000, 0x00007CC6C60C18181800181800000000,
   0x0000007CC6C6DEDEDEDCC07C00000000, 0x000010386CC6C6FEC6C6C6C600000000,
   0x0000FC6666667C66666666FC00000000, 0x00003C66C2C0C0C0C0C2663C00000000,
   0x0000F86C6666666666666CF800000000, 0x0000FE6662687868606266FE00000000,
   0x0000FE6662687868606060F000000000, 0x00003C66C2C0C0DEC6C6663A00000000,
   0x0000C6C6C6C6FEC6C6C6C6C600000000, 0x00003C18181818181818183C00000000,
   0x00001E0C0C0C0C0CCCCCCC7800000000, 0x0000E666666C78786C6666E600000000,
   0x0000F06060606060606266FE00000000, 0x0000C6EEFEFED6C6C6C6C6C600000000,
   0x0000C6E6F6FEDECEC6C6C6C600000000, 0x00007CC6C6C6C6C6C6C6C67C00000000,
   0x0000FC6666667C60606060F000000000, 0x00007CC6C6C6C6C6C6D6DE7C0C0E0000,
   0x0000FC6666667C6C666666E600000000, 0x00007CC6C660380C06C6C67C00000000,
   0x00007E7E5A1818181818183C00000000, 0x0000C6C6C6C6C6C6C6C6C67C00000000,
   0x0000C6C6C6C6C6C6C66C381000000000, 0x0000C6C6C6C6D6D6D6FEEE6C00000000,
   0x0000C6C66C7C38387C6CC6C600000000, 0x0000666666663C181818183C00000000,
   0x0000FEC6860C183060C2C6FE00000000, 0x00003C30303030303030303C00000000,
   0x00000080C0E070381C0E060200000000, 0x00003C0C0C0C0C0C0C0C0C3C00000000,
   0x10386CC6000000000000000000000000, 0x00000000000000000000000000FF0000,
   0x30301800000000000000000000000000, 0x0000000000780C7CCCCCCC7600000000,
   0x0000E06060786C666666667C00000000, 0x00000000007CC6C0C0C0C67C00000000,
   0x00001C0C0C3C6CCCCCCCCC7600000000, 0x00000000007CC6FEC0C0C67C00000000,
   0x0000386C6460F060606060F000000000, 0x000000000076CCCCCCCCCC7C0CCC7800,
   0x0000E060606C7666666666E600000000, 0x00001818003818181818183C00000000,
   0x00000606000E06060606060666663C00, 0x0000E06060666C78786C66E600000000,
   0x00003818181818181818183C00000000, 0x0000000000ECFED6D6D6D6C600000000,
   0x0000000000DC66666666666600000000, 0x00000000007CC6C6C6C6C67C00000000,
   0x0000000000DC66666666667C6060F000, 0x000000000076CCCCCCCCCC7C0C0C1E00,
   0x0000000000DC7666606060F000000000, 0x00000000007CC660380CC67C00000000,
   0x0000103030FC30303030361C00000000, 0x0000000000CCCCCCCCCCCC7600000000,
   0x000000000066666666663C1800000000, 0x0000000000C6C6D6D6D6FE6C00000000,
   0x0000000000C66C3838386CC600000000, 0x0000000000C6C6C6C6C6C67E060CF800,
   0x0000000000FECC183060C6FE00000000, 0x00000E18181870181818180E00000000,
   0x00001818181800181818181800000000, 0x0000701818180E181818187000000000,
   0x000076DC000000000000000000000000, 0x0000000010386CC6C6C6FE0000000000,
   0x00003C66C2C0C0C0C2663C0C067C0000, 0x0000CC0000CCCCCCCCCCCC7600000000,
   0x000C1830007CC6FEC0C0C67C00000000, 0x0010386C00780C7CCCCCCC7600000000,
   0x0000CC0000780C7CCCCCCC7600000000, 0x0060301800780C7CCCCCCC7600000000,
   0x00386C3800780C7CCCCCCC7600000000, 0x000000003C666060663C0C063C000000,
   0x0010386C007CC6FEC0C0C67C00000000, 0x0000C600007CC6FEC0C0C67C00000000,
   0x00603018007CC6FEC0C0C67C00000000, 0x00006600003818181818183C00000000,
   0x00183C66003818181818183C00000000, 0x00603018003818181818183C00000000,
   0x00C60010386CC6C6FEC6C6C600000000, 0x386C3800386CC6C6FEC6C6C600000000,
   0x18306000FE66607C606066FE00000000, 0x0000000000CC76367ED8D86E00000000,
   0x00003E6CCCCCFECCCCCCCCCE00000000, 0x0010386C007CC6C6C6C6C67C00000000,
   0x0000C600007CC6C6C6C6C67C00000000, 0x00603018007CC6C6C6C6C67C00000000,
   0x003078CC00CCCCCCCCCCCC7600000000, 0x0060301800CCCCCCCCCCCC7600000000,
   0x0000C60000C6C6C6C6C6C67E060C7800, 0x00C6007CC6C6C6C6C6C6C67C00000000,
   0x00C600C6C6C6C6C6C6C6C67C00000000, 0x0018183C66606060663C181800000000,
   0x00386C6460F060606060E6FC00000000, 0x000066663C187E187E18181800000000,
   0x00F8CCCCF8C4CCDECCCCCCC600000000, 0x000E1B1818187E1818181818D8700000,
   0x0018306000780C7CCCCCCC7600000000, 0x000C1830003818181818183C00000000,
   0x00183060007CC6C6C6C6C67C00000000, 0x0018306000CCCCCCCCCCCC7600000000,
   0x000076DC00DC66666666666600000000, 0x76DC00C6E6F6FEDECEC6C6C600000000,
   0x003C6C6C3E007E000000000000000000, 0x00386C6C38007C000000000000000000,
   0x0000303000303060C0C6C67C00000000, 0x000000000000FEC0C0C0C00000000000,
   0x000000000000FE060606060000000000, 0x00C0C0C2C6CC183060DC860C183E0000,
   0x00C0C0C2C6CC183066CE9E3E06060000, 0x00001818001818183C3C3C1800000000,
   0x0000000000366CD86C36000000000000, 0x0000000000D86C366CD8000000000000,
   0x11441144114411441144114411441144, 0x55AA55AA55AA55AA55AA55AA55AA55AA,
   0xDD77DD77DD77DD77DD77DD77DD77DD77, 0x18181818181818181818181818181818,
   0x18181818181818F81818181818181818, 0x1818181818F818F81818181818181818,
   0x36363636363636F63636363636363636, 0x00000000000000FE3636363636363636,
   0x0000000000F818F81818181818181818, 0x3636363636F606F63636363636363636,
   0x36363636363636363636363636363636, 0x0000000000FE06F63636363636363636,
   0x3636363636F606FE0000000000000000, 0x36363636363636FE0000000000000000,
   0x1818181818F818F80000000000000000, 0x00000000000000F81818181818181818,
   0x181818181818181F0000000000000000, 0x18181818181818FF0000000000000000,
   0x00000000000000FF1818181818181818, 0x181818181818181F1818181818181818,
   0x00000000000000FF0000000000000000, 0x18181818181818FF1818181818181818,
   0x18181818181F181F1818181818181818, 0x36363636363636373636363636363636,
   0x363636363637303F0000000000000000, 0x00000000003F30373636363636363636,
   0x3636363636F700FF0000000000000000, 0x0000000000FF00F73636363636363636,
   0x36363636363730373636363636363636, 0x0000000000FF00FF0000000000000000,
   0x3636363636F700F73636363636363636, 0x1818181818FF00FF0000000000000000,
   0x36363636363636FF0000000000000000, 0x0000000000FF00FF1818181818181818,
   0x00000000000000FF3636363636363636, 0x363636363636363F0000000000000000,
   0x18181818181F181F0000000000000000, 0x00000000001F181F1818181818181818,
   0x000000000000003F3636363636363636, 0x36363636363636FF3636363636363636,
   0x1818181818FF18FF1818181818181818, 0x18181818181818F80000000000000000,
   0x000000000000001F1818181818181818, 0xFFFFFFFFFFFFFFFFFFFFFFFFFFFFFFFF,
   0x00000000000000FFFFFFFFFFFFFFFFFF, 0xF0F0F0F0F0F0F0F0F0F0F0F0F0F0F0F0,
   0x0F0F0F0F0F0F0F0F0F0F0F0F0F0F0F0F, 0xFFFFFFFFFFFFFF000000000000000000,
   0x000000000076DCD8D8D8DC7600000000, 0x000078CCCCCCD8CCC6C6C6CC00000000,
   0x0000FEC6C6C0C0C0C0C0C0C000000000, 0x00000000FE6C6C6C6C6C6C6C00000000,
   0x000000FEC66030183060C6FE00000000, 0x00000000007ED8D8D8D8D87000000000,
   0x0000000066666666667C6060C0000000, 0x0000000076DC18181818181800000000,
   0x0000007E183C6666663C187E00000000, 0x000000386CC6C6FEC6C66C3800000000,
   0x0000386CC6C6C66C6C6C6CEE00000000, 0x00001E30180C3E666666663C00000000,
   0x00000000007EDBDBDB7E000000000000, 0x00000003067EDBDBF37E60C000000000,
   0x00001C3060607C606060301C00000000, 0x0000007CC6C6C6C6C6C6C6C600000000,
   0x00000000FE0000FE0000FE0000000000, 0x0000000018187E18180000FF00000000,
   0x00000030180C060C1830007E00000000, 0x0000000C18306030180C007E00000000,
   0x00000E1B1B1818181818181818181818, 0x1818181818181818D8D8D87000000000,
   0x000000001818007E0018180000000000, 0x000000000076DC0076DC000000000000,
   0x00386C6C380000000000000000000000, 0x00000000000000181800000000000000,
   0x00000000000000001800000000000000, 0x000F0C0C0C0C0CEC6C6C3C1C00000000,
   0x00D86C6C6C6C6C000000000000000000, 0x0070D83060C8F8000000000000000000,
   0x000000007C7C7C7C7C7C7C0000000000, 0x00000000000000000000000000000000]

/-- `font_data[c][j]`. -/
def fontData (c : Int) (j : Nat) : Option UInt8 :=
  if (0 ≤ c ∧ c < 256) ∧ j < 16 then
    some (UInt8.ofNat (glyphs.getD c.toNat 0 >>> (8 * (15 - j))))
  else none

/-- The letter A, its crossbar at row 7. -/
example : fontData 65 7 = some 0xFE := by decide

/-! ## `text_to_graphics` -/

/-- The image of the status bar. -/
def statusSpan : Span := ⟨0, statusBarSize * 4⟩

/-- The background, and the colour of the text. -/
def barColour : UInt8 := 0x0F
def textColour : UInt8 := 0x20

/-- `charStart`, by the position asked for; `strlen` is unsigned. -/
def charStart (strlen : Nat) (position : Int) : Option Int :=
  if position = 0 then some (toSigned (320 - 8 * strlen))
  else if position = 2 then some (toSigned (toUnsigned (320 - 8 * strlen) / 2))
  else if position = 3 then some 0
  else none

/-- The loops over the characters, the rows and the bits. -/
def bits (strlen : Nat) : List (Nat × Nat × Nat) :=
  (List.range strlen).flatMap fun i =>
    (List.range 16).flatMap fun j => (List.range 8).map fun k => (i, j, k)

/-- `location`. -/
def location (start : Int) (i j k : Nat) : Int :=
  (k % 4 : Nat) * (statusBarSize : Int) + 80 * (j + 1) + (8 * (i : Int) + start + k).tdiv 4

/-- The body of the loops. -/
def drawBits (string : List Int8) (start : Int) :
    List (Nat × Nat × Nat) → (Int → UInt8) → Option (Int → UInt8)
  | [], buffer => some buffer
  | (i, j, k) :: rest, buffer =>
      string[i]?.bind fun c => (fontData c.toInt j).bind fun row =>
        if row.toNat &&& 0x80 >>> k ≠ 0 then
          (store statusSpan buffer (location start i j k) textColour).bind (drawBits string start rest)
        else drawBits string start rest buffer

/-- **`textToGraphics`** — `text_to_graphics`, of the characters in front of the NUL. -/
def textToGraphics (string : List Int8) (buffer : Int → UInt8) (position : Int) : Option (Int → UInt8) :=
  (writeEach statusSpan (fun temp : Nat => (temp : Int)) (fun _ => some barColour)
    (List.range (statusBarSize * 4)) buffer).bind fun buffer =>
      if position = 1 then some buffer
      else (charStart string.length position).bind fun start =>
        drawBits string start (bits string.length) buffer

/-! ## The picture of a text -/

/-- The column at which a text of a given length starts. -/
def textStart (strlen : Nat) (position : Int) : Nat :=
  if position = 0 then 320 - 8 * strlen else if position = 2 then 160 - 4 * strlen else 0

/-- The bit of the font: row `j` of character `i`, `k` pixels from its left edge. -/
def HasBit (string : List Int8) (i j k : Nat) : Prop :=
  ∃ c row, string[i]? = some c ∧ fontData c.toInt j = some row ∧ row.toNat.testBit (7 - k) = true

/-- **`Lit string position x y`** — the pixel is on a row of the text, in the cell of a character, and a bit of
the character. -/
def Lit (string : List Int8) (position : Int) (x y : Nat) : Prop :=
  (1 ≤ y ∧ y ≤ 16) ∧ ∃ i, (textStart string.length position + 8 * i ≤ x ∧
    x < textStart string.length position + 8 * i + 8) ∧
    HasBit string i (y - 1) (x - textStart string.length position - 8 * i)

/-- The byte of a pixel of the status bar. -/
def statusByte (x y : Nat) : Nat := x % 4 * statusBarSize + 80 * y + x / 4

theorem statusByte_eq (x y : Nat) : statusByte x y = x % 4 * 1440 + 80 * y + x / 4 := rfl

theorem statusSpan_has_iff {o : Int} : statusSpan.Has o ↔ 0 ≤ o ∧ o < 5760 := Iff.rfl

/-- Distinct pixels are in distinct bytes. -/
theorem statusByte_inj {x y x' y' : Nat} (hx : x < 320 ∧ y < 18) (hx' : x' < 320 ∧ y' < 18)
    (h : statusByte x y = statusByte x' y') : x = x' ∧ y = y' := by
  rw [statusByte_eq, statusByte_eq] at h
  obtain ⟨hx, hy⟩ := hx
  obtain ⟨hx', hy'⟩ := hx'
  have hbyte : x / 4 < 80 := by omega
  have hbyte' : x' / 4 < 80 := by omega
  -- a plane is longer than what a row and a byte can make up for
  have hplane : x % 4 = x' % 4 := by omega
  rw [hplane] at h
  have hrow : y = y' := by omega
  exact ⟨by omega, hrow⟩

section Drawing

variable {string : List Int8} {position : Int}

/-- The test of the loop looks at one bit, from the left. -/
theorem mask_iff (n : Nat) {k : Nat} (hk : k < 8) : n &&& 0x80 >>> k ≠ 0 ↔ n.testBit (7 - k) = true := by
  have hmask : 0x80 >>> k = 2 ^ (7 - k) := by
    rw [Nat.shiftRight_eq_div_pow, show 0x80 = 2 ^ 7 from rfl, Nat.pow_div (by omega) (by decide)]
  rw [hmask, Nat.and_two_pow]
  cases n.testBit (7 - k) with
  | false => simp
  | true => simp

/-- Every character has a row in the font. -/
theorem fontData_isSome {c : Int8} (hc : 0 < c) {j : Nat} (hj : j < 16) :
    ∃ row, fontData c.toInt j = some row := by
  have hpos : 0 < c.toInt := Int8.lt_iff_toInt_lt.mp hc
  have hlt : c.toInt < 2 ^ 7 := c.toInt_lt
  exact ⟨_, if_pos ⟨by omega, hj⟩⟩

/-- **What the loops do**: the bits of the characters get the colour of the text, nothing else changes. -/
theorem drawBits_spec (hstring : ∀ c ∈ string, 0 < c) (start : Int) (todo : List (Nat × Nat × Nat))
    (htodo : ∀ t ∈ todo, (t.1 < string.length ∧ t.2.1 < 16 ∧ t.2.2 < 8) ∧
      statusSpan.Has (location start t.1 t.2.1 t.2.2)) (buffer : Int → UInt8) :
    ∃ buffer', drawBits string start todo buffer = some buffer' ∧
      ∀ a, ((∃ t ∈ todo, HasBit string t.1 t.2.1 t.2.2 ∧ location start t.1 t.2.1 t.2.2 = a) →
          buffer' a = textColour) ∧
        ((∀ t ∈ todo, HasBit string t.1 t.2.1 t.2.2 → location start t.1 t.2.1 t.2.2 ≠ a) →
          buffer' a = buffer a) := by
  induction todo generalizing buffer with
  | nil => exact ⟨buffer, rfl, fun a => ⟨nofun, fun _ => rfl⟩⟩
  | cons t rest ih =>
      obtain ⟨i, j, k⟩ := t
      obtain ⟨⟨hi, hj, hk⟩, hhas⟩ := htodo _ List.mem_cons_self
      have hrest := fun t ht => htodo t (List.mem_cons_of_mem _ ht)
      obtain ⟨c, hc⟩ : ∃ c, string[i]? = some c := ⟨_, List.getElem?_eq_getElem hi⟩
      obtain ⟨row, hrow⟩ := fontData_isSome (hstring c (List.mem_of_getElem? hc)) hj
      have hbit : HasBit string i j k ↔ row.toNat &&& 0x80 >>> k ≠ 0 := by
        rw [mask_iff _ hk]
        constructor
        · rintro ⟨c', row', hc', hrow', hset⟩
          obtain rfl := Option.some.inj (hc.symm.trans hc')
          obtain rfl := Option.some.inj (hrow.symm.trans hrow')
          exact hset
        · exact fun hset => ⟨c, row, hc, hrow, hset⟩
      rw [drawBits, hc, Option.bind_some, hrow, Option.bind_some]
      by_cases hset : row.toNat &&& 0x80 >>> k ≠ 0
      · obtain ⟨buffer', hbuffer', hcells⟩ := ih hrest
          (Function.update buffer (location start i j k) textColour)
        refine ⟨buffer', ?_, fun a => ⟨?_, fun hnone => ?_⟩⟩
        · rw [if_pos hset, store_of_has hhas, Option.bind_some, hbuffer']
        · rintro ⟨t, ht, hshown, hat⟩
          by_cases hlater : ∃ t ∈ rest, HasBit string t.1 t.2.1 t.2.2 ∧ location start t.1 t.2.1 t.2.2 = a
          · exact (hcells a).1 hlater
          · -- only this round stores there
            rcases List.mem_cons.mp ht with rfl | ht
            · have hkept := (hcells a).2 fun t ht hshown hat => hlater ⟨t, ht, hshown, hat⟩
              rw [hkept, ← hat, Function.update_self]
            · exact absurd ⟨t, ht, hshown, hat⟩ hlater
        · have hne := hnone _ List.mem_cons_self (hbit.mpr hset)
          rw [(hcells a).2 fun t ht => hnone t (List.mem_cons_of_mem _ ht), Function.update_of_ne hne.symm]
      · obtain ⟨buffer', hbuffer', hcells⟩ := ih hrest buffer
        refine ⟨buffer', by rw [if_neg hset, hbuffer'], fun a => ⟨?_, fun hnone => ?_⟩⟩
        · rintro ⟨t, ht, hshown, hat⟩
          rcases List.mem_cons.mp ht with rfl | ht
          · exact absurd (hbit.mp hshown) hset
          · exact (hcells a).1 ⟨t, ht, hshown, hat⟩
        · exact (hcells a).2 fun t ht => hnone t (List.mem_cons_of_mem _ ht)

theorem mem_bits {n : Nat} {t : Nat × Nat × Nat} :
    t ∈ bits n ↔ t.1 < n ∧ t.2.1 < 16 ∧ t.2.2 < 8 := by
  obtain ⟨i, j, k⟩ := t
  simp [bits]

/-- The start column is a multiple of four, and the text fits the screen. -/
theorem charStart_eq {n : Nat} (hn : n ≤ 40) (hposition : position = 0 ∨ position = 2 ∨ position = 3) :
    charStart n position = some (textStart n position : Int) ∧ textStart n position % 4 = 0 ∧
      textStart n position + 8 * n ≤ 320 := by
  rcases hposition with rfl | rfl | rfl
  · have hstart : toSigned (320 - 8 * n) = 320 - 8 * n := toSigned_of_lt (by omega)
    refine ⟨?_, ?_, ?_⟩
    · rw [charStart, if_pos rfl, textStart, if_pos rfl, hstart]
      congr 1
      omega
    · rw [textStart, if_pos rfl]
      omega
    · rw [textStart, if_pos rfl]
      omega
  · have hwidth : toUnsigned (320 - 8 * n) = 320 - 8 * n := toUnsigned_of_lt (by omega)
    have hstart : toSigned ((320 - 8 * n) / 2) = (320 - 8 * n) / 2 := toSigned_of_lt (by omega)
    refine ⟨?_, ?_, ?_⟩
    · rw [charStart, if_neg (by decide), if_pos rfl, textStart, if_neg (by decide), if_pos rfl, hwidth, hstart]
      congr 1
      omega
    · rw [textStart, if_neg (by decide), if_pos rfl]
      omega
    · rw [textStart, if_neg (by decide), if_pos rfl]
      omega
  · exact ⟨rfl, rfl, by rw [textStart, if_neg (by decide), if_neg (by decide)]; omega⟩

/-- The bit of a character, as a pixel. -/
theorem location_eq {start i j k : Nat} (hstart : start % 4 = 0) :
    location start i j k = statusByte (start + 8 * i + k) (j + 1) := by
  have hplane : (start + 8 * i + k) % 4 = k % 4 := by omega
  have hsum : (8 * (i : Int) + start + k) = ((start + 8 * i + k : Nat) : Int) := by
    omega
  rw [location, hsum, Int.tdiv_eq_ediv_of_nonneg (Int.natCast_nonneg _), statusByte, hplane]
  omega

/-- The pixels of the status bar are in its image. -/
theorem statusByte_has {x y : Nat} (hx : x < 320) (hy : y < 18) : statusSpan.Has (statusByte x y) := by
  rw [statusSpan_has_iff, statusByte_eq]
  omega

/-- A lit pixel is a bit of the loops. -/
theorem lit_iff {x y : Nat} (hn : string.length ≤ 40)
    (hposition : position = 0 ∨ position = 2 ∨ position = 3) (hx : x < 320) (hy : y < 18) :
    Lit string position x y ↔ ∃ t ∈ bits string.length, HasBit string t.1 t.2.1 t.2.2 ∧
      location (textStart string.length position) t.1 t.2.1 t.2.2 = statusByte x y := by
  obtain ⟨-, haligned, hfits⟩ := charStart_eq hn hposition
  constructor
  · rintro ⟨⟨hone, hsixteen⟩, i, ⟨hleft, hright⟩, hbit⟩
    have hi : i < string.length := by
      obtain ⟨c, -, hc, -⟩ := hbit
      exact (List.getElem?_eq_some_iff.mp hc).1
    refine ⟨(i, y - 1, x - textStart string.length position - 8 * i), mem_bits.mpr ⟨hi, ?_, ?_⟩, hbit, ?_⟩
    · show y - 1 < 16
      omega
    · show x - textStart string.length position - 8 * i < 8
      omega
    · rw [location_eq haligned]
      congr 2
      · show textStart string.length position + 8 * i + (x - textStart string.length position - 8 * i) = x
        omega
      · show y - 1 + 1 = y
        omega
  · rintro ⟨⟨i, j, k⟩, ht, hbit, hat⟩
    obtain ⟨hi, hj, hk⟩ : i < string.length ∧ j < 16 ∧ k < 8 := mem_bits.mp ht
    have hat : location (textStart string.length position) i j k = statusByte x y := hat
    rw [location_eq haligned] at hat
    obtain ⟨rfl, rfl⟩ := statusByte_inj ⟨by omega, by omega⟩ ⟨hx, hy⟩ (Int.ofNat.inj hat)
    refine ⟨⟨by omega, by omega⟩, i, ⟨by omega, by omega⟩, ?_⟩
    rw [show j + 1 - 1 = j by omega, show textStart string.length position + 8 * i + k -
      textStart string.length position - 8 * i = k by omega]
    exact hbit

/-- The loop over the background. -/
theorem background_spec (buffer : Int → UInt8) :
    ∃ buffer', writeEach statusSpan (fun temp : Nat => (temp : Int)) (fun _ => some barColour)
        (List.range (statusBarSize * 4)) buffer = some buffer' ∧
      ∀ a, statusSpan.Has a → buffer' a = barColour := by
  obtain ⟨buffer', hbuffer', hcells, -⟩ := writeEach_spec (S := statusSpan) (fun temp : Nat => (temp : Int))
    (fun _ => barColour) (List.range (statusBarSize * 4)) buffer (fun _ _ => rfl)
    (fun temp htemp => ⟨Int.natCast_nonneg _, Int.ofNat_lt.mpr (List.mem_range.mp htemp)⟩)
    (List.nodup_range.imp fun hne => fun heq => hne (Int.ofNat.inj heq))
  refine ⟨buffer', hbuffer', fun a ha => ?_⟩
  obtain ⟨n, rfl⟩ := Int.eq_ofNat_of_zero_le ha.1
  exact hcells n (List.mem_range.mpr (Int.ofNat_lt.mp ha.2))

end Drawing

/-! ## The main result -/

/-- **The text is rendered exactly.**  For every string of at most 40 characters of ASCII, at one of the three
positions: no store is outside the image, and a pixel has the colour of the text if it is lit and that of the
bar if not. -/
theorem text_rendered_exactly {string : List Int8} (hlength : string.length ≤ 40)
    (hstring : ∀ c ∈ string, 0 < c) {position : Int}
    (hposition : position = 0 ∨ position = 2 ∨ position = 3) (buffer : Int → UInt8) :
    ∃ buffer', textToGraphics string buffer position = some buffer' ∧
      ∀ x y, x < 320 → y < 18 →
        (Lit string position x y → buffer' (statusByte x y) = 0x20) ∧
        (¬Lit string position x y → buffer' (statusByte x y) = 0x0F) := by
  obtain ⟨hstart, haligned, hfits⟩ := charStart_eq hlength hposition
  obtain ⟨filled, hfilled, hbackground⟩ := background_spec buffer
  obtain ⟨buffer', hbuffer', hcells⟩ := drawBits_spec hstring (textStart string.length position)
    (bits string.length) (fun t ht => by
      obtain ⟨hi, hj, hk⟩ := mem_bits.mp ht
      exact ⟨⟨hi, hj, hk⟩, location_eq haligned ▸ statusByte_has (by omega) (by omega)⟩) filled
  refine ⟨buffer', ?_, fun x y hx hy => ⟨fun hlit => ?_, fun hdark => ?_⟩⟩
  · have hnotone : position ≠ 1 := by omega
    rw [textToGraphics, hfilled, Option.bind_some, if_neg hnotone, hstart, Option.bind_some, hbuffer']
  · exact (hcells _).1 ((lit_iff hlength hposition hx hy).mp hlit)
  · rw [(hcells _).2 fun t ht hbit hat => hdark ((lit_iff hlength hposition hx hy).mpr ⟨t, ht, hbit, hat⟩)]
    exact hbackground _ (statusByte_has hx hy)

/-- Two characters in the middle. -/
theorem two_characters_rendered : ∃ buffer', textToGraphics [72, 105] (fun _ => 0) 2 = some buffer' ∧
    ∀ x y, x < 320 → y < 18 →
      (Lit [72, 105] 2 x y → buffer' (statusByte x y) = 0x20) ∧
      (¬Lit [72, 105] 2 x y → buffer' (statusByte x y) = 0x0F) :=
  text_rendered_exactly (by decide) (by decide +kernel) (by decide) _

end Ece391.Adventure
