import GateAccess.CBytes
import Mathlib.Logic.Function.Basic
import Mathlib.Tactic.SplitIfs

namespace GateAccess

abbrev oledW : Nat := 128
abbrev oledH : Nat := 64
abbrev oledPages : Nat := oledH / 8

/-- The panel's native layout: eight pages of 128 columns, bit 0 of a byte at the top. -/
structure OledFb where
  buf : Fin (oledW * oledPages) → UInt8

/-- Columns of the 5x7 font, from `fontFirst` on, bit 0 the top row. -/
def font5x7 : List (List UInt8) :=
  [
   [0x00, 0x00, 0x00, 0x00, 0x00], [0x00, 0x00, 0x5F, 0x00, 0x00], [0x00, 0x07, 0x00, 0x07, 0x00],
   [0x14, 0x7F, 0x14, 0x7F, 0x14], [0x24, 0x2A, 0x7F, 0x2A, 0x12], [0x23, 0x13, 0x08, 0x64, 0x62],
   [0x36, 0x49, 0x55, 0x22, 0x50], [0x00, 0x05, 0x03, 0x00, 0x00], [0x00, 0x1C, 0x22, 0x41, 0x00],
   [0x00, 0x41, 0x22, 0x1C, 0x00], [0x14, 0x08, 0x3E, 0x08, 0x14], [0x08, 0x08, 0x3E, 0x08, 0x08],
   [0x00, 0x50, 0x30, 0x00, 0x00], [0x08, 0x08, 0x08, 0x08, 0x08], [0x00, 0x60, 0x60, 0x00, 0x00],
   [0x20, 0x10, 0x08, 0x04, 0x02], [0x3E, 0x51, 0x49, 0x45, 0x3E], [0x00, 0x42, 0x7F, 0x40, 0x00],
   [0x42, 0x61, 0x51, 0x49, 0x46], [0x21, 0x41, 0x45, 0x4B, 0x31], [0x18, 0x14, 0x12, 0x7F, 0x10],
   [0x27, 0x45, 0x45, 0x45, 0x39], [0x3C, 0x4A, 0x49, 0x49, 0x30], [0x01, 0x71, 0x09, 0x05, 0x03],
   [0x36, 0x49, 0x49, 0x49, 0x36], [0x06, 0x49, 0x49, 0x29, 0x1E], [0x00, 0x36, 0x36, 0x00, 0x00],
   [0x00, 0x56, 0x36, 0x00, 0x00], [0x08, 0x14, 0x22, 0x41, 0x00], [0x14, 0x14, 0x14, 0x14, 0x14],
   [0x00, 0x41, 0x22, 0x14, 0x08], [0x02, 0x01, 0x51, 0x09, 0x06], [0x32, 0x49, 0x79, 0x41, 0x3E],
   [0x7E, 0x11, 0x11, 0x11, 0x7E], [0x7F, 0x49, 0x49, 0x49, 0x36], [0x3E, 0x41, 0x41, 0x41, 0x22],
   [0x7F, 0x41, 0x41, 0x22, 0x1C], [0x7F, 0x49, 0x49, 0x49, 0x41], [0x7F, 0x09, 0x09, 0x09, 0x01],
   [0x3E, 0x41, 0x49, 0x49, 0x7A], [0x7F, 0x08, 0x08, 0x08, 0x7F], [0x00, 0x41, 0x7F, 0x41, 0x00],
   [0x20, 0x40, 0x41, 0x3F, 0x01], [0x7F, 0x08, 0x14, 0x22, 0x41], [0x7F, 0x40, 0x40, 0x40, 0x40],
   [0x7F, 0x02, 0x0C, 0x02, 0x7F], [0x7F, 0x04, 0x08, 0x10, 0x7F], [0x3E, 0x41, 0x41, 0x41, 0x3E],
   [0x7F, 0x09, 0x09, 0x09, 0x06], [0x3E, 0x41, 0x51, 0x21, 0x5E], [0x7F, 0x09, 0x19, 0x29, 0x46],
   [0x46, 0x49, 0x49, 0x49, 0x31], [0x01, 0x01, 0x7F, 0x01, 0x01], [0x3F, 0x40, 0x40, 0x40, 0x3F],
   [0x1F, 0x20, 0x40, 0x20, 0x1F], [0x3F, 0x40, 0x38, 0x40, 0x3F], [0x63, 0x14, 0x08, 0x14, 0x63],
   [0x07, 0x08, 0x70, 0x08, 0x07], [0x61, 0x51, 0x49, 0x45, 0x43]
  ]

def fontFirst : UInt8 := 0x20
def fontLast : UInt8 := 0x5A
def glyphW : Nat := 5
def glyphH : Nat := 7
def advance : Int := 6

def oledFbClear (_fb : OledFb) : OledFb := ⟨fun _ => 0⟩

def OnPanel (x y : Int) : Prop := 0 ≤ x ∧ x < oledW ∧ 0 ≤ y ∧ y < oledH

instance (x y : Int) : Decidable (OnPanel x y) := inferInstanceAs (Decidable (_ ∧ _))

/-- The byte a pixel of the panel is in. -/
def pixelByte (x y : Int) (h : OnPanel x y) : Fin (oledW * oledPages) :=
  ⟨y.toNat / 8 * oledW + x.toNat, by
    obtain ⟨hx0, hx, hy0, hy⟩ := h
    simp only [oledW, oledH, oledPages] at *
    omega⟩

def pixelBit (y : Int) : Nat := y.toNat % 8

def oledFbPixel (fb : OledFb) (x y : Int) (on : Bool) : OledFb :=
  if h : OnPanel x y then
    let i := pixelByte x y h
    let mask : UInt8 := 1 <<< UInt8.ofNat (pixelBit y)
    ⟨Function.update fb.buf i (if on then fb.buf i ||| mask else fb.buf i &&& ~~~mask)⟩
  else fb

def oledFbGet (fb : OledFb) (x y : Int) : Bool :=
  if h : OnPanel x y then fb.buf (pixelByte x y h) >>> UInt8.ofNat (pixelBit y) &&& 1 ≠ 0 else false

/-- The inner loop of `oled_fb_fill_rect`. -/
def fillRow (fb : OledFb) (x y : Int) (w : Nat) (on : Bool) : OledFb :=
  (List.range w).foldl (fun fb (xx : Nat) => oledFbPixel fb (x + xx) y on) fb

def oledFbFillRect (fb : OledFb) (x y w h : Int) (on : Bool) : OledFb :=
  (List.range h.toNat).foldl (fun fb (yy : Nat) => fillRow fb x (y + yy) w.toNat on) fb

def oledFbRect (fb : OledFb) (x y w h : Int) : OledFb :=
  if w ≤ 0 ∨ h ≤ 0 then fb
  else
    let fb := oledFbFillRect fb x y w 1 true
    let fb := oledFbFillRect fb x (y + h - 1) w 1 true
    let fb := oledFbFillRect fb x y 1 h true
    oledFbFillRect fb (x + w - 1) y 1 h true

def glyphFor (c : UInt8) : List UInt8 :=
  let c := if 97 ≤ c ∧ c ≤ 122 then c - 97 + 65 else c
  if c < fontFirst ∨ c > fontLast then font5x7.getD 0 []
  else font5x7.getD (c - fontFirst).toNat []

def drawChar (fb : OledFb) (x y : Int) (c : UInt8) (scale : Int) : OledFb :=
  let g := glyphFor c
  (List.range glyphW).foldl (fun fb (col : Nat) =>
    (List.range glyphH).foldl (fun fb (row : Nat) =>
      if g.getD col 0 >>> UInt8.ofNat row &&& 1 ≠ 0 then
        oledFbFillRect fb (x + col * scale) (y + row * scale) scale scale true
      else fb) fb) fb

/-- The loop of `oled_fb_text`, over the string without its terminator. -/
def textLoop (fb : OledFb) (x y : Int) (scale : Int) : List UInt8 → OledFb
  | [] => fb
  | c :: cs => textLoop (drawChar fb x y c scale) (x + advance * scale) y scale cs

def oledFbText (fb : OledFb) (x y : Int) (s : List UInt8) (scale : Int) : OledFb :=
  if scale < 1 then fb else textLoop fb x y scale (cstr s)

def oledFbTextWidth (s : List UInt8) (scale : Int) : Int :=
  if scale < 1 then 0
  else
    let n : Int := (cstr s).length
    if n = 0 then 0 else (n * advance - 1) * scale

def oledFbTextCentered (fb : OledFb) (y : Int) (s : List UInt8) (scale : Int) : OledFb :=
  let w := oledFbTextWidth s scale
  oledFbText fb ((oledW - w).tdiv 2) y s scale

def oledFbBorder (fb : OledFb) : OledFb := oledFbRect fb 0 0 oledW oledH

theorem pixelBit_lt (y : Int) : pixelBit y < 8 := Nat.mod_lt _ (by decide)

theorem pixel_unique {x y a b : Int} {h : OnPanel x y} {h' : OnPanel a b}
    (hi : pixelByte x y h = pixelByte a b h') (hb : pixelBit y = pixelBit b) : a = x ∧ b = y := by
  obtain ⟨hx0, hx, hy0, hy⟩ := h
  obtain ⟨ha0, ha, hb0, hb'⟩ := h'
  have hi' : y.toNat / 8 * 128 + x.toNat = b.toNat / 8 * 128 + a.toNat := congrArg Fin.val hi
  have hw : (oledW : Int) = 128 := rfl
  simp only [pixelBit] at hb
  omega

theorem shift_toNat {k : Nat} (hk : k < 8) : (UInt8.ofNat k).toNat % 8 = k := by
  rw [UInt8.toNat_ofNat']
  omega

theorem bit_read {b : UInt8} {k : Nat} (hk : k < 8) :
    b >>> UInt8.ofNat k &&& 1 ≠ 0 ↔ b.toNat.testBit k = true := by
  rw [Ne, ← UInt8.toNat_inj, UInt8.toNat_and, UInt8.toNat_shiftRight, shift_toNat hk]
  simp only [UInt8.toNat_zero, UInt8.toNat_one, Nat.testBit]
  rw [Nat.and_comm]
  simp

theorem mask_bit {j k : Nat} (hk : k < 8) :
    (1 <<< UInt8.ofNat k : UInt8).toNat.testBit j = decide (k = j) := by
  rw [UInt8.toNat_shiftLeft, shift_toNat hk, UInt8.toNat_one, Nat.one_shiftLeft,
    Nat.mod_eq_of_lt (Nat.pow_lt_pow_right (by decide) hk), Nat.testBit_two_pow]

theorem bit_written {b : UInt8} {j k : Nat} (on : Bool) (hj : j < 8) (hk : k < 8) :
    (if on then b ||| 1 <<< UInt8.ofNat k else b &&& ~~~(1 <<< UInt8.ofNat k)).toNat.testBit j =
      if k = j then on else b.toNat.testBit j := by
  cases on with
  | true =>
    rw [if_pos rfl, UInt8.toNat_or, Nat.testBit_or, mask_bit hk]
    by_cases h : k = j <;> simp [h]
  | false =>
    have hnot (m : UInt8) : (~~~m).toNat = 2 ^ 8 - (m.toNat + 1) := by
      rw [UInt8.toNat_not, show UInt8.size - 1 = 255 from rfl]
      omega
    rw [if_neg (by decide), UInt8.toNat_and, Nat.testBit_and, hnot,
      Nat.testBit_two_pow_sub_succ (UInt8.toNat_lt _), mask_bit hk]
    by_cases h : k = j <;> simp [h, hj]

theorem oledFbGet_onPanel {fb : OledFb} {x y : Int} (h : OnPanel x y) :
    oledFbGet fb x y = (fb.buf (pixelByte x y h)).toNat.testBit (pixelBit y) := by
  unfold oledFbGet
  rw [dif_pos h]
  simp only [bit_read (pixelBit_lt y), Bool.decide_eq_true]

theorem oledFbGet_offPanel {fb : OledFb} {x y : Int} (h : ¬OnPanel x y) :
    oledFbGet fb x y = false := dif_neg h

theorem oledFbGet_pixel (fb : OledFb) (x y : Int) (on : Bool) (a b : Int) :
    oledFbGet (oledFbPixel fb x y on) a b =
      if OnPanel a b ∧ a = x ∧ b = y then on else oledFbGet fb a b := by
  by_cases h' : OnPanel a b
  swap
  · rw [oledFbGet_offPanel h', oledFbGet_offPanel h', if_neg fun hc => h' hc.1]
  by_cases h : OnPanel x y
  swap
  · have hne : ¬(OnPanel a b ∧ a = x ∧ b = y) := by
      rintro ⟨-, rfl, rfl⟩
      exact h h'
    rw [oledFbPixel, dif_neg h, if_neg hne]
  rw [oledFbPixel, dif_pos h, oledFbGet_onPanel h', oledFbGet_onPanel h']
  by_cases hi : pixelByte x y h = pixelByte a b h'
  · rw [← hi]
    simp only [Function.update_self]
    rw [bit_written on (pixelBit_lt b) (pixelBit_lt y)]
    by_cases hb : pixelBit y = pixelBit b
    · rw [if_pos hb, if_pos ⟨h', pixel_unique hi hb⟩]
    · rw [if_neg hb, if_neg (by rintro ⟨-, -, rfl⟩; exact hb rfl)]
  · have hne : ¬(OnPanel a b ∧ a = x ∧ b = y) := by
      rintro ⟨-, rfl, rfl⟩
      exact hi rfl
    simp only [Function.update_of_ne (Ne.symm hi), if_neg hne]

@[simp] theorem oledFbGet_clear (fb : OledFb) (x y : Int) :
    oledFbGet (oledFbClear fb) x y = false := by
  by_cases h : OnPanel x y
  · rw [oledFbGet_onPanel h]
    simp [oledFbClear]
  · exact oledFbGet_offPanel h

theorem oledFbGet_fillRow (fb : OledFb) (x y : Int) (w : Nat) (on : Bool) (a b : Int) :
    oledFbGet (fillRow fb x y w on) a b =
      if OnPanel a b ∧ (x ≤ a ∧ a < x + w) ∧ b = y then on else oledFbGet fb a b := by
  induction w with
  | zero => rw [if_neg (by omega)]; rfl
  | succ w ih =>
    rw [fillRow, List.range_succ, List.foldl_append, List.foldl_cons, List.foldl_nil,
      oledFbGet_pixel, ← fillRow, ih]
    by_cases hp : OnPanel a b
    · simp only [hp, true_and]
      split_ifs <;> first | rfl | omega
    · simp only [hp, false_and, if_false]

theorem oledFbGet_fillRect (fb : OledFb) (x y w h : Int) (on : Bool) (a b : Int) :
    oledFbGet (oledFbFillRect fb x y w h on) a b =
      if OnPanel a b ∧ (x ≤ a ∧ a < x + w) ∧ y ≤ b ∧ b < y + h then on else oledFbGet fb a b := by
  have rows (n : Nat) : oledFbGet ((List.range n).foldl (fun fb (yy : Nat) =>
      fillRow fb x (y + yy) w.toNat on) fb) a b =
        if OnPanel a b ∧ (x ≤ a ∧ a < x + w) ∧ y ≤ b ∧ b < y + n then on
        else oledFbGet fb a b := by
    induction n with
    | zero => rw [if_neg (by omega)]; rfl
    | succ n ih =>
      rw [List.range_succ, List.foldl_append, List.foldl_cons, List.foldl_nil,
        oledFbGet_fillRow, ih]
      by_cases hp : OnPanel a b
      · simp only [hp, true_and]
        split_ifs <;> first | rfl | omega
      · simp only [hp, false_and, if_false]
  rw [oledFbFillRect, rows]
  by_cases hp : OnPanel a b
  · simp only [hp, true_and]
    split_ifs <;> first | rfl | omega
  · simp only [hp, false_and, if_false]

/-- `fb'` shows what `fb` does in every row above `row`. -/
def SameAbove (row : Int) (fb fb' : OledFb) : Prop :=
  ∀ x y, y < row → oledFbGet fb' x y = oledFbGet fb x y

theorem SameAbove.refl (row : Int) (fb : OledFb) : SameAbove row fb fb := fun _ _ _ => rfl

theorem SameAbove.trans {row : Int} {a b c : OledFb} (h : SameAbove row a b)
    (h' : SameAbove row b c) : SameAbove row a c :=
  fun x y hy => (h' x y hy).trans (h x y hy)

theorem SameAbove.foldl {α : Type} {row : Int} {f : OledFb → α → OledFb}
    (hf : ∀ fb i, SameAbove row fb (f fb i)) (l : List α) (fb : OledFb) :
    SameAbove row fb (l.foldl f fb) := by
  induction l generalizing fb with
  | nil => exact .refl row fb
  | cons i l ih => exact (hf fb i).trans (ih _)

theorem fillRect_above {row y : Int} (hy : row ≤ y) (fb : OledFb) (x w h : Int) (on : Bool) :
    SameAbove row fb (oledFbFillRect fb x y w h on) := by
  intro a b hb
  rw [oledFbGet_fillRect, if_neg (by omega)]

theorem oledFbRect_above {row y : Int} (hy : row ≤ y) (fb : OledFb) (x w h : Int) :
    SameAbove row fb (oledFbRect fb x y w h) := by
  unfold oledFbRect
  split_ifs
  · exact .refl row fb
  · exact (((fillRect_above hy _ _ _ _ _).trans (fillRect_above (by omega) _ _ _ _ _)).trans
      (fillRect_above hy _ _ _ _ _)).trans (fillRect_above hy _ _ _ _ _)

theorem drawChar_above {row y scale : Int} (hy : row ≤ y) (hs : 0 ≤ scale) (fb : OledFb)
    (x : Int) (c : UInt8) : SameAbove row fb (drawChar fb x y c scale) := by
  apply SameAbove.foldl
  intro fb col
  apply SameAbove.foldl
  intro fb line
  split_ifs
  · have hline : 0 ≤ (line : Int) * scale := Int.mul_nonneg (Int.natCast_nonneg line) hs
    exact fillRect_above (by omega) _ _ _ _ _
  · exact .refl row fb

theorem oledFbText_above {row y : Int} (hy : row ≤ y) (fb : OledFb) (x : Int) (s : List UInt8)
    (scale : Int) : SameAbove row fb (oledFbText fb x y s scale) := by
  unfold oledFbText
  split_ifs with hs
  · exact .refl row fb
  · generalize cstr s = cs
    induction cs generalizing fb x with
    | nil => exact .refl row fb
    | cons c cs ih => exact (drawChar_above hy (by omega) fb x c).trans (ih _ _)

theorem oledFbTextCentered_above {row y : Int} (hy : row ≤ y) (fb : OledFb) (s : List UInt8)
    (scale : Int) : SameAbove row fb (oledFbTextCentered fb y s scale) :=
  oledFbText_above hy fb _ s scale

theorem oledFbGet_rect {fb : OledFb} {x y w h : Int} (hw : 0 < w) (hh : 0 < h) (a b : Int) :
    oledFbGet (oledFbRect fb x y w h) a b =
      if OnPanel a b ∧ (x ≤ a ∧ a < x + w) ∧ (y ≤ b ∧ b < y + h) ∧
        (b = y ∨ b = y + h - 1 ∨ a = x ∨ a = x + w - 1) then true
      else oledFbGet fb a b := by
  rw [oledFbRect, if_neg (by omega), oledFbGet_fillRect, oledFbGet_fillRect, oledFbGet_fillRect,
    oledFbGet_fillRect]
  by_cases hp : OnPanel a b
  · simp only [hp, true_and]
    split_ifs <;> first | rfl | omega
  · simp only [hp, false_and, if_false]

/-- The border is the outline of the panel and nothing else of a frame changes. -/
theorem oledFbGet_border (fb : OledFb) (x y : Int) :
    oledFbGet (oledFbBorder fb) x y =
      if OnPanel x y ∧ (y = 0 ∨ y = oledH - 1 ∨ x = 0 ∨ x = oledW - 1) then true
      else oledFbGet fb x y := by
  rw [oledFbBorder, oledFbGet_rect (by decide) (by decide)]
  by_cases hp : OnPanel x y
  · have hp' := hp
    obtain ⟨hx0, hx, hy0, hy⟩ := hp'
    simp only [hp, true_and]
    split_ifs <;> first | rfl | omega
  · simp only [hp, false_and, if_false]

end GateAccess
