import Mathlib.Data.Nat.Bitwise

namespace GateAccess

def put16 (v : UInt16) : List UInt8 := [v.toUInt8, (v >>> 8).toUInt8]

def get16 : List UInt8 → UInt16
  | b₀ :: b₁ :: _ => b₀.toUInt16 ||| b₁.toUInt16 <<< 8
  | _ => 0

def put32 (v : UInt32) : List UInt8 :=
  [v.toUInt8, (v >>> 8).toUInt8, (v >>> 16).toUInt8, (v >>> 24).toUInt8]

def get32 : List UInt8 → UInt32
  | b₀ :: b₁ :: b₂ :: b₃ :: _ =>
    b₀.toUInt32 ||| b₁.toUInt32 <<< 8 ||| b₂.toUInt32 <<< 16 ||| b₃.toUInt32 <<< 24
  | _ => 0

theorem or_shift {lo k : Nat} (hi : Nat) (h : lo < 2 ^ k) :
    lo ||| hi <<< k = hi * 2 ^ k + lo := by
  rw [Nat.or_comm, ← Nat.shiftLeft_add_eq_or_of_lt h, Nat.shiftLeft_eq]

theorem join32 (b₀ b₁ b₂ b₃ : UInt8) :
    (b₀.toUInt32 ||| b₁.toUInt32 <<< 8 ||| b₂.toUInt32 <<< 16 ||| b₃.toUInt32 <<< 24).toNat =
      b₀.toNat + 256 * b₁.toNat + 65536 * b₂.toNat + 16777216 * b₃.toNat := by
  have h₀ := b₀.toNat_lt
  have h₁ := b₁.toNat_lt
  have h₂ := b₂.toNat_lt
  have h₃ := b₃.toNat_lt
  have small {b k : Nat} (hb : b < 2 ^ 8) (hk : k ≤ 24) : b <<< k % 2 ^ 32 = b <<< k := by
    rw [Nat.shiftLeft_eq]
    apply Nat.mod_eq_of_lt
    calc b * 2 ^ k ≤ b * 2 ^ 24 := Nat.mul_le_mul_left b (Nat.pow_le_pow_right (by decide) hk)
      _ < 2 ^ 32 := by omega
  simp only [UInt32.toNat_or, UInt32.toNat_shiftLeft, UInt8.toNat_toUInt32]
  change b₀.toNat ||| b₁.toNat <<< 8 % 2 ^ 32 ||| b₂.toNat <<< 16 % 2 ^ 32 |||
    b₃.toNat <<< 24 % 2 ^ 32 = _
  rw [small h₁ (by decide), small h₂ (by decide), small h₃ (by decide), or_shift _ h₀,
    or_shift (k := 16) b₂.toNat (by omega), or_shift (k := 24) b₃.toNat (by omega)]
  omega

@[simp] theorem get32_put32 (v : UInt32) (rest : List UInt8) : get32 (put32 v ++ rest) = v := by
  have hv := v.toNat_lt
  apply UInt32.toNat_inj.mp
  change (v.toUInt8.toUInt32 ||| (v >>> 8).toUInt8.toUInt32 <<< 8 |||
    (v >>> 16).toUInt8.toUInt32 <<< 16 ||| (v >>> 24).toUInt8.toUInt32 <<< 24).toNat = v.toNat
  rw [join32]
  simp only [UInt32.toNat_toUInt8, UInt32.toNat_shiftRight, Nat.shiftRight_eq_div_pow]
  change _ + 256 * (v.toNat / 2 ^ 8 % _) + 65536 * (v.toNat / 2 ^ 16 % _) +
    16777216 * (v.toNat / 2 ^ 24 % _) = _
  omega

@[simp] theorem get16_put16 (v : UInt16) (rest : List UInt8) : get16 (put16 v ++ rest) = v := by
  have hv := v.toNat_lt
  apply UInt16.toNat_inj.mp
  change (v.toUInt8.toUInt16 ||| (v >>> 8).toUInt8.toUInt16 <<< 8).toNat = v.toNat
  simp only [UInt16.toNat_or, UInt16.toNat_shiftLeft, UInt8.toNat_toUInt16, UInt16.toNat_toUInt8,
    UInt16.toNat_shiftRight]
  change v.toNat % 2 ^ 8 ||| (v.toNat >>> 8 % 2 ^ 8) <<< 8 % 2 ^ 16 = _
  have hs : (v.toNat >>> 8 % 2 ^ 8) <<< 8 % 2 ^ 16 = (v.toNat >>> 8 % 2 ^ 8) <<< 8 := by
    rw [Nat.shiftLeft_eq]
    omega
  rw [hs, or_shift _ (by omega), Nat.shiftRight_eq_div_pow]
  omega

end GateAccess
