import Mathlib.Algebra.Ring.Int.Defs
import Mathlib.Algebra.Ring.Nat
import Mathlib.Tactic.SplitIfs

namespace GateAccess

/-- The C conversion `(int32_t)x`. -/
def signed (x : UInt32) : Int := x.toBitVec.toInt

/-- What the code sees of the true uptime. -/
def nowMs (uptime : Nat) : UInt32 := UInt32.ofNat uptime

theorem nowMs_add (uptime : Nat) (ms : UInt32) :
    nowMs uptime + ms = UInt32.ofNat (uptime + ms.toNat) := by
  rw [UInt32.ofNat_add, UInt32.ofNat_toNat, nowMs]

theorem signed_eq (x : UInt32) :
    signed x = if x.toNat < 2 ^ 31 then (x.toNat : Int) else x.toNat - 2 ^ 32 := by
  have hx := x.toNat_lt
  simp only [signed, BitVec.toInt_eq_toNat_cond, UInt32.toNat_toBitVec]
  split_ifs <;> omega

theorem signed_sub_ofNat_neg {a b : Nat} (hab : a < b) (hd : b ≤ a + 2 ^ 31) :
    signed (UInt32.ofNat a - UInt32.ofNat b) = (a : Int) - b := by
  have hn : (UInt32.ofNat a - UInt32.ofNat b).toNat = 2 ^ 32 - (b - a) := by
    rw [UInt32.toNat_sub, UInt32.toNat_ofNat', UInt32.toNat_ofNat']
    omega
  rw [signed_eq, hn, if_neg (by omega)]
  omega

/-- `d` is past at `t`, yet a signed difference of the two takes it for a time still ahead. -/
def Lapped (d t : Nat) : Prop := d ≤ t ∧ 2 ^ 31 ≤ (t - d) % 2 ^ 32

instance (d t : Nat) : Decidable (Lapped d t) := inferInstanceAs (Decidable (_ ∧ _))

theorem Lapped.past {d t : Nat} (h : Lapped d t) : d ≤ t := h.1

theorem signed_neg_iff {d t : Nat} (hd : d ≤ t + 2 ^ 31) :
    signed (UInt32.ofNat t - UInt32.ofNat d) < 0 ↔ t < d ∨ Lapped d t := by
  rw [signed_eq, UInt32.toNat_sub, UInt32.toNat_ofNat', UInt32.toNat_ofNat', Lapped]
  split_ifs <;> omega

theorem signed_nonneg_iff {d t : Nat} (hd : d ≤ t + 2 ^ 31) :
    signed (UInt32.ofNat t - UInt32.ofNat d) ≥ 0 ↔ d ≤ t ∧ ¬Lapped d t := by
  rw [ge_iff_le, ← Int.not_lt, signed_neg_iff hd, not_or, Nat.not_lt]

theorem signed_pos_iff {d t : Nat} (hd : d < t + 2 ^ 32) :
    0 < signed (UInt32.ofNat d - UInt32.ofNat t) ↔
      (t < d ∧ d - t < 2 ^ 31) ∨ (d ≤ t ∧ 2 ^ 31 < (t - d) % 2 ^ 32) := by
  rw [signed_eq, UInt32.toNat_sub, UInt32.toNat_ofNat', UInt32.toNat_ofNat']
  split_ifs <;> omega

/-- What the code's unsigned difference makes of two true times. -/
theorem elapsed_toNat {s t : Nat} (h : s ≤ t) :
    (UInt32.ofNat t - UInt32.ofNat s).toNat = (t - s) % 2 ^ 32 := by
  rw [UInt32.toNat_sub, UInt32.toNat_ofNat', UInt32.toNat_ofNat']
  omega

theorem span_le_iff {s t : Nat} {span : UInt32} (h : s ≤ t) :
    span ≤ UInt32.ofNat t - UInt32.ofNat s ↔ span.toNat ≤ (t - s) % 2 ^ 32 := by
  rw [UInt32.le_iff_toNat_le, elapsed_toNat h]

theorem elapsed_le {s t : Nat} {span : UInt32} (h : s ≤ t)
    (hspan : span ≤ UInt32.ofNat t - UInt32.ofNat s) : s + span.toNat ≤ t := by
  have hle := (span_le_iff h).mp hspan
  omega

theorem le_elapsed {s t : Nat} {span : UInt32} (h : s + span.toNat ≤ t) (hlt : t < s + 2 ^ 32) :
    span ≤ UInt32.ofNat t - UInt32.ofNat s := by
  rw [span_le_iff (by omega), Nat.mod_eq_of_lt (by omega)]
  omega

end GateAccess
