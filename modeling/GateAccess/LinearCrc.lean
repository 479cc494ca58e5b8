import Mathlib.Algebra.BigOperators.Group.Finset.Basic
import Mathlib.Algebra.Field.ZMod
import Mathlib.Logic.Function.Iterate

namespace GateAccess

variable {w : Nat} (poly : BitVec w)

/-- One shift of a remainder, most significant bit first. -/
def crcShift (c : BitVec w) : BitVec w := if c.msb then c <<< 1 ^^^ poly else c <<< 1

/-- A bit of the message, where the register takes it in. -/
def crcTop (b : Bool) : BitVec w := if b then BitVec.twoPow w (w - 1) else 0#w

/-- The remainder that the first bits of a message leave in a cleared register. -/
def syndrome (e : Nat → Bool) : Nat → BitVec w
  | 0 => 0#w
  | n + 1 => crcShift poly (syndrome e n ^^^ crcTop (e n))

/-- The next bits of a message as a word, the first of them on top. -/
def window (e : Nat → Bool) (s : Nat) : Nat → BitVec w
  | 0 => 0#w
  | n + 1 => window e s n ^^^ if e (s + n) then BitVec.twoPow w (w - 1 - n) else 0#w

theorem crcShift_zero : crcShift poly 0#w = 0#w := by
  simp [crcShift]

theorem crcShift_xor (a b : BitVec w) :
    crcShift poly (a ^^^ b) = crcShift poly a ^^^ crcShift poly b := by
  have hswap : ∀ a b p : BitVec w, a ^^^ p ^^^ (b ^^^ p) = a ^^^ b := by
    intro a b p
    rw [BitVec.xor_comm b p, BitVec.xor_assoc, ← BitVec.xor_assoc p p b, BitVec.xor_self,
      BitVec.zero_xor]
  unfold crcShift
  rw [BitVec.msb_xor, BitVec.shiftLeft_xor_distrib]
  cases a.msb with
  | false =>
    cases b.msb with
    | false => rfl
    | true => exact BitVec.xor_assoc ..
  | true =>
    cases b.msb with
    | false =>
      simp only [Bool.bne_false, if_true, Bool.false_eq_true, if_false]
      rw [BitVec.xor_assoc, BitVec.xor_comm _ poly, ← BitVec.xor_assoc]
    | true => exact (hswap _ _ poly).symm

theorem crcShift_iterate_xor (n : Nat) (a b : BitVec w) :
    (crcShift poly)^[n] (a ^^^ b) = (crcShift poly)^[n] a ^^^ (crcShift poly)^[n] b := by
  induction n generalizing a b with
  | zero => rfl
  | succ n ih => rw [Function.iterate_succ_apply, crcShift_xor, ih]; rfl

/-- A polynomial with a constant term loses no remainder. -/
theorem crcShift_injective (hodd : poly.getLsbD 0 = true) : Function.Injective (crcShift poly) := by
  have hker : ∀ c, crcShift poly c = 0#w → c = 0#w := by
    intro c h
    apply BitVec.eq_of_getLsbD_eq
    intro i hi
    unfold crcShift at h
    split at h
    next =>
      have hlow := congrArg (BitVec.getLsbD · 0) h
      simp [hodd] at hlow
    next hmsb =>
      by_cases hlast : i + 1 < w
      · have hnext := congrArg (BitVec.getLsbD · (i + 1)) h
        rw [BitVec.getLsbD_eq_getElem hi]
        simpa [hlast] using hnext
      · have htop : i = w - 1 := by omega
        rw [BitVec.msb_eq_getLsbD_last, ← htop] at hmsb
        simpa using hmsb
  intro a b h
  refine BitVec.xor_eq_zero_iff.mp (hker (a ^^^ b) ?_)
  rw [crcShift_xor, h]
  exact BitVec.xor_self

theorem crcShift_twoPow {i : Nat} (h : i + 1 < w) :
    crcShift poly (BitVec.twoPow w i) = BitVec.twoPow w (i + 1) := by
  have hmsb : (BitVec.twoPow w i).msb = false := by
    rw [BitVec.msb_eq_getLsbD_last, BitVec.getLsbD_twoPow]
    simp
    omega
  rw [crcShift, hmsb, if_neg Bool.false_ne_true]
  apply BitVec.eq_of_getLsbD_eq
  intro j hj
  rw [BitVec.getLsbD_shiftLeft, BitVec.getLsbD_twoPow, BitVec.getLsbD_twoPow, Bool.eq_iff_iff]
  simp only [Bool.and_eq_true, decide_eq_true_eq, Bool.not_eq_true', decide_eq_false_iff_not]
  omega

theorem crcShift_iterate_twoPow {i k : Nat} (h : i + k < w) :
    (crcShift poly)^[k] (BitVec.twoPow w i) = BitVec.twoPow w (i + k) := by
  induction k with
  | zero => rfl
  | succ k ih =>
    rw [Function.iterate_succ_apply', ih (by omega), crcShift_twoPow poly (by omega)]
    rfl

/-! ### What the bits of a message leave -/

theorem syndrome_xor (e e' : Nat → Bool) (n : Nat) :
    syndrome poly (fun p => e p ^^ e' p) n = syndrome poly e n ^^^ syndrome poly e' n := by
  have htop : ∀ a b : Bool, crcTop (a ^^ b) = (crcTop a ^^^ crcTop b : BitVec w) := by
    intro a b
    cases a <;> cases b <;> simp [crcTop]
  induction n with
  | zero => exact BitVec.xor_self.symm
  | succ n ih =>
    rw [syndrome, syndrome, syndrome, ih, ← crcShift_xor, htop]
    congr 1
    ac_rfl

/-- Bits that are clear only shift the register. -/
theorem syndrome_silent {e : Nat → Bool} {n k : Nat}
    (h : ∀ p, n ≤ p → p < n + k → e p = false) :
    syndrome poly e (n + k) = (crcShift poly)^[k] (syndrome poly e n) := by
  induction k with
  | zero => rfl
  | succ k ih =>
    rw [Function.iterate_succ_apply', ← ih fun p hlo hhi => h p hlo (by omega), ← Nat.add_assoc,
      syndrome, h (n + k) (by omega) (by omega)]
    simp [crcTop]

theorem syndrome_zero {e : Nat → Bool} {n : Nat} (h : ∀ p < n, e p = false) :
    syndrome poly e n = 0#w := by
  rw [← Nat.zero_add n, syndrome_silent poly fun p _ hp => h p (by omega)]
  exact Function.iterate_fixed (crcShift_zero poly) n

/-- One bit of a message counts as a power of `x`. -/
theorem syndrome_single {p n : Nat} (h : p < n) (hw : 0 < w) :
    syndrome poly (fun q => decide (q = p)) n =
      (crcShift poly)^[n - p + (w - 1)] (BitVec.twoPow w 0) := by
  have hstart : syndrome poly (fun q => decide (q = p)) p = 0#w :=
    syndrome_zero poly fun q hq => decide_eq_false (Nat.ne_of_lt hq)
  have hsplit : n = p + 1 + (n - p - 1) := by omega
  have htop : crcTop true = (crcShift poly)^[w - 1] (BitVec.twoPow w 0) := by
    rw [crcShift_iterate_twoPow poly (by omega), Nat.zero_add]
    rfl
  have hpow : n - p + (w - 1) = n - p - 1 + (1 + (w - 1)) := by omega
  rw [hpow, Function.iterate_add_apply _ (n - p - 1), Function.iterate_add_apply _ 1, ← htop]
  nth_rewrite 1 [hsplit]
  rw [syndrome_silent poly fun q hq _ => decide_eq_false (by omega), syndrome, hstart,
    decide_eq_true rfl, BitVec.zero_xor]
  rfl

/-- Up to a register's width of bits act as one word put into it. -/
theorem syndrome_window (e : Nat → Bool) (s : Nat) {k : Nat} (h : k ≤ w) :
    syndrome poly e (s + k) = (crcShift poly)^[k] (syndrome poly e s ^^^ window e s k) := by
  induction k with
  | zero => exact (BitVec.xor_zero).symm
  | succ k ih =>
    have htop : crcTop (e (s + k)) = (crcShift poly)^[k]
        (if e (s + k) then BitVec.twoPow w (w - 1 - k) else 0#w) := by
      cases e (s + k) with
      | false => exact (Function.iterate_fixed (crcShift_zero poly) k).symm
      | true =>
        have hplace : w - 1 - k + k = w - 1 := by omega
        rw [if_pos rfl, crcShift_iterate_twoPow poly (by omega), hplace]
        rfl
    rw [← Nat.add_assoc, syndrome, ih (by omega), htop, ← crcShift_iterate_xor, BitVec.xor_assoc,
      Function.iterate_succ_apply']
    rfl

theorem window_getLsbD (e : Nat → Bool) (s : Nat) {i k : Nat} (hi : i < w) (hk : k ≤ w) :
    (window e s k : BitVec w).getLsbD (w - 1 - i) = (decide (i < k) && e (s + i)) := by
  induction k with
  | zero => exact BitVec.getLsbD_zero
  | succ k ih =>
    rw [window, BitVec.getLsbD_xor, ih (by omega)]
    rcases Nat.lt_trichotomy i k with hlt | rfl | hgt
    · have hother : ¬w - 1 - k = w - 1 - i := by omega
      cases e (s + k) <;>
        simp [hlt, hother, Nat.lt_succ_of_lt hlt, BitVec.getLsbD_twoPow]
    · cases e (s + i) with
      | false => simp
      | true =>
        simp [BitVec.getLsbD_twoPow]
        omega
    · have hother : ¬w - 1 - k = w - 1 - i := by omega
      cases e (s + k) <;>
        simp [Nat.not_lt_of_gt hgt, hother, Nat.not_lt_of_le hgt, BitVec.getLsbD_twoPow]

theorem window_xor (e e' : Nat → Bool) (s k : Nat) :
    (window (fun p => e p ^^ e' p) s k : BitVec w) = window e s k ^^^ window e' s k := by
  have hbit : ∀ (a b : Bool) (x : BitVec w), (if a ^^ b then x else 0#w) =
      (if a then x else 0#w) ^^^ if b then x else 0#w := by
    intro a b x
    cases a <;> cases b <;> simp
  induction k with
  | zero => exact BitVec.xor_self.symm
  | succ k ih =>
    rw [window, window, window, ih, hbit]
    ac_rfl

theorem window_zero {e : Nat → Bool} {s k : Nat} (h : ∀ p, s ≤ p → p < s + k → e p = false) :
    window e s k = 0#w := by
  induction k with
  | zero => rfl
  | succ k ih =>
    rw [window, ih fun p hlo hhi => h p hlo (by omega), h (s + k) (by omega) (by omega)]
    exact BitVec.xor_self

theorem window_single {p s k : Nat} (hlo : s ≤ p) (hhi : p < s + k) :
    window (fun q => decide (q = p)) s k = BitVec.twoPow w (w - 1 - (p - s)) := by
  induction k with
  | zero => omega
  | succ k ih =>
    rw [window]
    by_cases hlast : s + k = p
    · have hplace : p - s = k := by omega
      rw [decide_eq_true hlast, if_pos rfl, hplace,
        window_zero fun q _ hq => decide_eq_false (by omega), BitVec.zero_xor]
    · rw [ih (by omega), decide_eq_false hlast]
      exact BitVec.xor_zero

/-- A burst no longer than the register is wide leaves something in it. -/
theorem syndrome_burst (hodd : poly.getLsbD 0 = true) {e : Nat → Bool} {s k n p : Nat} (hk : k ≤ w)
    (hn : s + k ≤ n) (hbefore : ∀ q < s, e q = false) (hafter : ∀ q, s + k ≤ q → e q = false)
    (hlo : s ≤ p) (hhi : p < s + k) (hp : e p = true) : syndrome poly e n ≠ 0#w := by
  intro hzero
  have hinj := (crcShift_injective poly hodd).iterate (n - s)
  have hall : (crcShift poly)^[n - s] (window e s k) = 0#w := by
    have hshift : n - s = n - (s + k) + k := by omega
    have hstart : window e s k = syndrome poly e s ^^^ window e s k := by
      rw [syndrome_zero poly hbefore, BitVec.zero_xor]
    rw [hshift, Function.iterate_add_apply, hstart, ← syndrome_window poly e s hk,
      ← syndrome_silent poly fun q hq _ => hafter q hq, Nat.add_sub_of_le hn, hzero]
  have hfix : (crcShift poly)^[n - s] 0#w = 0#w := Function.iterate_fixed (crcShift_zero poly) _
  have hwindow : window e s k = 0#w := hinj (hall.trans hfix.symm)
  have hbit := window_getLsbD (w := w) e s (i := p - s) (by omega) hk
  have hback : s + (p - s) = p := Nat.add_sub_of_le hlo
  rw [hwindow, hback, hp, decide_eq_true (by omega)] at hbit
  simp at hbit

/-! ### Parity -/

/-- The number of ones of a word, modulo two. -/
def weight (c : BitVec w) : ZMod 2 := ∑ i ∈ Finset.range w, if c.getLsbD i then 1 else 0

theorem weight_zero : weight 0#w = 0 := by
  simp [weight]

theorem weight_xor (a b : BitVec w) : weight (a ^^^ b) = weight a + weight b := by
  rw [weight, weight, weight, ← Finset.sum_add_distrib]
  refine Finset.sum_congr rfl fun i _ => ?_
  rw [BitVec.getLsbD_xor]
  cases a.getLsbD i <;> cases b.getLsbD i <;> decide

/-- A polynomial of even weight, its leading term counted, keeps the parity of the register. -/
theorem weight_crcShift (hpoly : weight poly = 1) (c : BitVec w) :
    weight (crcShift poly c) = weight c := by
  have hshift : weight (c <<< 1) + (if c.msb then 1 else 0) = weight c := by
    cases w with
    | zero => simp [weight, BitVec.msb_eq_getLsbD_last]
    | succ v =>
      have hlow : (c <<< 1).getLsbD 0 = false := by simp
      have hmove : ∀ i ∈ Finset.range v, (if (c <<< 1).getLsbD (i + 1) then 1 else 0 : ZMod 2) =
          if c.getLsbD i then 1 else 0 := by
        intro i hi
        have hin : i + 1 < v + 1 := Nat.succ_lt_succ (Finset.mem_range.mp hi)
        rw [BitVec.getLsbD_shiftLeft]
        simp [hin]
      rw [weight, weight, Finset.sum_range_succ', Finset.sum_range_succ _ v,
        Finset.sum_congr rfl hmove, BitVec.msb_eq_getLsbD_last, hlow]
      simp
  rw [← hshift, crcShift]
  cases c.msb with
  | false => simp
  | true =>
    rw [if_pos rfl, if_pos rfl, weight_xor, hpoly]

theorem weight_crcShift_iterate (hpoly : weight poly = 1) (n : Nat) (c : BitVec w) :
    weight ((crcShift poly)^[n] c) = weight c := by
  induction n with
  | zero => rfl
  | succ n ih => rw [Function.iterate_succ_apply', weight_crcShift poly hpoly, ih]

end GateAccess
