import GateAccess.CBytes

namespace GateAccess

/-- The number a run of digits spells when it follows the digits of `v`. -/
def decFrom (v : Nat) (s : List UInt8) : Nat := s.foldl (fun v c => v * 10 + (c.toNat - 48)) v

/-- Decimal digits, at least one, behind a minus sign or none. -/
inductive Numeral : List UInt8 → Int → Prop
  | unsigned (s) : s ≠ [] → s.all isDigit = true → Numeral s (decFrom 0 s)
  | negative (s) : s ≠ [] → s.all isDigit = true → Numeral (45 :: s) (-(decFrom 0 s : Int))

def decimal (n : Nat) : List UInt8 := (Nat.toDigits 10 n).map fun c => UInt8.ofNat c.toNat

/-- The decimal text of an integer. -/
def decimalInt (n : Int) : List UInt8 :=
  if n < 0 then 45 :: decimal n.natAbs else decimal n.natAbs

@[simp] theorem decFrom_nil (v : Nat) : decFrom v [] = v := rfl

@[simp] theorem decFrom_cons (v : Nat) (c : UInt8) (s : List UInt8) :
    decFrom v (c :: s) = decFrom (v * 10 + (c.toNat - 48)) s := by
  rw [decFrom, List.foldl_cons, decFrom]

theorem isDigit_iff {c : UInt8} : isDigit c = true ↔ 48 ≤ c.toNat ∧ c.toNat ≤ 57 := by
  simp [isDigit, UInt8.le_iff_toNat_le]

theorem le_decFrom (v : Nat) (s : List UInt8) : v ≤ decFrom v s := by
  induction s generalizing v with
  | nil => exact le_rfl
  | cons c s ih =>
    have := ih (v * 10 + (c.toNat - 48))
    rw [decFrom_cons]
    omega

theorem decFrom_lt {v : Nat} {s : List UInt8} (hs : s.all isDigit = true) :
    decFrom v s < (v + 1) * 10 ^ s.length := by
  induction s generalizing v with
  | nil => simp
  | cons c s ih =>
    obtain ⟨hc, hs⟩ : isDigit c = true ∧ s.all isDigit = true := by simpa using hs
    have hd := isDigit_iff.mp hc
    calc decFrom v (c :: s) < (v * 10 + (c.toNat - 48) + 1) * 10 ^ s.length := ih hs
      _ ≤ ((v + 1) * 10) * 10 ^ s.length := Nat.mul_le_mul_right _ (by omega)
      _ = (v + 1) * 10 ^ (c :: s).length := by rw [List.length_cons, Nat.pow_succ', Nat.mul_assoc]

theorem digit_toNat {c : Char} (h : c.isDigit = true) :
    (UInt8.ofNat c.toNat).toNat = c.toNat ∧ 48 ≤ c.toNat ∧ c.toNat ≤ 57 := by
  have hc : 48 ≤ c.toNat ∧ c.toNat ≤ 57 := by
    simpa [Char.isDigit, UInt32.le_iff_toNat_le] using h
  exact ⟨UInt8.toNat_ofNat_of_lt' (show c.toNat < 256 by omega), hc⟩

theorem decFrom_map (v : Nat) (cs : List Char) (h : ∀ c ∈ cs, c.isDigit = true) :
    decFrom v (cs.map fun c => UInt8.ofNat c.toNat) = Nat.ofDigitChars 10 cs v := by
  induction cs generalizing v with
  | nil => simp
  | cons c cs ih =>
    have hc := (digit_toNat (h c List.mem_cons_self)).1
    rw [List.map_cons, decFrom_cons, ih _ fun d hd => h d (List.mem_cons_of_mem _ hd), hc,
      Nat.ofDigitChars_cons, Nat.mul_comm]
    rfl

theorem toDigits_digits (n : Nat) : ∀ c ∈ Nat.toDigits 10 n, c.isDigit = true :=
  fun _ hc => Nat.isDigit_of_mem_toDigits (by decide) (by decide) hc

@[simp] theorem decFrom_decimal (n : Nat) : decFrom 0 (decimal n) = n := by
  rw [decimal, decFrom_map 0 _ (toDigits_digits n), Nat.ofDigitChars_ten_toDigits]

theorem decimal_ne_nil (n : Nat) : decimal n ≠ [] := by
  simp [decimal]

theorem decimal_digits (n : Nat) : (decimal n).all isDigit = true := by
  rw [List.all_eq_true]
  intro c hc
  obtain ⟨d, hd, rfl⟩ := List.mem_map.mp hc
  obtain ⟨hn, hlo, hhi⟩ := digit_toNat (toDigits_digits n d hd)
  exact isDigit_iff.mpr (by omega)

theorem decimal_length_le {n k : Nat} (hk : 0 < k) : (decimal n).length ≤ k ↔ n < 10 ^ k := by
  rw [decimal, List.length_map]
  exact Nat.length_toDigits_le_iff (by decide) hk

theorem decimalInt_numeral (n : Int) : Numeral (decimalInt n) n := by
  unfold decimalInt
  split
  next h =>
    have hs := Numeral.negative _ (decimal_ne_nil n.natAbs) (decimal_digits n.natAbs)
    rwa [decFrom_decimal, show -(n.natAbs : Int) = n by omega] at hs
  next h =>
    have hs := Numeral.unsigned _ (decimal_ne_nil n.natAbs) (decimal_digits n.natAbs)
    rwa [decFrom_decimal, show (n.natAbs : Int) = n by omega] at hs

theorem Numeral.not_mem {s : List UInt8} {n : Int} (h : Numeral s n) {c : UInt8}
    (hc : isDigit c = false) (h45 : c ≠ 45) : c ∉ s := by
  have digits : ∀ t : List UInt8, t.all isDigit = true → c ∉ t := fun t ht hm => by
    rw [List.all_eq_true.mp ht c hm] at hc
    simp at hc
  cases h with
  | unsigned _ _ hdig => exact digits s hdig
  | negative t _ hdig => simpa [h45] using digits t hdig

theorem not_mem_decimal {c : UInt8} (hc : isDigit c = false) (n : Nat) : c ∉ decimal n := fun h => by
  rw [List.all_eq_true.mp (decimal_digits n) c h] at hc
  simp at hc

end GateAccess
