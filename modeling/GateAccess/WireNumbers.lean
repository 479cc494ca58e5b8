import GateAccess.MakeTgLine
import GateAccess.SyncParse

namespace GateAccess

/-- Twenty digits whose number has no place in 64 bits, yet whose wrapped product is no smaller than
the nineteen digits before the last. -/
def WrapsUnseen (s : List UInt8) : Prop :=
  s.all isDigit = true ∧ s.length ≤ 20 ∧ 2 ^ 64 ≤ decFrom 0 s ∧ decFrom 0 s / 10 ≤ decFrom 0 s % 2 ^ 64

/-- `parse_u64` reads the numerals of 64 bits as what they say, and nothing else. -/
structure U64Exact (s : List UInt8) : Prop where
  sound : ∀ n, tgParseU64 s = some n →
    s ≠ [] ∧ s.all isDigit = true ∧ decFrom 0 s < 2 ^ 64 ∧ n = decFrom 0 s
  complete : s ≠ [] → s.all isDigit = true → decFrom 0 s < 2 ^ 64 → s.length ≤ 20 →
    tgParseU64 s = some (decFrom 0 s)

/-- What `parse_i64` reads is what the numeral says, and below 2^63 in magnitude. -/
def I64Exact (s : List UInt8) : Prop :=
  ∀ n, tgParseI64 s = some n → Numeral s n ∧ -(2 ^ 63 - 1) ≤ n ∧ n ≤ 2 ^ 63 - 1

theorem u64Loop_append (v : Nat) (s t : List UInt8) :
    u64Loop v (s ++ t) = (u64Loop v s).bind fun w => u64Loop w t := by
  induction s generalizing v with
  | nil => rfl
  | cons c s ih =>
    rw [List.cons_append, u64Loop, u64Loop]
    dsimp only
    split_ifs
    · rfl
    · rfl
    · exact ih _

theorem u64Loop_isDigit {v n : Nat} {s : List UInt8} (h : u64Loop v s = some n) :
    s.all isDigit = true := by
  induction s generalizing v with
  | nil => rfl
  | cons c s ih =>
    rw [u64Loop] at h
    dsimp only at h
    split_ifs at h with hc
    simpa using ⟨by simpa using hc, by simpa using ih h⟩

theorem decFrom_concat (v : Nat) (s : List UInt8) (c : UInt8) :
    decFrom v (s ++ [c]) = decFrom v s * 10 + (c.toNat - 48) := by
  simp [decFrom]

/-- Only the last of twenty digits can wrap, so the one comparison left is with the first nineteen. -/
theorem tgParseU64_iff {s : List UInt8} {n : Nat} : tgParseU64 s = some n ↔
    s ≠ [] ∧ s.length ≤ 20 ∧ s.all isDigit = true ∧ n = decFrom 0 s % 2 ^ 64 ∧ decFrom 0 s / 10 ≤ n := by
  induction s using List.reverseRecOn with
  | nil => simp [tgParseU64]
  | append_singleton t c _ =>
    by_cases hlen : (t ++ [c]).length > 20
    · simp only [tgParseU64, hlen, or_true, if_true, reduceCtorEq, false_iff]
      omega
    by_cases hdig : (t ++ [c]).all isDigit = true
    · have hboth : t.all isDigit = true ∧ isDigit c = true := by simpa using hdig
      have hd := isDigit_iff.mp hboth.2
      have hpow : 10 ^ t.length ≤ 10 ^ 19 := Nat.pow_le_pow_right (by decide) (by simp at hlen; omega)
      have hlt : decFrom 0 t < 1 * 10 ^ t.length := decFrom_lt hboth.1
      have hfirst : u64Loop 0 t = some (decFrom 0 t) := u64Loop_digits hboth.1 (by omega)
      have htenth : (decFrom 0 t * 10 + (c.toNat - 48)) / 10 = decFrom 0 t := by omega
      rw [tgParseU64, if_neg (by simp at hlen ⊢; omega), u64Loop_append, hfirst, Option.bind_some,
        decFrom_concat, htenth, u64Loop]
      simp only [hboth.2, Bool.not_true, Bool.false_eq_true, if_false]
      split_ifs with hwrap
      · simp only [false_iff]
        rintro ⟨-, -, -, rfl, hle⟩
        omega
      · rw [u64Loop, Option.some_inj]
        refine ⟨?_, fun h => h.2.2.2.1.symm⟩
        rintro rfl
        exact ⟨by simp, by omega, hdig, rfl, by omega⟩
    · refine ⟨fun h => ?_, fun h => absurd h.2.2.1 hdig⟩
      rw [tgParseU64] at h
      split_ifs at h
      exact absurd (u64Loop_isDigit h) hdig

theorem u64Exact_iff {s : List UInt8} : U64Exact s ↔ ¬WrapsUnseen s := by
  constructor
  · rintro hexact ⟨hdig, hlen, hbig, hunseen⟩
    have hs : s ≠ [] := fun h => by simp [h] at hbig
    have hread := tgParseU64_iff.mpr ⟨hs, hlen, hdig, rfl, hunseen⟩
    have hsmall := (hexact.sound _ hread).2.2.1
    omega
  · intro hseen
    refine ⟨fun n h => ?_, fun hs hdig hsmall hlen => ?_⟩
    · obtain ⟨hs, hlen, hdig, rfl, hle⟩ := tgParseU64_iff.mp h
      have hsmall : decFrom 0 s < 2 ^ 64 := by
        by_contra hbig
        exact hseen ⟨hdig, hlen, Nat.le_of_not_lt hbig, hle⟩
      exact ⟨hs, hdig, hsmall, Nat.mod_eq_of_lt hsmall⟩
    · exact tgParseU64_iff.mpr ⟨hs, hlen, hdig, (Nat.mod_eq_of_lt hsmall).symm, by omega⟩

theorem Numeral.of_negative {t : List UInt8} {n : Int} (h : Numeral (45 :: t) n) :
    t ≠ [] ∧ t.all isDigit = true ∧ n = -(decFrom 0 t : Int) := by
  cases h with
  | unsigned _ _ hdig => exact absurd rfl (digits_head hdig)
  | negative t hne hdig => exact ⟨hne, hdig, rfl⟩

theorem tgParseI64_negative (t : List UInt8) : tgParseI64 (45 :: t) =
    (tgParseU64 t).bind fun m => if m > int64Max then none else some (-(m : Int)) := by
  rw [tgParseI64]
  simp only [List.headD_cons, List.tail_cons, if_true]
  cases tgParseU64 t <;> rfl

theorem tgParseI64_unsigned {s : List UInt8} (hs : s.headD 0 ≠ 45) : tgParseI64 s =
    (tgParseU64 s).bind fun m => if m > int64Max then none else some (m : Int) := by
  rw [tgParseI64]
  simp only [hs, if_false]
  cases tgParseU64 s <;> rfl

theorem i64Exact_unsigned {s : List UInt8} (hs : s.headD 0 ≠ 45) (h : U64Exact s) : I64Exact s := by
  have hmax : int64Max = 2 ^ 63 - 1 := rfl
  intro n hn
  rw [tgParseI64_unsigned hs] at hn
  obtain ⟨m, hm, hfits⟩ := Option.bind_eq_some_iff.mp hn
  split_ifs at hfits with hbig
  obtain rfl := Option.some.inj hfits
  obtain ⟨hne, hdig, -, rfl⟩ := h.sound m hm
  exact ⟨.unsigned s hne hdig, by omega, by omega⟩

theorem i64Exact_negative {t : List UInt8} :
    I64Exact (45 :: t) ↔ ¬(WrapsUnseen t ∧ decFrom 0 t % 2 ^ 64 ≤ int64Max) := by
  have hmax : int64Max = 2 ^ 63 - 1 := rfl
  constructor
  · rintro hexact ⟨⟨hdig, hlen, hbig, hunseen⟩, hsmall⟩
    have ht : t ≠ [] := fun h => by simp [h] at hbig
    have hread := tgParseU64_iff.mpr ⟨ht, hlen, hdig, rfl, hunseen⟩
    have hparsed : tgParseI64 (45 :: t) = some (-((decFrom 0 t % 2 ^ 64 : Nat) : Int)) := by
      rw [tgParseI64_negative, hread, Option.bind_some, if_neg (by omega)]
    have hsaid := (hexact _ hparsed).1.of_negative.2.2
    omega
  · intro hseen n hn
    rw [tgParseI64_negative] at hn
    obtain ⟨m, hm, hfits⟩ := Option.bind_eq_some_iff.mp hn
    split_ifs at hfits with hbig
    obtain rfl := Option.some.inj hfits
    obtain ⟨ht, hlen, hdig, rfl, hle⟩ := tgParseU64_iff.mp hm
    have hvalue : decFrom 0 t < 2 ^ 64 := by
      by_contra hover
      exact hseen ⟨⟨hdig, hlen, by omega, hle⟩, by omega⟩
    rw [Nat.mod_eq_of_lt hvalue] at hbig ⊢
    exact ⟨.negative t ht hdig, by omega, by omega⟩

/-- Numbers on the wire mean what they say unless a wrap of twenty digits goes unseen. -/
theorem wire_numbers_iff (s : List UInt8) : U64Exact s ∧ I64Exact s ↔
    ¬WrapsUnseen s ∧ ∀ t, s = 45 :: t → ¬(WrapsUnseen t ∧ decFrom 0 t % 2 ^ 64 ≤ int64Max) := by
  rw [u64Exact_iff]
  refine and_congr_right fun hseen => ?_
  by_cases hs : s.headD 0 = 45
  · cases s with
    | nil => cases hs
    | cons c t =>
      obtain rfl : c = 45 := hs
      simp [i64Exact_negative]
  · refine iff_of_true (i64Exact_unsigned hs (u64Exact_iff.mpr hseen)) ?_
    rintro t rfl
    exact absurd rfl hs

/-- `3·10^19` is read as `3·10^19 - 2^64`, and a date three billion billion seconds past `2^64` as
one before the epoch. -/
theorem wide_number_wraps :
    tgParseU64 (ascii "30000000000000000000") = some 11553255926290448384 ∧
      ¬U64Exact (ascii "30000000000000000000") ∧
    tgParseI64 (ascii "-21446744073709551616") = some (-3000000000000000000) ∧
      ¬I64Exact (ascii "-21446744073709551616") := by
  refine ⟨by decide +kernel, fun h => ?_, by decide +kernel, fun h => ?_⟩
  · have hread := h.sound 11553255926290448384 (by decide +kernel)
    exact absurd hread.2.2.1 (by decide +kernel)
  · have hread := (h (-3000000000000000000) (by decide +kernel)).1
    exact absurd (Numeral.of_negative (t := ascii "21446744073709551616") hread).2.2 (by decide +kernel)

end GateAccess
