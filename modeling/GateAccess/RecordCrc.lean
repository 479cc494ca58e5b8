import GateAccess.LinearCrc
import GateAccess.PersistRing
import Mathlib.Data.List.Iterate

namespace GateAccess

/-- The polynomial of `crc16`, less its leading term. -/
def crcPoly : BitVec 16 := 0x1021

/-- The first bits of a pattern from a place on, packed into a byte from the top. -/
def flipMask (e : Nat → Bool) (s : Nat) : Nat → UInt8
  | 0 => 0
  | k + 1 => flipMask e s k ^^^ if e (s + k) then 0x80 >>> UInt8.ofNat k else 0

/-- The bytes of a record with some bits turned over, by a pattern that counts the bits of every
byte from the top. -/
def flipAll (e : Nat → Bool) (d : List UInt8) : List UInt8 :=
  d.mapIdx fun i b => b ^^^ flipMask e (8 * i) 8

def flipBits {n : Nat} (S : Finset Nat) (r : Bytes n) : Bytes n :=
  ⟨flipAll (fun p => decide (p ∈ S)) r.toList, by simp [flipAll]⟩

theorem flipBits_toList {n : Nat} (S : Finset Nat) (r : Bytes n) :
    (flipBits S r).toList = flipAll (fun p => decide (p ∈ S)) r.toList := rfl

example : (flipBits {0, 15} (zeros 2)).toList = [0x80, 0x01] := by decide

theorem crcBit_toBitVec (c : UInt16) : (crcBit c).toBitVec = crcShift crcPoly c.toBitVec := by
  have htop : (c &&& 0x8000).toBitVec =
      if c.toBitVec.msb then BitVec.twoPow 16 15 else 0#16 := by
    rw [UInt16.toBitVec_and, BitVec.msb_eq_getLsbD_last, ← BitVec.and_twoPow]
    rfl
  have hmsb : (c &&& 0x8000 ≠ 0) ↔ c.toBitVec.msb = true := by
    rw [← UInt16.toBitVec_inj.ne, htop]
    cases c.toBitVec.msb <;> decide
  unfold crcBit crcShift
  by_cases h : c.toBitVec.msb = true
  · rw [if_pos (hmsb.mpr h), if_pos h]
    rfl
  · rw [if_neg (mt hmsb.mp h), if_neg h]
    rfl

theorem crcBit_iterate_toBitVec (n : Nat) (c : UInt16) :
    (crcBit^[n] c).toBitVec = (crcShift crcPoly)^[n] c.toBitVec := by
  induction n with
  | zero => rfl
  | succ n ih =>
    rw [Function.iterate_succ_apply', Function.iterate_succ_apply', crcBit_toBitVec, ih]

theorem crcByte_toBitVec (c : UInt16) (b : UInt8) : (crcByte c b).toBitVec =
    (crcShift crcPoly)^[8] (c.toBitVec ^^^ (b.toUInt16 <<< 8).toBitVec) :=
  crcBit_iterate_toBitVec 8 _

theorem crc16_concat (d : List UInt8) (b : UInt8) : crc16 (d ++ [b]) = crcByte (crc16 d) b :=
  List.foldl_concat ..

theorem flipMask_window (e : Nat → Bool) (s : Nat) :
    ((flipMask e s 8).toUInt16 <<< 8).toBitVec = window e s 8 := by
  simp only [flipMask, window]
  generalize e (s + 0) = b₀
  generalize e (s + 1) = b₁
  generalize e (s + 2) = b₂
  generalize e (s + 3) = b₃
  generalize e (s + 4) = b₄
  generalize e (s + 5) = b₅
  generalize e (s + 6) = b₆
  generalize e (s + 7) = b₇
  revert b₀ b₁ b₂ b₃ b₄ b₅ b₆ b₇
  decide +kernel

theorem xor_flipMask_high (b : UInt8) (e : Nat → Bool) (s : Nat) :
    ((b ^^^ flipMask e s 8).toUInt16 <<< 8).toBitVec =
      (b.toUInt16 <<< 8).toBitVec ^^^ window e s 8 := by
  rw [← flipMask_window]
  simp [BitVec.shiftLeft_xor_distrib]

theorem xor_flipMask_low (b : UInt8) (e : Nat → Bool) (s : Nat) :
    (b ^^^ flipMask e s 8).toUInt16.toBitVec = b.toUInt16.toBitVec ^^^ window e s 8 >>> 8 := by
  have hall : ∀ n < 256, (UInt8.ofNat n).toUInt16.toBitVec =
      ((UInt8.ofNat n).toUInt16 <<< 8).toBitVec >>> 8 := by decide +kernel
  have hmask := hall (flipMask e s 8).toNat (flipMask e s 8).toNat_lt
  rw [UInt8.ofNat_toNat, flipMask_window] at hmask
  rw [← hmask]
  simp

/-- What turning bits over does to the CRC of the bytes. -/
theorem crc16_flipAll (e : Nat → Bool) (d : List UInt8) :
    (crc16 (flipAll e d)).toBitVec = (crc16 d).toBitVec ^^^ syndrome crcPoly e (8 * d.length) := by
  induction d using List.reverseRecOn with
  | nil => exact BitVec.xor_zero.symm
  | append_singleton d b ih =>
    have hlen : 8 * (d ++ [b]).length = 8 * d.length + 8 := by
      rw [List.length_append, List.length_singleton]
      omega
    have hflip : flipAll e (d ++ [b]) = flipAll e d ++ [b ^^^ flipMask e (8 * d.length) 8] :=
      List.mapIdx_concat
    rw [hlen, syndrome_window crcPoly e _ (by decide), hflip, crc16_concat, crc16_concat,
      crcByte_toBitVec, crcByte_toBitVec, ih, xor_flipMask_high, ← crcShift_iterate_xor]
    congr 1
    ac_rfl

/-- What turning bits over does to the comparison of the CRC of `n` bytes with the little-endian
one behind them. -/
def recordError (e : Nat → Bool) (n : Nat) : BitVec 16 :=
  syndrome crcPoly e (8 * n) ^^^ (window e (8 * n) 8 >>> 8 ^^^ window e (8 * (n + 1)) 8)

theorem get16_toBitVec (b₀ b₁ : UInt8) (rest : List UInt8) : (get16 (b₀ :: b₁ :: rest)).toBitVec =
    b₀.toUInt16.toBitVec ^^^ (b₁.toUInt16 <<< 8).toBitVec := by
  rw [get16, UInt16.toBitVec_or]
  apply BitVec.eq_of_getLsbD_eq
  intro i hi
  have hhigh : (b₁.toUInt16 <<< 8).toBitVec = b₁.toUInt16.toBitVec <<< 8 := rfl
  rw [BitVec.getLsbD_or, BitVec.getLsbD_xor, hhigh, BitVec.getLsbD_shiftLeft]
  by_cases hbyte : i < 8
  · simp [hbyte]
  · rw [UInt8.toBitVec_toUInt16, BitVec.getLsbD_setWidth,
      BitVec.getLsbD_of_ge b₀.toBitVec i (not_lt.mp hbyte)]
    simp

theorem crc_flipAll_iff {d rest : List UInt8} {n : Nat} (hlen : d.length = n) (e : Nat → Bool) :
    crc16 ((flipAll e (d ++ (put16 (crc16 d) ++ rest))).take n) =
      get16 ((flipAll e (d ++ (put16 (crc16 d) ++ rest))).drop n) ↔ recordError e n = 0#16 := by
  set tail := put16 (crc16 d) ++ rest with htail
  obtain ⟨rest', hsplit⟩ : ∃ rest', flipAll e (d ++ tail) = flipAll e d ++
      ((crc16 d).toUInt8 ^^^ flipMask e (8 * n) 8) ::
        ((crc16 d >>> 8).toUInt8 ^^^ flipMask e (8 * (n + 1)) 8) :: rest' := by
    rw [flipAll, List.mapIdx_append, hlen, htail, put16]
    simp only [List.cons_append, List.nil_append, List.mapIdx_cons, Nat.zero_add]
    rw [Nat.add_comm 1 n]
    exact ⟨_, rfl⟩
  have hkept : (flipAll e d).length = n := by simp [flipAll, hlen]
  have hstored := get16_toBitVec (crc16 d).toUInt8 (crc16 d >>> 8).toUInt8 []
  have hput := get16_put16 (crc16 d) []
  rw [put16, List.cons_append, List.cons_append, List.nil_append] at hput
  rw [hput] at hstored
  rw [hsplit, List.take_left' hkept, List.drop_left' hkept, ← UInt16.toBitVec_inj, crc16_flipAll,
    get16_toBitVec, hlen, xor_flipMask_low, xor_flipMask_high, hstored]
  have hswap : ∀ a b x y : BitVec 16, a ^^^ x ^^^ (b ^^^ y) = a ^^^ b ^^^ (x ^^^ y) := by
    intro a b x y
    ac_rfl
  rw [hswap, BitVec.xor_right_inj, recordError, BitVec.xor_eq_zero_iff]

theorem recordError_xor (e e' : Nat → Bool) (n : Nat) :
    recordError (fun p => e p ^^ e' p) n = recordError e n ^^^ recordError e' n := by
  simp only [recordError, syndrome_xor, window_xor, BitVec.ushiftRight_xor_distrib]
  ac_rfl

/-- The power of `x` that a bit stands for: the data bits most significant first, then the two
bytes of the CRC, the lower one first. -/
def bitPower (n p : Nat) : Nat :=
  if p < 8 * n then 8 * n - p + 15 else if p < 8 * n + 8 then 8 * n + 7 - p else 8 * n + 23 - p

theorem recordError_single {n p : Nat} (hp : p < 8 * (n + 2)) :
    recordError (fun q => decide (q = p)) n =
      (crcShift crcPoly)^[bitPower n p] (BitVec.twoPow 16 0) := by
  unfold recordError bitPower
  split_ifs with hdata hlow
  · rw [syndrome_single crcPoly hdata (by decide), window_zero fun q _ _ => decide_eq_false (by omega),
      window_zero fun q _ _ => decide_eq_false (by omega)]
    exact BitVec.xor_zero
  · have hbyte : ∀ r < 8, BitVec.twoPow 16 (16 - 1 - r) >>> 8 = BitVec.twoPow 16 (7 - r) := by
      decide
    have hplace : 7 - (p - 8 * n) = 0 + (8 * n + 7 - p) := by omega
    rw [syndrome_zero crcPoly fun q _ => decide_eq_false (by omega),
      window_single (by omega) hlow, hbyte _ (by omega),
      window_zero fun q _ _ => decide_eq_false (by omega), hplace,
      crcShift_iterate_twoPow crcPoly (by omega), BitVec.zero_xor, BitVec.xor_zero]
  · have hplace : 16 - 1 - (p - 8 * (n + 1)) = 0 + (8 * n + 23 - p) := by omega
    rw [syndrome_zero crcPoly fun q _ => decide_eq_false (by omega),
      window_zero fun q _ _ => decide_eq_false (by omega),
      window_single (by omega) (by omega), hplace, crcShift_iterate_twoPow crcPoly (by omega),
      BitVec.zero_xor, BitVec.zero_ushiftRight, BitVec.zero_xor]

/-- The polynomial divides no `x ^ k + 1` as short as a record. -/
theorem crcPoly_order {k : Nat} (hk : k < 495) :
    (crcShift crcPoly)^[k + 1] (BitVec.twoPow 16 0) ≠ BitVec.twoPow 16 0 := by
  have hnever : BitVec.twoPow 16 0 ∉
    List.iterate (crcShift crcPoly) (crcShift crcPoly (BitVec.twoPow 16 0)) 495 := by decide +kernel
  intro hone
  exact hnever (List.mem_iterate.mpr ⟨k, hk, hone.symm⟩)

theorem crcPoly_power_ne {a b : Nat} (hlt : a < b) (hb : b < 496) :
    (crcShift crcPoly)^[a] (BitVec.twoPow 16 0) ≠ (crcShift crcPoly)^[b] (BitVec.twoPow 16 0) := by
  have hinj := (crcShift_injective crcPoly (by decide)).iterate a
  have hsplit : b = a + (b - a - 1 + 1) := by omega
  rw [hsplit, Function.iterate_add_apply, Ne, hinj.eq_iff, eq_comm]
  exact crcPoly_order (by omega)

/-- The damage that the CRC of `n` bytes is to find: an odd number of bits or two, of the bytes
and the CRC, or any bits within sixteen successive ones of the bytes. -/
structure SmallDamage (S : Finset Nat) (n : Nat) : Prop where
  nonempty : S.Nonempty
  inRecord : ∀ p ∈ S, p < 8 * (n + 2)
  small : Odd S.card ∨ S.card = 2 ∨ ∃ s, ∀ p ∈ S, s ≤ p ∧ p < s + 16 ∧ p < 8 * n

/-- Every bit of a record turns the parity of the error over. -/
theorem weight_recordError {S : Finset Nat} {n : Nat} (h : ∀ p ∈ S, p < 8 * (n + 2)) :
    weight (recordError (fun p => decide (p ∈ S)) n) = S.card := by
  induction S using Finset.induction_on with
  | empty =>
    have hnone : (fun p => decide (p ∈ (∅ : Finset Nat))) = fun _ => false := by
      funext p
      simp
    have hclear : recordError (fun _ => false) n = 0#16 := by
      rw [recordError, syndrome_zero crcPoly fun _ _ => rfl, window_zero fun _ _ _ => rfl,
        window_zero fun _ _ _ => rfl]
      rfl
    rw [hnone, hclear, weight_zero, Finset.card_empty, Nat.cast_zero]
  | insert p S hp ih =>
    have hsplit : (fun q => decide (q ∈ insert p S)) = fun q => decide (q = p) ^^ decide (q ∈ S) := by
      funext q
      by_cases hq : q = p
      · simp [hq, hp]
      · simp [hq]
    rw [hsplit, recordError_xor, weight_xor, ih fun q hq => h q (Finset.mem_insert_of_mem hq),
      recordError_single (h p (Finset.mem_insert_self p S)),
      weight_crcShift_iterate crcPoly (by decide), Finset.card_insert_of_notMem hp, Nat.cast_add,
      Nat.cast_one, add_comm]
    congr 1

theorem recordError_ne_zero {S : Finset Nat} {n : Nat} (hn : n ≤ 60) (h : SmallDamage S n) :
    recordError (fun p => decide (p ∈ S)) n ≠ 0#16 := by
  rcases h.small with hodd | htwo | ⟨s, hburst⟩
  · intro hzero
    have hweight := weight_recordError h.inRecord
    rw [hzero, weight_zero, eq_comm, ZMod.natCast_eq_zero_iff_even] at hweight
    exact Nat.not_even_iff_odd.mpr hodd hweight
  · obtain ⟨p, q, hpq, rfl⟩ := Finset.card_eq_two.mp htwo
    have hp := h.inRecord p (Finset.mem_insert_self p {q})
    have hq := h.inRecord q (Finset.mem_insert_of_mem (Finset.mem_singleton_self q))
    have hsplit : (fun r => decide (r ∈ ({p, q} : Finset Nat))) =
        fun r => decide (r = p) ^^ decide (r = q) := by
      funext r
      by_cases hr : r = p
      · simp [hr, hpq]
      · simp [hr]
    rw [hsplit, recordError_xor, recordError_single hp, recordError_single hq, Ne,
      BitVec.xor_eq_zero_iff]
    have hpower : bitPower n p ≠ bitPower n q ∧ bitPower n p < 496 ∧ bitPower n q < 496 := by
      unfold bitPower
      split_ifs <;> omega
    rcases lt_or_gt_of_ne hpower.1 with hlt | hgt
    · exact crcPoly_power_ne hlt hpower.2.2
    · exact (crcPoly_power_ne hgt hpower.2.1).symm
  · obtain ⟨p, hp⟩ := h.nonempty
    have hquiet : ∀ q, 8 * n ≤ q → decide (q ∈ S) = false := fun q hq =>
      decide_eq_false fun hmem => absurd (hburst q hmem).2.2 (not_lt.mpr hq)
    unfold recordError
    rw [window_zero fun q hq _ => hquiet q hq, window_zero fun q hq _ => hquiet q (by omega),
      BitVec.zero_ushiftRight, BitVec.xor_zero, BitVec.xor_zero]
    obtain ⟨hlo, hhi, hdata⟩ := hburst p hp
    refine syndrome_burst crcPoly (by decide) (k := min 16 (8 * n - s)) (min_le_left ..) (by omega)
      (fun q hq => decide_eq_false fun hmem => ?_) (fun q hq => decide_eq_false fun hmem => ?_) hlo
      (by omega) (decide_eq_true hp)
    · have hin := hburst q hmem
      omega
    · have hin := hburst q hmem
      omega

theorem prDecode_none {r : Bytes prSlotSize}
    (h : crc16 (r.toList.take prCrcAt) ≠ get16 (r.toList.drop prCrcAt)) : prDecode r = none := by
  unfold prDecode
  simp [h]

theorem pcDecode_none {r : Bytes pcRecSize}
    (h : crc16 (r.toList.take crcAt) ≠ get16 (r.toList.drop crcAt)) : pcDecode r = none := by
  unfold pcDecode
  simp [h]

/-- **The record CRC detects small damage**, in the ring's records and in those of the codes. -/
theorem damaged_records_refused :
    (∀ (s : PrState) (seq : UInt32) (S : Finset Nat), SmallDamage S prCrcAt →
      prDecode (flipBits S (prEncode s seq)) = none) ∧
    ∀ (c : PcCode) (generation : UInt32) (S : Finset Nat), SmallDamage S crcAt →
      pcDecode (flipBits S (pcEncode c generation)) = none := by
  constructor
  · intro s seq S h
    have hbytes : (prEncode s seq).toList =
      prData s seq ++ (put16 (crc16 (prData s seq)) ++ List.replicate 12 0xFF) := rfl
    refine prDecode_none ?_
    rw [flipBits_toList, hbytes, Ne, crc_flipAll_iff (prData_length s seq)]
    exact recordError_ne_zero (by decide) h
  · intro c generation S h
    have hbytes : (pcEncode c generation).toList =
      pcData c generation ++ (put16 (crc16 (pcData c generation)) ++ [0xFF, 0xFF]) := rfl
    refine pcDecode_none ?_
    rw [flipBits_toList, hbytes, Ne, crc_flipAll_iff (pcData_length c generation)]
    exact recordError_ne_zero (by decide) h

end GateAccess
