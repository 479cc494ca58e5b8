import GateAccess.TextScan
import GateAccess.LittleEndian

namespace GateAccess

def hexDigit (n : UInt8) : UInt8 := if n < 10 then 48 + n else 87 + n

/-- Two lowercase digits for each byte, high half first. -/
def hexText : List UInt8 → List UInt8
  | [] => []
  | b :: bs => hexDigit (b >>> 4) :: hexDigit (b &&& 15) :: hexText bs

theorem hexNibble_some {c n : UInt8} (h : hexNibble c = some n) : n.toNat < 16 ∧ hexDigit n = c := by
  unfold hexNibble at h
  split_ifs at h with hd hl
  · obtain rfl := Option.some.inj h
    have hn := UInt8.toNat_sub_of_le _ _ hd.1
    have hlo : 48 ≤ c.toNat := UInt8.le_iff_toNat_le.mp hd.1
    have hhi : c.toNat ≤ 57 := UInt8.le_iff_toNat_le.mp hd.2
    rw [show (48 : UInt8).toNat = 48 from rfl] at hn
    have hlt : c - 48 < 10 := UInt8.lt_iff_toNat_lt.mpr (by rw [hn]; change _ < 10; omega)
    refine ⟨by omega, ?_⟩
    rw [hexDigit, if_pos hlt, UInt8.add_comm, UInt8.sub_add_cancel]
  · obtain rfl := Option.some.inj h
    have hsub := UInt8.toNat_sub_of_le _ _ hl.1
    have hlo : 97 ≤ c.toNat := UInt8.le_iff_toNat_le.mp hl.1
    have hhi : c.toNat ≤ 102 := UInt8.le_iff_toNat_le.mp hl.2
    have hn : (c - 97 + 10).toNat = c.toNat - 97 + 10 := by
      rw [UInt8.toNat_add, hsub]
      change (c.toNat - 97 + 10) % 256 = _
      omega
    have hge : ¬c - 97 + 10 < 10 := UInt8.lt_iff_toNat_lt.not.mpr (by rw [hn]; change ¬_ < 10; omega)
    refine ⟨by omega, ?_⟩
    rw [hexDigit, if_neg hge]
    grind

theorem hexDigit_plain {n : UInt8} (h : n.toNat < 16) : hexDigit n ≠ 0 ∧ hexDigit n ≠ 60 := by
  have all : ∀ k < 16, hexDigit (UInt8.ofNat k) ≠ 0 ∧ hexDigit (UInt8.ofNat k) ≠ 60 := by decide
  have := all n.toNat h
  rwa [UInt8.ofNat_toNat] at this

theorem hexNibble_hexDigit {n : UInt8} (h : n.toNat < 16) : hexNibble (hexDigit n) = some n := by
  have all : ∀ k < 16, hexNibble (hexDigit (UInt8.ofNat k)) = some (UInt8.ofNat k) := by decide
  have := all n.toNat h
  rwa [UInt8.ofNat_toNat] at this

theorem join_nibbles {h l : UInt8} (hh : h.toNat < 16) (hl : l.toNat < 16) :
    (h <<< 4 ||| l).toNat = h.toNat * 16 + l.toNat := by
  rw [UInt8.or_comm, UInt8.toNat_or, UInt8.toNat_shiftLeft]
  change l.toNat ||| h.toNat <<< 4 % 256 = _
  have hs : h.toNat <<< 4 % 256 = h.toNat <<< 4 := by
    rw [Nat.shiftLeft_eq]
    omega
  rw [hs]
  exact or_shift (k := 4) _ hl

theorem high_nibble (b : UInt8) : (b >>> 4).toNat = b.toNat / 16 := by
  rw [UInt8.toNat_shiftRight]
  exact Nat.shiftRight_eq_div_pow b.toNat 4

theorem low_nibble (b : UInt8) : (b &&& 15).toNat = b.toNat % 16 := by
  rw [UInt8.toNat_and]
  exact Nat.and_two_pow_sub_one_eq_mod b.toNat 4

theorem high_nibble_lt (b : UInt8) : (b >>> 4).toNat < 16 := by
  have hb := b.toNat_lt
  rw [high_nibble]
  omega

theorem low_nibble_lt (b : UInt8) : (b &&& 15).toNat < 16 := by
  rw [low_nibble]
  omega

theorem nibbles_join (b : UInt8) : b >>> 4 <<< 4 ||| b &&& 15 = b := by
  apply UInt8.toNat_inj.mp
  rw [join_nibbles (high_nibble_lt b) (low_nibble_lt b), high_nibble, low_nibble]
  omega

theorem hexBytes_hexText (bs : List UInt8) : hexBytes (hexText bs) = bs := by
  induction bs with
  | nil => rfl
  | cons b bs ih =>
    simp only [hexText, hexBytes, hexNibble_hexDigit (high_nibble_lt b),
      hexNibble_hexDigit (low_nibble_lt b), ih, nibbles_join]

theorem hexText_plain {bs : List UInt8} {c : UInt8} (h : c ∈ hexText bs) : c ≠ 0 ∧ c ≠ 60 := by
  induction bs with
  | nil => cases h
  | cons b bs ih =>
    rcases List.mem_cons.mp h with rfl | h
    · exact hexDigit_plain (high_nibble_lt b)
    rcases List.mem_cons.mp h with rfl | h
    · exact hexDigit_plain (low_nibble_lt b)
    · exact ih h

@[simp] theorem hexText_length (bs : List UInt8) : (hexText bs).length = bs.length * 2 := by
  induction bs with
  | nil => rfl
  | cons b bs ih => simp [hexText, ih]; omega

/-- Lowercase hex is one text for each byte string. -/
theorem hexText_hexBytes {hex : List UInt8} (h : hex.length = (hexBytes hex).length * 2) :
    hexText (hexBytes hex) = hex := by
  induction hex using hexBytes.induct with
  | case1 hi lo rest h' l hlo hhi ih =>
    obtain ⟨hh, hhd⟩ := hexNibble_some hhi
    obtain ⟨hl, hld⟩ := hexNibble_some hlo
    simp only [hexBytes, hhi, hlo, List.length_cons] at h ⊢
    have hjoin := join_nibbles hh hl
    have hhigh : (h' <<< 4 ||| l) >>> 4 = h' := by
      apply UInt8.toNat_inj.mp
      rw [high_nibble, hjoin]
      omega
    have hlow : (h' <<< 4 ||| l) &&& 15 = l := by
      apply UInt8.toNat_inj.mp
      rw [low_nibble, hjoin]
      omega
    rw [hexText, hhigh, hlow, hhd, hld, ih (by omega)]
  | case2 hi lo rest => simp [hexBytes] at h
  | case3 s hs =>
    cases s with
    | nil => rfl
    | cons c s =>
      cases s with
      | nil => simp [hexBytes] at h
      | cons d s => exact absurd rfl (hs c d s)

theorem hexToBytes_iff {n : Nat} {hex : List UInt8} {b : Bytes n} :
    hexToBytes n hex = (true, b) ↔ hex = hexText b.toList := by
  unfold hexToBytes
  constructor
  · intro h
    split_ifs at h with hl
    · simp at h
    · obtain ⟨hn, rfl⟩ := Prod.mk.inj h
      have hlen : (hexBytes hex).length = n := by simpa using hn
      have hfill : (fill n (hexBytes hex)).toList = hexBytes hex := by
        change (hexBytes hex ++ List.replicate n 0).take n = hexBytes hex
        rw [List.take_left' hlen]
      rw [hfill, hexText_hexBytes (by omega)]
  · rintro rfl
    have hlen : (hexBytes (hexText b.toList)).length = n := by simp [hexBytes_hexText]
    rw [if_neg (by simp), hexBytes_hexText]
    refine Prod.ext (by simp) (List.Vector.toList_injective ?_)
    change (b.toList ++ List.replicate n 0).take n = b.toList
    rw [List.take_left' (by simp)]

end GateAccess
