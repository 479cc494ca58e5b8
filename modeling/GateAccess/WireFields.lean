import GateAccess.HexText
import GateAccess.SyncLogic

namespace GateAccess

/-- An id field as the network may spell it: eight lowercase hex characters. -/
def HexId (field : List UInt8) (id : Bytes acIdLen) : Prop :=
  field.length = acIdLen - 1 ∧ field.all isHex = true ∧ id.toList = field ++ [0]

theorem isHex_nibble (c : UInt8) : (hexNibble c).isSome = isHex c := by
  unfold hexNibble isHex isDigit
  split_ifs with h h' <;> simp_all

theorem hexText_isHex (bs : List UInt8) : (hexText bs).all isHex = true := by
  induction bs with
  | nil => rfl
  | cons b bs ih =>
    simp [hexText, ih, ← isHex_nibble, hexNibble_hexDigit (high_nibble_lt b),
      hexNibble_hexDigit (low_nibble_lt b)]

theorem not_mem_hex {c : UInt8} (hc : isHex c = false) {s : List UInt8} (h : s.all isHex = true) :
    c ∉ s := fun hm => by
  rw [List.all_eq_true.mp h c hm] at hc
  simp at hc

theorem HexId.cstr_eq {field : List UInt8} {id : Bytes acIdLen} (h : HexId field id) :
    cstr id.toList = field := by
  obtain ⟨_, hhex, hid⟩ := h
  rw [hid]
  exact cstr_append_zeros (k := 1) (not_mem_hex (by decide) hhex)

theorem HexId.idIsBackend {field : List UInt8} {id : Bytes acIdLen} (h : HexId field id) :
    idIsBackend id.toList = true := by
  unfold GateAccess.idIsBackend
  rw [h.cstr_eq]
  simp [h.1, h.2.1]

theorem hexId_fill {field : List UInt8} (hlen : field.length = acIdLen - 1)
    (hhex : field.all (fun c => (hexNibble c).isSome) = true) : HexId field (fill acIdLen field) := by
  have h8 : field.length = 8 := hlen
  refine ⟨hlen, by simpa only [isHex_nibble] using hhex, ?_⟩
  change (field ++ List.replicate 9 0).take 9 = field ++ [0]
  rw [List.take_append, h8, List.take_of_length_le (by omega)]
  rfl

theorem HexId.eq_fill {field : List UInt8} {id : Bytes acIdLen} (h : HexId field id) :
    id = fill acIdLen field := by
  obtain ⟨hlen, hhex, hid⟩ := h
  have hnib : (field.all fun c => (hexNibble c).isSome) = true := by simpa only [isHex_nibble] using hhex
  exact List.Vector.toList_injective (hid.trans (hexId_fill hlen hnib).2.2.symm)

/-- The check both signing tools make of an id. -/
def checkId (codeId : List UInt8) : Bool := codeId.length = 8 && codeId.all isHex

theorem hexId_checkId {id : List UInt8} (h : checkId id = true) : HexId id (fill acIdLen id) := by
  simp only [checkId, Bool.and_eq_true, decide_eq_true_eq] at h
  exact hexId_fill h.1 (by simpa only [isHex_nibble] using h.2)

end GateAccess
