import GateAccess.PersistCodes
import GateAccess.GuestTable

namespace GateAccess

/-- The code slots of the chip, one for each table slot. -/
abbrev Eeprom := Fin acMaxSlots → PcSlot

def recordOf (s : AcSlot) : PcCode :=
  if s.occupied then
    ⟨true, s.id, s.hash, UInt32.ofInt s.validFrom, UInt32.ofInt s.validUntil⟩
  else .zero

/-- `persist_codes_save` with every read and write succeeding. -/
def persistCodesSave (ctx : AcCtx) (eeprom : Eeprom) (slot : Fin acMaxSlots) : Eeprom :=
  if (ctx.slots slot).occupied && (ctx.slots slot).transient then eeprom
  else Function.update eeprom slot (pcSlotWrite (eeprom slot) (recordOf (ctx.slots slot)))

def pcApply (s : AcSlot) (c : PcCode) : AcSlot :=
  if c.occupied then
    ⟨true, false, putByte c.id (acIdLen - 1) 0, c.hash, c.validFrom.toNat, c.validUntil.toNat⟩
  else s

/-- `persist_codes_load`: each record goes to the table slot it was saved from. -/
def persistCodesLoad (ctx : AcCtx) (eeprom : Eeprom) : AcCtx :=
  { ctx with slots := fun i =>
      match pcSlotRead (eeprom i) with
      | none => ctx.slots i
      | some (c, _) => pcApply (ctx.slots i) c }

def PcSlot.guest (slot : PcSlot) : Option SyncEntry :=
  match pcSlotRead slot with
  | none => none
  | some (c, _) =>
    if c.occupied then
      some ⟨putByte c.id (acIdLen - 1) 0, c.hash, c.validFrom.toNat, c.validUntil.toNat⟩
    else none

/-- The slot's code fits the record: a terminated id and a window of 32-bit seconds. -/
def Storable (s : AcSlot) : Prop :=
  s.occupied = true → putByte s.id (acIdLen - 1) 0 = s.id ∧
    0 ≤ s.validFrom ∧ s.validFrom < 2 ^ 32 ∧ 0 ≤ s.validUntil ∧ s.validUntil < 2 ^ 32

theorem idField_terminated (id : List UInt8) : putByte (idField id) (acIdLen - 1) 0 = idField id := by
  apply List.Vector.toList_injective
  have hlen : (strncpy (acIdLen - 1) id).toList.length = acIdLen - 1 := List.Vector.toList_length _
  change ((strncpy (acIdLen - 1) id).toList ++ [0]).set (acIdLen - 1) 0 =
    (strncpy (acIdLen - 1) id).toList ++ [0]
  rw [List.set_append_right _ _ (by rw [hlen]), hlen]
  rfl

@[simp] theorem putByte_putByte {n : Nat} (b : Bytes n) (i : Nat) (c : UInt8) :
    putByte (putByte b i c) i c = putByte b i c := by
  apply List.Vector.toList_injective
  simp [putByte]

theorem ofInt_toNat {x : Int} (h0 : 0 ≤ x) (h : x < 2 ^ 32) : ((UInt32.ofInt x).toNat : Int) = x := by
  have hm : x % 2 ^ 32 = x := Int.emod_eq_of_lt h0 h
  rw [UInt32.ofInt, hm, UInt32.toNat_ofNat', Nat.mod_eq_of_lt (by omega)]
  omega

theorem pcSlotWrite_guest (slot : PcSlot) {s : AcSlot} (hs : Storable s)
    (ht : (s.occupied && s.transient) = false) :
    (pcSlotWrite slot (recordOf s)).guest = s.guest := by
  obtain ⟨⟨c, g⟩, hread, hc⟩ := Option.map_eq_some_iff.mp (pcSlotRead_write slot (recordOf s))
  obtain rfl : c = (recordOf s).kept := hc
  simp only [PcSlot.guest, hread]
  cases ho : s.occupied with
  | false => simp [recordOf, PcCode.kept, ho, PcCode.zero, AcSlot.guest]
  | true =>
    have htr : s.transient = false := by simpa [ho] using ht
    obtain ⟨hid, hf0, hf, hu0, hu⟩ := hs ho
    simpa [recordOf, PcCode.kept, ho, htr, AcSlot.guest, ofInt_toNat hf0 hf, ofInt_toNat hu0 hu]
      using hid

theorem persistCodesSave_guest {ctx : AcCtx} (eeprom : Eeprom) {i : Fin acMaxSlots}
    (hs : Storable (ctx.slots i))
    (ht : ((ctx.slots i).occupied && (ctx.slots i).transient) = false) :
    (persistCodesSave ctx eeprom i i).guest = (ctx.slots i).guest := by
  simp only [persistCodesSave, ht, Bool.false_eq_true, if_false, Function.update_self]
  exact pcSlotWrite_guest _ hs ht

theorem persistCodesSave_other (ctx : AcCtx) (eeprom : Eeprom) {i j : Fin acMaxSlots} (h : j ≠ i) :
    persistCodesSave ctx eeprom i j = eeprom j := by
  unfold persistCodesSave
  split
  next => rfl
  next => exact Function.update_of_ne h _ _

/-- Into a slot that holds no guest, a load puts what the chip restores. -/
theorem persistCodesLoad_read (ctx : AcCtx) {eeprom : Eeprom} {i : Fin acMaxSlots} {c : PcCode}
    {g : UInt32} (h : pcSlotRead (eeprom i) = some (c, g)) :
    (persistCodesLoad ctx eeprom).slots i = pcApply (ctx.slots i) c := by
  simp only [persistCodesLoad, h]

theorem persistCodesLoad_blank (ctx : AcCtx) {eeprom : Eeprom} {i : Fin acMaxSlots}
    (h : pcSlotRead (eeprom i) = none) : (persistCodesLoad ctx eeprom).slots i = ctx.slots i := by
  simp only [persistCodesLoad, h]

theorem persistCodesLoad_guest {ctx : AcCtx} (eeprom : Eeprom) {i : Fin acMaxSlots}
    (h : (ctx.slots i).occupied = false) :
    ((persistCodesLoad ctx eeprom).slots i).guest = (eeprom i).guest := by
  have hnone : (ctx.slots i).guest = none := by simp [AcSlot.guest, h]
  simp only [persistCodesLoad, PcSlot.guest]
  cases hread : pcSlotRead (eeprom i) with
  | none => exact hnone
  | some read =>
    obtain ⟨c, _⟩ := read
    by_cases hc : c.occupied = true
    · simp [pcApply, hc, AcSlot.guest]
    · simp [pcApply, hc, hnone]

theorem persistCodesLoad_transient (ctx : AcCtx) (eeprom : Eeprom) {i : Fin acMaxSlots}
    (h : (ctx.slots i).occupied = false)
    (ho : ((persistCodesLoad ctx eeprom).slots i).occupied = true) :
    ((persistCodesLoad ctx eeprom).slots i).transient = false := by
  simp only [persistCodesLoad] at ho ⊢
  cases hread : pcSlotRead (eeprom i) with
  | none => simp [hread, h] at ho
  | some read =>
    obtain ⟨c, _⟩ := read
    by_cases hc : c.occupied = true
    · simp [pcApply, hc]
    · simp [hread, pcApply, hc, h] at ho

end GateAccess
