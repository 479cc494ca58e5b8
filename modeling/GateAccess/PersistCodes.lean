import GateAccess.LittleEndian
import GateAccess.AccessCore
import GateAccess.WrapClock

namespace GateAccess

abbrev pcRecSize : Nat := 64
def pcMagic : UInt32 := 0x45444F43
def pcVersion : UInt8 := 1
def fOccupied : UInt8 := 1
abbrev crcAt : Nat := 60

structure PcCode where
  occupied : Bool
  id : Bytes acIdLen
  hash : Bytes acHashLen
  validFrom : UInt32
  validUntil : UInt32
  deriving DecidableEq

def PcCode.zero : PcCode := ⟨false, zeros _, zeros _, 0, 0⟩

structure PcSlot where
  a : Bytes pcRecSize
  b : Bytes pcRecSize
  deriving DecidableEq

def crcBit (crc : UInt16) : UInt16 :=
  if crc &&& 0x8000 ≠ 0 then (crc <<< 1) ^^^ 0x1021 else crc <<< 1

def crcByte (crc : UInt16) (d : UInt8) : UInt16 := crcBit^[8] (crc ^^^ d.toUInt16 <<< 8)

def crc16 (d : List UInt8) : UInt16 := d.foldl crcByte 0xFFFF

/-- The bytes a record's CRC covers; an empty record keeps no id, hash or window. -/
def pcData (c : PcCode) (generation : UInt32) : List UInt8 :=
  put32 pcMagic ++ (put32 generation ++ (pcVersion :: (if c.occupied then fOccupied else 0) ::
    ((if c.occupied then c.id else zeros _).toList ++ (0 ::
      ((if c.occupied then c.hash else zeros _).toList ++
        (put32 (if c.occupied then c.validFrom else 0) ++
          put32 (if c.occupied then c.validUntil else 0)))))))

theorem pcData_length (c : PcCode) (generation : UInt32) :
    (pcData c generation).length = crcAt := by
  simp [pcData, put32, acIdLen, acHashLen, crcAt]

def pcEncode (c : PcCode) (generation : UInt32) : Bytes pcRecSize :=
  ⟨pcData c generation ++ (put16 (crc16 (pcData c generation)) ++ [0xFF, 0xFF]), by
    simp [pcData_length, put16]⟩

def pcDecode (r : Bytes pcRecSize) : Option (PcCode × UInt32) :=
  let d := r.toList
  if get32 d ≠ pcMagic ∨ d.getD 8 0 ≠ pcVersion then none
  else if crc16 (d.take crcAt) ≠ get16 (d.drop crcAt) then none
  else
    let c : PcCode :=
      if d.getD 9 0 &&& fOccupied ≠ 0 then
        ⟨true, putByte (fill _ (d.drop 10)) (acIdLen - 1) 0, fill _ (d.drop 20), get32 (d.drop 52),
          get32 (d.drop 56)⟩
      else .zero
    some (c, get32 (d.drop 4))

def pcSlotRead (slot : PcSlot) : Option (PcCode × UInt32) :=
  match pcDecode slot.a, pcDecode slot.b with
  | none, none => none
  | some a, none => some a
  | none, some b => some b
  | some a, some b => if signed (a.2 - b.2) > 0 then some a else some b

/-- Whether the second half is the one to write, and the generation to write there. -/
def pcSlotWriteHalf (slot : PcSlot) : Bool × UInt32 :=
  match pcDecode slot.a, pcDecode slot.b with
  | none, none => (false, 0 + 1)
  | some a, none => (true, a.2 + 1)
  | none, some b => (false, b.2 + 1)
  | some a, some b => if signed (a.2 - b.2) > 0 then (true, a.2 + 1) else (false, b.2 + 1)

def pcSlotWrite (slot : PcSlot) (c : PcCode) : PcSlot :=
  let next := pcSlotWriteHalf slot
  if next.1 then { slot with b := pcEncode c next.2 } else { slot with a := pcEncode c next.2 }

/-- What a record keeps of a code. -/
def PcCode.kept (c : PcCode) : PcCode :=
  if c.occupied then { c with id := putByte c.id (acIdLen - 1) 0 } else .zero

theorem fill_append {n : Nat} (b : Bytes n) (rest : List UInt8) : fill n (b.toList ++ rest) = b := by
  apply List.Vector.toList_injective
  change ((b.toList ++ rest) ++ List.replicate n 0).take n = b.toList
  rw [List.append_assoc, List.take_left' (by simp)]

theorem pcData_fields (c : PcCode) (generation : UInt32) (tail : List UInt8) :
    (pcData c generation ++ tail).getD 8 0 = pcVersion ∧
    (pcData c generation ++ tail).getD 9 0 = (if c.occupied then fOccupied else 0) ∧
    get32 (pcData c generation ++ tail) = pcMagic ∧
    get32 ((pcData c generation ++ tail).drop 4) = generation ∧
    fill acIdLen ((pcData c generation ++ tail).drop 10) = (if c.occupied then c.id else zeros _) ∧
    fill acHashLen ((pcData c generation ++ tail).drop 20) =
      (if c.occupied then c.hash else zeros _) ∧
    get32 ((pcData c generation ++ tail).drop 52) = (if c.occupied then c.validFrom else 0) ∧
    get32 ((pcData c generation ++ tail).drop 56) = (if c.occupied then c.validUntil else 0) := by
  set id := if c.occupied then c.id else zeros _ with hid
  set hash := if c.occupied then c.hash else zeros _ with hhash
  set validFrom := if c.occupied then c.validFrom else 0
  set validUntil := if c.occupied then c.validUntil else 0
  have h10 : (pcData c generation ++ tail).drop 10 = id.toList ++ (0 :: (hash.toList ++
      (put32 validFrom ++ (put32 validUntil ++ tail)))) := by
    simp only [pcData, put32, List.append_assoc, List.cons_append, List.nil_append]
    rfl
  have h20 : (pcData c generation ++ tail).drop 20 =
      hash.toList ++ (put32 validFrom ++ (put32 validUntil ++ tail)) := by
    rw [show 20 = 10 + 10 from rfl, ← List.drop_drop, h10, show 10 = 9 + 1 from rfl,
      ← List.drop_drop, List.drop_left' (by simp)]
    rfl
  have h52 : (pcData c generation ++ tail).drop 52 = put32 validFrom ++ (put32 validUntil ++ tail) := by
    rw [show 52 = 20 + 32 from rfl, ← List.drop_drop, h20, List.drop_left' (by simp)]
  have h56 : (pcData c generation ++ tail).drop 56 = put32 validUntil ++ tail := by
    rw [show 56 = 52 + 4 from rfl, ← List.drop_drop, h52]
    rfl
  have h0 : pcData c generation ++ tail = put32 pcMagic ++ (pcData c generation ++ tail).drop 4 := rfl
  have h4 : (pcData c generation ++ tail).drop 4 =
    put32 generation ++ (pcData c generation ++ tail).drop 8 := rfl
  refine ⟨rfl, rfl, by rw [h0, get32_put32], by rw [h4, get32_put32], by rw [h10, fill_append],
    by rw [h20, fill_append], by rw [h52, get32_put32], by rw [h56, get32_put32]⟩

theorem pcDecode_pcEncode (c : PcCode) (generation : UInt32) :
    pcDecode (pcEncode c generation) = some (c.kept, generation) := by
  set tail : List UInt8 := put16 (crc16 (pcData c generation)) ++ [0xFF, 0xFF] with htail
  have hd : (pcEncode c generation).toList = pcData c generation ++ tail := rfl
  have htake : (pcData c generation ++ tail).take crcAt = pcData c generation :=
    List.take_left' (pcData_length c generation)
  have hdrop : (pcData c generation ++ tail).drop crcAt = tail :=
    List.drop_left' (pcData_length c generation)
  obtain ⟨hversion, hflags, hmagic, hgen, hid, hhash, hfrom, huntil⟩ :=
    pcData_fields c generation tail
  have hcrc : get16 tail = crc16 (pcData c generation) := get16_put16 _ _
  unfold pcDecode
  simp only [hd, htake, hdrop, hversion, hflags, hmagic, hgen, hid, hhash, hfrom, huntil, hcrc]
  cases ho : c.occupied with
  | false => simp [PcCode.kept, ho, fOccupied]
  | true => simp [PcCode.kept, ho, fOccupied]

theorem signed_succ_sub (g : UInt32) : signed (g + 1 - g) = 1 := by
  have h : g + 1 - g = 1 := by rw [UInt32.add_comm, UInt32.add_sub_cancel]
  rw [h]
  rfl

theorem signed_sub_succ (g : UInt32) : signed (g - (g + 1)) = -1 := by
  have h : g - (g + 1) = -1 := by grind
  rw [h]
  rfl

/-- The half a write goes to holds the code, and is the newer one across the generation's wrap. -/
theorem pcSlotWrite_newer (slot : PcSlot) (c : PcCode) :
    ((pcSlotWriteHalf slot).1 = false ∧
      pcDecode (pcSlotWrite slot c).a = some (c.kept, (pcSlotWriteHalf slot).2) ∧
      ∀ b, pcDecode (pcSlotWrite slot c).b = some b → signed ((pcSlotWriteHalf slot).2 - b.2) > 0) ∨
    ((pcSlotWriteHalf slot).1 = true ∧
      pcDecode (pcSlotWrite slot c).b = some (c.kept, (pcSlotWriteHalf slot).2) ∧
      ∀ a, pcDecode (pcSlotWrite slot c).a = some a → ¬signed (a.2 - (pcSlotWriteHalf slot).2) > 0) := by
  have hnewer : ∀ g, signed (g + 1 - g) > 0 := fun g => by rw [signed_succ_sub]; decide
  have holder : ∀ g, ¬signed (g - (g + 1)) > 0 := fun g => by rw [signed_sub_succ]; decide
  unfold pcSlotWrite pcSlotWriteHalf
  cases ha : pcDecode slot.a with
  | none =>
    refine .inl ?_
    cases hb : pcDecode slot.b with
    | none => exact ⟨rfl, pcDecode_pcEncode c _, fun b h => by cases hb.symm.trans h⟩
    | some b =>
      refine ⟨rfl, pcDecode_pcEncode c _, fun b' h => ?_⟩
      obtain rfl := Option.some.inj (hb.symm.trans h)
      exact hnewer b.2
  | some a =>
    have hlater : ∀ a', pcDecode slot.a = some a' → ¬signed (a'.2 - (a.2 + 1)) > 0 := fun a' h => by
      obtain rfl := Option.some.inj (ha.symm.trans h)
      exact holder a.2
    cases hb : pcDecode slot.b with
    | none => exact .inr ⟨rfl, pcDecode_pcEncode c _, hlater⟩
    | some b =>
      by_cases hn : signed (a.2 - b.2) > 0
      · simp only [hn, if_true]
        exact .inr ⟨trivial, pcDecode_pcEncode c _, hlater⟩
      · simp only [hn, if_false]
        refine .inl ⟨trivial, pcDecode_pcEncode c _, fun b' h => ?_⟩
        obtain rfl := Option.some.inj (hb.symm.trans h)
        exact hnewer b.2

/-- After a completed write the slot reads as the code written, across the generation's wrap. -/
theorem pcSlotRead_pcSlotWrite (slot : PcSlot) (c : PcCode) :
    pcSlotRead (pcSlotWrite slot c) = some (c.kept, (pcSlotWriteHalf slot).2) := by
  unfold pcSlotRead
  rcases pcSlotWrite_newer slot c with ⟨-, ha, hb⟩ | ⟨-, hb, ha⟩
  · rw [ha]
    cases hother : pcDecode (pcSlotWrite slot c).b with
    | none => rfl
    | some b => exact if_pos (hb b hother)
  · rw [hb]
    cases hother : pcDecode (pcSlotWrite slot c).a with
    | none => rfl
    | some a => exact if_neg (ha a hother)

theorem pcSlotRead_write (slot : PcSlot) (c : PcCode) :
    (pcSlotRead (pcSlotWrite slot c)).map Prod.fst = some c.kept := by
  rw [pcSlotRead_pcSlotWrite]
  rfl

end GateAccess
