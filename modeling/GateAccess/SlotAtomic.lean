import GateAccess.PersistStore
import GateAccess.PowerCuts

namespace GateAccess

def PcSlot.half (slot : PcSlot) (second : Bool) : Bytes pcRecSize :=
  if second then slot.b else slot.a

def PcSlot.put (slot : PcSlot) (second : Bool) (rec : Bytes pcRecSize) : PcSlot :=
  if second then { slot with b := rec } else { slot with a := rec }

/-- The half `pc_slot_read` copies its answer from. -/
def pcReadHalf (slot : PcSlot) : Bool :=
  match pcDecode slot.a, pcDecode slot.b with
  | none, _ => true
  | some _, none => false
  | some a, some b => if signed (a.2 - b.2) > 0 then false else true

/-- What `persist_codes_save` does to the slot's image, its writes cut or not. -/
def pcSlotSave (slot : PcSlot) (save : Save PcCode) : PcSlot :=
  let next := pcSlotWriteHalf slot
  slot.put next.1 (cutWrite (slot.half next.1) (pcEncode save.value next.2) save.cut)

/-- The half a cut save leaves behind. -/
def tornHalf (slot : PcSlot) (c : PcCode) (k : Nat) : Bytes pcRecSize :=
  cutWrite (slot.half (pcSlotWriteHalf slot).1) (pcEncode c (pcSlotWriteHalf slot).2) (some k)

def PcCode.Terminated (c : PcCode) : Prop := c.id.get ⟨acIdLen - 1, by decide⟩ = 0

/-- The code as a slot holds it: an empty one keeps nothing. -/
def PcCode.stored (c : PcCode) : PcCode := if c.occupied then c else .zero

theorem pcSlotSave_done (slot : PcSlot) (c : PcCode) :
    pcSlotSave slot ⟨c, none⟩ = pcSlotWrite slot c := rfl

theorem persistCodesSave_slot (ctx : AcCtx) (eeprom : Eeprom) (i : Fin acMaxSlots)
    (h : ((ctx.slots i).occupied && (ctx.slots i).transient) = false) :
    persistCodesSave ctx eeprom i = Function.update eeprom i
      (pcSlotSave (eeprom i) ⟨recordOf (ctx.slots i), none⟩) := by
  rw [persistCodesSave, h, pcSlotSave_done]
  rfl

theorem PcCode.Terminated.kept {c : PcCode} (h : c.Terminated) : c.kept = c.stored := by
  have hid : putByte c.id (acIdLen - 1) 0 = c.id := by
    apply List.Vector.toList_injective
    have hget := c.id.get_eq_get_toList ⟨acIdLen - 1, by decide⟩
    rw [h] at hget
    change c.id.toList.set (acIdLen - 1) 0 = c.id.toList
    rw [hget]
    exact List.set_getElem_self _
  unfold PcCode.kept PcCode.stored
  rw [hid]

theorem pcReadHalf_read {slot : PcSlot} {r : PcCode × UInt32} (h : pcSlotRead slot = some r) :
    pcDecode (slot.half (pcReadHalf slot)) = some r := by
  unfold pcSlotRead at h
  unfold pcReadHalf PcSlot.half
  cases ha : pcDecode slot.a with
  | none =>
    cases hb : pcDecode slot.b with
    | none => simp [ha, hb] at h
    | some b => simpa [ha, hb] using h
  | some a =>
    cases hb : pcDecode slot.b with
    | none => simpa [ha, hb] using h
    | some b =>
      by_cases hn : signed (a.2 - b.2) > 0
      · simpa [ha, hb, hn] using h
      · simpa [ha, hb, hn] using h

theorem pcSlotWriteHalf_other {slot : PcSlot} {r : PcCode × UInt32} (h : pcSlotRead slot = some r) :
    (pcSlotWriteHalf slot).1 = !pcReadHalf slot := by
  unfold pcSlotRead at h
  unfold pcReadHalf pcSlotWriteHalf
  cases ha : pcDecode slot.a with
  | none =>
    cases hb : pcDecode slot.b with
    | none => simp [ha, hb] at h
    | some b => rfl
  | some a =>
    cases hb : pcDecode slot.b with
    | none => rfl
    | some b =>
      simp only
      split <;> rfl

/-- A record that does not decode, put where the next one was due, changes neither what the slot
reads as nor where the next one is due. -/
theorem put_torn {slot : PcSlot} {rec : Bytes pcRecSize} (h : pcDecode rec = none) :
    pcSlotRead (slot.put (pcSlotWriteHalf slot).1 rec) = pcSlotRead slot ∧
      pcSlotWriteHalf (slot.put (pcSlotWriteHalf slot).1 rec) = pcSlotWriteHalf slot := by
  unfold pcSlotWriteHalf PcSlot.put pcSlotRead
  cases ha : pcDecode slot.a with
  | none =>
    cases hb : pcDecode slot.b with
    | none => simp [h, hb]
    | some b => simp [h, hb]
  | some a =>
    cases hb : pcDecode slot.b with
    | none => simp [h, ha]
    | some b =>
      by_cases hn : signed (a.2 - b.2) > 0
      · simp [h, ha, hn]
      · simp [h, hb, hn]

theorem pcSlotSave_torn {slot : PcSlot} {c : PcCode} {k : Nat}
    (h : pcDecode (tornHalf slot c k) = none) :
    pcSlotRead (pcSlotSave slot ⟨c, some k⟩) = pcSlotRead slot ∧
      pcSlotWriteHalf (pcSlotSave slot ⟨c, some k⟩) = pcSlotWriteHalf slot := put_torn h

theorem first_half {slot : PcSlot} {r : PcCode × UInt32} (ha : pcDecode slot.a = some r)
    (hb : pcDecode slot.b = none) :
    pcSlotRead slot = some r ∧ pcSlotWriteHalf slot = (true, r.2 + 1) := by
  simp only [pcSlotRead, pcSlotWriteHalf, ha, hb, and_self]

/-- A/B code slots are atomic under power cuts. -/
theorem code_slot_atomic :
    (∀ slot r, pcSlotRead slot = some r → pcDecode (slot.half (pcReadHalf slot)) = some r ∧
      (pcSlotWriteHalf slot).1 = !pcReadHalf slot) ∧
    (∀ slot c, c.Terminated → pcSlotRead (pcSlotSave slot ⟨c, none⟩) =
      some (c.stored, (pcSlotWriteHalf slot).2)) ∧
    (∀ slot c k, c.Terminated → pcDecode (tornHalf slot c k) = none →
      pcSlotRead (pcSlotSave slot ⟨c, some k⟩) = pcSlotRead slot ∧
      pcSlotRead (pcSlotSave (pcSlotSave slot ⟨c, some k⟩) ⟨c, none⟩) =
        some (c.stored, (pcSlotWriteHalf slot).2)) ∧
    ∀ slot saves, (∀ save ∈ saves, save.value.Terminated) →
      (∀ p ∈ trace pcSlotSave slot saves, ∀ k, p.2.cut = some k →
        pcDecode (tornHalf p.1 p.2.value k) = none) →
      (pcSlotRead (exec pcSlotSave slot saves)).map Prod.fst =
        ((lastDone saves).map PcCode.stored).or ((pcSlotRead slot).map Prod.fst) := by
  refine ⟨fun slot r h => ⟨pcReadHalf_read h, pcSlotWriteHalf_other h⟩, ?_, ?_, ?_⟩
  · intro slot c hc
    rw [pcSlotSave_done, pcSlotRead_pcSlotWrite, hc.kept]
  · intro slot c k hc htorn
    obtain ⟨hread, hhalf⟩ := pcSlotSave_torn htorn
    exact ⟨hread, by rw [pcSlotSave_done, pcSlotRead_pcSlotWrite, hc.kept, hhalf]⟩
  · intro slot saves hsaves htorn
    apply read_exec fun slot => (pcSlotRead slot).map Prod.fst
    · rintro ⟨slot, c, cut⟩ hp rfl
      have hmem := List.mem_map_of_mem (f := Prod.snd) hp
      rw [trace_map_snd] at hmem
      have hc : c.Terminated := hsaves _ hmem
      rw [pcSlotSave_done, pcSlotRead_write, hc.kept]
    · rintro ⟨slot, c, cut⟩ hp k rfl
      rw [(pcSlotSave_torn (htorn _ hp k rfl)).1]

/-- Eight bytes on a blank half stop short of the version. -/
theorem cut_blank (rec : Bytes pcRecSize) :
    pcDecode (cutWrite (zeros _) rec (some 8)) = none := by
  have hlen : (rec.toList.take 8).length = 8 := by simp [pcRecSize]
  have hversion : (rec.toList.take 8 ++ (zeros pcRecSize).toList.drop 8).getD 8 0 = 0 := by
    rw [List.getD_append_right _ _ _ _ hlen.le, hlen]
    rfl
  have hne : (cutWrite (zeros _) rec (some 8)).toList.getD 8 0 ≠ pcVersion := by
    change (rec.toList.take 8 ++ (zeros pcRecSize).toList.drop 8).getD 8 0 ≠ pcVersion
    rw [hversion]
    decide
  exact if_pos (.inr hne)

def heldCode : PcCode := ⟨true, fill _ (ascii "0a1b2c3d"), fill _ (ascii "hash"), 0, 1000⟩

def nextCode : PcCode := ⟨true, fill _ (ascii "55667788"), fill _ (ascii "other"), 500, 2000⟩

/-- A slot whose code has the last generation there is. -/
def heldSlot : PcSlot := ⟨pcEncode heldCode 0xFFFFFFFF, zeros _⟩

/-- A save cut after eight bytes leaves the old code, and the same save made again the new one. -/
theorem code_slot_atomic_wrap :
    pcSlotRead (pcSlotSave heldSlot ⟨nextCode, some 8⟩) = some (heldCode, 0xFFFFFFFF) ∧
    pcSlotRead (pcSlotSave (pcSlotSave heldSlot ⟨nextCode, some 8⟩) ⟨nextCode, none⟩) =
      some (nextCode, 0) := by
  have hheldEnd : heldCode.Terminated := by
    unfold PcCode.Terminated
    decide +kernel
  have hnextEnd : nextCode.Terminated := by
    unfold PcCode.Terminated
    decide +kernel
  have hheld : pcDecode heldSlot.a = some (heldCode, 0xFFFFFFFF) := by
    rw [heldSlot, pcDecode_pcEncode, hheldEnd.kept]
    rfl
  obtain ⟨hread, hnext⟩ := first_half hheld (by decide +kernel)
  have htorn : pcDecode (tornHalf heldSlot nextCode 8) = none := by
    rw [tornHalf, hnext]
    exact cut_blank _
  obtain ⟨hkept, hdone⟩ := code_slot_atomic.2.2.1 heldSlot nextCode 8 hnextEnd htorn
  have hwrap : (0xFFFFFFFF : UInt32) + 1 = 0 := by decide
  rw [hnext, hwrap] at hdone
  exact ⟨hkept.trans hread, hdone⟩

end GateAccess
