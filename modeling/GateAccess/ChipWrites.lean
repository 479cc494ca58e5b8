import GateAccess.SlotWrites

namespace GateAccess

theorem pcSlotWrite_guest_id {slot : PcSlot} {s : AcSlot} {g : SyncEntry}
    (h : (pcSlotWrite slot (recordOf s)).guest = some g) :
    s.occupied = true ∧ g.id = putByte s.id (acIdLen - 1) 0 := by
  obtain ⟨⟨c, gen⟩, hread, hc⟩ := Option.map_eq_some_iff.mp (pcSlotRead_write slot (recordOf s))
  obtain rfl : c = (recordOf s).kept := hc
  simp only [PcSlot.guest, hread] at h
  cases ho : s.occupied with
  | false => simp [recordOf, PcCode.kept, ho, PcCode.zero] at h
  | true =>
    simp only [recordOf, PcCode.kept, ho, if_true, putByte_putByte, Option.some.injEq] at h
    exact ⟨rfl, by rw [← h]⟩

theorem persistCodesSave_guest_id {ctx : AcCtx} {eeprom : Eeprom} {i j : Fin acMaxSlots}
    {g : SyncEntry} (h : (persistCodesSave ctx eeprom j i).guest = some g) :
    (eeprom i).guest = some g ∨
      (i = j ∧ (ctx.slots j).occupied = true ∧ g.id = putByte (ctx.slots j).id (acIdLen - 1) 0) := by
  by_cases hij : i = j
  · subst hij
    unfold persistCodesSave at h
    split at h
    next => exact Or.inl h
    next =>
      rw [Function.update_self] at h
      exact Or.inr ⟨rfl, pcSlotWrite_guest_id h⟩
  · rw [persistCodesSave_other ctx eeprom hij] at h
    exact Or.inl h

theorem persistCodesSave_empty {ctx : AcCtx} {eeprom : Eeprom} {i j : Fin acMaxSlots}
    {g : SyncEntry} (hj : (ctx.slots j).occupied = false)
    (h : (persistCodesSave ctx eeprom j i).guest = some g) : (eeprom i).guest = some g := by
  rcases persistCodesSave_guest_id h with hg | ⟨_, ho, _⟩
  · exact hg
  · simp [hj] at ho

variable {hash : List UInt8 → Bytes acHashLen}

theorem eraseSlots_chip (all : Bool) (is : List (Fin acMaxSlots)) {s : ConsoleState}
    {i : Fin acMaxSlots} {g : SyncEntry}
    (h : ((is.foldl (eraseSlot all) s).eeprom i).guest = some g) : (s.eeprom i).guest = some g := by
  refine eraseSlots_keeps (I := fun s' => (s'.eeprom i).guest = some g → (s.eeprom i).guest = some g)
    (fun s' j kept hj => ?_) all is id h
  have hfree : ((s'.ac.setSlot j .zero).slots j).occupied = false := by simp [AcSlot.zero]
  exact kept (persistCodesSave_empty hfree (persistCodesSave_empty hfree hj))

/-- No console command puts a code on the chip under an id the backend could send. -/
theorem cmdCode_chip {s : ConsoleState} {cmd : ConsoleCmd} {i : Fin acMaxSlots} {g : SyncEntry}
    (h : ((cmdCode hash s cmd).eeprom i).guest = some g) :
    (s.eeprom i).guest = some g ∨ ¬Backend g := by
  have hs := cmdCode_step hash s cmd
  generalize cmdCode hash s cmd = out at hs h
  generalize consoleSlots hash s cmd = slots at hs
  cases hs with
  | refused | added | cleared => exact Or.inl h
  | stored _ _ now slot ac _ _ hac =>
    rcases persistCodesSave_guest_id h with hg | ⟨_, _, hid⟩
    · exact Or.inl hg
    · rw [hac, setSlot_same, idField_terminated] at hid
      exact Or.inr (by rw [Backend, hid, storedId_own]; simp)
  | deleted _ _ slot ac hac =>
    dsimp only at h
    split at h
    next => exact Or.inl (persistCodesSave_empty (by simp [hac, AcSlot.zero]) h)
    next => exact Or.inl h
  | erased all => exact Or.inl (eraseSlots_chip all _ h)

end GateAccess
