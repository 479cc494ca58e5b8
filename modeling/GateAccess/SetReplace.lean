import GateAccess.TransientIds

namespace GateAccess

variable {cfg : DeviceCfg}

/-- A set that is installed replaces the guests of any table the device can reach: they are
entries of the set, one slot to an id, and the dev codes are as they were. -/
theorem installed_set_replaces (s : Stored) (b : BootInputs) (es : List DeviceEvent)
    (table : AcCtx) (htable : table = (deviceRun cfg s b es).access)
    (ctx : SyncCtx) (set : SyncSet) (nowMs : UInt32) (after : AcCtx)
    (hafter : after = (syncApply ctx table set nowMs).2.1)
    (h : (syncApply ctx table set nowMs).2.2 = .applied ∨
      (syncApply ctx table set nowMs).2.2 = .overflowed) :
    (∀ i g, (after.slots i).guest = some g → g ∈ set.entries) ∧
    (∀ i j g g', (after.slots i).guest = some g → (after.slots j).guest = some g' →
      g.key = g'.key → i = j) ∧
    (∀ i g, (table.slots i).guest = some g →
      (∃ j g', (after.slots j).guest = some g' ∧ g'.key = g.key) →
      ∃ e ∈ set.entries, e.key = g.key) ∧
    (∀ i, (table.slots i).occupied = true → (table.slots i).transient = true →
      after.slots i = table.slots i) ∧
    (syncApply ctx table set nowMs).1.generation = set.generation ∧
    ((syncApply ctx table set nowMs).2.2 = .applied → ∀ e ∈ set.entries, ∃ g,
      lastOf SyncEntry.key set.entries e.key = some g ∧ ∃ i, (after.slots i).guest = some g) := by
  have own : TransientsOwn table := htable ▸ transientsOwn_run s b es
  obtain ⟨keeps, hgen, fitted, hsub, hall, hshow⟩ := syncApply_shows own h
  rw [← hafter] at keeps hshow
  have hentry : ∀ i g, (after.slots i).guest = some g → g ∈ set.entries := by
    intro i g hg
    exact hsub.subset (lastOf_some (hshow.guest_lastOf hg)).1
  refine ⟨hentry, hshow.unique, ?_, keeps, hgen, ?_⟩
  · rintro i g _ ⟨j, g', hg', hk⟩
    exact ⟨g', hentry j g' hg', hk⟩
  · intro ha e he
    cases hl : lastOf SyncEntry.key set.entries e.key with
    | none => exact absurd rfl (lastOf_none hl e he)
    | some g =>
      refine ⟨g, rfl, ?_⟩
      obtain ⟨i, hg, _⟩ := (hshow.holds e.key g).mp (by rw [Store.load_empty, hall ha, hl])
      exact ⟨i, hg⟩

def repeatedSet : SyncSet :=
  ⟨1, [⟨idField (ascii "0a1b2c3d"), zeros _, 0, 100⟩, ⟨idField (ascii "0a1b2c3d"), zeros _, 0, 200⟩]⟩

theorem installed_set_replaces_repeated :
    ∃ i, ((syncApply (syncInit 0 0) (powerUp plainCfg blankStored coldBoot).access
      repeatedSet 0).2.1.slots i).guest = some ⟨idField (ascii "0a1b2c3d"), zeros _, 0, 200⟩ := by
  have h : (syncApply (syncInit 0 0) (powerUp plainCfg blankStored coldBoot).access
      repeatedSet 0).2.2 = .applied := by decide +kernel
  obtain ⟨g, hg, i, hi⟩ := (@installed_set_replaces plainCfg blankStored coldBoot []
    (powerUp plainCfg blankStored coldBoot).access rfl (syncInit 0 0) repeatedSet 0 _ rfl
    (Or.inl h)).2.2.2.2.2 h ⟨idField (ascii "0a1b2c3d"), zeros _, 0, 100⟩ (by decide +kernel)
  have hlast : lastOf SyncEntry.key repeatedSet.entries (ascii "0a1b2c3d") =
      some ⟨idField (ascii "0a1b2c3d"), zeros _, 0, 200⟩ := by decide +kernel
  have hkey : SyncEntry.key ⟨idField (ascii "0a1b2c3d"), zeros _, 0, 100⟩ = ascii "0a1b2c3d" := by
    decide +kernel
  rw [hkey, hlast] at hg
  exact ⟨i, by rw [hi, hg]⟩

end GateAccess
