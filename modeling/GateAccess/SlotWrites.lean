import GateAccess.TransientIds

namespace GateAccess

def installedSlots : AcCtx → List SyncEntry → List (Fin acMaxSlots)
  | _, [] => []
  | table, e :: es =>
    let put := acUpsert table e.id.toList e.hash e.validFrom e.validUntil
    put.2.toList ++ installedSlots put.1 es

variable (cfg : DeviceCfg)

/-- The slots a step writes a code to: those `ac_upsert` chose, and all of them at a boot. -/
def writtenSlots (d : Device) : DeviceEvent → List (Fin acMaxSlots)
  | .poll fetched atMs =>
    match delivered cfg.sync fetched with
    | none => []
    | some set =>
      if (doSync cfg.sync d.sync d.access d.nvsGen fetched atMs).2.2.2 then
        installedSlots (wipeGuests d.access) set.entries
      else []
  | .update u =>
    if cfg.courierOn then
      match taken cfg.sync.mac d.tg u with
      | some m =>
        if m.op = .add then
          (acUpsert d.access m.id.toList m.hash m.validFrom m.validUntil).2.toList
        else []
      | none => []
    else []
  | .console cmd => consoleSlots cfg.hash ⟨d.access, d.eeprom, d.devCodes⟩ cmd
  | .reboot _ => List.finRange acMaxSlots
  | _ => []

/-- Who may have written a guest's code: an installed set, a push taken, the console under an id of
its own, or a boot that found it on the chip. -/
inductive GuestWrite (d : Device) (e : DeviceEvent) (g : SyncEntry) : Prop
  | set (fetched atMs set) : e = .poll fetched atMs → cfg.sync.keyOk = true →
      delivered cfg.sync fetched = some set → Installs d.sync set → g ∈ set.entries →
      GuestWrite d e g
  | push (u m) : e = .update u → cfg.courierOn = true → taken cfg.sync.mac d.tg u = some m →
      m.op = .add → g = m.entry → GuestWrite d e g
  | console (cmd) : e = .console cmd → ¬Backend g → GuestWrite d e g
  | boot (b i) : e = .reboot b → (d.eeprom i).guest = some g → GuestWrite d e g

variable {cfg} {hash : List UInt8 → Bytes acHashLen}

theorem installEntries_guest {table : AcCtx} {es : List SyncEntry} (he : ∀ e ∈ es, Backend e)
    {i : Fin acMaxSlots} {g : SyncEntry}
    (h : ((installEntries table es).1.slots i).guest = some g) :
    (i ∉ installedSlots table es ∧ (table.slots i).guest = some g) ∨
      (i ∈ installedSlots table es ∧ g ∈ es) := by
  induction es generalizing table with
  | nil => exact Or.inl ⟨by simp [installedSlots], h⟩
  | cons e es ih =>
    have hb := he e List.mem_cons_self
    rcases ih (fun e hm => he e (List.mem_cons_of_mem _ hm)) h with ⟨hnot, hg⟩ | ⟨hin, hmem⟩
    · rcases upsert_guest hg with ⟨hne, hg⟩ | ⟨heq, _, rfl⟩
      · refine Or.inl ⟨?_, hg⟩
        simp only [installedSlots, List.mem_append, Option.mem_toList, not_or]
        exact ⟨hne, hnot⟩
      · refine Or.inr ⟨?_, ?_⟩
        · simp only [installedSlots, List.mem_append, Option.mem_toList]
          exact Or.inl heq
        · rw [hb.idField]
          exact List.mem_cons_self
    · refine Or.inr ⟨?_, List.mem_cons_of_mem _ hmem⟩
      simp only [installedSlots, List.mem_append]
      exact Or.inr hin

theorem installed_guest {table : AcCtx} {es : List SyncEntry} (he : ∀ e ∈ es, Backend e)
    {i : Fin acMaxSlots} {g : SyncEntry}
    (h : ((installEntries (wipeGuests table) es).1.slots i).guest = some g) :
    i ∈ installedSlots (wipeGuests table) es ∧ g ∈ es := by
  rcases installEntries_guest he h with ⟨_, hg⟩ | hin
  · simp [wipeGuests, wipeGuest_guest] at hg
  · exact hin

theorem eraseSlots_guest (all : Bool) (is : List (Fin acMaxSlots)) {s : ConsoleState}
    {i : Fin acMaxSlots} {g : SyncEntry}
    (h : ((is.foldl (eraseSlot all) s).ac.slots i).guest = some g) :
    (s.ac.slots i).guest = some g := by
  refine eraseSlots_keeps
    (I := fun s' => (s'.ac.slots i).guest = some g → (s.ac.slots i).guest = some g)
    (fun s' j kept hj => ?_) all is id h
  exact kept (setSlot_zero_guest hj)

theorem cmdCode_guest {s : ConsoleState} {cmd : ConsoleCmd} {i : Fin acMaxSlots} {g : SyncEntry}
    (h : ((cmdCode hash s cmd).ac.slots i).guest = some g) :
    (i ∉ consoleSlots hash s cmd ∧ (s.ac.slots i).guest = some g) ∨
      (i ∈ consoleSlots hash s cmd ∧ ¬Backend g) := by
  have hs := cmdCode_step hash s cmd
  generalize cmdCode hash s cmd = out at hs h
  generalize consoleSlots hash s cmd = slots at hs ⊢
  cases hs with
  | refused => exact Or.inl ⟨by simp, h⟩
  | added =>
    rcases setSlot_guest h with ⟨hij, hg⟩ | ⟨_, hg⟩
    · exact Or.inl ⟨by simpa using hij, hg⟩
    · simp [AcSlot.guest] at hg
  | stored _ _ _ slot ac _ _ hac =>
    dsimp only at h
    rw [hac] at h
    rcases setSlot_guest h with ⟨hij, hg⟩ | ⟨rfl, hg⟩
    · exact Or.inl ⟨by simpa using hij, hg⟩
    · refine Or.inr ⟨List.mem_singleton_self _, ?_⟩
      rw [Backend, ← (guest_eq_some.mp hg).2.2.1, storedId_own]
      simp
  | deleted _ _ slot ac hac =>
    dsimp only at h
    rw [hac] at h
    exact Or.inl ⟨by simp, setSlot_zero_guest h⟩
  | erased all => exact Or.inl ⟨by simp, eraseSlots_guest all _ h⟩
  | cleared => exact Or.inl ⟨by simp, by simpa [codeClear] using h⟩

/-- A guest's code after a step was there before in a slot the step did not write, or the step
wrote it. -/
theorem deviceStep_guest {d : Device} {e : DeviceEvent} {i : Fin acMaxSlots} {g : SyncEntry}
    (h : ((deviceStep cfg d e).access.slots i).guest = some g) :
    (i ∉ writtenSlots cfg d e ∧ (d.access.slots i).guest = some g) ∨
      (i ∈ writtenSlots cfg d e ∧ GuestWrite cfg d e g) := by
  cases e with
  | poll fetched atMs =>
    have hs := doSync_step cfg.sync d.sync d.access d.nvsGen fetched atMs
    simp only [deviceStep, writtenSlots] at h ⊢
    generalize doSync cfg.sync d.sync d.access d.nvsGen fetched atMs = out at hs h ⊢
    cases hs with
    | noKey => exact Or.inl ⟨by split <;> simp, h⟩
    | failed _ hd => exact Or.inl ⟨by simp [hd], h⟩
    | unchanged set _ hd => exact Or.inl ⟨by simp [hd], h⟩
    | stale set _ hd => exact Or.inl ⟨by simp [hd], h⟩
    | installed set hkey hd _ hinst hacc =>
      simp only [hd, if_true]
      obtain ⟨hin, hmem⟩ := installed_guest (fun e he => Backend.of_accepted (hacc e he)) h
      exact Or.inr ⟨hin, .set fetched atMs set rfl hkey hd hinst hmem⟩
  | update u =>
    simp only [deviceStep, writtenSlots] at h ⊢
    split at h
    next hc =>
      rw [if_pos hc]
      rcases handleUpdate_step cfg.sync.mac d.tg d.access u with ⟨hnone, hsame, _⟩ | ⟨m, hm, happ, _⟩
      · dsimp only at h
        rw [hsame] at h
        exact Or.inl ⟨by simp [hnone], h⟩
      · dsimp only at h
        rw [happ, tgApply] at h
        obtain ⟨text, _, hline, _⟩ := taken_line hm
        split at h
        next hop =>
          simp only [hm, hop, if_true]
          rcases upsert_guest h with ⟨hne, hg⟩ | ⟨heq, _, rfl⟩
          · exact Or.inl ⟨by rw [Option.mem_toList]; exact hne, hg⟩
          · refine Or.inr ⟨by rw [Option.mem_toList]; exact heq, .push u m rfl hc hm hop ?_⟩
            rw [show idField m.id.toList = m.id from hline.backend.idField]
            rfl
        next hop => exact Or.inl ⟨by simp [hm, hop], acRevoke_guest h⟩
    next hc =>
      rw [if_neg hc]
      exact Or.inl ⟨by simp, h⟩
  | courier resp nowMs =>
    simp only [deviceStep] at h
    split at h <;> exact Or.inl ⟨by simp [writtenSlots], h⟩
  | console cmd =>
    rcases cmdCode_guest (s := ⟨d.access, d.eeprom, d.devCodes⟩) h with
      hkept | ⟨hin, hown⟩
    · exact Or.inl hkept
    · exact Or.inr ⟨hin, .console cmd rfl hown⟩
  | portalClosed =>
    exact Or.inl ⟨by simp [writtenSlots], by simpa [deviceStep] using h⟩
  | clockTrusted => exact Or.inl ⟨by simp [writtenSlots], h⟩
  | attempt hash now => exact Or.inl ⟨by simp [writtenSlots], by simpa [deviceStep] using h⟩
  | tick now => exact Or.inl ⟨by simp [writtenSlots], by simpa [deviceStep] using h⟩
  | reboot b =>
    exact Or.inr ⟨List.mem_finRange i, .boot b i rfl ((powerUp_guest cfg d.stored b i).symm.trans h)⟩

end GateAccess
