import GateAccess.Device

namespace GateAccess

theorem TransientsOwn.of_slots {ctx ctx' : AcCtx} (h : TransientsOwn ctx)
    (hs : ctx'.slots = ctx.slots) : TransientsOwn ctx' := by
  intro i
  rw [hs]
  exact h i

theorem TransientsOwn.setSlot {ctx : AcCtx} (h : TransientsOwn ctx) (i : Fin acMaxSlots) {s : AcSlot}
    (hs : s.occupied = true → s.transient = true → idIsBackend s.id.toList = false) :
    TransientsOwn (ctx.setSlot i s) := by
  intro j
  by_cases hj : j = i
  · subst hj
    rw [setSlot_same]
    exact hs
  · rw [setSlot_other ctx s hj]
    exact h j

theorem TransientsOwn.upsert {ctx : AcCtx} (h : TransientsOwn ctx) {id : List UInt8}
    {hash : Bytes acHashLen} {validFrom validUntil : Int} {transient : Bool}
    (hid : transient = true → idIsBackend (idField id).toList = false) :
    TransientsOwn (upsert ctx id hash validFrom validUntil transient).1 := by
  have hs := upsert_step ctx id hash validFrom validUntil transient
  generalize GateAccess.upsert ctx id hash validFrom validUntil transient = out at hs ⊢
  cases hs with
  | refused => exact h
  | replaced i => exact h.setSlot i fun _ ht => hid ht
  | inserted i => exact h.setSlot i fun _ ht => hid ht

theorem TransientsOwn.acUpsert {ctx : AcCtx} (h : TransientsOwn ctx) (id : List UInt8)
    (hash : Bytes acHashLen) (validFrom validUntil : Int) :
    TransientsOwn (acUpsert ctx id hash validFrom validUntil).1 :=
  TransientsOwn.upsert h (by simp)

theorem TransientsOwn.acRevoke {ctx : AcCtx} (h : TransientsOwn ctx) (id : List UInt8) :
    TransientsOwn (acRevoke ctx id).1 := by
  unfold GateAccess.acRevoke
  split
  next => exact h
  next i _ => exact h.setSlot i (by simp [AcSlot.zero])

theorem TransientsOwn.acRevokeTransient {ctx : AcCtx} (h : TransientsOwn ctx) :
    TransientsOwn (acRevokeTransient ctx) := by
  intro i ho ht
  simp only [GateAccess.acRevokeTransient] at ho ht ⊢
  split at ho
  next => simp [AcSlot.zero] at ho
  next hc =>
    rw [if_neg hc] at ht ⊢
    exact h i ho ht

theorem TransientsOwn.installEntries {table : AcCtx} (h : TransientsOwn table)
    (es : List SyncEntry) : TransientsOwn (installEntries table es).1 := by
  induction es generalizing table with
  | nil => exact h
  | cons e es ih => exact ih (h.acUpsert _ _ _ _)

/-- The `v` of a dev code's id is no hex digit. -/
theorem devId_own (n : UInt32) : idIsBackend (idField (devId n)).toList = false := by
  obtain ⟨rest, hrest⟩ : ∃ rest, devId n = 100 :: 101 :: 118 :: rest := ⟨_, rfl⟩
  refine idField_own (c := 118) ?_ (by decide)
  simp [hrest, cstr_cons, acIdLen]

/-- The `t` of a stored code's id is no hex digit. -/
theorem storedId_own (now : Int) : idIsBackend (idField (storedId now)).toList = false := by
  obtain ⟨rest, hrest⟩ : ∃ rest, storedId now = 116 :: rest := ⟨_, rfl⟩
  refine idField_own (c := 116) ?_ (by decide)
  simp [hrest, cstr_cons, acIdLen]

variable {cfg : DeviceCfg} {hash : List UInt8 → Bytes acHashLen}

theorem eraseSlots_transientsOwn {s : ConsoleState} (h : TransientsOwn s.ac) (all : Bool)
    (is : List (Fin acMaxSlots)) : TransientsOwn (is.foldl (eraseSlot all) s).ac := by
  refine eraseSlots_keeps (I := fun s => TransientsOwn s.ac) (fun s i h => ?_) all is h
  exact h.setSlot i (by simp [AcSlot.zero])

theorem cmdCode_transientsOwn {s : ConsoleState} (h : TransientsOwn s.ac) (cmd : ConsoleCmd) :
    TransientsOwn (cmdCode hash s cmd).ac := by
  have hs := cmdCode_step hash s cmd
  generalize cmdCode hash s cmd = out at hs ⊢
  generalize consoleSlots hash s cmd = slots at hs
  cases hs with
  | refused => exact h
  | added => exact h.setSlot _ fun _ _ => devId_own _
  | stored _ _ _ slot ac _ _ hac =>
    rw [hac]
    exact h.setSlot slot (by simp)
  | deleted _ _ slot ac hac =>
    rw [hac]
    exact h.setSlot slot (by simp [AcSlot.zero])
  | erased all => exact eraseSlots_transientsOwn h all _
  | cleared => exact h.acRevokeTransient

theorem powerUp_transientsOwn (s : Stored) (b : BootInputs) :
    TransientsOwn (powerUp cfg s b).access := by
  intro i ho ht
  rw [powerUp_transient cfg s b ho] at ht
  simp at ht

/-- No boot, channel or console command gives a transient slot an id of the backend's. -/
theorem deviceStep_transientsOwn {d : Device} (h : TransientsOwn d.access) (e : DeviceEvent) :
    TransientsOwn (deviceStep cfg d e).access := by
  cases e with
  | poll fetched atMs =>
    have hs := doSync_step cfg.sync d.sync d.access d.nvsGen fetched atMs
    simp only [deviceStep]
    generalize doSync cfg.sync d.sync d.access d.nvsGen fetched atMs = out at hs ⊢
    cases hs with
    | noKey | failed | unchanged | stale => exact h
    | installed => exact (wipeGuests_transients h).2.installEntries _
  | update u =>
    simp only [deviceStep]
    split
    next =>
      rcases handleUpdate_step cfg.sync.mac d.tg d.access u with ⟨_, hsame, _⟩ | ⟨m, _, happ, _⟩
      · dsimp only
        rw [hsame]
        exact h
      · dsimp only
        rw [happ, tgApply]
        split
        next => exact h.acUpsert _ _ _ _
        next => exact h.acRevoke _
    next => exact h
  | courier resp nowMs =>
    simp only [deviceStep]
    split <;> exact h
  | console cmd => exact cmdCode_transientsOwn (s := ⟨d.access, d.eeprom, d.devCodes⟩) h cmd
  | portalClosed => exact h.acRevokeTransient
  | clockTrusted => exact h
  | attempt hash now => exact h.of_slots (acEvaluate_slots _ _ _)
  | tick now => exact h.of_slots (acTick_slots _ _)
  | reboot b => exact powerUp_transientsOwn d.stored b

theorem transientsOwn_run (s : Stored) (b : BootInputs) (es : List DeviceEvent) :
    TransientsOwn (deviceRun cfg s b es).access :=
  exec_invariant (I := fun d : Device => TransientsOwn d.access) (fun _ e h => deviceStep_transientsOwn h e)
    (powerUp_transientsOwn s b) es

end GateAccess
