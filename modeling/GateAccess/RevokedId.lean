import GateAccess.Device
import GateAccess.TableOps

namespace GateAccess

def CarriedOnce (table : AcCtx) (id : List UInt8) : Prop :=
  ∀ i j, Carries (table.slots i) id → Carries (table.slots j) id → i = j

/-- Whatever can happen to the table after a revoke, a boot that loads a chip included. -/
inductive TableWrite
  | op (op : TableOp)
  | tick (now : Int)
  | clockTrusted (trusted : Bool)
  | erase (slot : Fin acMaxSlots)
  | boot (cfg : DeviceCfg) (stored : Stored) (inputs : BootInputs)

def tableWrite (table : AcCtx) : TableWrite → AcCtx
  | .op op => tableOp table op
  | .tick now => acTick table now
  | .clockTrusted trusted => { table with clockTrusted := trusted }
  | .erase slot => table.setSlot slot .zero
  | .boot cfg stored inputs => (powerUp cfg stored inputs).access

/-- The write brings a code under this id: an add, a set or a chip that has one. -/
def TableWrite.Adds (id : List UInt8) : TableWrite → Prop
  | .op (.upsert added _ _ _) => (cstr added).take (acIdLen - 1) = (cstr id).take acIdLen
  | .op (.upsertTransient added _ _ _) => (cstr added).take (acIdLen - 1) = (cstr id).take acIdLen
  | .op (.sync _ set _) =>
    ∃ e ∈ set.entries, (cstr e.id.toList).take (acIdLen - 1) = (cstr id).take acIdLen
  | .boot _ stored _ => ∃ i g, (stored.eeprom i).guest = some g ∧ g.key = (cstr id).take acIdLen
  | _ => False

/-- Once revoked, the id is nowhere in the table, and until it is added again no code is granted
under it. -/
structure OpensNothing (table : AcCtx) (id : List UInt8) : Prop where
  gone : ∀ i, ¬Carries ((acRevoke table id).1.slots i) id
  refused : ∀ writes : List TableWrite, (∀ w ∈ writes, ¬w.Adds id) → ∀ hash now after out,
    acEvaluate (exec tableWrite (acRevoke table id).1 writes) hash now =
      (after, .granted, some out) → cstr out.toList ≠ (cstr id).take acIdLen

def DistinctIds (chip : Eeprom) : Prop :=
  ∀ i j g g', (chip i).guest = some g → (chip j).guest = some g' → g.key = g'.key → i = j

def Absent (table : AcCtx) (id : List UInt8) : Prop := ∀ i, ¬Carries (table.slots i) id

theorem Absent.of_freed {table table' : AcCtx} {id : List UInt8} (h : Absent table id)
    (hs : ∀ i, (table'.slots i).occupied = true → table'.slots i = table.slots i) :
    Absent table' id := by
  intro i hi
  have hsame := hs i hi.1
  rw [hsame] at hi
  exact h i hi

theorem Absent.upsert {table : AcCtx} {id : List UInt8} (h : Absent table id) {added : List UInt8}
    (hadd : (cstr added).take (acIdLen - 1) ≠ (cstr id).take acIdLen) (hash : Bytes acHashLen)
    (validFrom validUntil : Int) (transient : Bool) :
    Absent (upsert table added hash validFrom validUntil transient).1 id := by
  rcases upsert_slotFor table added hash validFrom validUntil transient with hr | ⟨j, _, _, hw⟩
  · rw [hr]
    exact h
  · rw [hw]
    intro i hi
    by_cases hij : i = j
    · subst hij
      have hkey := hi.2
      rw [setSlot_same, AcSlot.key, cstr_idField] at hkey
      exact hadd hkey
    · rw [setSlot_other table _ hij] at hi
      exact h i hi

theorem Absent.installEntries {table : AcCtx} {id : List UInt8} (h : Absent table id)
    {es : List SyncEntry}
    (hadd : ∀ e ∈ es, (cstr e.id.toList).take (acIdLen - 1) ≠ (cstr id).take acIdLen) :
    Absent (installEntries table es).1 id := by
  induction es generalizing table with
  | nil => exact h
  | cons e es ih =>
    exact ih (h.upsert (hadd e List.mem_cons_self) _ _ _ _)
      fun e' he' => hadd e' (List.mem_cons_of_mem _ he')

/-- No write but an add of the id brings it back. -/
theorem Absent.write {table : AcCtx} {id : List UInt8} (h : Absent table id) {w : TableWrite}
    (hadd : ¬w.Adds id) : Absent (tableWrite table w) id := by
  cases w with
  | op op =>
    cases op with
    | upsert => exact h.upsert hadd _ _ _ _
    | upsertTransient => exact h.upsert hadd _ _ _ _
    | revoke revoked => exact h.of_freed (acRevoke_freed table revoked)
    | revokeTransient => exact h.of_freed (acRevokeTransient_freed table)
    | purgeExpired now => exact h.of_freed (acPurgeExpired_freed table now)
    | evaluate hash now =>
      exact h.of_freed fun i _ => by simp only [tableWrite, tableOp, tableCall, acEvaluate_slots]
    | sync ctx set nowMs =>
      have hs := syncApply_step ctx table set nowMs
      simp only [tableWrite, tableOp, tableCall]
      generalize syncApply ctx table set nowMs = out at hs ⊢
      cases hs with
      | badEntry | unchanged | stale => exact h
      | installed =>
        have hwiped : Absent (wipeGuests table) id := h.of_freed fun i hi => wipeGuest_occupied hi
        exact hwiped.installEntries fun e he hk => hadd ⟨e, he, hk⟩
  | tick now => exact h.of_freed fun i _ => by simp only [tableWrite, acTick_slots]
  | clockTrusted trusted => exact h
  | erase slot =>
    refine h.of_freed fun i hi => ?_
    by_cases hij : i = slot
    · subst hij
      simp [tableWrite, AcSlot.zero] at hi
    · exact setSlot_other table _ hij
  | boot cfg stored inputs =>
    intro i hi
    have htransient := powerUp_transient cfg stored inputs hi.1
    have hguest := powerUp_guest cfg stored inputs i
    have hsome := guest_eq_some (g := ⟨_, _, _, _⟩).mpr ⟨hi.1, htransient, rfl, rfl, rfl, rfl⟩
    rw [tableWrite] at hi
    exact hadd ⟨i, _, hguest.symm.trans hsome, (guest_key hsome).symm.trans hi.2⟩

/-- What `ac_revoke` leaves of an id that no two slots carry. -/
theorem CarriedOnce.absent {table : AcCtx} {id : List UInt8} (h : CarriedOnce table id) :
    Absent (acRevoke table id).1 id := by
  intro i hi
  have hsame := acRevoke_freed table id i hi.1
  rw [hsame] at hi
  unfold acRevoke at hsame
  cases hf : findById table id with
  | none => exact findById_none hf i hi.1 hi.2
  | some j =>
    rw [hf] at hsame
    obtain rfl := h i j hi (findById_some hf)
    rw [setSlot_same] at hsame
    rw [← hsame] at hi
    simp [Carries, AcSlot.zero] at hi

theorem Absent.carriedOnce {table : AcCtx} {id : List UInt8} (h : Absent (acRevoke table id).1 id) :
    CarriedOnce table id := by
  have only : ∀ i, Carries (table.slots i) id → findById table id = some i := by
    intro i hi
    have hi' := h i
    unfold acRevoke at hi'
    cases hf : findById table id with
    | none => exact absurd hi.2 (findById_none hf i hi.1)
    | some k =>
      rw [hf] at hi'
      by_cases hik : i = k
      · rw [hik]
      · rw [setSlot_other table _ hik] at hi'
        exact absurd hi hi'
  intro i j hi hj
  exact Option.some.inj ((only i hi).symm.trans (only j hj))

theorem Absent.opensNothing {table : AcCtx} {id : List UInt8} (h : Absent (acRevoke table id).1 id) :
    OpensNothing table id := by
  refine ⟨h, fun writes hadd hash now after out hout hkey => ?_⟩
  have habsent : Absent (exec tableWrite (acRevoke table id).1 writes) id := by
    refine exec_induction (I := fun t => Absent t id) (fun p hp ht => ht.write (hadd p.2 ?_)) h
    rw [← trace_map_snd tableWrite (acRevoke table id).1 writes]
    exact List.mem_map_of_mem hp
  obtain ⟨_, i, hocc, _, _, _, hid⟩ := acEvaluate_granted (congrArg (fun r => r.2.1) hout)
  rw [hout] at hid
  refine habsent i ⟨hocc, ?_⟩
  rw [AcSlot.key, ← Option.some.inj hid]
  exact hkey

/-- A boot from a chip whose records carry different ids fills a table whose slots do. -/
theorem DistinctIds.table {s : Stored} (h : DistinctIds s.eeprom) (cfg : DeviceCfg) (b : BootInputs) :
    TableOf (fun _ => True) (powerUp cfg s b).access := by
  refine ⟨fun _ _ => trivial, fun i j hi hj hk => ?_⟩
  have guestOf : ∀ i, ((powerUp cfg s b).access.slots i).occupied = true →
      ∃ g, (s.eeprom i).guest = some g ∧ g.key = ((powerUp cfg s b).access.slots i).key := by
    intro i hi
    have hsome := guest_eq_some (g := ⟨_, _, _, _⟩).mpr
      ⟨hi, powerUp_transient cfg s b hi, rfl, rfl, rfl, rfl⟩
    exact ⟨_, (powerUp_guest cfg s b i).symm.trans hsome, (guest_key hsome).symm⟩
  obtain ⟨g, hg, hgk⟩ := guestOf i hi
  obtain ⟨g', hg', hgk'⟩ := guestOf j hj
  exact h i j g g' hg hg' (hgk.trans (hk.trans hgk'.symm))

/-- A revoke is for good exactly when no two slots carry the id, as none do from a boot on when the
records it restored carried different ids. -/
theorem revoked_id_opens_nothing_iff (table : AcCtx) (id : List UInt8) :
    (OpensNothing table id ↔ CarriedOnce table id) ∧
    ∀ cfg s b ops, DistinctIds s.eeprom → (∀ op ∈ ops, op.Fits) →
      OpensNothing (exec tableOp (powerUp cfg s b).access ops) id := by
  refine ⟨⟨fun h => Absent.carriedOnce h.gone, fun h => h.absent.opensNothing⟩, ?_⟩
  intro cfg s b ops hdistinct hfits
  have htable := (hdistinct.table cfg b).run (fun _ _ _ => trivial) hfits
  have honce : CarriedOnce (exec tableOp (powerUp cfg s b).access ops) id :=
    fun i j hi hj => htable.unique i j hi.1 hj.1 (hi.2.trans hj.2.symm)
  exact honce.absent.opensNothing

theorem revoked_id_opens_nothing_blank :
    OpensNothing (exec tableOp (powerUp plainCfg blankStored coldBoot).access threeOps)
      (ascii "0a1b2c3d") := by
  refine (revoked_id_opens_nothing_iff (acInit 5 300) (ascii "0a1b2c3d")).2 plainCfg blankStored
    coldBoot threeOps (fun i j g g' hg => ?_) (fun op hop => ?_)
  · exact absurd hg (by rw [show (blankStored.eeprom i).guest = none from rfl]; simp)
  · simp only [threeOps, List.mem_cons, List.not_mem_nil, or_false] at hop
    rcases hop with rfl | rfl | rfl
    · exact ⟨by decide, by decide, by decide⟩
    · exact ⟨by decide, by decide, by decide⟩
    · exact (by decide : (cstr (ascii "dev00002")).length ≤ acIdLen - 1)

def twinRecord (h : UInt8) : PcCode :=
  ⟨true, idField (ascii "tst00001"), List.Vector.replicate _ h, 0, 4000000000⟩

/-- Two records under one id, as a console counter that restarts at boot leaves them. -/
def twinChip : Eeprom := fun i =>
  if i = 0 then pcSlotWrite (blankChip 0) (twinRecord 1)
  else if i = 1 then pcSlotWrite (blankChip 1) (twinRecord 2)
  else blankChip i

def twinTable : AcCtx := (powerUp plainCfg { blankStored with eeprom := twinChip } coldBoot).access

theorem twinTable_eq : twinTable = { acInit 5 300 with
    slots := fun i =>
      if i = 0 then pcApply .zero (twinRecord 1)
      else if i = 1 then pcApply .zero (twinRecord 2) else .zero
    clockTrusted := true } := by
  have read : ∀ slot h, ∃ g, pcSlotRead (pcSlotWrite slot (twinRecord h)) = some (twinRecord h, g) := by
    intro slot h
    obtain ⟨⟨c, g⟩, hread, hc⟩ := Option.map_eq_some_iff.mp (pcSlotRead_write slot (twinRecord h))
    obtain rfl : c = twinRecord h := hc
    exact ⟨g, hread⟩
  obtain ⟨g, hg⟩ := read (blankChip 0) 1
  obtain ⟨g', hg'⟩ := read (blankChip 1) 2
  have hslots : twinTable.slots = fun i =>
      if i = 0 then pcApply .zero (twinRecord 1)
      else if i = 1 then pcApply .zero (twinRecord 2) else .zero := by
    funext i
    have hload : twinTable.slots i = (persistCodesLoad (acInit 5 300) twinChip).slots i := rfl
    rw [hload]
    by_cases h0 : i = 0
    · have hread : pcSlotRead (twinChip i) = some (twinRecord 1, g) := by
        rw [h0, twinChip, if_pos rfl]
        exact hg
      rw [persistCodesLoad_read _ hread, if_pos h0]
      rfl
    · by_cases h1 : i = 1
      · have hread : pcSlotRead (twinChip i) = some (twinRecord 2, g') := by
          rw [h1, twinChip, if_neg (by decide), if_pos rfl]
          exact hg'
        rw [persistCodesLoad_read _ hread, if_neg h0, if_pos h1]
        rfl
      · have hread : pcSlotRead (twinChip i) = none := by
          rw [twinChip, if_neg h0, if_neg h1]
          rfl
        rw [persistCodesLoad_blank _ hread, if_neg h0, if_neg h1]
        rfl
  change AcCtx.mk twinTable.slots _ _ _ _ _ = _
  rw [hslots]
  rfl

theorem OpensNothing.at_once {table : AcCtx} {id : List UInt8} (h : OpensNothing table id)
    {hash : Bytes acHashLen} {now : Int} {out : Bytes acIdLen}
    (hout : (acEvaluate (acRevoke table id).1 hash now).2 = (.granted, some out)) :
    cstr out.toList ≠ (cstr id).take acIdLen := by
  refine h.refused [] (by simp) hash now (acEvaluate (acRevoke table id).1 hash now).1 out ?_
  rw [exec_nil, ← hout]

/-- Revoked once, the id still opens the gate through its second record. -/
theorem twin_record_still_opens :
    ¬OpensNothing twinTable (ascii "tst00001") ∧
    (acEvaluate (acRevoke twinTable (ascii "tst00001")).1 (List.Vector.replicate _ 2) 1700000000).2 =
      (.granted, some (idField (ascii "tst00001"))) := by
  have hgranted : (acEvaluate (acRevoke twinTable (ascii "tst00001")).1 (List.Vector.replicate _ 2)
      1700000000).2 = (.granted, some (idField (ascii "tst00001"))) := by
    rw [twinTable_eq]
    decide +kernel
  exact ⟨fun h => h.at_once hgranted (by decide), hgranted⟩

end GateAccess
