import GateAccess.PersistStore
import GateAccess.TableOps

namespace GateAccess

/-- A slot that `ac_init` or a revoke left empty, or that an upsert wrote. -/
inductive Filled : AcSlot → Prop
  | free : Filled .zero
  | upserted (transient id hash validFrom validUntil) : validFrom < validUntil →
      Filled ⟨true, transient, idField id, hash, validFrom, validUntil⟩

/-- What a record keeps of a slot is the same in both. -/
structure SameCode (s r : AcSlot) : Prop where
  occupied : r.occupied = s.occupied
  id : r.id = s.id
  hash : r.hash = s.hash
  validFrom : r.validFrom = s.validFrom
  validUntil : r.validUntil = s.validUntil

/-- Both ends of the window are 32-bit seconds. -/
def WindowFits (s : AcSlot) : Prop :=
  s.occupied = true → (0 ≤ s.validFrom ∧ s.validFrom < 2 ^ 32) ∧ 0 ≤ s.validUntil ∧ s.validUntil < 2 ^ 32

def FilledTable (ctx : AcCtx) : Prop := ∀ i, Filled (ctx.slots i)

theorem FilledTable.upsert {ctx : AcCtx} (h : FilledTable ctx) (id : List UInt8)
    (hash : Bytes acHashLen) (validFrom validUntil : Int) (transient : Bool) :
    FilledTable (upsert ctx id hash validFrom validUntil transient).1 := by
  rcases upsert_slotFor ctx id hash validFrom validUntil transient with hr | ⟨i, _, hw, hput⟩
  · rw [hr]
    exact h
  · rw [hput]
    intro j
    by_cases hj : j = i
    · subst hj
      rw [setSlot_same]
      exact .upserted _ _ _ _ _ hw
    · rw [setSlot_other ctx _ hj]
      exact h j

def TableOp.isSync : TableOp → Bool
  | .sync .. => true
  | _ => false

theorem FilledTable.op {ctx : AcCtx} (h : FilledTable ctx) {op : TableOp} (hop : op.isSync = false) :
    FilledTable (tableOp ctx op) := by
  have kept (i : Fin acMaxSlots) (c : Bool) : Filled (if c then AcSlot.zero else ctx.slots i) := by
    split
    next => exact .free
    next => exact h i
  cases op with
  | upsert id hash validFrom validUntil => exact FilledTable.upsert h id hash validFrom validUntil false
  | upsertTransient id hash validFrom validUntil => exact FilledTable.upsert h id hash validFrom _ true
  | revoke id =>
    simp only [tableOp, tableCall, acRevoke]
    split
    next => exact h
    next i _ =>
      intro j
      by_cases hj : j = i
      · subst hj
        rw [setSlot_same]
        exact .free
      · rw [setSlot_other ctx _ hj]
        exact h j
  | revokeTransient => exact fun i => kept i _
  | purgeExpired now => exact fun i => kept i _
  | evaluate hash now =>
    intro i
    simp only [tableOp, tableCall, acEvaluate_slots]
    exact h i
  | sync => cases hop

/-- Whole runs of table calls from `ac_init`, but for the replacing of the set. -/
theorem filledTable_run (maxFailedAttempts : UInt8) (lockoutSeconds : Int) {ops : List TableOp}
    (hops : ∀ op ∈ ops, op.isSync = false) :
    FilledTable (exec tableOp (acInit maxFailedAttempts lockoutSeconds) ops) := by
  refine exec_induction (fun p hp h => h.op (hops p.2 ?_)) fun _ => .free
  rw [← trace_map_snd tableOp (acInit maxFailedAttempts lockoutSeconds) ops]
  exact List.mem_map_of_mem hp

theorem ofInt_toNat_iff {x : Int} :
    ((UInt32.ofInt x).toNat : Int) = x ↔ 0 ≤ x ∧ x < 2 ^ 32 := by
  constructor
  · intro h
    have hlt := (UInt32.ofInt x).toNat_lt
    omega
  · rintro ⟨h0, hlt⟩
    exact ofInt_toNat h0 hlt

/-- What the next boot puts into the slot that was saved. -/
theorem load_save_slot {ctx fresh : AcCtx} (prior : Eeprom) {i : Fin acMaxSlots}
    (hstored : ((ctx.slots i).occupied && (ctx.slots i).transient) = false) :
    (persistCodesLoad fresh (persistCodesSave ctx prior i)).slots i =
      pcApply (fresh.slots i) (recordOf (ctx.slots i)).kept := by
  have hsave : persistCodesSave ctx prior i i = pcSlotWrite (prior i) (recordOf (ctx.slots i)) := by
    simp only [persistCodesSave, hstored, Bool.false_eq_true, if_false, Function.update_self]
  exact persistCodesLoad_read fresh (hsave ▸ pcSlotRead_pcSlotWrite (prior i) (recordOf (ctx.slots i)))

/-- What a boot after the save restores is what was saved, exactly when the window fits the record. -/
theorem save_load_inverse_iff (ctx : AcCtx) (prior : Eeprom) (i : Fin acMaxSlots)
    (maxFailedAttempts : UInt8) (lockoutSeconds : Int) (hfilled : FilledTable ctx)
    (hstored : ((ctx.slots i).occupied && (ctx.slots i).transient) = false) :
    SameCode (ctx.slots i) ((persistCodesLoad (acInit maxFailedAttempts lockoutSeconds)
        (persistCodesSave ctx prior i)).slots i) ↔ WindowFits (ctx.slots i) := by
  rw [load_save_slot prior hstored]
  have hs := hfilled i
  generalize ctx.slots i = s at hs hstored ⊢
  cases hs with
  | free => exact ⟨fun _ h => by simp [AcSlot.zero] at h, fun _ => ⟨rfl, rfl, rfl, rfl, rfl⟩⟩
  | upserted transient id hash validFrom validUntil _ =>
    have hid : putByte (idField id) (acIdLen - 1) 0 = idField id := idField_terminated id
    constructor
    · intro h _
      exact ⟨ofInt_toNat_iff.mp h.validFrom, ofInt_toNat_iff.mp h.validUntil⟩
    · intro hfits
      obtain ⟨hfrom, huntil⟩ := hfits rfl
      refine ⟨rfl, ?_, rfl, ofInt_toNat_iff.mpr hfrom, ofInt_toNat_iff.mpr huntil⟩
      simp only [pcApply, recordOf, PcCode.kept, if_true, putByte_putByte]
      exact hid

def savedTable (validUntil : Int) : AcCtx :=
  exec tableOp (acInit 5 300) [.upsert (ascii "t553f100") (zeros _) 0 validUntil]

theorem save_load_inverse_last_second : SameCode ((savedTable (2 ^ 32 - 1)).slots 0)
    ((persistCodesLoad (acInit 5 300)
      (persistCodesSave (savedTable (2 ^ 32 - 1)) (fun _ => ⟨zeros _, zeros _⟩) 0)).slots 0) :=
  (save_load_inverse_iff (savedTable (2 ^ 32 - 1)) (fun _ => ⟨zeros _, zeros _⟩) 0 5 300
    (filledTable_run 5 300 (by simp [TableOp.isSync])) (by decide)).mpr fun _ => by decide

/-- A window that ends with the 32-bit seconds comes back as one that ends before it begins. -/
theorem late_window_wraps :
    FilledTable (savedTable (2 ^ 32)) ∧
      (((savedTable (2 ^ 32)).slots 0).occupied && ((savedTable (2 ^ 32)).slots 0).transient) = false ∧
      ¬SameCode ((savedTable (2 ^ 32)).slots 0) ((persistCodesLoad (acInit 5 300)
        (persistCodesSave (savedTable (2 ^ 32)) (fun _ => ⟨zeros _, zeros _⟩) 0)).slots 0) := by
  have hstored : (((savedTable (2 ^ 32)).slots 0).occupied &&
      ((savedTable (2 ^ 32)).slots 0).transient) = false := by decide
  refine ⟨filledTable_run 5 300 (by simp [TableOp.isSync]), hstored, fun h => ?_⟩
  have huntil := h.validUntil
  rw [load_save_slot _ hstored] at huntil
  revert huntil
  decide

end GateAccess
