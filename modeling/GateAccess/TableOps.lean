import GateAccess.SyncInstall
import GateAccess.Traces

namespace GateAccess

inductive TableOp
  | upsert (id : List UInt8) (hash : Bytes acHashLen) (validFrom validUntil : Int)
  | upsertTransient (id : List UInt8) (hash : Bytes acHashLen) (validFrom validUntil : Int)
  | revoke (id : List UInt8)
  | revokeTransient
  | purgeExpired (now : Int)
  | evaluate (hash : Bytes acHashLen) (now : Int)
  | sync (ctx : SyncCtx) (set : SyncSet) (nowMs : UInt32)

/-- One call on the table; the flag is false when the call returns failure. -/
def tableCall (table : AcCtx) : TableOp → AcCtx × Bool
  | .upsert id hash validFrom validUntil =>
    let out := acUpsert table id hash validFrom validUntil
    (out.1, out.2.isSome)
  | .upsertTransient id hash validFrom validUntil =>
    let out := acUpsertTransient table id hash validFrom validUntil
    (out.1, out.2.isSome)
  | .revoke id => acRevoke table id
  | .revokeTransient => (acRevokeTransient table, true)
  | .purgeExpired now => (acPurgeExpired table now, true)
  | .evaluate hash now => ((acEvaluate table hash now).1, true)
  | .sync ctx set nowMs =>
    let out := syncApply ctx table set nowMs
    (out.2.1, out.2.2 ≠ .stale && out.2.2 ≠ .badEntry)

def tableOp (table : AcCtx) (op : TableOp) : AcCtx := (tableCall table op).1

/-- The slot holds a code under this id, as `find_by_id` compares ids. -/
def Carries (s : AcSlot) (id : List UInt8) : Prop :=
  s.occupied = true ∧ s.key = (cstr id).take acIdLen

/-- An id that fits its field, and a window whose sums stay within 64 bits. -/
structure CodeFits (id : List UInt8) (validFrom validUntil : Int) : Prop where
  short : (cstr id).length ≤ acIdLen - 1
  lower : -(2 ^ 62) ≤ validFrom ∧ validFrom ≤ 2 ^ 62
  upper : -(2 ^ 62) ≤ validUntil ∧ validUntil ≤ 2 ^ 62

def TableOp.Fits : TableOp → Prop
  | .upsert id _ validFrom validUntil => CodeFits id validFrom validUntil
  | .upsertTransient id _ validFrom validUntil => CodeFits id validFrom validUntil
  | .revoke id => (cstr id).length ≤ acIdLen - 1
  | .sync _ set _ => ∀ e ∈ set.entries, CodeFits e.id.toList e.validFrom e.validUntil
  | _ => True

structure SlotValid (s : AcSlot) : Prop where
  named : s.key ≠ []
  terminated : s.key.length ≤ acIdLen - 1
  window : s.validFrom < s.validUntil
  brief : s.transient = true → s.validUntil - s.validFrom ≤ acTransientMaxS

/-- No two occupied slots under one id, and each of them as `P` has it. -/
structure TableOf (P : AcSlot → Prop) (table : AcCtx) : Prop where
  each : ∀ i, (table.slots i).occupied = true → P (table.slots i)
  unique : ∀ i j, (table.slots i).occupied = true → (table.slots j).occupied = true →
    (table.slots i).key = (table.slots j).key → i = j

abbrev TableValid : AcCtx → Prop := TableOf SlotValid

/-- What `P` must allow: every slot that an accepted upsert of a short id writes. -/
def Writable (P : AcSlot → Prop) : Prop :=
  ∀ s : AcSlot, s.occupied = true → SlotValid s → P s

variable {P : AcSlot → Prop}

/-- Freeing slots breaks nothing. -/
theorem TableOf.of_freed {table table' : AcCtx} (h : TableOf P table)
    (hs : ∀ i, (table'.slots i).occupied = true → table'.slots i = table.slots i) :
    TableOf P table' := by
  constructor
  · intro i hi
    have hsame := hs i hi
    rw [hsame] at hi ⊢
    exact h.each i hi
  · intro i j hi hj hk
    have hsi := hs i hi
    have hsj := hs j hj
    rw [hsi] at hi hk
    rw [hsj] at hj hk
    exact h.unique i j hi hj hk

/-- A slot written under an id that no other slot carries stays the only one under it. -/
theorem setSlot_unique {table : AcCtx} {i j k : Fin acMaxSlots} {s : AcSlot}
    (hother : ∀ l, l ≠ i → (table.slots l).occupied = true → (table.slots l).key ≠ s.key)
    (hold : (table.slots j).occupied = true → (table.slots k).occupied = true →
      (table.slots j).key = (table.slots k).key → j = k)
    (hj : ((table.setSlot i s).slots j).occupied = true)
    (hk : ((table.setSlot i s).slots k).occupied = true)
    (hkey : ((table.setSlot i s).slots j).key = ((table.setSlot i s).slots k).key) : j = k := by
  by_cases hji : j = i
  · by_cases hki : k = i
    · exact hji.trans hki.symm
    · subst hji
      rw [setSlot_same, setSlot_other table s hki] at hkey
      rw [setSlot_other table s hki] at hk
      exact absurd hkey.symm (hother k hki hk)
  · rw [setSlot_other table s hji] at hj hkey
    by_cases hki : k = i
    · subst hki
      rw [setSlot_same] at hkey
      exact absurd hkey (hother j hji hj)
    · rw [setSlot_other table s hki] at hk hkey
      exact hold hj hk hkey

theorem TableOf.setSlot {table : AcCtx} (h : TableOf P table) {i : Fin acMaxSlots} {s : AcSlot}
    (hs : P s)
    (hother : ∀ j, j ≠ i → (table.slots j).occupied = true → (table.slots j).key ≠ s.key) :
    TableOf P (table.setSlot i s) := by
  refine ⟨fun j hj => ?_, fun j k hj hk hkey => setSlot_unique hother (h.unique j k) hj hk hkey⟩
  by_cases hij : j = i
  · subst hij
    rw [setSlot_same]
    exact hs
  · rw [setSlot_other table s hij] at hj ⊢
    exact h.each j hj

theorem upsert_unnamed {ctx : AcCtx} {id : List UInt8} {hash : Bytes acHashLen}
    {validFrom validUntil : Int} {transient : Bool} (h : cstr id = []) :
    upsert ctx id hash validFrom validUntil transient = (ctx, none) := by
  rw [upsert, if_pos (headD_eq_zero.mpr h)]

/-- The slot an upsert writes carries the id it was given, whole. -/
theorem key_written {id : List UInt8} (hshort : (cstr id).length ≤ acIdLen - 1) :
    cstr (idField id).toList = cstr id ∧ (cstr id).take acIdLen = cstr id := by
  rw [cstr_idField, List.take_of_length_le hshort, List.take_of_length_le (by omega)]
  exact ⟨rfl, rfl⟩

theorem TableOf.upsert {table : AcCtx} (h : TableOf P table) (hp : Writable P) {id : List UInt8}
    {hash : Bytes acHashLen} {validFrom validUntil : Int} {transient : Bool}
    (hshort : (cstr id).length ≤ acIdLen - 1)
    (hbrief : transient = true → validUntil - validFrom ≤ acTransientMaxS) :
    TableOf P (upsert table id hash validFrom validUntil transient).1 := by
  by_cases hnamed : cstr id = []
  · rw [upsert_unnamed hnamed]
    exact h
  · obtain ⟨hkey, htake⟩ := key_written hshort
    have hs := upsert_step table id hash validFrom validUntil transient
    generalize GateAccess.upsert table id hash validFrom validUntil transient = out at hs ⊢
    have written : validFrom < validUntil →
        P ⟨true, transient, idField id, hash, validFrom, validUntil⟩ := fun hw =>
      hp _ rfl ⟨by rw [AcSlot.key, hkey]; exact hnamed, by rw [AcSlot.key, hkey]; exact hshort, hw,
        hbrief⟩
    cases hs with
    | refused => exact h
    | replaced i hw hocc hold =>
      refine h.setSlot (written hw) fun j hj ho hk => hj (h.unique j i ho hocc ?_)
      rw [hk, hold, htake, AcSlot.key, hkey]
    | inserted i hw _ hnew =>
      refine h.setSlot (written hw) fun j _ ho hk => hnew j ho ?_
      rw [hk, htake, AcSlot.key, hkey]

theorem TableOf.installEntries {table : AcCtx} (h : TableOf P table) (hp : Writable P)
    {es : List SyncEntry} (hfits : ∀ e ∈ es, CodeFits e.id.toList e.validFrom e.validUntil) :
    TableOf P (installEntries table es).1 := by
  induction es generalizing table with
  | nil => exact h
  | cons e es ih =>
    have hput : TableOf P (acUpsert table e.id.toList e.hash e.validFrom e.validUntil).1 :=
      h.upsert hp (hfits e List.mem_cons_self).short (by simp)
    exact ih hput fun e' he' => hfits e' (List.mem_cons_of_mem _ he')

/-- A call that only frees slots: each is untouched or empty after it. -/
theorem acRevoke_freed (table : AcCtx) (id : List UInt8) (i : Fin acMaxSlots)
    (h : ((acRevoke table id).1.slots i).occupied = true) :
    (acRevoke table id).1.slots i = table.slots i := by
  unfold acRevoke at h ⊢
  split at h
  next => rfl
  next j hj =>
    simp only
    by_cases hij : i = j
    · subst hij
      simp [AcSlot.zero] at h
    · exact setSlot_other table _ hij

theorem acRevokeTransient_freed (table : AcCtx) (i : Fin acMaxSlots)
    (h : ((acRevokeTransient table).slots i).occupied = true) :
    (acRevokeTransient table).slots i = table.slots i := by
  simp only [acRevokeTransient] at h ⊢
  split at h
  next => simp [AcSlot.zero] at h
  next hc => rw [if_neg hc]

theorem acPurgeExpired_freed (table : AcCtx) (now : Int) (i : Fin acMaxSlots)
    (h : ((acPurgeExpired table now).slots i).occupied = true) :
    (acPurgeExpired table now).slots i = table.slots i := by
  simp only [acPurgeExpired] at h ⊢
  split at h
  next => simp [AcSlot.zero] at h
  next hc => rw [if_neg hc]

/-- Every operation of the list keeps the table well formed. -/
theorem TableOf.op {table : AcCtx} (h : TableOf P table) (hp : Writable P) {op : TableOp}
    (hfits : op.Fits) : TableOf P (tableOp table op) := by
  cases op with
  | upsert => exact h.upsert hp hfits.short (by simp)
  | upsertTransient id hash validFrom validUntil =>
    refine h.upsert hp hfits.short fun _ => ?_
    split <;> omega
  | revoke id => exact h.of_freed (acRevoke_freed table id)
  | revokeTransient => exact h.of_freed (acRevokeTransient_freed table)
  | purgeExpired now => exact h.of_freed (acPurgeExpired_freed table now)
  | evaluate hash now => exact h.of_freed fun i _ => by simp only [tableOp, tableCall, acEvaluate_slots]
  | sync ctx set nowMs =>
    have hs := syncApply_step ctx table set nowMs
    simp only [tableOp, tableCall]
    generalize syncApply ctx table set nowMs = out at hs ⊢
    cases hs with
    | badEntry | unchanged | stale => exact h
    | installed =>
      have hwiped : TableOf P (wipeGuests table) := h.of_freed fun i hi => wipeGuest_occupied hi
      exact hwiped.installEntries hp hfits

/-- Whole runs, from any table that starts well formed. -/
theorem TableOf.run {table : AcCtx} (h : TableOf P table) (hp : Writable P) {ops : List TableOp}
    (hfits : ∀ op ∈ ops, op.Fits) : TableOf P (exec tableOp table ops) := by
  refine exec_induction (I := TableOf P) (fun p hmem htable => htable.op hp (hfits p.2 ?_)) h
  rw [← trace_map_snd tableOp table ops]
  exact List.mem_map_of_mem hmem

theorem upsert_failed {ctx : AcCtx} {id : List UInt8} {hash : Bytes acHashLen}
    {validFrom validUntil : Int} {transient : Bool}
    (h : (upsert ctx id hash validFrom validUntil transient).2.isSome = false) :
    (upsert ctx id hash validFrom validUntil transient).1 = ctx := by
  rcases upsert_slotFor ctx id hash validFrom validUntil transient with hr | ⟨i, _, _, hw⟩
  · rw [hr]
  · simp [hw] at h

/-- A call that fails leaves every slot as it was. -/
theorem tableCall_failed {table : AcCtx} {op : TableOp} (h : (tableCall table op).2 = false) :
    (tableCall table op).1.slots = table.slots := by
  cases op with
  | upsert => exact congrArg AcCtx.slots (upsert_failed h)
  | upsertTransient => exact congrArg AcCtx.slots (upsert_failed h)
  | revoke id =>
    simp only [tableCall, acRevoke] at h ⊢
    split at h
    next => rfl
    next => simp at h
  | revokeTransient | purgeExpired | evaluate => simp [tableCall] at h
  | sync ctx set nowMs =>
    have hs := syncApply_step ctx table set nowMs
    simp only [tableCall] at h ⊢
    generalize syncApply ctx table set nowMs = out at hs h ⊢
    cases hs with
    | badEntry | unchanged | stale => rfl
    | installed =>
      dsimp only at h
      split at h <;> simp at h

theorem tableValid_init (maxFailedAttempts : UInt8) (lockoutSeconds : Int) :
    TableValid (acInit maxFailedAttempts lockoutSeconds) :=
  ⟨fun _ hi => by simp [acInit, AcSlot.zero] at hi, fun _ _ hi => by simp [acInit, AcSlot.zero] at hi⟩

theorem table_stays_valid (maxFailedAttempts : UInt8) (lockoutSeconds : Int) (ops : List TableOp)
    (hfits : ∀ op ∈ ops, op.Fits) :
    TableValid (exec tableOp (acInit maxFailedAttempts lockoutSeconds) ops) ∧
    ∀ before op after, ops = before ++ op :: after →
      (tableCall (exec tableOp (acInit maxFailedAttempts lockoutSeconds) before) op).2 = false →
      (tableCall (exec tableOp (acInit maxFailedAttempts lockoutSeconds) before) op).1.slots =
        (exec tableOp (acInit maxFailedAttempts lockoutSeconds) before).slots :=
  ⟨(tableValid_init _ _).run (fun _ _ h => h) hfits, fun _ _ _ _ h => tableCall_failed h⟩

def threeOps : List TableOp :=
  [.upsert (ascii "0a1b2c3d") (zeros _) 0 100, .upsertTransient (ascii "dev00001") (zeros _) 0 5000,
    .revoke (ascii "dev00002")]

theorem table_stays_valid_three : TableValid (exec tableOp (acInit 5 300) threeOps) := by
  refine (table_stays_valid 5 300 threeOps fun op hop => ?_).1
  simp only [threeOps, List.mem_cons, List.not_mem_nil, or_false] at hop
  rcases hop with rfl | rfl | rfl
  · exact ⟨by decide, by decide, by decide⟩
  · exact ⟨by decide, by decide, by decide⟩
  · exact (by decide : (cstr (ascii "dev00002")).length ≤ acIdLen - 1)

end GateAccess
