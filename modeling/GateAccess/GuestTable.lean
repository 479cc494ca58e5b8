import GateAccess.SyncLogic

namespace GateAccess

/-- The code a slot holds for a guest: what the backend put there and the chip may keep. -/
def AcSlot.guest (s : AcSlot) : Option SyncEntry :=
  if s.occupied && !s.transient then some ⟨s.id, s.hash, s.validFrom, s.validUntil⟩ else none

/-- The string `find_by_id` compares. -/
def AcSlot.key (s : AcSlot) : List UInt8 := cstr s.id.toList

def SyncEntry.key (e : SyncEntry) : List UInt8 := cstr e.id.toList

theorem guest_eq_some {s : AcSlot} {g : SyncEntry} :
    s.guest = some g ↔ s.occupied = true ∧ s.transient = false ∧
      s.id = g.id ∧ s.hash = g.hash ∧ s.validFrom = g.validFrom ∧ s.validUntil = g.validUntil := by
  obtain ⟨gi, gh, gf, gu⟩ := g
  cases s with
  | mk occ tr i h f u => cases occ <;> cases tr <;> simp [AcSlot.guest]

theorem guest_key {s : AcSlot} {g : SyncEntry} (h : s.guest = some g) : s.key = g.key := by
  rw [AcSlot.key, SyncEntry.key, (guest_eq_some.mp h).2.2.1]

theorem findById_some {ctx : AcCtx} {id : List UInt8} {i : Fin acMaxSlots}
    (h : findById ctx id = some i) :
    (ctx.slots i).occupied = true ∧ (ctx.slots i).key = (cstr id).take acIdLen := by
  have hp := List.find?_some h
  simp only [Bool.and_eq_true, strncmpEq_iff] at hp
  refine ⟨hp.1, ?_⟩
  rw [← hp.2, AcSlot.key, List.take_of_length_le]
  exact (List.takeWhile_prefix _).length_le.trans (by simp)

theorem findById_none {ctx : AcCtx} {id : List UInt8} (h : findById ctx id = none)
    (i : Fin acMaxSlots) (hi : (ctx.slots i).occupied = true) :
    (ctx.slots i).key ≠ (cstr id).take acIdLen := by
  have hp := List.find?_eq_none.mp h i (List.mem_finRange i)
  intro hk
  apply hp
  simp only [hi, Bool.true_and, strncmpEq_iff, ← hk]
  rw [AcSlot.key, List.take_of_length_le]
  exact (List.takeWhile_prefix _).length_le.trans (by simp)

theorem firstFree_some {ctx : AcCtx} {i : Fin acMaxSlots} (h : firstFree ctx = some i) :
    (ctx.slots i).occupied = false := by
  simpa using List.find?_some h

theorem firstFree_none {ctx : AcCtx} (h : firstFree ctx = none) (i : Fin acMaxSlots) :
    (ctx.slots i).occupied = true := by
  simpa using List.find?_eq_none.mp h i (List.mem_finRange i)

inductive UpsertStep (ctx : AcCtx) (id : List UInt8) (hash : Bytes acHashLen)
    (validFrom validUntil : Int) (transient : Bool) : AcCtx × Option (Fin acMaxSlots) → Prop
  | refused : (cstr id = [] ∨ validUntil ≤ validFrom ∨
        ∀ i, (ctx.slots i).occupied = true ∧ (ctx.slots i).key ≠ (cstr id).take acIdLen) →
      UpsertStep ctx id hash validFrom validUntil transient (ctx, none)
  | replaced (i) : validFrom < validUntil → (ctx.slots i).occupied = true →
      (ctx.slots i).key = (cstr id).take acIdLen →
      UpsertStep ctx id hash validFrom validUntil transient
        (ctx.setSlot i ⟨true, transient, idField id, hash, validFrom, validUntil⟩, some i)
  | inserted (i) : validFrom < validUntil → (ctx.slots i).occupied = false →
      (∀ j, (ctx.slots j).occupied = true → (ctx.slots j).key ≠ (cstr id).take acIdLen) →
      UpsertStep ctx id hash validFrom validUntil transient
        (ctx.setSlot i ⟨true, transient, idField id, hash, validFrom, validUntil⟩, some i)

theorem headD_eq_zero {s : List UInt8} : s.headD 0 = 0 ↔ cstr s = [] := by
  cases s with
  | nil => simp [cstr]
  | cons c s => by_cases hc : c = 0 <;> simp [cstr_cons, hc]

theorem upsert_step (ctx : AcCtx) (id : List UInt8) (hash : Bytes acHashLen)
    (validFrom validUntil : Int) (transient : Bool) :
    UpsertStep ctx id hash validFrom validUntil transient
      (upsert ctx id hash validFrom validUntil transient) := by
  unfold upsert
  by_cases he : id.headD 0 = 0
  · rw [if_pos he]
    exact .refused (Or.inl (headD_eq_zero.mp he))
  · rw [if_neg he]
    by_cases hw : validUntil ≤ validFrom
    · rw [if_pos hw]
      exact .refused (Or.inr (Or.inl hw))
    · rw [if_neg hw]
      cases hf : findById ctx id with
      | some i =>
        obtain ⟨hocc, hkey⟩ := findById_some hf
        exact .replaced i (by omega) hocc hkey
      | none =>
        cases hfree : firstFree ctx with
        | some i => exact .inserted i (by omega) (firstFree_some hfree) (findById_none hf)
        | none =>
          exact .refused (Or.inr (Or.inr fun i =>
            ⟨firstFree_none hfree i, findById_none hf i (firstFree_none hfree i)⟩))

/-- The table as sets see it: no two slots hold guests under one id. -/
def GuestsUnique (ctx : AcCtx) : Prop :=
  ∀ i j g g', (ctx.slots i).guest = some g → (ctx.slots j).guest = some g' → g.key = g'.key → i = j

def TransientsOwn (ctx : AcCtx) : Prop :=
  ∀ i, (ctx.slots i).occupied = true → (ctx.slots i).transient = true →
    idIsBackend (ctx.slots i).id.toList = false

def Backend (e : SyncEntry) : Prop := idIsBackend e.id.toList = true

theorem Backend.key_length {e : SyncEntry} (h : Backend e) : e.key.length = 8 := by
  simp only [Backend, idIsBackend, Bool.and_eq_true, decide_eq_true_eq] at h
  exact h.1

theorem Backend.take_key {e : SyncEntry} (h : Backend e) :
    (cstr e.id.toList).take acIdLen = e.key :=
  List.take_of_length_le (by rw [← SyncEntry.key, h.key_length]; decide)

theorem cstr_split (s : List UInt8) :
    (∃ rest, s = cstr s ++ 0 :: rest) ∨ s = cstr s := by
  induction s with
  | nil => exact Or.inr rfl
  | cons c s ih =>
    by_cases hc : c = 0
    · exact Or.inl ⟨s, by simp [cstr_cons, hc]⟩
    · rcases ih with ⟨rest, hr⟩ | hr
      · exact Or.inl ⟨rest, by rw [cstr_cons, if_neg hc, List.cons_append, ← hr]⟩
      · exact Or.inr (by rw [cstr_cons, if_neg hc, ← hr])

/-- The id field an entry is stored under is the entry's own, to the last byte. -/
theorem Backend.idField {e : SyncEntry} (h : Backend e) : idField e.id.toList = e.id := by
  apply List.Vector.toList_injective
  have hlen : e.id.toList.length = 9 := by simp
  have hk : (cstr e.id.toList).length = 8 := h.key_length
  have htake : (cstr e.id.toList).take 8 = cstr e.id.toList := List.take_of_length_le hk.le
  change ((cstr e.id.toList).take 8 ++ List.replicate (8 - (cstr e.id.toList).length) 0) ++ [0] = _
  rw [htake, hk]
  rcases cstr_split e.id.toList with ⟨rest, hr⟩ | hr
  · have hrest : rest = [] := by
      have := congrArg List.length hr
      rw [List.length_append, hk, hlen, List.length_cons] at this
      exact List.length_eq_zero_iff.mp (by omega)
    rw [hrest] at hr
    simpa using hr.symm
  · rw [hr, hk] at hlen
    omega

theorem cstr_idField (id : List UInt8) : cstr (idField id).toList = (cstr id).take (acIdLen - 1) := by
  have hpad : (idField id).toList = (cstr id).take (acIdLen - 1) ++
      List.replicate (acIdLen - 1 - (cstr id).length + 1) 0 := by
    rw [List.replicate_succ', ← List.append_assoc]
    rfl
  rw [hpad]
  exact cstr_append_zeros fun h => zero_not_mem_cstr id (List.mem_of_mem_take h)

theorem idField_own {id : List UInt8} {c : UInt8} (hc : c ∈ (cstr id).take (acIdLen - 1))
    (hx : isHex c = false) : idIsBackend (idField id).toList = false := by
  have hall : (cstr (idField id).toList).all isHex = false := by
    rw [cstr_idField, List.all_eq_false]
    exact ⟨c, hc, by simp [hx]⟩
  rw [idIsBackend, hall, Bool.and_false]

theorem setSlot_guest {ctx : AcCtx} {i j : Fin acMaxSlots} {s : AcSlot} {g : SyncEntry}
    (h : ((ctx.setSlot j s).slots i).guest = some g) :
    (i ≠ j ∧ (ctx.slots i).guest = some g) ∨ (i = j ∧ s.guest = some g) := by
  by_cases hij : i = j
  · subst hij
    rw [setSlot_same] at h
    exact Or.inr ⟨rfl, h⟩
  · rw [setSlot_other ctx s hij] at h
    exact Or.inl ⟨hij, h⟩

theorem setSlot_zero_guest {ctx : AcCtx} {i j : Fin acMaxSlots} {g : SyncEntry}
    (h : ((ctx.setSlot j .zero).slots i).guest = some g) : (ctx.slots i).guest = some g := by
  rcases setSlot_guest h with ⟨_, hg⟩ | ⟨_, hz⟩
  · exact hg
  · simp [AcSlot.zero, AcSlot.guest] at hz

/-- The slot a code under this id would go to. -/
def slotFor (ctx : AcCtx) (id : List UInt8) : Option (Fin acMaxSlots) :=
  (findById ctx id).or (firstFree ctx)

theorem upsert_slotFor (ctx : AcCtx) (id : List UInt8) (hash : Bytes acHashLen)
    (validFrom validUntil : Int) (transient : Bool) :
    upsert ctx id hash validFrom validUntil transient = (ctx, none) ∨
    ∃ i, slotFor ctx id = some i ∧ validFrom < validUntil ∧
      upsert ctx id hash validFrom validUntil transient =
        (ctx.setSlot i ⟨true, transient, idField id, hash, validFrom, validUntil⟩, some i) := by
  unfold upsert
  split
  next => exact Or.inl rfl
  next =>
    split
    next => exact Or.inl rfl
    next hw =>
      split
      next => exact Or.inl rfl
      next i hi => exact Or.inr ⟨i, hi, by omega, rfl⟩

/-- A guest after an upsert is the one written, or was there. -/
theorem upsert_guest {ctx : AcCtx} {id : List UInt8} {hash : Bytes acHashLen}
    {validFrom validUntil : Int} {transient : Bool} {i : Fin acMaxSlots} {g : SyncEntry}
    (h : ((upsert ctx id hash validFrom validUntil transient).1.slots i).guest = some g) :
    ((upsert ctx id hash validFrom validUntil transient).2 ≠ some i ∧
      (ctx.slots i).guest = some g) ∨
    ((upsert ctx id hash validFrom validUntil transient).2 = some i ∧ transient = false ∧
      g = ⟨idField id, hash, validFrom, validUntil⟩) := by
  rcases upsert_slotFor ctx id hash validFrom validUntil transient with hr | ⟨j, _, _, hw⟩
  · rw [hr] at h ⊢
    exact Or.inl ⟨by simp, h⟩
  · rw [hw] at h ⊢
    rcases setSlot_guest h with ⟨hij, hg⟩ | ⟨rfl, hg⟩
    · exact Or.inl ⟨by simpa using Ne.symm hij, hg⟩
    · obtain ⟨_, ht, hid, hhash, hf, hu⟩ := guest_eq_some.mp hg
      refine Or.inr ⟨rfl, ht, ?_⟩
      obtain ⟨gi, gh, gf, gu⟩ := g
      exact congr (congr (congrArg₂ SyncEntry.mk hid.symm hhash.symm) hf.symm) hu.symm

theorem acRevoke_guest {ctx : AcCtx} {id : List UInt8} {i : Fin acMaxSlots} {g : SyncEntry}
    (h : ((acRevoke ctx id).1.slots i).guest = some g) : (ctx.slots i).guest = some g := by
  unfold acRevoke at h
  split at h
  next => exact h
  next => exact setSlot_zero_guest h

@[simp] theorem acRevokeTransient_guest (ctx : AcCtx) (i : Fin acMaxSlots) :
    ((acRevokeTransient ctx).slots i).guest = (ctx.slots i).guest := by
  simp only [acRevokeTransient]
  split
  next h => simp_all [AcSlot.guest, AcSlot.zero]
  next => rfl

end GateAccess
