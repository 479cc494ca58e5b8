import GateAccess.GuestTable
import GateAccess.KeyedStore

namespace GateAccess

/-- The table read as a store of guest codes by id: one slot for each item, none besides. -/
structure Shows (ctx : AcCtx) (m : Store (List UInt8) SyncEntry) : Prop where
  unique : GuestsUnique ctx
  holds : ∀ k g, m k = some g ↔ ∃ i, (ctx.slots i).guest = some g ∧ g.key = k

def KeepsTransients (before after : AcCtx) : Prop :=
  ∀ i, (before.slots i).occupied = true → (before.slots i).transient = true →
    after.slots i = before.slots i

theorem KeepsTransients.refl (ctx : AcCtx) : KeepsTransients ctx ctx := fun _ _ _ => rfl

theorem KeepsTransients.trans {a b c : AcCtx} (h : KeepsTransients a b)
    (h' : KeepsTransients b c) : KeepsTransients a c := by
  intro i ho ht
  have hab := h i ho ht
  rw [h' i (by rw [hab]; exact ho) (by rw [hab]; exact ht), hab]

theorem idIsBackend_of_key {a b : List UInt8} (h : cstr a = cstr b) :
    idIsBackend a = idIsBackend b := by
  simp [idIsBackend, h]

theorem TransientsOwn.not_transient {ctx : AcCtx} (h : TransientsOwn ctx) {e : SyncEntry}
    (he : Backend e) {i : Fin acMaxSlots} (ho : (ctx.slots i).occupied = true)
    (hk : (ctx.slots i).key = e.key) : (ctx.slots i).transient = false := by
  by_contra ht
  have hf := h i ho (by simpa using ht)
  rw [idIsBackend_of_key hk, he] at hf
  simp at hf

def entrySlot (e : SyncEntry) : AcSlot := ⟨true, false, e.id, e.hash, e.validFrom, e.validUntil⟩

@[simp] theorem entrySlot_guest (e : SyncEntry) : (entrySlot e).guest = some e := rfl

/-- What `ac_upsert` does with an entry of a set: refuse it, or give it one slot that was free
or held the same id. -/
theorem acUpsert_entry {ctx : AcCtx} {e : SyncEntry} (he : Backend e) (ht : TransientsOwn ctx) :
    acUpsert ctx e.id.toList e.hash e.validFrom e.validUntil = (ctx, none) ∨
    ∃ i, acUpsert ctx e.id.toList e.hash e.validFrom e.validUntil =
        (ctx.setSlot i (entrySlot e), some i) ∧
      ((ctx.slots i).occupied = true → (ctx.slots i).transient = false ∧
        (ctx.slots i).key = e.key) ∧
      ∀ j, j ≠ i → (ctx.slots j).occupied = true → (ctx.slots j).transient = false →
        GuestsUnique ctx → (ctx.slots j).key ≠ e.key := by
  have hs := upsert_step ctx e.id.toList e.hash e.validFrom e.validUntil false
  rw [show upsert ctx e.id.toList e.hash e.validFrom e.validUntil false =
    acUpsert ctx e.id.toList e.hash e.validFrom e.validUntil from rfl] at hs
  generalize acUpsert ctx e.id.toList e.hash e.validFrom e.validUntil = out at hs ⊢
  cases hs with
  | refused => exact Or.inl rfl
  | replaced i _ hocc hk =>
    rw [he.take_key] at hk
    have hti := ht.not_transient he hocc hk
    refine Or.inr ⟨i, by rw [he.idField]; rfl, fun _ => ⟨hti, hk⟩, ?_⟩
    intro j hj ho htj hu hkj
    refine hj (hu j i ⟨_, _, _, _⟩ ⟨_, _, _, _⟩ (guest_eq_some.mpr ⟨ho, htj, rfl, rfl, rfl, rfl⟩)
      (guest_eq_some.mpr ⟨hocc, hti, rfl, rfl, rfl, rfl⟩) ?_)
    exact hkj.trans hk.symm
  | inserted i _ hfree hk =>
    refine Or.inr ⟨i, by rw [he.idField]; rfl, fun h => absurd h (by simp [hfree]), ?_⟩
    intro j _ ho _ _
    have := hk j ho
    rwa [he.take_key] at this

/-- An entry that is taken replaces what its id held and touches nothing else. -/
theorem Shows.acUpsert {ctx : AcCtx} {m : Store (List UInt8) SyncEntry} (h : Shows ctx m)
    {e : SyncEntry} (he : Backend e) (ht : TransientsOwn ctx) {i : Fin acMaxSlots}
    (hput : (acUpsert ctx e.id.toList e.hash e.validFrom e.validUntil).2 = some i) :
    Shows (acUpsert ctx e.id.toList e.hash e.validFrom e.validUntil).1
      (Store.put SyncEntry.key m e) := by
  rcases acUpsert_entry he ht with hr | ⟨j, hj, hold, hother⟩
  · rw [hr] at hput
    simp at hput
  · rw [hj]
    dsimp only
    have other : ∀ l g, l ≠ j → (ctx.slots l).guest = some g → g.key ≠ e.key := by
      intro l g hl hg
      obtain ⟨ho, htr, _⟩ := guest_eq_some.mp hg
      rw [← guest_key hg]
      exact hother l hl ho htr h.unique
    have guestAt : ∀ l g, ((ctx.setSlot j (entrySlot e)).slots l).guest = some g ↔
        (l = j ∧ g = e) ∨ (l ≠ j ∧ (ctx.slots l).guest = some g) := by
      intro l g
      by_cases hl : l = j
      · subst hl
        simp [eq_comm]
      · simp [setSlot_other ctx _ hl, hl]
    constructor
    · intro l l' g g' hg hg' hk
      rcases (guestAt l g).mp hg with ⟨rfl, rfl⟩ | ⟨hl, hgl⟩
      · rcases (guestAt l' g').mp hg' with ⟨rfl, rfl⟩ | ⟨hl', hgl'⟩
        · rfl
        · exact absurd hk.symm (other l' g' hl' hgl')
      · rcases (guestAt l' g').mp hg' with ⟨rfl, rfl⟩ | ⟨hl', hgl'⟩
        · exact absurd hk (other l g hl hgl)
        · exact h.unique l l' g g' hgl hgl' hk
    · intro k g
      rw [Store.put_apply]
      by_cases hk : e.key = k
      · rw [if_pos hk]
        constructor
        · intro hg
          have hge : e = g := Option.some.inj hg
          exact ⟨j, (guestAt j g).mpr (Or.inl ⟨rfl, hge.symm⟩), by rw [← hge]; exact hk⟩
        · rintro ⟨l, hg, hgk⟩
          rcases (guestAt l g).mp hg with ⟨_, rfl⟩ | ⟨hl, hg⟩
          · rfl
          · exact absurd (hgk.trans hk.symm) (other l g hl hg)
      · rw [if_neg hk, h.holds k g]
        constructor
        · rintro ⟨l, hg, hgk⟩
          refine ⟨l, (guestAt l g).mpr (Or.inr ⟨?_, hg⟩), hgk⟩
          rintro rfl
          obtain ⟨ho, _⟩ := guest_eq_some.mp hg
          exact hk ((hold ho).2.symm.trans ((guest_key hg).trans hgk))
        · rintro ⟨l, hg, hgk⟩
          rcases (guestAt l g).mp hg with ⟨_, rfl⟩ | ⟨_, hg⟩
          · exact absurd hgk hk
          · exact ⟨l, hg, hgk⟩

theorem acUpsert_transients {ctx : AcCtx} {e : SyncEntry} (he : Backend e)
    (ht : TransientsOwn ctx) :
    KeepsTransients ctx (acUpsert ctx e.id.toList e.hash e.validFrom e.validUntil).1 ∧
      TransientsOwn (acUpsert ctx e.id.toList e.hash e.validFrom e.validUntil).1 := by
  rcases acUpsert_entry he ht with hr | ⟨i, hi, hold, _⟩
  · rw [hr]
    exact ⟨.refl ctx, ht⟩
  · rw [hi]
    refine ⟨fun j ho htj => ?_, fun j ho htj => ?_⟩
    · refine setSlot_other ctx _ ?_
      rintro rfl
      simp [(hold ho).1] at htj
    · by_cases hj : j = i
      · subst hj
        simp [entrySlot] at htj
      · dsimp only at ho htj ⊢
        rw [setSlot_other ctx _ hj] at ho htj ⊢
        exact ht j ho htj

/-- The insertion loop loads the entries that fitted, and all of them when none was refused. -/
theorem installEntries_shows {table : AcCtx} {m : Store (List UInt8) SyncEntry}
    {es : List SyncEntry} (h : Shows table m) (ht : TransientsOwn table) (he : ∀ e ∈ es, Backend e) :
    KeepsTransients table (installEntries table es).1 ∧ TransientsOwn (installEntries table es).1 ∧
    ∃ fitted, fitted.Sublist es ∧ ((installEntries table es).2 = false → fitted = es) ∧
      Shows (installEntries table es).1 (Store.load SyncEntry.key m fitted) := by
  induction es generalizing table m with
  | nil => exact ⟨.refl table, ht, [], List.Sublist.refl _, fun _ => rfl, h⟩
  | cons e es ih =>
    have hb := he e List.mem_cons_self
    have hbs : ∀ e ∈ es, Backend e := fun e hm => he e (List.mem_cons_of_mem _ hm)
    obtain ⟨keeps, own⟩ := acUpsert_transients hb ht
    cases hput : (acUpsert table e.id.toList e.hash e.validFrom e.validUntil).2 with
    | none =>
      have hsame : (acUpsert table e.id.toList e.hash e.validFrom e.validUntil).1 = table := by
        rcases acUpsert_entry hb ht with hr | ⟨i, hi, _⟩
        · rw [hr]
        · rw [hi] at hput
          simp at hput
      obtain ⟨keeps', own', fitted, hsub, _, hshow⟩ := ih h ht hbs
      simp only [installEntries, hsame, hput]
      exact ⟨keeps', own', fitted, hsub.cons e, by simp, hshow⟩
    | some i =>
      obtain ⟨keeps', own', fitted, hsub, hall, hshow⟩ := ih (h.acUpsert hb ht hput) own hbs
      simp only [installEntries, hput, Option.isNone_some, Bool.false_or]
      exact ⟨keeps.trans keeps', own', e :: fitted, hsub.cons_cons e, fun hf => by rw [hall hf], hshow⟩

theorem wipeGuest_guest (s : AcSlot) : (wipeGuest s).guest = none := by
  by_cases h : (s.occupied && !s.transient) = true
  · simp [wipeGuest, h, AcSlot.guest]
  · simp [wipeGuest, h, AcSlot.guest]

theorem wipeGuest_transient {s : AcSlot} (h : s.transient = true) : wipeGuest s = s := by
  simp [wipeGuest, h]

theorem wipeGuest_occupied {s : AcSlot} (h : (wipeGuest s).occupied = true) : wipeGuest s = s := by
  unfold wipeGuest at h ⊢
  split
  next hc => simp [hc] at h
  next => rfl

theorem wipeGuests_shows (table : AcCtx) : Shows (wipeGuests table) .empty where
  unique := by
    intro i j g g' hg
    simp [wipeGuests, wipeGuest_guest] at hg
  holds := by
    intro k g
    simp [wipeGuests, wipeGuest_guest, Store.empty]

theorem wipeGuests_transients {table : AcCtx} (ht : TransientsOwn table) :
    KeepsTransients table (wipeGuests table) ∧ TransientsOwn (wipeGuests table) := by
  refine ⟨fun i _ htr => wipeGuest_transient htr, fun i ho htr => ?_⟩
  have hsame : (wipeGuests table).slots i = table.slots i := wipeGuest_occupied ho
  rw [hsame] at ho htr ⊢
  exact ht i ho htr

inductive SyncStep (ctx : SyncCtx) (table : AcCtx) (set : SyncSet) (nowMs : UInt32) :
    SyncCtx × AcCtx × SyncResult → Prop
  | badEntry : syncMaxEntries < set.entries.length ∨ (∃ e ∈ set.entries, entryRefused e = true) →
      SyncStep ctx table set nowMs (ctx, table, .badEntry)
  | unchanged : set.generation = ctx.generation → ctx.everSynced = true →
      SyncStep ctx table set nowMs (syncUnchanged ctx nowMs, table, .unchanged)
  | stale : set.generation < ctx.generation → SyncStep ctx table set nowMs (ctx, table, .stale)
  | installed : ctx.generation ≤ set.generation →
      (set.generation = ctx.generation → ctx.everSynced = false) →
      set.entries.length ≤ syncMaxEntries → (∀ e ∈ set.entries, entryRefused e = false) →
      SyncStep ctx table set nowMs
        (⟨set.generation, nowMs, true, syncPeriodMs + nowMs⟩,
          (installEntries (wipeGuests table) set.entries).1,
          if (installEntries (wipeGuests table) set.entries).2 then .overflowed else .applied)

theorem syncApply_step (ctx : SyncCtx) (table : AcCtx) (set : SyncSet) (nowMs : UInt32) :
    SyncStep ctx table set nowMs (syncApply ctx table set nowMs) := by
  unfold syncApply
  split_ifs with hlen hsame hold hbad
  · exact .badEntry (Or.inl hlen)
  · exact .unchanged hsame.1 hsame.2
  · exact .stale hold
  · exact .badEntry (Or.inr (List.any_eq_true.mp hbad))
  · refine .installed (by omega) (fun h => ?_) (by omega) (fun e he => ?_)
    · by_contra hs
      exact hsame ⟨h, by simpa using hs⟩
    · by_contra hr
      exact hbad (List.any_eq_true.mpr ⟨e, he, by simpa using hr⟩)

theorem Backend.of_accepted {e : SyncEntry} (h : entryRefused e = false) : Backend e := by
  simp only [entryRefused, Bool.or_eq_false_iff, Bool.not_eq_false'] at h
  exact h.1

theorem install_shows {table : AcCtx} {es : List SyncEntry} (ht : TransientsOwn table)
    (he : ∀ e ∈ es, entryRefused e = false) :
    KeepsTransients table (installEntries (wipeGuests table) es).1 ∧
    TransientsOwn (installEntries (wipeGuests table) es).1 ∧
    ∃ fitted, fitted.Sublist es ∧
      ((installEntries (wipeGuests table) es).2 = false → fitted = es) ∧
      Shows (installEntries (wipeGuests table) es).1 (Store.load SyncEntry.key .empty fitted) := by
  obtain ⟨keeps, own⟩ := wipeGuests_transients ht
  obtain ⟨keeps', own', hfit⟩ := installEntries_shows (wipeGuests_shows table) own
    fun e hm => .of_accepted (he e hm)
  exact ⟨keeps.trans keeps', own', hfit⟩

/-- What `sync_apply` leaves when it installs: the entries that fitted, all of them unless it says
otherwise. -/
theorem syncApply_shows {ctx : SyncCtx} {table : AcCtx} {set : SyncSet} {nowMs : UInt32}
    (ht : TransientsOwn table) (h : (syncApply ctx table set nowMs).2.2 = .applied ∨
      (syncApply ctx table set nowMs).2.2 = .overflowed) :
    KeepsTransients table (syncApply ctx table set nowMs).2.1 ∧
    (syncApply ctx table set nowMs).1.generation = set.generation ∧
    ∃ fitted, fitted.Sublist set.entries ∧
      ((syncApply ctx table set nowMs).2.2 = .applied → fitted = set.entries) ∧
      Shows (syncApply ctx table set nowMs).2.1 (Store.load SyncEntry.key .empty fitted) := by
  have hs := syncApply_step ctx table set nowMs
  generalize syncApply ctx table set nowMs = out at hs h ⊢
  cases hs with
  | badEntry | unchanged | stale => simp at h
  | installed _ _ _ hacc =>
    obtain ⟨keeps, _, fitted, hsub, hall, hshow⟩ := install_shows ht hacc
    refine ⟨keeps, rfl, fitted, hsub, fun ha => hall ?_, hshow⟩
    by_contra hf
    simp [hf] at ha

theorem Shows.guest_lastOf {ctx : AcCtx} {es : List SyncEntry}
    (h : Shows ctx (Store.load SyncEntry.key .empty es)) {i : Fin acMaxSlots} {g : SyncEntry}
    (hg : (ctx.slots i).guest = some g) : lastOf SyncEntry.key es g.key = some g := by
  rw [← Store.load_empty]
  exact (h.holds g.key g).mpr ⟨i, hg, rfl⟩

end GateAccess
