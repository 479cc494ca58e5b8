import GateAccess.Device
import GateAccess.TableOps
import Mathlib.Data.Fintype.Card

namespace GateAccess

/-- The table has a free slot, or a code under this id already. -/
def HasRoom (table : AcCtx) (id : List UInt8) : Prop :=
  (∃ i, (table.slots i).occupied = false) ∨ ∃ i, Carries (table.slots i) id

/-- The code gets a slot on every table that has room for it. -/
def AlwaysTaken (e : SyncEntry) : Prop :=
  ∀ table, HasRoom table e.id.toList →
    (acUpsert table e.id.toList e.hash e.validFrom e.validUntil).2.isSome = true

def transientSlots (table : AcCtx) : Finset (Fin acMaxSlots) :=
  Finset.univ.filter fun i => (table.slots i).occupied = true ∧ (table.slots i).transient = true

def slotKeys (table : AcCtx) (slots : Finset (Fin acMaxSlots)) : Finset (List UInt8) :=
  slots.image fun i => (table.slots i).key

/-- The distinct ids of the set find a place each beside the dev codes, which stay. -/
def IdsFit (table : AcCtx) (set : SyncSet) : Prop :=
  ((set.entries.map SyncEntry.key).toFinset \ slotKeys table (transientSlots table)).card +
    (transientSlots table).card ≤ acMaxSlots

/-- What the parsers accept the table takes: a newer set is never refused, it overflows only when its
ids do not fit, and each of its codes gets a slot where there is one. -/
structure SetAgrees (set : SyncSet) : Prop where
  newer : ∀ ctx table nowMs, ctx.generation < set.generation →
    (syncApply ctx table set nowMs).2.2 ≠ .badEntry ∧
    ((syncApply ctx table set nowMs).2.2 = .overflowed → ¬IdsFit table set)
  taken : ∀ e ∈ set.entries, AlwaysTaken e

theorem Backend.named {e : SyncEntry} (h : Backend e) : cstr e.id.toList ≠ [] := by
  intro hnil
  have hlen := h.key_length
  rw [SyncEntry.key, hnil] at hlen
  simp at hlen

theorem acUpsert_empty_window {table : AcCtx} {id : List UInt8} {hash : Bytes acHashLen}
    {validFrom validUntil : Int} (h : validUntil ≤ validFrom) :
    (acUpsert table id hash validFrom validUntil).2 = none := by
  unfold acUpsert upsert
  split_ifs
  next => rfl
  next => rfl

theorem alwaysTaken_iff {e : SyncEntry} (h : Backend e) :
    AlwaysTaken e ↔ e.validFrom < e.validUntil := by
  constructor
  · intro htaken
    by_contra hw
    have hsome := htaken (acInit 0 0) (Or.inl ⟨0, rfl⟩)
    rw [acUpsert_empty_window (not_lt.mp hw)] at hsome
    simp at hsome
  · intro hw table hroom
    have hs := upsert_step table e.id.toList e.hash e.validFrom e.validUntil false
    unfold acUpsert
    generalize upsert table e.id.toList e.hash e.validFrom e.validUntil false = out at hs ⊢
    cases hs with
    | refused hwhy =>
      rcases hwhy with hnil | hempty | hfull
      · exact absurd hnil h.named
      · exact absurd hempty (by omega)
      · rcases hroom with ⟨i, hi⟩ | ⟨i, hi⟩
        · rw [(hfull i).1] at hi
          simp at hi
        · exact absurd hi.2 (hfull i).2
    | replaced => rfl
    | inserted => rfl

/-- A table partway through the loading of a set: the slots `kept` hold what they held, every other
code is one of the ids seen, each once. -/
structure Filling (kept : Finset (Fin acMaxSlots)) (held seen : Finset (List UInt8))
    (table : AcCtx) : Prop where
  keeps : ∀ i ∈ kept, (table.slots i).occupied = true
  keys : slotKeys table kept = held
  added : ∀ i ∉ kept, (table.slots i).occupied = true → (table.slots i).key ∈ seen \ held
  once : ∀ i ∉ kept, ∀ j ∉ kept, (table.slots i).occupied = true → (table.slots j).occupied = true →
    (table.slots i).key = (table.slots j).key → i = j

variable {kept : Finset (Fin acMaxSlots)} {held seen : Finset (List UInt8)}

theorem Filling.held_mem {table : AcCtx} (h : Filling kept held seen table) {k : List UInt8}
    (hk : k ∈ held) : ∃ i ∈ kept, (table.slots i).occupied = true ∧ (table.slots i).key = k := by
  rw [← h.keys] at hk
  obtain ⟨i, hi, rfl⟩ := Finset.mem_image.mp hk
  exact ⟨i, hi, h.keeps i hi, rfl⟩

theorem Filling.of_keys {table table' : AcCtx} (h : Filling kept held seen table)
    (hocc : ∀ i, (table'.slots i).occupied = (table.slots i).occupied)
    (hkey : ∀ i, (table'.slots i).key = (table.slots i).key) : Filling kept held seen table' := by
  constructor
  · intro i hi
    rw [hocc]
    exact h.keeps i hi
  · rw [← h.keys]
    exact Finset.image_congr fun i _ => hkey i
  · intro i hi ho
    rw [hkey]
    exact h.added i hi (by rwa [hocc] at ho)
  · intro i hi j hj hoi hoj hk
    rw [hkey, hkey] at hk
    exact h.once i hi j hj (by rwa [hocc] at hoi) (by rwa [hocc] at hoj) hk

theorem Filling.seen_insert {table : AcCtx} (h : Filling kept held seen table) (k : List UInt8) :
    Filling kept held (insert k seen) table :=
  ⟨h.keeps, h.keys, fun i hi ho => Finset.sdiff_subset_sdiff (Finset.subset_insert k seen)
    (Finset.Subset.refl held) (h.added i hi ho), h.once⟩

theorem Filling.insert {table : AcCtx} (h : Filling kept held seen table) {i : Fin acMaxSlots}
    {s : AcSlot} (hfree : (table.slots i).occupied = false)
    (hnew : ∀ j, (table.slots j).occupied = true → (table.slots j).key ≠ s.key) :
    Filling kept held (insert s.key seen) (table.setSlot i s) := by
  have hi : i ∉ kept := fun hi => by
    rw [h.keeps i hi] at hfree
    simp at hfree
  have hnot : s.key ∉ held := fun hk => by
    obtain ⟨j, _, ho, hkey⟩ := h.held_mem hk
    exact hnew j ho hkey
  have hsame : ∀ j ∈ kept, (table.setSlot i s).slots j = table.slots j := fun j hj =>
    setSlot_other table s fun hji => hi (hji ▸ hj)
  constructor
  · intro j hj
    rw [hsame j hj]
    exact h.keeps j hj
  · rw [← h.keys]
    exact Finset.image_congr fun j hj => congrArg AcSlot.key (hsame j hj)
  · intro j hj ho
    by_cases hji : j = i
    · subst hji
      rw [setSlot_same]
      exact Finset.mem_sdiff.mpr ⟨Finset.mem_insert_self _ _, hnot⟩
    · rw [setSlot_other table s hji] at ho ⊢
      exact (h.seen_insert s.key).added j hj ho
  · intro j hj k hk hoj hok hkey
    exact setSlot_unique (fun l _ ho => hnew l ho) (h.once j hj k hk) hoj hok hkey

/-- A full table that lacks an id: with it the ids seen are too many. -/
theorem Filling.full {table : AcCtx} (h : Filling kept held seen table) {k : List UInt8}
    (hfull : ∀ i, (table.slots i).occupied = true ∧ (table.slots i).key ≠ k) :
    acMaxSlots < ((Insert.insert k seen) \ held).card + kept.card := by
  have hnot : k ∉ held := fun hk => by
    obtain ⟨i, _, _, hkey⟩ := h.held_mem hk
    exact (hfull i).2 hkey
  have hinj : Set.InjOn (fun i => (table.slots i).key) (keptᶜ : Finset (Fin acMaxSlots)) := by
    intro i hi j hj hkey
    rw [Finset.mem_coe, Finset.mem_compl] at hi hj
    exact h.once i hi j hj (hfull i).1 (hfull j).1 hkey
  have hcard := Finset.card_image_of_injOn hinj
  have hk : k ∉ slotKeys table keptᶜ := fun hk => by
    obtain ⟨i, _, hkey⟩ := Finset.mem_image.mp hk
    exact (hfull i).2 hkey
  have hsub : Insert.insert k (slotKeys table keptᶜ) ⊆ Insert.insert k seen \ held := by
    intro x hx
    rcases Finset.mem_insert.mp hx with rfl | hx
    · exact Finset.mem_sdiff.mpr ⟨Finset.mem_insert_self _ _, hnot⟩
    · obtain ⟨i, hi, rfl⟩ := Finset.mem_image.mp hx
      exact (h.seen_insert k).added i (Finset.mem_compl.mp hi) (hfull i).1
  have hle := Finset.card_le_card hsub
  rw [Finset.card_insert_of_notMem hk] at hle
  have hkept := Finset.card_compl_add_card kept
  rw [Fintype.card_fin] at hkept
  change (slotKeys table keptᶜ).card = _ at hcard
  omega

/-- An insertion loop that leaves a code out has met more ids than the table holds. -/
theorem Filling.overflow {table : AcCtx} (h : Filling kept held seen table) {es : List SyncEntry}
    (hb : ∀ e ∈ es, Backend e) (hw : ∀ e ∈ es, e.validFrom < e.validUntil)
    (hover : (installEntries table es).2 = true) :
    acMaxSlots < ((seen ∪ (es.map SyncEntry.key).toFinset) \ held).card + kept.card := by
  induction es generalizing table seen with
  | nil => simp [installEntries] at hover
  | cons e es ih =>
    have hbe := hb e List.mem_cons_self
    have hbs := fun e' he' => hb e' (List.mem_cons_of_mem e he')
    have hws := fun e' he' => hw e' (List.mem_cons_of_mem e he')
    have hseen : seen ∪ ((e :: es).map SyncEntry.key).toFinset =
        Insert.insert e.key seen ∪ (es.map SyncEntry.key).toFinset := by
      rw [List.map_cons, List.toFinset_cons, Finset.union_insert, Finset.insert_union]
    rw [hseen]
    have hs := upsert_step table e.id.toList e.hash e.validFrom e.validUntil false
    have hfold : installEntries table (e :: es) =
        ((installEntries (upsert table e.id.toList e.hash e.validFrom e.validUntil false).1 es).1,
          (upsert table e.id.toList e.hash e.validFrom e.validUntil false).2.isNone ||
          (installEntries (upsert table e.id.toList e.hash e.validFrom e.validUntil false).1 es).2) :=
      rfl
    rw [hfold] at hover
    generalize upsert table e.id.toList e.hash e.validFrom e.validUntil false = out at hs hover
    have hkey : AcSlot.key ⟨true, false, idField e.id.toList, e.hash, e.validFrom, e.validUntil⟩ =
        e.key := by rw [hbe.idField]; rfl
    cases hs with
    | refused hwhy =>
      rcases hwhy with hnil | hempty | hfull
      · exact absurd hnil hbe.named
      · exact absurd hempty (not_le.mpr (hw e List.mem_cons_self))
      · rw [hbe.take_key] at hfull
        have hlt := h.full hfull
        have hsub : Insert.insert e.key seen ⊆
            Insert.insert e.key seen ∪ (es.map SyncEntry.key).toFinset := Finset.subset_union_left
        have hmono := Finset.card_le_card
          (Finset.sdiff_subset_sdiff hsub (Finset.Subset.refl held))
        omega
    | replaced i _ hocc hold =>
      rw [hbe.take_key] at hold
      refine ih ((h.of_keys (fun j => ?_) fun j => ?_).seen_insert e.key) hbs hws (by simpa using hover)
      · by_cases hji : j = i
        · subst hji
          rw [setSlot_same, hocc]
        · rw [setSlot_other table _ hji]
      · by_cases hji : j = i
        · subst hji
          rw [setSlot_same, hkey, hold]
        · rw [setSlot_other table _ hji]
    | inserted i _ hfree hnew =>
      rw [hbe.take_key] at hnew
      have hfill := h.insert (s := ⟨true, false, idField e.id.toList, e.hash, e.validFrom,
        e.validUntil⟩) hfree (fun j ho => by rw [hkey]; exact hnew j ho)
      rw [hkey] at hfill
      exact ih hfill hbs hws (by simpa using hover)

/-- The dev codes are what is left of a table when its guests are wiped. -/
theorem wipeGuests_filling (table : AcCtx) :
    Filling (transientSlots table) (slotKeys table (transientSlots table)) ∅ (wipeGuests table) := by
  have hsame : ∀ i ∈ transientSlots table, (wipeGuests table).slots i = table.slots i := fun i hi =>
    wipeGuest_transient (Finset.mem_filter.mp hi).2.2
  have hnone : ∀ i ∉ transientSlots table, ((wipeGuests table).slots i).occupied = true → False := by
    intro i hi ho
    have hkept : (wipeGuests table).slots i = table.slots i := wipeGuest_occupied ho
    rw [hkept] at ho
    refine hi (Finset.mem_filter.mpr ⟨Finset.mem_univ i, ho, ?_⟩)
    by_contra hguest
    have htr : (table.slots i).transient = false := by simpa using hguest
    have hfreed : ((wipeGuests table).slots i).occupied = false := by
      simp [wipeGuests, wipeGuest, ho, htr]
    rw [hkept, ho] at hfreed
    simp at hfreed
  constructor
  · intro i hi
    rw [hsame i hi]
    exact (Finset.mem_filter.mp hi).2.1
  · exact Finset.image_congr fun i hi => congrArg AcSlot.key (hsame i hi)
  · exact fun i hi ho => (hnone i hi ho).elim
  · exact fun i hi _ _ ho => (hnone i hi ho).elim

theorem setAgrees_iff {set : SyncSet} (hfew : set.entries.length ≤ syncMaxEntries)
    (hgood : ∀ e ∈ set.entries, entryRefused e = false) :
    SetAgrees set ↔ ∀ e ∈ set.entries, e.validFrom ≠ e.validUntil := by
  have hb : ∀ e ∈ set.entries, Backend e := fun e he => .of_accepted (hgood e he)
  have hle : ∀ e ∈ set.entries, e.validFrom ≤ e.validUntil := by
    intro e he
    have hr := hgood e he
    simp only [entryRefused, Bool.or_eq_false_iff, decide_eq_false_iff_not, not_lt] at hr
    exact hr.2
  constructor
  · intro h e he
    exact ((alwaysTaken_iff (hb e he)).mp (h.taken e he)).ne
  · intro h
    have hw : ∀ e ∈ set.entries, e.validFrom < e.validUntil := fun e he =>
      lt_of_le_of_ne (hle e he) (h e he)
    refine ⟨fun ctx table nowMs hgen => ?_, fun e he => (alwaysTaken_iff (hb e he)).mpr (hw e he)⟩
    have hs := syncApply_step ctx table set nowMs
    generalize syncApply ctx table set nowMs = out at hs ⊢
    cases hs with
    | badEntry hbad =>
      rcases hbad with hlen | ⟨e, he, hr⟩
      · exact absurd hlen (by omega)
      · rw [hgood e he] at hr
        simp at hr
    | unchanged hsame => exact absurd hsame (by omega)
    | stale hold => exact absurd hold (by omega)
    | installed =>
      dsimp only
      cases hover : (installEntries (wipeGuests table) set.entries).2 with
      | false => exact ⟨by simp, by simp⟩
      | true =>
        refine ⟨by simp, fun _ hfit => ?_⟩
        have hlt := (wipeGuests_filling table).overflow hb hw hover
        rw [Finset.empty_union] at hlt
        exact absurd hfit (not_le.mpr hlt)

/-- The parsers and the table agree exactly on the codes whose window is not empty. -/
theorem validators_agree_iff (mac : HexMac) :
    (∀ body gateId set, syncParse body gateId mac = (.ok, set) →
      (SetAgrees set ↔ ∀ e ∈ set.entries, e.validFrom ≠ e.validUntil)) ∧
    ∀ line last m, tgParse line last mac = (.ok, m) → m.op = .add →
      (AlwaysTaken m.entry ↔ m.validFrom ≠ m.validUntil) := by
  constructor
  · intro body gateId set hparse
    obtain ⟨_, _, _, hregion⟩ := syncParse_ok hparse
    refine setAgrees_iff hregion.few fun e he => ?_
    obtain ⟨_, _, hline⟩ := hregion.entries e he
    exact hline.backend
  · intro line last m hparse hadd
    obtain ⟨hline, _⟩ := tgParse_ok hparse
    rw [alwaysTaken_iff hline.backend]
    obtain ⟨_, _, _, _, _, _, _, _, _, hsay⟩ := hline
    obtain ⟨_, _, _, hle⟩ := hsay.code hadd
    exact ⟨ne_of_lt, lt_of_le_of_ne hle⟩

/-- The body of a set of one code, with its window as written. -/
def windowBody (window : String) : List UInt8 :=
  plainBody ("gen 1\ncode 0a1b2c3d " ++ String.ofList (List.replicate 64 '0') ++ window ++ "\n")

def windowSet (validFrom validUntil : Int) : SyncSet :=
  ⟨1, [⟨fill _ (ascii "0a1b2c3d"), zeros _, validFrom, validUntil⟩]⟩

theorem validators_agree_hundred : SetAgrees (windowSet 0 100) ∧ AlwaysTaken pushedMsg.entry := by
  constructor
  · exact ((validators_agree_iff plainCfg.sync.mac).1 (windowBody " 0 100") (ascii "gate") _
      (by decide +kernel)).mpr (by decide)
  · exact ((validators_agree_iff plainCfg.sync.mac).2 (ascii "v1|1|add|0a1b2c3d|" ++
      List.replicate 64 48 ++ ascii "|0|4000000000|" ++ List.replicate 64 48) 0 pushedMsg
      (by decide +kernel) rfl).mpr (by decide)

/-- A signed code valid for one second only is dropped by an empty table, as if it were full. -/
theorem empty_window_overflows :
    syncParse (windowBody " 100 100") (ascii "gate") plainCfg.sync.mac = (.ok, windowSet 100 100) ∧
    (syncApply (syncInit 0 0) (acInit 5 300) (windowSet 100 100) 0).2.2 = .overflowed ∧
    ¬SetAgrees (windowSet 100 100) := by
  refine ⟨by decide +kernel, by decide +kernel, fun h => ?_⟩
  have hsome := h.taken _ List.mem_cons_self (acInit 5 300) (Or.inl ⟨0, rfl⟩)
  rw [acUpsert_empty_window le_rfl] at hsome
  simp at hsome

end GateAccess
