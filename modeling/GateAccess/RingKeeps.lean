import GateAccess.PersistRing
import Mathlib.Data.Finset.Lattice.Fold
import Mathlib.Data.Fintype.Basic
import Mathlib.Order.Lattice.Nat

namespace GateAccess

/-- The record a scan settles on. -/
def latest (image : PrImage) : Option PrFound := firstMax PrFound.rank (prRecords image)

theorem prFindLatest_latest (image : PrImage) : prFindLatest image =
    ((latest image).map PrFound.state,
      ⟨(latest image).map PrFound.slot, ((latest image).map PrFound.seq).getD 0⟩) := by
  rw [prFindLatest, prFindLatest_eq, latest]

theorem prRecords_torn {image : PrImage} {i : Fin prSlots} {page : Bytes prSlotSize}
    (h : prDecode page = none) :
    prRecords (Function.update image i page) = (prRecords image).filter (fun f => f.slot ≠ i) := by
  unfold prRecords
  rw [List.filter_filterMap]
  congr 1
  funext j
  by_cases hj : j = i
  · subst hj
    rw [Function.update_self, h]
    cases prDecode (image j) with
    | none => rfl
    | some r => simp [Option.filter]
  · rw [Function.update_of_ne hj]
    cases prDecode (image j) with
    | none => rfl
    | some r => simp [Option.filter, hj]

/-- Spoiling a page other than the newest record's changes nothing that is found. -/
theorem latest_torn {image : PrImage} {i : Fin prSlots} {page : Bytes prSlotSize}
    (h : prDecode page = none) (hi : ∀ b, latest image = some b → b.slot ≠ i) :
    latest (Function.update image i page) = latest image := by
  unfold latest
  rw [prRecords_torn h]
  cases hbest : firstMax PrFound.rank (prRecords image) with
  | none =>
    rw [firstMax_none.mp hbest]
    rfl
  | some b => exact firstMax_filter hbest (by simpa using hi b hbest)

/-- A record with a higher number than every other is the one found, wherever it is put. -/
theorem latest_done {image : PrImage} (i : Fin prSlots) (s : PrState) {seq : UInt32}
    (h : ∀ f ∈ prRecords image, f.rank < seq.toNat) :
    latest (Function.update image i (prEncode s seq)) = some ⟨i, s, seq⟩ := by
  refine firstMax_of_max (mem_prRecords.mpr ?_) fun f hf hne => ?_
  · rw [Function.update_self, prDecode_prEncode]
  · rw [mem_prRecords] at hf
    by_cases hslot : f.slot = i
    · rw [hslot, Function.update_self, prDecode_prEncode] at hf
      obtain ⟨hstate, hseq⟩ := Prod.mk.inj (Option.some.inj hf)
      subst hslot hstate hseq
      exact absurd rfl hne
    · rw [Function.update_of_ne hslot] at hf
      exact h f (mem_prRecords.mpr hf)

/-- The cursor is where a scan of the chip would put it. -/
def PrStore.InStep (store : PrStore) : Prop := store.cur = (prFindLatest store.image).2

theorem prAdvance_ne {cur : PrCursor} {slot : Fin prSlots} (h : cur.slot = some slot) :
    (prAdvance cur).1 ≠ slot := by
  have hlt : slot.val < 64 := slot.isLt
  simp only [prAdvance, h, ne_eq, Fin.ext_iff]
  change ¬(slot.val + 1) % 64 = slot.val
  omega

theorem PrStore.InStep.rank_le {store : PrStore} (h : store.InStep) :
    ∀ f ∈ prRecords store.image, f.rank ≤ store.cur.seq.toNat := by
  intro f hf
  rw [h, prFindLatest_latest]
  cases hbest : latest store.image with
  | none => rw [firstMax_none.mp hbest] at hf; simp at hf
  | some b => exact firstMax_le hbest hf

theorem persistSave_done {store : PrStore} (h : store.InStep) (s : PrState)
    (hseq : store.cur.seq.toNat < 2 ^ 32 - 1) :
    prFindLatest (persistSave store s none).image = (some s, (persistSave store s none).cur) ∧
      (persistSave store s none).cur.seq.toNat = store.cur.seq.toNat + 1 := by
  have hnext : (store.cur.seq + 1).toNat = store.cur.seq.toNat + 1 := by
    rw [UInt32.toNat_add]
    exact Nat.mod_eq_of_lt (by simp; omega)
  have hlatest : latest (persistSave store s none).image =
      some ⟨(prAdvance store.cur).1, s, store.cur.seq + 1⟩ := by
    refine latest_done _ s fun f hf => ?_
    have hle := h.rank_le f hf
    change f.rank < (store.cur.seq + 1).toNat
    omega
  refine ⟨?_, hnext⟩
  rw [prFindLatest_latest, hlatest]
  rfl

def tornPage (store : PrStore) (s : PrState) (k : Nat) : Bytes prSlotSize :=
  cutWrite (store.image (prAdvance store.cur).1) (prEncode s (prAdvance store.cur).2.seq) (some k)

theorem persistSave_torn {store : PrStore} (h : store.InStep) {s : PrState} {k : Nat}
    (htorn : prDecode (tornPage store s k) = none) :
    prFindLatest (persistSave store s (some k)).image = prFindLatest store.image := by
  have hlatest : latest (persistSave store s (some k)).image = latest store.image := by
    refine latest_torn htorn fun b hb hslot => ?_
    have hcur : store.cur.slot = some b.slot := by
      rw [h, prFindLatest_latest, hb]
      rfl
    exact prAdvance_ne hcur hslot.symm
  rw [prFindLatest_latest, hlatest, ← prFindLatest_latest]

/-- A state to save, and whether the device restarts afterwards. -/
structure RingSave where
  state : PrState
  reboot : Bool
  deriving DecidableEq

def ringStep (store : PrStore) (save : Save RingSave) : PrStore :=
  let store := persistSave store save.value.state save.cut
  if save.value.reboot then persistInit store.image else store

/-- The largest sequence number of a valid record, 0 when there is none. -/
def largestSeq (image : PrImage) : Nat :=
  Finset.univ.sup fun i => ((prDecode (image i)).map fun r => r.2.toNat).getD 0

theorem prDecode_largest {image : PrImage} {f : PrFound} (hf : f ∈ prRecords image) :
    f.rank ≤ largestSeq image := by
  have hle : ((prDecode (image f.slot)).map fun r => r.2.toNat).getD 0 ≤ largestSeq image :=
    Finset.le_sup (f := fun i => ((prDecode (image i)).map fun r => r.2.toNat).getD 0)
      (Finset.mem_univ f.slot)
  rw [mem_prRecords.mp hf] at hle
  exact hle

theorem persistInit_seq (image : PrImage) : (persistInit image).cur.seq.toNat ≤ largestSeq image := by
  simp only [persistInit, prFindLatest_latest]
  cases hbest : latest image with
  | none => exact Nat.zero_le _
  | some b => exact prDecode_largest (firstMax_mem hbest)

theorem ringStep_done {store : PrStore} (h : store.InStep) (save : RingSave)
    (hseq : store.cur.seq.toNat < 2 ^ 32 - 1) :
    (ringStep store ⟨save, none⟩).InStep ∧
      (prFindLatest (ringStep store ⟨save, none⟩).image).1 = some save.state ∧
      (ringStep store ⟨save, none⟩).cur.seq.toNat = store.cur.seq.toNat + 1 := by
  obtain ⟨hfind, hnext⟩ := persistSave_done h save.state hseq
  unfold ringStep
  cases save.reboot with
  | false => exact ⟨(congrArg Prod.snd hfind).symm, congrArg Prod.fst hfind, hnext⟩
  | true =>
    refine ⟨rfl, congrArg Prod.fst hfind, ?_⟩
    change (prFindLatest _).2.seq.toNat = _
    rw [hfind, hnext]

theorem ringStep_torn {store : PrStore} (h : store.InStep) {save : RingSave} {k : Nat}
    (htorn : prDecode (tornPage store save.state k) = none) :
    (ringStep store ⟨save, some k⟩).InStep ∧
      (prFindLatest (ringStep store ⟨save, some k⟩).image).1 = (prFindLatest store.image).1 ∧
      (ringStep store ⟨save, some k⟩).cur = store.cur := by
  have hfind := persistSave_torn h htorn
  have hcur : store.cur = (prFindLatest (persistSave store save.state (some k)).image).2 := by
    rw [hfind]
    exact h
  unfold ringStep
  cases save.reboot with
  | false => exact ⟨hcur, congrArg Prod.fst hfind, rfl⟩
  | true => exact ⟨rfl, congrArg Prod.fst hfind, hcur.symm⟩

/-- Every cut of a run leaves a page that does not decode. -/
def TornInvalid (store : PrStore) (saves : List (Save RingSave)) : Prop :=
  ∀ p ∈ trace ringStep store saves, ∀ k, p.2.cut = some k →
    prDecode (tornPage p.1 p.2.value.state k) = none

theorem TornInvalid.of_append {store : PrStore} {before after : List (Save RingSave)}
    (h : TornInvalid store (before ++ after)) : TornInvalid store before :=
  fun p hp => h p (mem_trace_append hp after)

theorem ring_inStep {image : PrImage} {saves : List (Save RingSave)}
    (hseq : largestSeq image + saves.length < 2 ^ 32 - 1) (htorn : TornInvalid (persistInit image) saves) :
    (exec ringStep (persistInit image) saves).InStep ∧
      (exec ringStep (persistInit image) saves).cur.seq.toNat ≤ largestSeq image + saves.length := by
  induction saves using List.reverseRecOn with
  | nil => exact ⟨rfl, persistInit_seq image⟩
  | append_singleton saves save ih =>
    rw [List.length_append, List.length_singleton] at hseq ⊢
    obtain ⟨hin, hle⟩ := ih (by omega) htorn.of_append
    rw [exec_concat]
    rcases save with ⟨save, cut⟩
    cases cut with
    | none =>
      obtain ⟨hnext, -, hstep⟩ := ringStep_done hin save (by omega)
      exact ⟨hnext, by omega⟩
    | some k =>
      have hpage : prDecode (tornPage (exec ringStep (persistInit image) saves) save.state k) = none := by
        refine htorn ⟨_, ⟨save, some k⟩⟩ ?_ k rfl
        rw [trace_concat]
        exact List.mem_append_right _ List.mem_cons_self
      obtain ⟨hnext, -, hstep⟩ := ringStep_torn hin hpage
      exact ⟨hnext, by rw [hstep]; omega⟩

/-- A save never leaves the running device with a cursor that a restart would not rebuild. -/
theorem persistSave_inStep {store : PrStore} (h : store.InStep) (save : Save RingSave)
    (hseq : store.cur.seq.toNat < 2 ^ 32 - 1)
    (htorn : ∀ k, save.cut = some k → prDecode (tornPage store save.value.state k) = none) :
    (persistSave store save.value.state save.cut).InStep := by
  obtain ⟨save, cut⟩ := save
  cases cut with
  | none => exact (congrArg Prod.snd (persistSave_done h save.state hseq).1).symm
  | some k =>
    unfold PrStore.InStep
    rw [persistSave_torn h (htorn k rfl)]
    exact h

/-- The attempt ring never loses the last completed save, and the cursor a restart rebuilds after
any save is the one the running device holds. -/
theorem attempt_ring_keeps (image : PrImage) (saves : List (Save RingSave))
    (hseq : largestSeq image + saves.length < 2 ^ 32 - 1)
    (htorn : TornInvalid (persistInit image) saves) :
    (prFindLatest (exec ringStep (persistInit image) saves).image).1 =
        ((lastDone saves).map RingSave.state).or (prFindLatest image).1 ∧
      ∀ before save after, saves = before ++ save :: after →
        (persistSave (exec ringStep (persistInit image) before) save.value.state save.cut).InStep := by
  have hpast {before after : List (Save RingSave)} {save : Save RingSave}
      (hsaves : saves = before ++ save :: after) :
      (exec ringStep (persistInit image) before).InStep ∧
        (exec ringStep (persistInit image) before).cur.seq.toNat < 2 ^ 32 - 1 := by
    subst hsaves
    rw [List.length_append, List.length_cons] at hseq
    obtain ⟨hin, hle⟩ := ring_inStep (by omega) htorn.of_append
    exact ⟨hin, by omega⟩
  constructor
  · apply read_exec fun store : PrStore => (prFindLatest store.image).1
    all_goals
      rintro ⟨store, save, cut⟩ hp
      obtain ⟨before, after, hsaves, rfl⟩ := mem_trace hp
      obtain ⟨hin, hlt⟩ := hpast hsaves
    · rintro rfl
      exact (ringStep_done hin save hlt).2.1
    · rintro k rfl
      exact (ringStep_torn hin (htorn _ hp k rfl)).2.1
  · intro before save after hsaves
    obtain ⟨hin, hlt⟩ := hpast hsaves
    refine persistSave_inStep hin save hlt fun k hk => htorn (_, save) ?_ k hk
    rw [hsaves]
    exact trace_mem_split

theorem attempt_ring_keeps_blank :
    (prFindLatest (exec ringStep (persistInit fun _ => zeros _)
      [⟨⟨⟨3, 0, 1⟩, false⟩, none⟩, ⟨⟨⟨4, 0, 1⟩, true⟩, some 0⟩]).image).1 = some ⟨3, 0, 1⟩ :=
  (attempt_ring_keeps (fun _ => zeros _)
    [⟨⟨⟨3, 0, 1⟩, false⟩, none⟩, ⟨⟨⟨4, 0, 1⟩, true⟩, some 0⟩] (by decide +kernel) (by
      intro p hp k hk
      simp only [trace_cons, trace_nil, List.mem_cons, List.not_mem_nil, or_false] at hp
      rcases hp with rfl | rfl
      · cases hk
      · cases hk
        decide +kernel)).1

end GateAccess
