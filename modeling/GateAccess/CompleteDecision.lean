import GateAccess.AccessCore

namespace GateAccess

/-- An occupied slot with this hash. -/
def Holds (ctx : AcCtx) (hash : Bytes acHashLen) (i : Fin acMaxSlots) : Prop :=
  (ctx.slots i).occupied = true ∧ (ctx.slots i).hash = hash

def InWindow (ctx : AcCtx) (now : Int) (i : Fin acMaxSlots) : Prop :=
  (ctx.slots i).validFrom ≤ now ∧ now ≤ (ctx.slots i).validUntil

/-- The slot the scan ends with, when it ends with one. -/
def HoldsLast (ctx : AcCtx) (hash : Bytes acHashLen) (i : Fin acMaxSlots) : Prop :=
  Holds ctx hash i ∧ ∀ j, Holds ctx hash j → j ≤ i

/-- The verdict says of the hash what the table says of it. -/
structure DecisionComplete (ctx : AcCtx) (hash : Bytes acHashLen) (now : Int) : Prop where
  granted : (acEvaluate ctx hash now).2.1 = .granted ↔ ∃ i, Holds ctx hash i ∧ InWindow ctx now i
  named : (acEvaluate ctx hash now).2.1 = .granted →
    ∃ i, Holds ctx hash i ∧ InWindow ctx now i ∧ (acEvaluate ctx hash now).2.2 = some (ctx.slots i).id
  unknown : (acEvaluate ctx hash now).2.1 = .deniedUnknown ↔ ∀ i, ¬Holds ctx hash i

variable {ctx : AcCtx} {hash : Bytes acHashLen} {now : Int}

theorem HoldsLast.unique {i j : Fin acMaxSlots} (hi : HoldsLast ctx hash i)
    (hj : HoldsLast ctx hash j) : i = j :=
  le_antisymm (hj.2 i hi.1) (hi.2 j hj.1)

/-- A scan that keeps overwriting what it found ends with the last. -/
theorem fold_last {p : Fin acMaxSlots → Bool} {is : List (Fin acMaxSlots)}
    (hsorted : is.Pairwise (· < ·)) {i : Fin acMaxSlots}
    (h : is.foldl (fun found i => if p i then some i else found) none = some i) :
    ∀ j ∈ is, p j = true → j ≤ i := by
  induction is using List.reverseRecOn with
  | nil => simp
  | append_singleton is k ih =>
    obtain ⟨hbefore, -, hlt⟩ := List.pairwise_append.mp hsorted
    rw [List.foldl_append, List.foldl_cons, List.foldl_nil] at h
    intro j hj hpj
    by_cases hk : p k = true
    · rw [if_pos hk] at h
      obtain rfl := Option.some.inj h
      rcases List.mem_append.mp hj with hj | hj
      · exact (hlt j hj k (List.mem_singleton_self k)).le
      · exact (List.mem_singleton.mp hj).le
    · rw [if_neg hk] at h
      rcases List.mem_append.mp hj with hj | hj
      · exact ih hbefore h j hj hpj
      · rw [List.mem_singleton.mp hj] at hpj
        exact absurd hpj hk

theorem matchSlot_last {i : Fin acMaxSlots} (h : matchSlot ctx hash = some i) :
    HoldsLast ctx hash i := by
  refine ⟨matchSlot_some h, fun j hj => ?_⟩
  exact fold_last (List.pairwise_lt_finRange _) h j (List.mem_finRange j) (by simp [hj.1, hj.2])

theorem matchSlot_none (h : matchSlot ctx hash = none) (i : Fin acMaxSlots) :
    ¬Holds ctx hash i := by
  rintro ⟨hocc, hhash⟩
  have hno := ((matchSlot_fold _ _ none).2 h).2 i (List.mem_finRange i)
  have hequal : ctEqual (ctx.slots i).hash.toList hash.toList = true := ctEqual_toList _ _ |>.mpr hhash
  simp [hocc, hequal] at hno

/-- At any time after the epoch the tick that opens the evaluation lifts no lockout still running. -/
theorem acIsLockedOut_tick (h0 : 0 ≤ now) : acIsLockedOut (acTick ctx now) now = acIsLockedOut ctx now := by
  unfold acTick
  split
  next hlift =>
    rw [acIsLockedOut_eq_false.mpr hlift.2]
    exact acIsLockedOut_eq_false.mpr h0
  next => rfl

/-- With time trusted and no lockout, the scan decides: nothing found, or the last slot found. -/
theorem acEvaluate_scan (htrusted : ctx.clockTrusted = true)
    (hfree : acIsLockedOut (acTick ctx now) now = false) :
    ((∀ i, ¬Holds ctx hash i) ∧ (acEvaluate ctx hash now).2.1 = .deniedUnknown) ∨
    ∃ i, HoldsLast ctx hash i ∧ (acEvaluate ctx hash now).2.1 ≠ .deniedUnknown ∧
      ((acEvaluate ctx hash now).2.1 = .granted ↔ InWindow ctx now i) ∧
      (InWindow ctx now i → (acEvaluate ctx hash now).2.2 = some (ctx.slots i).id) := by
  have hle := acIsLockedOut_eq_false.mp hfree
  have hv := acEvaluate_verdict ctx hash now
  generalize acEvaluate ctx hash now = out at hv ⊢
  cases hv with
  | noClock h => rw [htrusted] at h; cases h
  | lockout _ h => omega
  | unknown _ _ hm => exact .inl ⟨matchSlot_none hm, rfl⟩
  | notYet i _ _ hm hf =>
    have hout : ¬InWindow ctx now i := fun h => absurd h.1 (by omega)
    exact .inr ⟨i, matchSlot_last hm, by simp, iff_of_false (by simp) hout, fun h => absurd h hout⟩
  | expired i _ _ hm hu =>
    have hout : ¬InWindow ctx now i := fun h => absurd h.2 (by omega)
    exact .inr ⟨i, matchSlot_last hm, by simp, iff_of_false (by simp) hout, fun h => absurd h hout⟩
  | granted i _ _ hm hf hu =>
    exact .inr ⟨i, matchSlot_last hm, by simp, iff_of_true rfl ⟨hf, hu⟩, fun _ => rfl⟩

/-- The decision is complete exactly when a valid slot is not shadowed by the last one that holds
the same hash. -/
theorem decision_complete_iff (ctx : AcCtx) (hash : Bytes acHashLen) (now : Int)
    (htrusted : ctx.clockTrusted = true) (hfree : acIsLockedOut (acTick ctx now) now = false) :
    DecisionComplete ctx hash now ↔
      ∀ i, Holds ctx hash i → InWindow ctx now i → ∀ j, HoldsLast ctx hash j → InWindow ctx now j := by
  rcases acEvaluate_scan htrusted hfree with ⟨hnone, hunknown⟩ | ⟨last, hlast, hknown, hgranted, hid⟩
  · refine iff_of_true ⟨?_, ?_, iff_of_true hunknown hnone⟩ fun i hi => absurd hi (hnone i)
    · rw [hunknown]
      exact iff_of_false (by simp) fun ⟨i, hi, _⟩ => hnone i hi
    · rw [hunknown]
      intro h
      cases h
  · constructor
    · intro hcomplete i hi hwindow j hj
      rw [hj.unique hlast]
      exact hgranted.mp (hcomplete.granted.mpr ⟨i, hi, hwindow⟩)
    · intro hshadow
      refine ⟨⟨fun h => ⟨last, hlast.1, hgranted.mp h⟩, ?_⟩, fun h => ?_, iff_of_false hknown ?_⟩
      · rintro ⟨i, hi, hwindow⟩
        exact hgranted.mpr (hshadow i hi hwindow last hlast)
      · have hwindow := hgranted.mp h
        exact ⟨last, hlast.1, hwindow, hid hwindow⟩
      · exact fun hnone => hnone last hlast.1

/-- One code under two ids: the second booking is over, the first is not. -/
def twiceIssued : AcCtx :=
  { (acUpsert (acUpsert (acInit 5 300) (ascii "0a1b2c3d") (zeros _) 0 2000).1
      (ascii "4e5f6071") (zeros _) 0 100).1 with clockTrusted := true }

theorem decision_complete_both : DecisionComplete twiceIssued (zeros _) 50 := by
  have hboth : ∀ j, (twiceIssued.slots j).occupied = true →
      (twiceIssued.slots j).validFrom ≤ 50 ∧ 50 ≤ (twiceIssued.slots j).validUntil := by decide
  have hfree : acIsLockedOut (acTick twiceIssued 50) 50 = false := by
    rw [acIsLockedOut_tick (by decide)]
    decide
  exact (decision_complete_iff twiceIssued (zeros _) 50 rfl hfree).mpr
    fun _ _ _ j hj => hboth j hj.1.1

theorem valid_code_shadowed :
    twiceIssued.clockTrusted = true ∧ acIsLockedOut twiceIssued 1000 = false ∧
      ¬DecisionComplete twiceIssued (zeros _) 1000 := by
  refine ⟨rfl, by decide, fun h => ?_⟩
  have hrefused : (acEvaluate twiceIssued (zeros _) 1000).2.1 = .deniedExpired := by decide
  have hgranted := h.granted.mpr ⟨0, by unfold Holds; decide, by unfold InWindow; decide⟩
  rw [hrefused] at hgranted
  cases hgranted

end GateAccess
