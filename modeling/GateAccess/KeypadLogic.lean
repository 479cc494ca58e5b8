import GateAccess.CBytes

namespace GateAccess

def kpKeys : Nat := 16
def kpDebounceMs : UInt32 := 15
def kpLongpressMs : UInt32 := 1500

inductive KpEventType
  | press
  | longPress
  deriving DecidableEq

structure KpEvent where
  type : KpEventType
  key : UInt8
  deriving DecidableEq

structure KpLogic where
  stable : UInt16
  candidate : UInt16
  candidateSinceMs : UInt32
  candidatePending : Bool
  pressStartedMs : UInt32
  heldIndex : Int
  longFired : Bool
  ghostBlocked : Bool
  deriving DecidableEq

def kpMap : List UInt8 := ascii "123A456B789C*0#D"

def kpIndexToChar (index : Int) : UInt8 :=
  if index < 0 ∨ index ≥ kpKeys then 0 else kpMap.getD index.toNat 0

theorem pred_toNat {v : UInt16} (h : v ≠ 0) : v.toNat ≠ 0 ∧ (v - 1).toNat = v.toNat - 1 := by
  have hpos : v.toNat ≠ 0 := fun h0 => h (UInt16.toNat_inj.mp h0)
  have hone : (1 : UInt16) ≤ v := by
    rw [UInt16.le_iff_toNat_le, UInt16.toNat_one]
    omega
  rw [UInt16.toNat_sub_of_le _ _ hone, UInt16.toNat_one]
  exact ⟨hpos, rfl⟩

def popcount16 (v : UInt16) : Nat :=
  if h : v = 0 then 0 else popcount16 (v &&& (v - 1)) + 1
termination_by v.toNat
decreasing_by
  obtain ⟨hpos, hpred⟩ := pred_toNat h
  have hle : (v &&& (v - 1)).toNat ≤ (v - 1).toNat := by
    rw [UInt16.toNat_and]
    exact Nat.and_le_right
  omega

def lowestSetIndex (v : UInt16) : Int :=
  match (List.range kpKeys).find? fun i => v &&& 1 <<< UInt16.ofNat i ≠ 0 with
  | some i => i
  | none => -1

def kpLogicInit : KpLogic where
  stable := 0
  candidate := 0
  candidateSinceMs := 0
  candidatePending := false
  pressStartedMs := 0
  heldIndex := -1
  longFired := false
  ghostBlocked := false

/-- The ghosting rule: what is left of a scan, and whether the next one is blocked. -/
def kpGhost (st : KpLogic) (raw : UInt16) : KpLogic × UInt16 :=
  let blocked := if popcount16 raw > 1 then true else if raw = 0 then false else st.ghostBlocked
  ({ st with ghostBlocked := blocked }, if blocked then 0 else raw)

/-- The candidate has held long enough: `stable` moves, and a key may be down. -/
def kpAccept (st : KpLogic) (nowMs : UInt32) (outCap : Nat) : KpLogic × List KpEvent :=
  let previous := st.stable
  let st := { st with stable := st.candidate, candidatePending := false }
  let newlyDown := st.stable &&& ~~~previous
  let idx := lowestSetIndex newlyDown
  let st' := if newlyDown ≠ 0 then
    { st with heldIndex := idx, pressStartedMs := nowMs, longFired := false } else st
  let out := if newlyDown ≠ 0 ∧ 0 < outCap then [KpEvent.mk .press (kpIndexToChar idx)] else []
  (if st'.stable = 0 then { st' with heldIndex := -1, longFired := false } else st', out)

def kpDebounce (st : KpLogic) (raw : UInt16) (nowMs : UInt32) (outCap : Nat) :
    KpLogic × List KpEvent :=
  if raw ≠ st.stable then
    if st.candidatePending = false ∨ raw ≠ st.candidate then
      ({ st with candidate := raw, candidateSinceMs := nowMs, candidatePending := true }, [])
    else if kpDebounceMs ≤ nowMs - st.candidateSinceMs then kpAccept st nowMs outCap
    else (st, [])
  else ({ st with candidatePending := false }, [])

/-- Long press on the key currently held. -/
def kpHeld (st : KpLogic) (out : List KpEvent) (nowMs : UInt32) (outCap : Nat) :
    KpLogic × List KpEvent :=
  if 0 ≤ st.heldIndex ∧ st.longFired = false ∧ kpLongpressMs ≤ nowMs - st.pressStartedMs then
    ({ st with longFired := true },
      if out.length < outCap then out ++ [⟨.longPress, kpIndexToChar st.heldIndex⟩] else out)
  else (st, out)

/-- One scan; the events that `out` receives are handed back. -/
def kpLogicUpdate (st : KpLogic) (raw : UInt16) (nowMs : UInt32) (outCap : Nat) :
    KpLogic × List KpEvent :=
  if outCap = 0 then (st, [])
  else
    let (st, raw) := kpGhost st raw
    let (st, out) := kpDebounce st raw nowMs outCap
    kpHeld st out nowMs outCap

/-- The bitmap of one key alone. -/
def keyBit (k : Fin 16) : UInt16 := 1 <<< UInt16.ofNat k

theorem popcount16_zero : popcount16 0 = 0 := by
  rw [popcount16, dif_pos rfl]

theorem popcount16_pos {v : UInt16} (h : v ≠ 0) :
    popcount16 v = popcount16 (v &&& (v - 1)) + 1 := by
  rw [popcount16, dif_neg h]

theorem keyBit_toNat (k : Fin 16) : (keyBit k).toNat = 2 ^ k.val := by
  revert k
  decide

theorem single_iff_and {v : UInt16} (h : v ≠ 0) : v &&& (v - 1) = 0 ↔ ∃ k, v = keyBit k := by
  obtain ⟨hpos, hpred⟩ := pred_toNat h
  rw [← UInt16.toNat_inj, UInt16.toNat_and, hpred, UInt16.toNat_zero,
    Nat.and_sub_one_eq_zero_iff_isPowerOfTwo hpos]
  constructor
  · rintro ⟨k, hk⟩
    have hlt : k < 16 := by
      have hv := v.toNat_lt
      rw [hk] at hv
      exact (Nat.pow_lt_pow_iff_right (by decide)).mp hv
    exact ⟨⟨k, hlt⟩, UInt16.toNat_inj.mp (hk.trans (keyBit_toNat ⟨k, hlt⟩).symm)⟩
  · rintro ⟨k, rfl⟩
    exact ⟨k, keyBit_toNat k⟩

/-- No key, or one key alone. -/
def Single (v : UInt16) : Prop := v = 0 ∨ ∃ k, v = keyBit k

theorem popcount16_gt_one_iff {v : UInt16} : popcount16 v > 1 ↔ ¬Single v := by
  by_cases h : v = 0
  · simp [Single, h, popcount16_zero]
  · rw [Single, popcount16_pos h, ← single_iff_and h]
    by_cases hrest : v &&& (v - 1) = 0
    · simp [hrest, popcount16_zero]
    · rw [popcount16_pos hrest]
      simp [h, hrest]

theorem keyBit_ne_zero (k : Fin 16) : keyBit k ≠ 0 := by
  revert k
  decide

theorem keyBit_inj {j k : Fin 16} (h : keyBit j = keyBit k) : j = k := by
  revert j k
  decide

theorem keyBit_newlyDown {j k : Fin 16} (h : keyBit k ≠ keyBit j) :
    keyBit k &&& ~~~keyBit j = keyBit k := by
  revert j k
  decide

theorem lowestSetIndex_keyBit (k : Fin 16) : lowestSetIndex (keyBit k) = k := by
  revert k
  decide

theorem kpIndexToChar_inj {j k : Fin 16} (h : kpIndexToChar j = kpIndexToChar k) : j = k := by
  revert j k
  decide

theorem kpGhost_blocked (st : KpLogic) (raw : UInt16) :
    (kpGhost st raw).1.ghostBlocked = false ↔
      raw = 0 ∨ (Single raw ∧ st.ghostBlocked = false) := by
  by_cases hzero : raw = 0
  · have hone : Single raw := .inl hzero
    simp [kpGhost, hzero, popcount16_zero]
  · by_cases hone : Single raw
    · have hfew : ¬popcount16 raw > 1 := fun h => popcount16_gt_one_iff.mp h hone
      simp [kpGhost, hfew, hzero, hone]
    · simp [kpGhost, popcount16_gt_one_iff.mpr hone, hzero, hone]

/-- What the ghosting rule lets through is one key alone, or nothing. -/
theorem kpGhost_seen (st : KpLogic) (raw : UInt16) :
    (kpGhost st raw).2 = 0 ∨
      (∃ k, raw = keyBit k) ∧ st.ghostBlocked = false ∧ (kpGhost st raw).2 = raw := by
  by_cases hblocked : (kpGhost st raw).1.ghostBlocked = false
  · have hseen : (kpGhost st raw).2 = raw := if_neg (by rw [Bool.not_eq_true]; exact hblocked)
    rcases (kpGhost_blocked st raw).mp hblocked with hzero | ⟨hzero | hkey, hfree⟩
    · exact .inl (hseen.trans hzero)
    · exact .inl (hseen.trans hzero)
    · exact .inr ⟨hkey, hfree, hseen⟩
  · exact .inl (if_pos (Bool.not_eq_false _ ▸ hblocked))

/-- Where a scan leaves the candidate while `stable` stays. -/
inductive CandidateStep (st : KpLogic) (seen : UInt16) (nowMs : UInt32) :
    UInt16 → UInt32 → Bool → Prop
  | steady : seen = st.stable →
      CandidateStep st seen nowMs st.candidate st.candidateSinceMs false
  | started : seen ≠ st.stable → (st.candidatePending = false ∨ seen ≠ st.candidate) →
      CandidateStep st seen nowMs seen nowMs true
  | waiting : seen ≠ st.stable → st.candidatePending = true → st.candidate = seen →
      ¬kpDebounceMs ≤ nowMs - st.candidateSinceMs →
      CandidateStep st seen nowMs st.candidate st.candidateSinceMs true

inductive KpStep (st : KpLogic) (seen : UInt16) (nowMs : UInt32) : KpLogic × List KpEvent → Prop
  | quiet (c since p) : CandidateStep st seen nowMs c since p →
      KpStep st seen nowMs
        ({ st with candidate := c, candidateSinceMs := since, candidatePending := p }, [])
  | long (c since p) : CandidateStep st seen nowMs c since p → 0 ≤ st.heldIndex →
      st.longFired = false → kpLongpressMs ≤ nowMs - st.pressStartedMs →
      KpStep st seen nowMs
        ({ st with
            candidate := c, candidateSinceMs := since, candidatePending := p, longFired := true },
          [⟨.longPress, kpIndexToChar st.heldIndex⟩])
  | pressed (k : Fin 16) : seen = keyBit k → seen ≠ st.stable → st.candidatePending = true →
      st.candidate = seen → kpDebounceMs ≤ nowMs - st.candidateSinceMs →
      KpStep st seen nowMs
        ({ st with
            stable := keyBit k, candidatePending := false, heldIndex := k,
            pressStartedMs := nowMs, longFired := false },
          [⟨.press, kpIndexToChar k⟩])
  | released : seen = 0 → seen ≠ st.stable → st.candidatePending = true →
      KpStep st seen nowMs
        ({ st with
            stable := 0, candidatePending := false, heldIndex := -1, longFired := false }, [])

theorem kpHeld_step {st : KpLogic} {seen : UInt16} {nowMs : UInt32} {c : UInt16} {since : UInt32}
    {p : Bool} {outCap : Nat} (hcap : outCap ≠ 0) (h : CandidateStep st seen nowMs c since p) :
    KpStep st seen nowMs (kpHeld { st with
      candidate := c, candidateSinceMs := since, candidatePending := p } [] nowMs outCap) := by
  by_cases hdue : 0 ≤ st.heldIndex ∧ st.longFired = false ∧ kpLongpressMs ≤ nowMs - st.pressStartedMs
  · have hroom : ([] : List KpEvent).length < outCap := Nat.pos_of_ne_zero hcap
    rw [kpHeld, if_pos hdue, if_pos hroom]
    exact .long c since p h hdue.1 hdue.2.1 hdue.2.2
  · rw [kpHeld, if_neg hdue]
    exact .quiet c since p h

theorem kpAccept_step {st : KpLogic} {seen : UInt16} {nowMs : UInt32} {outCap : Nat}
    (hcap : outCap ≠ 0) (hstable : Single st.stable) (hseen : Single seen)
    (hmoved : seen ≠ st.stable) (hpending : st.candidatePending = true) (hsame : st.candidate = seen)
    (hlong : kpDebounceMs ≤ nowMs - st.candidateSinceMs) :
    KpStep st seen nowMs (kpHeld (kpAccept st nowMs outCap).1 (kpAccept st nowMs outCap).2
      nowMs outCap) := by
  rcases hseen with rfl | ⟨k, rfl⟩
  · have haccept : kpAccept st nowMs outCap = ({ st with
        stable := 0, candidatePending := false, heldIndex := -1, longFired := false }, []) := by
      simp [kpAccept, hsame]
    rw [haccept, kpHeld, if_neg (by simp)]
    exact .released rfl hmoved hpending
  · have hdown : keyBit k &&& ~~~st.stable = keyBit k := by
      rcases hstable with hzero | ⟨j, hj⟩
      · simp [hzero]
      · rw [hj] at hmoved ⊢
        exact keyBit_newlyDown hmoved
    have haccept : kpAccept st nowMs outCap = ({ st with
        stable := keyBit k, candidatePending := false, heldIndex := k,
        pressStartedMs := nowMs, longFired := false }, [⟨.press, kpIndexToChar k⟩]) := by
      simp [kpAccept, hsame, hdown, keyBit_ne_zero, lowestSetIndex_keyBit, Nat.pos_of_ne_zero hcap]
    rw [haccept, kpHeld, if_neg (by simp [kpLongpressMs])]
    exact .pressed k rfl hmoved hpending hsame hlong

theorem kpLogicUpdate_step {st : KpLogic} {outCap : Nat} (hcap : outCap ≠ 0)
    (hstable : Single st.stable) (raw : UInt16) (nowMs : UInt32) :
    KpStep (kpGhost st raw).1 (kpGhost st raw).2 nowMs (kpLogicUpdate st raw nowMs outCap) := by
  have hseen : Single (kpGhost st raw).2 := by
    rcases kpGhost_seen st raw with hzero | ⟨hkey, -, hraw⟩
    · exact .inl hzero
    · exact .inr (by rw [hraw]; exact hkey)
  have hkept : Single (kpGhost st raw).1.stable := hstable
  rw [kpLogicUpdate, if_neg hcap]
  generalize kpGhost st raw = g at hseen hkept
  obtain ⟨st, seen⟩ := g
  simp only [kpDebounce]
  by_cases hmoved : seen ≠ st.stable
  · rw [if_pos hmoved]
    by_cases hnew : st.candidatePending = false ∨ seen ≠ st.candidate
    · rw [if_pos hnew]
      exact kpHeld_step hcap (.started hmoved hnew)
    · rw [if_neg hnew]
      obtain ⟨hpending, hsame⟩ := not_or.mp hnew
      have hpending : st.candidatePending = true := by simpa using hpending
      have hsame : st.candidate = seen := (not_not.mp hsame).symm
      by_cases hlong : kpDebounceMs ≤ nowMs - st.candidateSinceMs
      · rw [if_pos hlong]
        exact kpAccept_step hcap hkept hseen hmoved hpending hsame hlong
      · rw [if_neg hlong]
        have hwait := kpHeld_step hcap (.waiting hmoved hpending hsame hlong)
        rw [← hpending] at hwait
        exact hwait
  · rw [if_neg hmoved]
    exact kpHeld_step hcap (.steady (not_not.mp hmoved))

end GateAccess
