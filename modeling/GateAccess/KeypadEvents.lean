import GateAccess.KeypadLogic
import GateAccess.Traces
import GateAccess.WrapClock

namespace GateAccess

/-- One call of `kp_logic_update`. -/
structure Scan where
  time : Nat
  raw : UInt16
  outCap : Nat

def kpStep (st : KpLogic) (c : Scan) : KpLogic := (kpLogicUpdate st c.raw (nowMs c.time) c.outCap).1

def kpOut (st : KpLogic) (c : Scan) : List KpEvent :=
  (kpLogicUpdate st c.raw (nowMs c.time) c.outCap).2

abbrev kpRun (scans : List Scan) : KpLogic := exec kpStep kpLogicInit scans

/-- What the scan after these reports. -/
def eventsAt (before : List Scan) (c : Scan) : List KpEvent := kpOut (kpRun before) c

def press (k : Fin 16) : KpEvent := ⟨.press, kpIndexToChar k⟩

def longPress (k : Fin 16) : KpEvent := ⟨.longPress, kpIndexToChar k⟩

/-- No two keys at once since the last scan that found none. -/
def GhostFree (scans : List Scan) : Prop :=
  ∀ first m rest, scans = first ++ m :: rest → ¬Single m.raw → ∃ z ∈ rest, z.raw = 0

/-- The key has been alone for the debounce time before this scan, and still is. -/
def SeenAlone (k : Fin 16) (before : List Scan) (c : Scan) : Prop :=
  ∃ first s rest, before = first ++ s :: rest ∧ s.time + kpDebounceMs.toNat ≤ c.time ∧
    GhostFree first ∧ ∀ x ∈ s :: (rest ++ [c]), x.raw = keyBit k

/-- Over these scans `stable` kept one other value for the debounce time, up to this scan. -/
def HeldOther (k : Fin 16) (before mid : List Scan) (c : Scan) : Prop :=
  ∃ v ≠ keyBit k, ∃ first s rest, mid = first ++ s :: rest ∧ s.time + kpDebounceMs.toNat ≤ c.time ∧
    ∀ part more, rest = part ++ more → (kpRun (before ++ first ++ s :: part)).stable = v

/-- The last event before this scan is the press of the key, at least the long-press time ago. -/
def AfterPress (k : Fin 16) (before : List Scan) (c : Scan) : Prop :=
  ∃ first p rest, before = first ++ p :: rest ∧ eventsAt first p = [press k] ∧
    p.time + kpLongpressMs.toNat ≤ c.time ∧
    ∀ part x more, rest = part ++ x :: more → eventsAt (first ++ p :: part) x = []

theorem concat_split {α : Type*} {xs part more : List α} {c x : α} (h : xs ++ [c] = part ++ x :: more) :
    (xs = part ∧ c = x ∧ more = []) ∨ ∃ more', more = more' ++ [c] ∧ xs = part ++ x :: more' := by
  rcases List.eq_nil_or_concat more with rfl | ⟨more', d, rfl⟩
  · obtain ⟨hxs, hc⟩ := List.append_inj' h rfl
    exact .inl ⟨hxs, List.singleton_inj.mp hc, rfl⟩
  · have hsplit : xs ++ [c] = (part ++ x :: more') ++ [d] := by rw [h]; simp
    obtain ⟨hxs, hc⟩ := List.append_inj' hsplit rfl
    obtain rfl := List.singleton_inj.mp hc
    exact .inr ⟨more', by simp, hxs⟩

theorem ghostFree_concat {scans : List Scan} {c : Scan} :
    GhostFree (scans ++ [c]) ↔ c.raw = 0 ∨ (Single c.raw ∧ GhostFree scans) := by
  constructor
  · intro h
    by_cases hzero : c.raw = 0
    · exact .inl hzero
    refine .inr ⟨?_, fun first m rest hscans hm => ?_⟩
    · by_contra hmulti
      obtain ⟨z, hz, -⟩ := h scans c [] rfl hmulti
      cases hz
    · obtain ⟨z, hz, hz0⟩ := h first m (rest ++ [c]) (by rw [hscans]; simp) hm
      rcases List.mem_append.mp hz with hz | hz
      · exact ⟨z, hz, hz0⟩
      · obtain rfl := List.mem_singleton.mp hz
        exact absurd hz0 hzero
  · intro h first m rest hscans hm
    rcases concat_split hscans with ⟨-, rfl, -⟩ | ⟨more, rfl, hbefore⟩
    · rcases h with hzero | ⟨hone, -⟩
      · exact absurd (.inl hzero) hm
      · exact absurd hone hm
    · rcases h with hzero | ⟨-, hfree⟩
      · exact ⟨c, by simp, hzero⟩
      · obtain ⟨z, hz, hz0⟩ := hfree first m more hbefore hm
        exact ⟨z, List.mem_append_left _ hz, hz0⟩

theorem KpStep.single {st : KpLogic} {seen : UInt16} {nowMs : UInt32} {out : KpLogic × List KpEvent}
    (h : KpStep st seen nowMs out) (hstable : Single st.stable) : Single out.1.stable := by
  cases h with
  | quiet | long => exact hstable
  | pressed k => exact .inr ⟨k, rfl⟩
  | released => exact .inl rfl

theorem KpStep.blocked {st : KpLogic} {seen : UInt16} {nowMs : UInt32} {out : KpLogic × List KpEvent}
    (h : KpStep st seen nowMs out) : out.1.ghostBlocked = st.ghostBlocked := by
  cases h <;> rfl

theorem KpStep.one_event {st : KpLogic} {seen : UInt16} {nowMs : UInt32}
    {out : KpLogic × List KpEvent} (h : KpStep st seen nowMs out) : out.2.length ≤ 1 := by
  cases h <;> simp

def Room (scans : List Scan) : Prop := ∀ c ∈ scans, c.outCap ≠ 0

theorem Room.init {scans : List Scan} {c : Scan} (h : Room (scans ++ [c])) :
    Room scans ∧ c.outCap ≠ 0 :=
  ⟨fun d hd => h d (List.mem_append_left _ hd), h c (by simp)⟩

theorem Room.before {before after : List Scan} {c : Scan} (h : Room (before ++ c :: after)) :
    Room (before ++ [c]) := fun x hx => h x (by
  rcases List.mem_append.mp hx with hx | hx
  · simp [hx]
  · simp [List.mem_singleton.mp hx])

theorem kpRun_single {scans : List Scan} (room : Room scans) : Single (kpRun scans).stable := by
  induction scans using List.reverseRecOn with
  | nil => exact .inl rfl
  | append_singleton scans c ih =>
    have hstep := kpLogicUpdate_step room.init.2 (ih room.init.1) c.raw (nowMs c.time)
    rw [kpRun, exec_concat]
    exact hstep.single (ih room.init.1)

theorem kpRun_step {before : List Scan} {c : Scan} (room : Room (before ++ [c])) :
    KpStep (kpGhost (kpRun before) c.raw).1 (kpGhost (kpRun before) c.raw).2 (nowMs c.time)
      (kpRun (before ++ [c]), eventsAt before c) := by
  have hnext : kpRun (before ++ [c]) = kpStep (kpRun before) c := exec_concat _ _ _ _
  rw [hnext]
  exact kpLogicUpdate_step room.init.2 (kpRun_single room.init.1) c.raw (nowMs c.time)

theorem kpRun_blocked {scans : List Scan} (room : Room scans) :
    (kpRun scans).ghostBlocked = false ↔ GhostFree scans := by
  induction scans using List.reverseRecOn with
  | nil => exact ⟨fun _ first m rest h => by simp at h, fun _ => rfl⟩
  | append_singleton scans c ih =>
    rw [(kpRun_step room).blocked, kpGhost_blocked, ih room.init.1, ghostFree_concat]

/-- A key that gets past the ghosting rule is alone, and was not blocked. -/
theorem seen_key {before : List Scan} {c : Scan} (room : Room before) {k : Fin 16}
    (h : (kpGhost (kpRun before) c.raw).2 = keyBit k) : c.raw = keyBit k ∧ GhostFree before := by
  rcases kpGhost_seen (kpRun before) c.raw with hzero | ⟨-, hfree, hraw⟩
  · exact absurd (h.symm.trans hzero) (keyBit_ne_zero k)
  · exact ⟨hraw.symm.trans h, (kpRun_blocked room).mp hfree⟩

/-- The candidate has been what the scans show since this one, and `stable` has not moved. -/
structure Candidate (before first : List Scan) (s : Scan) (rest : List Scan) : Prop where
  split : before = first ++ s :: rest
  since : (kpRun before).candidateSinceMs = nowMs s.time
  alone : ∀ k, (kpRun before).candidate = keyBit k →
    GhostFree first ∧ ∀ x ∈ s :: rest, x.raw = keyBit k
  kept : ∀ part more, rest = part ++ more →
    (kpRun (first ++ s :: part)).stable = (kpRun before).stable

theorem Candidate.extend {before first rest : List Scan} {s c : Scan}
    (h : Candidate before first s rest)
    (since : (kpRun (before ++ [c])).candidateSinceMs = (kpRun before).candidateSinceMs)
    (same : (kpRun (before ++ [c])).candidate = (kpRun before).candidate)
    (stable : (kpRun (before ++ [c])).stable = (kpRun before).stable)
    (raw : ∀ k, (kpRun before).candidate = keyBit k → c.raw = keyBit k) :
    Candidate (before ++ [c]) first s (rest ++ [c]) := by
  have hsplit : before ++ [c] = first ++ s :: (rest ++ [c]) := by rw [h.split]; simp
  refine ⟨hsplit, since.trans h.since, fun k hk => ?_, fun part more hrest => ?_⟩
  · rw [same] at hk
    obtain ⟨hfree, halone⟩ := h.alone k hk
    refine ⟨hfree, fun x hx => ?_⟩
    rcases List.mem_cons.mp hx with rfl | hx
    · exact halone x List.mem_cons_self
    rcases List.mem_append.mp hx with hx | hx
    · exact halone x (List.mem_cons_of_mem _ hx)
    · obtain rfl := List.mem_singleton.mp hx
      exact raw k hk
  · rcases List.eq_nil_or_concat more with rfl | ⟨more', d, rfl⟩
    · rw [List.append_nil] at hrest
      rw [← hrest, ← hsplit]
    · have hinit : rest = part ++ more' := by
        have happ : rest ++ [c] = (part ++ more') ++ [d] := by rw [hrest]; simp
        exact (List.append_inj' happ rfl).1
      rw [h.kept part more' hinit, stable]

theorem KpStep.pending {st : KpLogic} {seen : UInt16} {nowMs : UInt32} {out : KpLogic × List KpEvent}
    (h : KpStep st seen nowMs out) (hpending : out.1.candidatePending = true) :
    out.1.stable = st.stable ∧ out.1.candidate = seen ∧
      (out.1.candidateSinceMs = nowMs ∨ (st.candidatePending = true ∧ st.candidate = seen ∧
        out.1.candidateSinceMs = st.candidateSinceMs)) := by
  cases h with
  | pressed k => cases hpending
  | released => cases hpending
  | quiet c since p hc | long c since p hc =>
    cases hc with
    | steady => cases hpending
    | started => exact ⟨rfl, rfl, .inl rfl⟩
    | waiting _ hwas hsame => exact ⟨rfl, hsame, .inr ⟨hwas, hsame, rfl⟩⟩

theorem kpRun_candidate {scans : List Scan} (room : Room scans)
    (hpending : (kpRun scans).candidatePending = true) :
    ∃ first s rest, Candidate scans first s rest := by
  induction scans using List.reverseRecOn with
  | nil => cases hpending
  | append_singleton scans c ih =>
    have hseen := fun k => @seen_key scans c room.init.1 k
    obtain ⟨hstable, hcandidate, hnew | ⟨hwas, hsame, hsince⟩⟩ := (kpRun_step room).pending hpending
    · refine ⟨scans, c, [], rfl, hnew, fun k hk => ?_, fun part more hrest => ?_⟩
      · obtain ⟨hraw, hfree⟩ := hseen k (hcandidate.symm.trans hk)
        exact ⟨hfree, by simp [hraw]⟩
      · obtain ⟨rfl, rfl⟩ := List.append_eq_nil_iff.mp hrest.symm
        rfl
    · obtain ⟨first, s, rest, hcand⟩ := ih room.init.1 hwas
      refine ⟨first, s, rest ++ [c], hcand.extend hsince (hcandidate.trans hsame.symm) hstable
        fun k hk => (hseen k (hsame.symm.trans hk)).1⟩

/-- The key held down, and the press it was reported with. -/
structure Held (before : List Scan) (k : Fin 16) (first : List Scan) (p : Scan) (rest : List Scan) :
    Prop where
  split : before = first ++ p :: rest
  index : (kpRun before).heldIndex = k
  started : (kpRun before).pressStartedMs = nowMs p.time
  pressed : eventsAt first p = [press k]
  silent : (kpRun before).longFired = false →
    ∀ part x more, rest = part ++ x :: more → eventsAt (first ++ p :: part) x = []

theorem Held.extend {before first rest : List Scan} {p c : Scan} {k : Fin 16}
    (h : Held before k first p rest)
    (index : (kpRun (before ++ [c])).heldIndex = (kpRun before).heldIndex)
    (started : (kpRun (before ++ [c])).pressStartedMs = (kpRun before).pressStartedMs)
    (silent : (kpRun (before ++ [c])).longFired = false →
      (kpRun before).longFired = false ∧ eventsAt before c = []) :
    Held (before ++ [c]) k first p (rest ++ [c]) := by
  refine ⟨by rw [h.split]; simp, index.trans h.index, started.trans h.started, h.pressed,
    fun hquiet part x more hrest => ?_⟩
  obtain ⟨hbefore, hnone⟩ := silent hquiet
  rcases concat_split hrest with ⟨rfl, rfl, -⟩ | ⟨more', -, hpart⟩
  · rw [← h.split]
    exact hnone
  · exact h.silent hbefore part x more' hpart

theorem KpStep.held {st : KpLogic} {seen : UInt16} {nowMs : UInt32} {out : KpLogic × List KpEvent}
    (h : KpStep st seen nowMs out) :
    out.1.heldIndex = -1 ∨
      (∃ k : Fin 16, out.2 = [press k] ∧ out.1.heldIndex = k ∧ out.1.pressStartedMs = nowMs) ∨
      (out.1.heldIndex = st.heldIndex ∧ out.1.pressStartedMs = st.pressStartedMs ∧
        (out.1.longFired = false → st.longFired = false ∧ out.2 = [])) := by
  cases h with
  | quiet => exact .inr (.inr ⟨rfl, rfl, fun hquiet => ⟨hquiet, rfl⟩⟩)
  | long => exact .inr (.inr ⟨rfl, rfl, fun hquiet => by cases hquiet⟩)
  | pressed k => exact .inr (.inl ⟨k, rfl, rfl, rfl⟩)
  | released => exact .inl rfl

theorem kpRun_held {scans : List Scan} (room : Room scans) :
    (kpRun scans).heldIndex = -1 ∨ ∃ k first p rest, Held scans k first p rest := by
  induction scans using List.reverseRecOn with
  | nil => exact .inl rfl
  | append_singleton scans c ih =>
    rcases (kpRun_step room).held with hnone | ⟨k, hpress, hindex, hstarted⟩ |
      ⟨hindex, hstarted, hsilent⟩
    · exact .inl hnone
    · exact .inr ⟨k, scans, c, [], rfl, hindex, hstarted, hpress, fun _ part x more h => by simp at h⟩
    · rcases ih room.init.1 with hnone | ⟨k, first, p, rest, hheld⟩
      · exact .inl (hindex.trans hnone)
      · exact .inr ⟨k, first, p, rest ++ [c], hheld.extend hindex hstarted hsilent⟩

theorem KpStep.press {st : KpLogic} {seen : UInt16} {nowMs : UInt32} {out : KpLogic × List KpEvent}
    (h : KpStep st seen nowMs out) {k : Fin 16} (hmem : press k ∈ out.2) :
    seen = keyBit k ∧ st.stable ≠ keyBit k ∧ st.candidatePending = true ∧ st.candidate = keyBit k ∧
      kpDebounceMs ≤ nowMs - st.candidateSinceMs ∧ out.1.stable = keyBit k := by
  cases h with
  | quiet => cases hmem
  | long => simp [GateAccess.press] at hmem
  | pressed j hseen hmoved hpending hsame hlong =>
    have hchar : kpIndexToChar k = kpIndexToChar j := by simpa [GateAccess.press] using hmem
    obtain rfl := kpIndexToChar_inj hchar
    exact ⟨hseen, fun h => hmoved (hseen.trans h.symm), hpending, hsame.trans hseen, hlong, rfl⟩
  | released => cases hmem

theorem KpStep.longPress {st : KpLogic} {seen : UInt16} {nowMs : UInt32}
    {out : KpLogic × List KpEvent} (h : KpStep st seen nowMs out) {k : Fin 16}
    (hmem : longPress k ∈ out.2) :
    kpIndexToChar st.heldIndex = kpIndexToChar k ∧ 0 ≤ st.heldIndex ∧ st.longFired = false ∧
      kpLongpressMs ≤ nowMs - st.pressStartedMs := by
  cases h with
  | quiet => cases hmem
  | long c since p hc hheld hquiet hdue =>
    have hchar : kpIndexToChar k = kpIndexToChar st.heldIndex := by
      simpa [GateAccess.longPress] using hmem
    exact ⟨hchar.symm, hheld, hquiet, hdue⟩
  | pressed j => simp [GateAccess.longPress] at hmem
  | released => cases hmem

def Ordered (scans : List Scan) : Prop := scans.Pairwise fun a b => a.time ≤ b.time

theorem Ordered.last {first rest : List Scan} {s c : Scan}
    (h : Ordered ((first ++ s :: rest) ++ [c])) : s.time ≤ c.time :=
  (List.pairwise_append.mp h).2.2 s (by simp) c (by simp)

theorem Ordered.before {before after : List Scan} {c : Scan} (h : Ordered (before ++ c :: after)) :
    Ordered (before ++ [c]) := by
  rw [List.append_cons] at h
  exact (List.pairwise_append.mp h).1

theorem press_seenAlone {before : List Scan} {c : Scan} {k : Fin 16} (room : Room (before ++ [c]))
    (ordered : Ordered (before ++ [c])) (h : press k ∈ eventsAt before c) : SeenAlone k before c := by
  obtain ⟨hseen, -, hpending, hsame, hlong, -⟩ := (kpRun_step room).press h
  obtain ⟨first, s, rest, hcand⟩ := kpRun_candidate room.init.1 hpending
  obtain ⟨hfree, halone⟩ := hcand.alone k hsame
  refine ⟨first, s, rest, hcand.split, ?_, hfree, fun x hx => ?_⟩
  · have hsince : kpDebounceMs ≤ nowMs c.time - nowMs s.time := hcand.since ▸ hlong
    exact elapsed_le (Ordered.last (hcand.split ▸ ordered)) hsince
  · rcases List.mem_cons.mp hx with rfl | hx
    · exact halone x List.mem_cons_self
    rcases List.mem_append.mp hx with hx | hx
    · exact halone x (List.mem_cons_of_mem _ hx)
    · obtain rfl := List.mem_singleton.mp hx
      exact (seen_key room.init.1 hseen).1

theorem longPress_afterPress {before : List Scan} {c : Scan} {k : Fin 16}
    (room : Room (before ++ [c])) (ordered : Ordered (before ++ [c]))
    (h : longPress k ∈ eventsAt before c) : AfterPress k before c := by
  obtain ⟨hkey, hpos, hquiet, hdue⟩ := (kpRun_step room).longPress h
  rcases kpRun_held room.init.1 with hnone | ⟨j, first, p, rest, hheld⟩
  · have hneg : (0 : Int) ≤ -1 := hnone ▸ hpos
    omega
  · have hchar : kpIndexToChar j = kpIndexToChar k := hheld.index ▸ hkey
    obtain rfl := kpIndexToChar_inj hchar
    refine ⟨first, p, rest, hheld.split, hheld.pressed, ?_, hheld.silent hquiet⟩
    have hsince : kpLongpressMs ≤ nowMs c.time - nowMs p.time := hheld.started ▸ hdue
    exact elapsed_le (Ordered.last (hheld.split ▸ ordered)) hsince

/-- A candidate that `stable` has not followed began after the scan at which `stable` was it. -/
theorem Candidate.inside {before mid first rest : List Scan} {c s : Scan}
    (h : Candidate (before ++ c :: mid) first s rest)
    (hmoved : (kpRun (before ++ [c])).stable ≠ (kpRun (before ++ c :: mid)).stable) :
    ∃ mid', mid = mid' ++ s :: rest ∧ first = before ++ c :: mid' := by
  rcases List.append_eq_append_iff.mp h.split with ⟨mid', hfirst, hmid⟩ | ⟨ahead, hbefore, hrest⟩
  · cases mid' with
    | nil =>
      obtain ⟨rfl, rfl⟩ := List.cons.inj hmid
      have hkept := h.kept [] mid rfl
      rw [hfirst, List.append_nil] at hkept
      exact absurd hkept hmoved
    | cons x mid' =>
      obtain ⟨rfl, rfl⟩ := List.cons.inj hmid
      exact ⟨mid', rfl, hfirst⟩
  · refine absurd ?_ hmoved
    cases ahead with
    | nil =>
      obtain ⟨rfl, rfl⟩ := List.cons.inj hrest
      rw [List.append_nil] at hbefore
      subst hbefore
      exact h.kept [] rest rfl
    | cons x ahead =>
      obtain ⟨rfl, hahead⟩ := List.cons.inj hrest
      subst hbefore
      have hkept := h.kept (ahead ++ [c]) mid (by rw [hahead]; simp)
      simpa using hkept

theorem presses_heldOther {before mid : List Scan} {c d : Scan} {k : Fin 16}
    (room : Room (before ++ c :: mid ++ [d])) (ordered : Ordered (before ++ c :: mid ++ [d]))
    (hc : press k ∈ eventsAt before c) (hd : press k ∈ eventsAt (before ++ c :: mid) d) :
    HeldOther k (before ++ [c]) mid d := by
  obtain ⟨-, -, -, -, -, hdown⟩ := (kpRun_step room.init.1.before).press hc
  obtain ⟨-, hother, hpending, -, hlong, -⟩ := (kpRun_step room).press hd
  obtain ⟨first, s, rest, hcand⟩ := kpRun_candidate room.init.1 hpending
  obtain ⟨mid', hmid, hfirst⟩ := hcand.inside fun h => hother (h.symm.trans hdown)
  refine ⟨(kpRun (before ++ c :: mid)).stable, hother, mid', s, rest, hmid, ?_, fun part more hrest => ?_⟩
  · have hsince : kpDebounceMs ≤ nowMs d.time - nowMs s.time := hcand.since ▸ hlong
    have hsplit := hcand.split
    exact elapsed_le (Ordered.last (hsplit ▸ ordered)) hsince
  · have hkept := hcand.kept part more hrest
    rw [hfirst] at hkept
    simpa using hkept

def presses (events : List KpEvent) : List KpEvent := events.filter fun e => e.type = .press

theorem kpGhost_key {st : KpLogic} (hfree : st.ghostBlocked = false) (k : Fin 16) :
    kpGhost st (keyBit k) = (st, keyBit k) := by
  have hone : ¬popcount16 (keyBit k) > 1 := fun h => popcount16_gt_one_iff.mp h (.inr ⟨k, rfl⟩)
  have hsame : ({ st with ghostBlocked := false } : KpLogic) = st := by rw [← hfree]
  rw [kpGhost, if_neg hone, if_neg (keyBit_ne_zero k), hfree, hsame]
  rfl

theorem kpStep_key {st : KpLogic} {c : Scan} {k : Fin 16} (hfree : st.ghostBlocked = false)
    (hstable : Single st.stable) (hcap : c.outCap ≠ 0) (hraw : c.raw = keyBit k) :
    KpStep st (keyBit k) (nowMs c.time) (kpStep st c, kpOut st c) := by
  have hstep := kpLogicUpdate_step hcap hstable c.raw (nowMs c.time)
  rw [hraw, kpGhost_key hfree] at hstep
  rw [kpStep, kpOut, hraw]
  exact hstep

/-- Waiting, since this time, for the key alone. -/
structure Waiting (st : KpLogic) (k : Fin 16) (since : Nat) : Prop where
  free : st.ghostBlocked = false
  released : st.stable = 0
  pending : st.candidatePending = true
  candidate : st.candidate = keyBit k
  since : st.candidateSinceMs = nowMs since

theorem KpStep.down {st : KpLogic} {k : Fin 16} {nowMs : UInt32} {out : KpLogic × List KpEvent}
    (h : KpStep st (keyBit k) nowMs out) (hdown : st.stable = keyBit k) :
    presses out.2 = [] ∧ out.1.stable = keyBit k := by
  cases h with
  | quiet | long => exact ⟨rfl, hdown⟩
  | pressed j _ hmoved => exact absurd hdown.symm hmoved
  | released hzero => exact absurd hzero (keyBit_ne_zero k)

theorem CandidateStep.waits {st : KpLogic} {k : Fin 16} {nowMs : UInt32} {c : UInt16}
    {since : UInt32} {p : Bool} {t : Nat} (h : CandidateStep st (keyBit k) nowMs c since p)
    (hwait : Waiting st k t) :
    c = st.candidate ∧ since = st.candidateSinceMs ∧ p = true ∧
      ¬kpDebounceMs ≤ nowMs - st.candidateSinceMs := by
  cases h with
  | steady hsame => exact absurd (hsame.trans hwait.released) (keyBit_ne_zero k)
  | started _ hnew =>
    rcases hnew with hidle | hother
    · exact absurd hwait.pending (by rw [hidle]; decide)
    · exact absurd hwait.candidate.symm hother
  | waiting _ _ _ hshort => exact ⟨rfl, rfl, rfl, hshort⟩

theorem KpStep.waits {st : KpLogic} {k : Fin 16} {nowMs : UInt32} {out : KpLogic × List KpEvent}
    {t : Nat} (h : KpStep st (keyBit k) nowMs out) (hwait : Waiting st k t) :
    (presses out.2 = [GateAccess.press k] ∧ out.1.stable = keyBit k) ∨
      (¬kpDebounceMs ≤ nowMs - st.candidateSinceMs ∧ presses out.2 = [] ∧ Waiting out.1 k t) := by
  cases h with
  | quiet c since p hc | long c since p hc =>
    obtain ⟨rfl, rfl, rfl, hshort⟩ := hc.waits hwait
    exact .inr ⟨hshort, rfl, hwait.free, hwait.released, rfl, hwait.candidate, hwait.since⟩
  | pressed j hseen =>
    obtain rfl := keyBit_inj hseen
    exact .inl ⟨rfl, rfl⟩
  | released hzero => exact absurd hzero (keyBit_ne_zero k)

theorem CandidateStep.starts {st : KpLogic} {k : Fin 16} {nowMs : UInt32} {c : UInt16}
    {since : UInt32} {p : Bool} (h : CandidateStep st (keyBit k) nowMs c since p)
    (hreleased : st.stable = 0) (hnew : st.candidatePending = true → st.candidate ≠ keyBit k) :
    c = keyBit k ∧ since = nowMs ∧ p = true := by
  cases h with
  | steady hsame => exact absurd (hsame.trans hreleased) (keyBit_ne_zero k)
  | started => exact ⟨rfl, rfl, rfl⟩
  | waiting _ hpending hsame => exact absurd hsame (hnew hpending)

theorem KpStep.starts {st : KpLogic} {k : Fin 16} {t : Nat} {out : KpLogic × List KpEvent}
    (h : KpStep st (keyBit k) (nowMs t) out) (hfree : st.ghostBlocked = false)
    (hreleased : st.stable = 0) (hnew : st.candidatePending = true → st.candidate ≠ keyBit k) :
    presses out.2 = [] ∧ Waiting out.1 k t := by
  cases h with
  | quiet c since p hc | long c since p hc =>
    obtain ⟨rfl, rfl, rfl⟩ := hc.starts hreleased hnew
    exact ⟨rfl, hfree, hreleased, rfl, rfl, rfl⟩
  | pressed j _ _ hpending hsame => exact absurd hsame (hnew hpending)
  | released hzero => exact absurd hzero (keyBit_ne_zero k)

theorem presses_cons (st : KpLogic) (c : Scan) (scans : List Scan) :
    presses (logOf kpStep kpOut st (c :: scans)) =
      presses (kpOut st c) ++ presses (logOf kpStep kpOut (kpStep st c) scans) :=
  List.filter_append _ _

theorem presses_down {st : KpLogic} {k : Fin 16} {scans : List Scan}
    (hfree : st.ghostBlocked = false) (hdown : st.stable = keyBit k) (room : Room scans)
    (alone : ∀ x ∈ scans, x.raw = keyBit k) : presses (logOf kpStep kpOut st scans) = [] := by
  induction scans generalizing st with
  | nil => rfl
  | cons c scans ih =>
    have hstep := kpStep_key hfree (.inr ⟨k, hdown⟩) (room c List.mem_cons_self)
      (alone c List.mem_cons_self)
    obtain ⟨hnone, hstill⟩ := hstep.down hdown
    have hrest := ih (hstep.blocked.trans hfree) hstill
      (fun x hx => room x (List.mem_cons_of_mem _ hx)) fun x hx => alone x (List.mem_cons_of_mem _ hx)
    rw [presses_cons, hrest, List.append_nil]
    exact hnone

/-- One press, at the first scan that finds the key alone for long enough. -/
theorem presses_waiting {st : KpLogic} {k : Fin 16} {since : Nat} {scans : List Scan}
    (hwait : Waiting st k since) (room : Room scans) (alone : ∀ x ∈ scans, x.raw = keyBit k)
    (hpast : ∀ x ∈ scans, since ≤ x.time ∧ x.time < since + 2 ^ 32)
    (hlong : ∃ x ∈ scans, since + kpDebounceMs.toNat ≤ x.time) :
    presses (logOf kpStep kpOut st scans) = [press k] := by
  induction scans generalizing st with
  | nil => simp at hlong
  | cons c scans ih =>
    have hstep := kpStep_key hwait.free (.inl hwait.released) (room c List.mem_cons_self)
      (alone c List.mem_cons_self)
    have hroom : Room scans := fun x hx => room x (List.mem_cons_of_mem _ hx)
    have halone : ∀ x ∈ scans, x.raw = keyBit k := fun x hx => alone x (List.mem_cons_of_mem _ hx)
    rw [presses_cons]
    rcases hstep.waits hwait with ⟨hpress, hdown⟩ | ⟨hshort, hnone, hstill⟩
    · rw [hpress, presses_down (hstep.blocked.trans hwait.free) hdown hroom halone]
      rfl
    · have hrest := ih hstill hroom halone (fun x hx => hpast x (List.mem_cons_of_mem _ hx)) (by
        obtain ⟨x, hx, hdue⟩ := hlong
        rcases List.mem_cons.mp hx with rfl | hx
        · rw [hwait.since] at hshort
          exact absurd (le_elapsed hdue (hpast x List.mem_cons_self).2) hshort
        · exact ⟨x, hx, hdue⟩)
      rw [hnone, hrest]
      rfl

def Span (scans : List Scan) : Prop := ∀ a ∈ scans, ∀ b ∈ scans, b.time < a.time + 2 ^ 32

theorem seenAlone_press {before rest : List Scan} {s : Scan} {k : Fin 16}
    (room : Room (before ++ s :: rest)) (ordered : Ordered (before ++ s :: rest))
    (span : Span (before ++ s :: rest)) (hfree : GhostFree before)
    (hreleased : (kpRun before).stable = 0) (alone : ∀ x ∈ s :: rest, x.raw = keyBit k)
    (hlong : ∃ x ∈ rest, s.time + kpDebounceMs.toNat ≤ x.time) :
    presses (logOf kpStep kpOut (kpRun before) (s :: rest)) = [press k] := by
  have hbefore : Room before := fun x hx => room x (List.mem_append_left _ hx)
  have hafter : Room (s :: rest) := fun x hx => room x (List.mem_append_right _ hx)
  have hunblocked := (kpRun_blocked hbefore).mpr hfree
  obtain ⟨-, hrest, hacross⟩ := List.pairwise_append.mp ordered
  by_cases hold : (kpRun before).candidatePending = true ∧ (kpRun before).candidate = keyBit k
  · obtain ⟨first, s', rest', hcand⟩ := kpRun_candidate hbefore hold.1
    have hmem : s' ∈ before := by rw [hcand.split]; simp
    have hwait : Waiting (kpRun before) k s'.time :=
      ⟨hunblocked, hreleased, hold.1, hold.2, hcand.since⟩
    refine presses_waiting hwait hafter alone (fun x hx => ?_) ?_
    · exact ⟨hacross s' hmem x hx,
        span s' (List.mem_append_left _ hmem) x (List.mem_append_right _ hx)⟩
    · obtain ⟨x, hx, hdue⟩ := hlong
      have hle := hacross s' hmem s List.mem_cons_self
      exact ⟨x, List.mem_cons_of_mem _ hx, by omega⟩
  · have hstep := kpStep_key hunblocked (.inl hreleased) (hafter s List.mem_cons_self)
      (alone s List.mem_cons_self)
    obtain ⟨hnone, hwait⟩ := hstep.starts hunblocked hreleased fun hpending hsame =>
      hold ⟨hpending, hsame⟩
    rw [presses_cons, hnone, List.nil_append]
    refine presses_waiting hwait (fun x hx => hafter x (List.mem_cons_of_mem _ hx))
      (fun x hx => alone x (List.mem_cons_of_mem _ hx)) (fun x hx => ?_) hlong
    exact ⟨(List.pairwise_cons.mp hrest).1 x hx, span s (by simp) x (by simp [hx])⟩

theorem kpRun_event {before : List Scan} {c : Scan} (room : Room (before ++ [c])) {e : KpEvent}
    (he : e ∈ eventsAt before c) : ∃ k, e = press k ∨ e = longPress k := by
  have hheld := kpRun_held room.init.1
  have hstep := kpRun_step room
  generalize kpRun (before ++ [c]) = st at hstep
  generalize eventsAt before c = events at hstep he
  cases hstep with
  | quiet => cases he
  | long cand since p hc hpos =>
    rcases hheld with hnone | ⟨k, first, p, rest, hk⟩
    · have hneg : (0 : Int) ≤ -1 := hnone ▸ hpos
      omega
    · have hchar : e = ⟨.longPress, kpIndexToChar (kpRun before).heldIndex⟩ :=
        List.mem_singleton.mp he
      exact ⟨k, .inr (by rw [hchar, hk.index]; rfl)⟩
  | pressed k => exact ⟨k, .inl (List.mem_singleton.mp he)⟩
  | released => cases he

/-- Keypad events are sound and not duplicated, and a key that is seen alone is reported. -/
theorem keypad_events_sound (calls : List Scan) (ordered : Ordered calls) (room : Room calls) :
    (∀ before c after, calls = before ++ c :: after → (eventsAt before c).length ≤ 1 ∧
      ∀ e ∈ eventsAt before c, ∃ k, (e = press k ∧ SeenAlone k before c) ∨
        (e = longPress k ∧ AfterPress k before c)) ∧
    (∀ before c mid d after k, calls = before ++ c :: (mid ++ d :: after) →
      press k ∈ eventsAt before c → press k ∈ eventsAt (before ++ c :: mid) d →
      HeldOther k (before ++ [c]) mid d) ∧
    (∀ before s rest after k, calls = before ++ s :: (rest ++ after) → Span calls →
      GhostFree before → (kpRun before).stable = 0 → (∀ x ∈ s :: rest, x.raw = keyBit k) →
      (∃ x ∈ rest, s.time + kpDebounceMs.toNat ≤ x.time) →
      presses (logOf kpStep kpOut (kpRun before) (s :: rest)) = [press k]) := by
  refine ⟨?_, ?_, ?_⟩
  · rintro before c after rfl
    refine ⟨(kpRun_step room.before).one_event, fun e he => ?_⟩
    obtain ⟨k, rfl | rfl⟩ := kpRun_event room.before he
    · exact ⟨k, .inl ⟨rfl, press_seenAlone room.before ordered.before he⟩⟩
    · exact ⟨k, .inr ⟨rfl, longPress_afterPress room.before ordered.before he⟩⟩
  · rintro before c mid d after k rfl hc hd
    have hsplit : before ++ c :: (mid ++ d :: after) = (before ++ c :: mid) ++ d :: after := by simp
    rw [hsplit] at ordered room
    exact presses_heldOther room.before ordered.before hc hd
  · rintro before s rest after k rfl span hfree hreleased alone hlong
    have hsplit : before ++ s :: (rest ++ after) = (before ++ s :: rest) ++ after := by simp
    rw [hsplit] at ordered room span
    refine seenAlone_press (fun x hx => room x (List.mem_append_left _ hx))
      (List.pairwise_append.mp ordered).1 (fun a ha b hb => ?_) hfree hreleased alone hlong
    exact span a (List.mem_append_left _ ha) b (List.mem_append_left _ hb)

/-- Key 5 is held for a second and a half, then let go. -/
def heldFive : List Scan :=
  [⟨0, keyBit 5, 4⟩, ⟨15, keyBit 5, 4⟩, ⟨1515, keyBit 5, 4⟩, ⟨1520, 0, 4⟩, ⟨1540, 0, 4⟩]

theorem heldFive_press :
    presses (logOf kpStep kpOut (kpRun []) [⟨0, keyBit 5, 4⟩, ⟨15, keyBit 5, 4⟩]) = [press 5] := by
  have hordered : Ordered heldFive := by simp [Ordered, heldFive]
  have hroom : Room heldFive := by simp [Room, heldFive]
  have hspan : Span heldFive := by simp [Span, heldFive]
  refine (keypad_events_sound heldFive hordered hroom).2.2 [] ⟨0, keyBit 5, 4⟩ [⟨15, keyBit 5, 4⟩]
    [⟨1515, keyBit 5, 4⟩, ⟨1520, 0, 4⟩, ⟨1540, 0, 4⟩] 5 rfl hspan ?_ rfl (by simp) ?_
  · intro first m rest h
    simp at h
  · exact ⟨⟨15, keyBit 5, 4⟩, by simp, by decide⟩

end GateAccess
