import GateAccess.CoilProtected

namespace GateAccess

/-- How long after a pulse starts the next may start. -/
def lockSpan (pulseMs : UInt32) : Nat := (lockLogicInit pulseMs).pulseMs.toNat + lockCooldownMs.toNat

def requestAnswer (p : LockLogic × LockCall) : Option (Nat × Bool) :=
  match p.2 with
  | .request t => some (t, (lockLogicRequest p.1 (UInt32.ofNat t)).2)
  | _ => none

/-- The requests of a run, each with what it returned. -/
def requestAnswers (pulseMs : UInt32) (calls : List LockCall) : List (Nat × Bool) :=
  (trace lockStep (lockLogicInit pulseMs) calls).filterMap requestAnswer

def LockCall.requestTime : LockCall → Option Nat
  | .request t => some t
  | _ => none

/-- The plain time rule, with the last accepted request. -/
def RuleAccepts (span : Nat) (last : Option Nat) (now : Nat) : Prop := ∀ s, last = some s → s + span ≤ now

/-- Every request of the run is answered by the plain time rule. -/
def FollowsRule (pulseMs : UInt32) (calls : List LockCall) : Prop :=
  ∀ before t after, calls = before ++ .request t :: after →
    ((lockLogicRequest (lockRun pulseMs before) (UInt32.ofNat t)).2 = true ↔
      RuleAccepts (lockSpan pulseMs) (acceptedTimes pulseMs before).getLast? t)

section

variable (pulseMs : UInt32) (s : Nat)

/-- A call that finds the pulse started at `s` over. -/
def EndsPulse (c : LockCall) : Prop :=
  c.drives = true ∧ (lockLogicInit pulseMs).pulseMs.toNat ≤ (c.time - s) % 2 ^ 32

/-- A call that finds the cooldown after that pulse over: not too long after, or the comparison
takes its end for a time still ahead. -/
def EndsCooldown (c : LockCall) : Prop :=
  c.drives = true ∧ s + lockSpan pulseMs ≤ c.time ∧ (c.time - (s + lockSpan pulseMs)) % 2 ^ 32 ≤ 2 ^ 31

/-- Two calls took the state machine from the pulse through the cooldown: it makes one move a call. -/
def Woken (calls : List LockCall) : Prop :=
  ∃ before c₁ mid c₂ after, calls = before ++ c₁ :: (mid ++ c₂ :: after) ∧
    EndsPulse pulseMs s c₁ ∧ EndsCooldown pulseMs s c₂

end

/-- The request at `s` was accepted, and none since. -/
def LastPulse (pulseMs : UInt32) (first : List LockCall) (s : Nat) (mid : List LockCall) : Prop :=
  (lockLogicRequest (lockRun pulseMs first) (UInt32.ofNat s)).2 = true ∧
    ∀ p ∈ trace lockStep (lockRun pulseMs (first ++ [.request s])) mid, acceptedAt p = none

/-- Every request that is due finds the state machine woken for it, if only by itself. -/
def WokenInTime (pulseMs : UInt32) (calls : List LockCall) : Prop :=
  ∀ first s mid t after, calls = first ++ .request s :: (mid ++ .request t :: after) →
    LastPulse pulseMs first s mid → s + lockSpan pulseMs ≤ t → Woken pulseMs s (mid ++ [.request t])

variable {pulseMs : UInt32} {s : Nat}

theorem Woken.concat {calls : List LockCall} (h : Woken pulseMs s calls) (c : LockCall) :
    Woken pulseMs s (calls ++ [c]) := by
  obtain ⟨before, c₁, mid, c₂, after, rfl, h₁, h₂⟩ := h
  exact ⟨before, c₁, mid, c₂, after ++ [c], by simp, h₁, h₂⟩

theorem woken_concat_iff {calls : List LockCall} {c : LockCall} :
    Woken pulseMs s (calls ++ [c]) ↔
      Woken pulseMs s calls ∨ (∃ c₁ ∈ calls, EndsPulse pulseMs s c₁) ∧ EndsCooldown pulseMs s c := by
  constructor
  · rintro ⟨before, c₁, mid, c₂, after, hcalls, h₁, h₂⟩
    rcases List.eq_nil_or_concat after with rfl | ⟨after, d, rfl⟩
    · have hsplit : calls ++ [c] = (before ++ c₁ :: mid) ++ [c₂] := by rw [hcalls]; simp
      obtain ⟨rfl, hc⟩ := List.append_inj' hsplit rfl
      rw [List.singleton_inj.mp hc]
      exact .inr ⟨⟨c₁, by simp, h₁⟩, h₂⟩
    · have hsplit : calls ++ [c] = (before ++ c₁ :: (mid ++ c₂ :: after)) ++ [d] := by
        rw [hcalls]
        simp
      obtain ⟨rfl, -⟩ := List.append_inj' hsplit rfl
      exact .inl ⟨before, c₁, mid, c₂, after, rfl, h₁, h₂⟩
  · rintro (h | ⟨⟨c₁, hmem, h₁⟩, h₂⟩)
    · exact h.concat c
    · obtain ⟨before, mid, rfl⟩ := List.append_of_mem hmem
      exact ⟨before, c₁, mid, c, [], by simp, h₁, h₂⟩

/-- What the state says, after the pulse started at `s`, of the calls since. -/
def PhaseSince (pulseMs : UInt32) (s : Nat) (calls : List LockCall) (st : LockLogic) : Prop :=
  match st.state with
  | .pulsing => st.pulseStartedMs = UInt32.ofNat s ∧ ∀ c ∈ calls, ¬EndsPulse pulseMs s c
  | .cooldown => st.cooldownUntilMs = UInt32.ofNat (s + lockSpan pulseMs) ∧
      (∃ c ∈ calls, EndsPulse pulseMs s c) ∧ ¬Woken pulseMs s calls
  | .idle => Woken pulseMs s calls

theorem PhaseSince.idle_iff {calls : List LockCall} {st : LockLogic} (h : PhaseSince pulseMs s calls st) :
    st.state = .idle ↔ Woken pulseMs s calls := by
  unfold PhaseSince at h
  split at h
  next hs =>
    refine iff_of_false (by simp [hs]) fun ⟨before, c₁, mid, c₂, after, hcalls, h₁, _⟩ => ?_
    exact h.2 c₁ (by simp [hcalls]) h₁
  next hs => exact iff_of_false (by simp [hs]) h.2.2
  next hs => exact iff_of_true hs h

theorem cooled_iff {until_ t : Nat} (h : until_ < t + 2 ^ 31) :
    signed (UInt32.ofNat until_ - UInt32.ofNat t) ≤ 0 ↔ until_ ≤ t ∧ (t - until_) % 2 ^ 32 ≤ 2 ^ 31 := by
  rw [← Int.not_lt, signed_pos_iff (by omega)]
  omega

theorem lockSpan_le (pulseMs : UInt32) :
    (lockLogicInit pulseMs).pulseMs.toNat ≤ lockSpan pulseMs ∧ lockSpan pulseMs ≤ 4000 := by
  have hpulse := UInt32.le_iff_toNat_le.mp (lockLogicInit_pulse pulseMs)
  have hmax : lockMaxPulseMs.toNat = 1000 := rfl
  have hcooldown : lockCooldownMs.toNat = 3000 := rfl
  unfold lockSpan
  omega

theorem PhaseSince.tick {calls : List LockCall} {st : LockLogic} (h : PhaseSince pulseMs s calls st)
    (hpulse : st.pulseMs = (lockLogicInit pulseMs).pulseMs) {c : LockCall} (hc : c.drives = true)
    (hle : s ≤ c.time) :
    PhaseSince pulseMs s (calls ++ [c]) (lockLogicTick st (UInt32.ofNat c.time)) := by
  obtain ⟨-, hspan⟩ := lockSpan_le pulseMs
  have ends (hstart : st.pulseStartedMs = UInt32.ofNat s) :
      EndsPulse pulseMs s c ↔ st.pulseMs ≤ UInt32.ofNat c.time - st.pulseStartedMs := by
    rw [hstart, span_le_iff hle, hpulse, EndsPulse, and_iff_right hc]
  have cools (huntil : st.cooldownUntilMs = UInt32.ofNat (s + lockSpan pulseMs)) :
      EndsCooldown pulseMs s c ↔ signed (st.cooldownUntilMs - UInt32.ofNat c.time) ≤ 0 := by
    rw [huntil, cooled_iff (by omega), EndsCooldown, and_iff_right hc]
  cases hs : st.state with
  | pulsing =>
    simp only [PhaseSince, hs] at h
    obtain ⟨hstart, hnone⟩ := h
    simp only [lockLogicTick, hs, elapsed, ge_iff_le, decide_eq_true_eq]
    split
    next hends =>
      refine ⟨?_, ⟨c, by simp, (ends hstart).mpr hends⟩, fun hwoken => ?_⟩
      · simp only [hstart, hpulse, lockSpan, ← Nat.add_assoc]
        rw [UInt32.ofNat_add, UInt32.ofNat_add, UInt32.ofNat_toNat, UInt32.ofNat_toNat]
      · rcases woken_concat_iff.mp hwoken with ⟨before, c₁, mid, c₂, after, hcalls, h₁, _⟩ |
          ⟨⟨c₁, hmem, h₁⟩, _⟩
        · exact hnone c₁ (by simp [hcalls]) h₁
        · exact hnone c₁ hmem h₁
    next hends =>
      simp only [PhaseSince, hs]
      refine ⟨hstart, fun d hd => ?_⟩
      rcases List.mem_append.mp hd with hd | hd
      · exact hnone d hd
      · rw [List.mem_singleton.mp hd, ends hstart]
        exact hends
  | cooldown =>
    simp only [PhaseSince, hs] at h
    obtain ⟨huntil, hended, hasleep⟩ := h
    simp only [lockLogicTick, hs]
    split
    next hcools => exact woken_concat_iff.mpr (.inr ⟨hended, (cools huntil).mpr hcools⟩)
    next hcools =>
      obtain ⟨c₁, hmem, h₁⟩ := hended
      simp only [PhaseSince, hs]
      refine ⟨huntil, ⟨c₁, by simp [hmem], h₁⟩, fun hwoken => ?_⟩
      rcases woken_concat_iff.mp hwoken with hbefore | ⟨_, h₂⟩
      · exact hasleep hbefore
      · exact hcools ((cools huntil).mp h₂)
  | idle =>
    simp only [PhaseSince, hs] at h
    simp only [lockLogicTick, hs, PhaseSince]
    exact h.concat c

theorem PhaseSince.output {calls : List LockCall} {st : LockLogic} (h : PhaseSince pulseMs s calls st)
    (t : Nat) : PhaseSince pulseMs s (calls ++ [.output t]) st := by
  have hends : ¬EndsPulse pulseMs s (.output t) := fun h => by cases h.1
  have hcools : ¬EndsCooldown pulseMs s (.output t) := fun h => by cases h.1
  unfold PhaseSince at h ⊢
  split at h
  next hs =>
    refine ⟨h.1, fun c hc => ?_⟩
    rcases List.mem_append.mp hc with hc | hc
    · exact h.2 c hc
    · rw [List.mem_singleton.mp hc]
      exact hends
  next hs =>
    obtain ⟨huntil, ⟨c₁, hmem, h₁⟩, hasleep⟩ := h
    refine ⟨huntil, ⟨c₁, by simp [hmem], h₁⟩, fun hwoken => ?_⟩
    rcases woken_concat_iff.mp hwoken with hbefore | ⟨_, h₂⟩
    · exact hasleep hbefore
    · exact hcools h₂
  next hs => exact h.concat _

theorem lockLogicRequest_accepts {st : LockLogic} {nowMs : UInt32} :
    (lockLogicRequest st nowMs).2 = true ↔ (lockLogicTick st nowMs).state = .idle := by
  unfold lockLogicRequest
  by_cases h : (lockLogicTick st nowMs).state = .idle <;> simp [h]

theorem acceptedAt_request {st : LockLogic} {t : Nat} :
    acceptedAt (st, .request t) = none ↔ (lockLogicTick st (UInt32.ofNat t)).state ≠ .idle := by
  rw [ne_eq, ← lockLogicRequest_accepts]
  simp [acceptedAt]

theorem LastPulse.concat_iff {first mid : List LockCall} {c : LockCall} :
    LastPulse pulseMs first s (mid ++ [c]) ↔
      LastPulse pulseMs first s mid ∧ acceptedAt (lockRun pulseMs (first ++ .request s :: mid), c) = none := by
  have hstate : lockRun pulseMs (first ++ .request s :: mid) =
      exec lockStep (lockRun pulseMs (first ++ [.request s])) mid :=
    exec_split _ _ _ _ _
  rw [hstate, LastPulse, LastPulse, trace_concat, and_assoc]
  simp only [List.mem_append, List.mem_singleton, or_imp, forall_and, forall_eq]

theorem LastPulse.acceptedTimes {first mid : List LockCall} (h : LastPulse pulseMs first s mid) :
    acceptedTimes pulseMs (first ++ .request s :: mid) = acceptedTimes pulseMs first ++ [s] := by
  induction mid using List.reverseRecOn with
  | nil =>
    have hat : acceptedAt (lockRun pulseMs first, .request s) = some s := by simp [acceptedAt, h.1]
    rw [acceptedTimes_concat, hat]
    rfl
  | append_singleton mid c ih =>
    obtain ⟨hbefore, hnone⟩ := LastPulse.concat_iff.mp h
    rw [← List.cons_append, ← List.append_assoc, acceptedTimes_concat, hnone, ih hbefore]
    simp

/-- The last accepted request splits the run. -/
theorem lastPulse_exists {calls : List LockCall} (h : (acceptedTimes pulseMs calls).getLast? = some s) :
    ∃ first mid, calls = first ++ .request s :: mid ∧ LastPulse pulseMs first s mid := by
  induction calls using List.reverseRecOn with
  | nil => simp [GateAccess.acceptedTimes] at h
  | append_singleton calls c ih =>
    rw [acceptedTimes_concat] at h
    cases hat : acceptedAt (lockRun pulseMs calls, c) with
    | none =>
      simp only [hat, Option.toList_none, List.append_nil] at h
      obtain ⟨first, mid, rfl, hlast⟩ := ih h
      exact ⟨first, mid ++ [c], by simp, LastPulse.concat_iff.mpr ⟨hlast, hat⟩⟩
    | some t =>
      simp only [hat, Option.toList_some, List.getLast?_append, List.getLast?_singleton,
        Option.some_or, Option.some.injEq] at h
      subst h
      cases c with
      | request u =>
        simp only [acceptedAt] at hat
        split at hat
        next haccepted =>
          obtain rfl := Option.some.inj hat
          exact ⟨calls, [], rfl, haccepted, by simp⟩
        next => cases hat
      | tick u | output u => cases hat

/-- With nothing accepted yet the lock is idle. -/
theorem lockRun_idle {calls : List LockCall} (h : acceptedTimes pulseMs calls = []) :
    (lockRun pulseMs calls).state = .idle := by
  induction calls using List.reverseRecOn with
  | nil => rfl
  | append_singleton calls c ih =>
    rw [acceptedTimes_concat, List.append_eq_nil_iff] at h
    have hidle := ih h.1
    have htick (t : Nat) : (lockLogicTick (lockRun pulseMs calls) (UInt32.ofNat t)).state = .idle := by
      simp only [lockLogicTick, hidle]
    rw [lockRun, exec_concat]
    cases c with
    | request t =>
      have hnone := acceptedAt_request.mp (Option.toList_eq_nil_iff.mp h.2)
      exact absurd (htick t) hnone
    | tick t => exact htick t
    | output t => exact hidle

/-- Since the last accepted request, the state machine is where the calls have taken it. -/
theorem phaseSince {first mid : List LockCall} (horder : CallsInOrder (first ++ .request s :: mid))
    (h : LastPulse pulseMs first s mid) :
    PhaseSince pulseMs s mid (lockRun pulseMs (first ++ .request s :: mid)) := by
  induction mid using List.reverseRecOn with
  | nil =>
    have hidle := lockLogicRequest_accepts.mp h.1
    rw [lockRun, exec_concat]
    simp only [lockStep, lockLogicRequest, hidle, ne_eq, not_true, if_false, PhaseSince]
    exact ⟨trivial, by simp⟩
  | append_singleton mid c ih =>
    obtain ⟨hbefore, hnone⟩ := LastPulse.concat_iff.mp h
    rw [← List.cons_append, ← List.append_assoc] at horder ⊢
    obtain ⟨horder', hlast⟩ := horder.concat
    have hle : s ≤ c.time := hlast (.request s) (by simp)
    have hphase := ih horder' hbefore
    have hpulse := lockRun_pulseMs pulseMs (first ++ .request s :: mid)
    rw [lockRun, exec_concat]
    cases c with
    | output t => exact hphase.output t
    | tick t => exact hphase.tick hpulse rfl hle
    | request t =>
      have htick := hphase.tick hpulse (c := .request t) rfl hle
      simp only [lockStep, lockLogicRequest, if_pos (acceptedAt_request.mp hnone)]
      exact htick

/-- A request is accepted exactly when the machine has been woken since the last pulse. -/
theorem accepted_iff_woken {first mid : List LockCall} {t : Nat}
    (horder : CallsInOrder (first ++ .request s :: mid ++ [.request t]))
    (h : LastPulse pulseMs first s mid) :
    (lockLogicRequest (lockRun pulseMs (first ++ .request s :: mid)) (UInt32.ofNat t)).2 = true ↔
      Woken pulseMs s (mid ++ [.request t]) := by
  obtain ⟨horder', hlast⟩ := horder.concat
  have hle : s ≤ t := hlast (.request s) (by simp)
  rw [lockLogicRequest_accepts]
  exact ((phaseSince horder' h).tick (lockRun_pulseMs _ _) (c := .request t) rfl hle).idle_iff

theorem Woken.due {first mid : List LockCall} {t : Nat}
    (horder : CallsInOrder (first ++ .request s :: mid ++ [.request t]))
    (h : Woken pulseMs s (mid ++ [.request t])) : s + lockSpan pulseMs ≤ t := by
  obtain ⟨before, c₁, between, c₂, after, hcalls, -, -, hdue, -⟩ := h
  have hmem : c₂ ∈ mid ++ [.request t] := by rw [hcalls]; simp
  obtain ⟨-, hlast⟩ := horder.concat
  refine hdue.trans ?_
  rcases List.mem_append.mp hmem with hmem | hmem
  · exact hlast c₂ (by simp [hmem])
  · rw [List.mem_singleton.mp hmem]
    rfl

theorem followsRule_iff {calls : List LockCall} (horder : CallsInOrder calls) :
    FollowsRule pulseMs calls ↔ WokenInTime pulseMs calls := by
  constructor
  · intro hrule first s mid t after hcalls hlast hdue
    have hsplit : calls = (first ++ .request s :: mid) ++ .request t :: after := by rw [hcalls]; simp
    have horder' : CallsInOrder (first ++ .request s :: mid ++ [.request t]) := by
      rw [hsplit, List.append_cons] at horder
      exact horder.of_append
    rw [← accepted_iff_woken horder' hlast, hrule _ t after hsplit, hlast.acceptedTimes]
    intro r hr
    simp only [List.getLast?_append, List.getLast?_singleton, Option.some_or, Option.some.injEq] at hr
    rwa [← hr]
  · intro hwoken before t after hcalls
    have horder' : CallsInOrder (before ++ [.request t]) := by
      rw [hcalls, List.append_cons] at horder
      exact horder.of_append
    cases hlast : (acceptedTimes pulseMs before).getLast? with
    | none =>
      have hidle := lockRun_idle (List.getLast?_eq_none_iff.mp hlast)
      refine iff_of_true (lockLogicRequest_accepts.mpr ?_) fun r hr => by cases hr
      simp only [lockLogicTick, hidle]
    | some s =>
      obtain ⟨first, mid, rfl, hpulse⟩ := lastPulse_exists hlast
      rw [accepted_iff_woken horder' hpulse]
      constructor
      · rintro h r hr
        obtain rfl := Option.some.inj hr
        exact h.due horder'
      · intro hdue
        exact hwoken first s mid t after (by rw [hcalls]; simp) hpulse (hdue s rfl)

/-- The accepted ones among answered requests. -/
def acceptedOf (answers : List (Nat × Bool)) : List Nat :=
  answers.filterMap fun a => if a.2 then some a.1 else none

/-- What the plain time rule makes of the requests alone. -/
def ruleStep (span : Nat) (answers : List (Nat × Bool)) (t : Nat) : List (Nat × Bool) :=
  answers ++ [(t, match (acceptedOf answers).getLast? with
    | none => true
    | some s => s + span ≤ t)]

theorem requestAnswers_concat (calls : List LockCall) (c : LockCall) :
    requestAnswers pulseMs (calls ++ [c]) =
      requestAnswers pulseMs calls ++ (requestAnswer (lockRun pulseMs calls, c)).toList := by
  unfold requestAnswers
  rw [trace_concat, List.filterMap_append]
  cases h : requestAnswer (lockRun pulseMs calls, c) <;> simp [h]

theorem acceptedOf_requestAnswers (calls : List LockCall) :
    acceptedOf (requestAnswers pulseMs calls) = acceptedTimes pulseMs calls := by
  unfold acceptedOf requestAnswers acceptedTimes
  rw [List.filterMap_filterMap]
  congr 1
  funext ⟨st, c⟩
  cases c <;> simp [requestAnswer, acceptedAt]

theorem FollowsRule.of_append {before after : List LockCall}
    (h : FollowsRule pulseMs (before ++ after)) : FollowsRule pulseMs before := by
  rintro first t rest rfl
  exact h first t (rest ++ after) (by simp)

theorem FollowsRule.concat {calls : List LockCall} {c : LockCall} (h : FollowsRule pulseMs calls)
    (hlast : ∀ t, c = .request t →
      ((lockLogicRequest (lockRun pulseMs calls) (UInt32.ofNat t)).2 = true ↔
        RuleAccepts (lockSpan pulseMs) (acceptedTimes pulseMs calls).getLast? t)) :
    FollowsRule pulseMs (calls ++ [c]) := by
  intro before t after hcalls
  rcases List.eq_nil_or_concat after with rfl | ⟨after, d, rfl⟩
  · obtain ⟨rfl, hc⟩ := List.append_inj' hcalls rfl
    exact hlast t (List.singleton_inj.mp hc)
  · have hsplit : calls ++ [c] = (before ++ .request t :: after) ++ [d] := by rw [hcalls]; simp
    obtain ⟨rfl, -⟩ := List.append_inj' hsplit rfl
    exact h before t after rfl

/-- The rule is followed exactly when the answers are what it makes of the times of the requests. -/
theorem followsRule_iff_answers {calls : List LockCall} :
    FollowsRule pulseMs calls ↔ requestAnswers pulseMs calls =
      (calls.filterMap LockCall.requestTime).foldl (ruleStep (lockSpan pulseMs)) [] := by
  induction calls using List.reverseRecOn with
  | nil =>
    refine iff_of_true (fun before t after hcalls => ?_) rfl
    simp at hcalls
  | append_singleton calls c ih =>
    have hskip (hc : ∀ u, c ≠ .request u) :
        FollowsRule pulseMs (calls ++ [c]) ↔ FollowsRule pulseMs calls :=
      ⟨FollowsRule.of_append, fun h => h.concat fun u hu => absurd hu (hc u)⟩
    rw [requestAnswers_concat, List.filterMap_append, List.foldl_append]
    cases c with
    | tick t | output t =>
      rw [hskip (by simp), ih]
      change _ ↔ requestAnswers pulseMs calls ++ [] = _
      rw [List.append_nil]
      rfl
    | request t =>
      have hrule : RuleAccepts (lockSpan pulseMs) (acceptedTimes pulseMs calls).getLast? t ↔
          (match (acceptedOf (requestAnswers pulseMs calls)).getLast? with
            | none => true
            | some s => decide (s + lockSpan pulseMs ≤ t)) = true := by
        rw [acceptedOf_requestAnswers]
        cases (acceptedTimes pulseMs calls).getLast? <;> simp [RuleAccepts]
      change _ ↔ requestAnswers pulseMs calls ++ [(t, _)] = ruleStep _ _ t
      constructor
      · intro h
        have hlast := h calls t [] rfl
        rw [← ih.mp h.of_append, ruleStep]
        congr 3
        rw [Bool.eq_iff_iff, hlast, hrule]
      · intro h
        obtain ⟨hbefore, hlast⟩ := List.append_inj' h rfl
        have hanswer := congrArg Prod.snd (List.singleton_inj.mp hlast)
        refine (ih.mpr hbefore).concat fun u hu => ?_
        cases hu
        rw [hrule, hbefore, ← Bool.eq_iff_iff]
        exact hanswer

/-- Two runs with the same requests answer them by the plain time rule, and so alike, exactly when
in both every request that is due finds the state machine woken. -/
theorem lock_request_iff (pulseMs : UInt32) (calls calls' : List LockCall)
    (horder : CallsInOrder calls) (horder' : CallsInOrder calls')
    (hsame : calls.filterMap LockCall.requestTime = calls'.filterMap LockCall.requestTime) :
    (FollowsRule pulseMs calls ∧ FollowsRule pulseMs calls' ∧
        requestAnswers pulseMs calls = requestAnswers pulseMs calls') ↔
      WokenInTime pulseMs calls ∧ WokenInTime pulseMs calls' := by
  rw [← followsRule_iff horder, ← followsRule_iff horder']
  constructor
  · rintro ⟨h, h', -⟩
    exact ⟨h, h'⟩
  · rintro ⟨h, h'⟩
    refine ⟨h, h', ?_⟩
    rw [followsRule_iff_answers.mp h, followsRule_iff_answers.mp h', hsame]

theorem lock_request_ticked : WokenInTime 800 [.request 0, .tick 900, .request 3800] ∧
    WokenInTime 800 [.request 0, .tick 800, .tick 3000, .request 3800] :=
  (lock_request_iff 800 [.request 0, .tick 900, .request 3800]
    [.request 0, .tick 800, .tick 3000, .request 3800] (by unfold CallsInOrder; decide)
    (by unfold CallsInOrder; decide) rfl).mp
    ⟨followsRule_iff_answers.mpr (by decide), followsRule_iff_answers.mpr (by decide), by decide⟩

/-- With no tick in between, a request that is due is refused; with one, it is accepted. -/
theorem due_request_refused :
    CallsInOrder [.request 0, .request 3800] ∧ ¬FollowsRule 800 [.request 0, .request 3800] ∧
      CallsInOrder [.request 0, .tick 800, .request 3800] ∧
      requestAnswers 800 [.request 0, .request 3800] = [(0, true), (3800, false)] ∧
      requestAnswers 800 [.request 0, .tick 800, .request 3800] = [(0, true), (3800, true)] := by
  refine ⟨by unfold CallsInOrder; decide, ?_, by unfold CallsInOrder; decide, by decide, by decide⟩
  rw [followsRule_iff_answers]
  decide

end GateAccess
