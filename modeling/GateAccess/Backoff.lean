import GateAccess.NetLink
import GateAccess.Traces

namespace GateAccess

inductive LinkEvent
  | tick (atMs : Nat)
  | lost (atMs : Nat)
  deriving DecidableEq

def linkStep (l : NetLink) : LinkEvent → NetLink
  | .tick t => (netLinkTick l (nowMs t)).1
  | .lost t => onDisconnected l (nowMs t)

/-- The link at the start of an outage: it has just dropped, or the gate has booted and joins for the
first time. -/
inductive OutageStart : NetLink → Nat → Prop
  | dropped (up : NetLink) (t : Nat) : up.wantJoin = true → up.staConnected = true →
      OutageStart (onDisconnected up (nowMs t)) t
  | booted (l : NetLink) (t : Nat) : l.wantJoin = true → l.staConnected = false →
      l.retry = netRetryInit (nowMs t) → OutageStart l t

/-- Ticks that start a connect alternate with reports that it failed. The flag says that a connect is
in flight, the numbers are the failures so far and the time of the last event. -/
inductive Outage (start : NetLink) (t₀ : Nat) : List LinkEvent → Bool → Nat → Nat → Prop
  | began : Outage start t₀ [] false 0 t₀
  | idle {es inFlight failures now} (t : Nat) : Outage start t₀ es inFlight failures now → now ≤ t →
      (netLinkTick (exec linkStep start es) (nowMs t)).2 = false →
      Outage start t₀ (es ++ [.tick t]) inFlight failures t
  | attempt {es failures now} (t : Nat) : Outage start t₀ es false failures now → now ≤ t →
      (netLinkTick (exec linkStep start es) (nowMs t)).2 = true →
      Outage start t₀ (es ++ [.tick t]) true failures t
  | failed {es failures now} (t : Nat) : Outage start t₀ es true failures now → now ≤ t →
      Outage start t₀ (es ++ [.lost t]) false (failures + 1) t

/-- One second, doubled `n` times, up to the ceiling. -/
def backoffMs (n : Nat) : Nat := min (netRetryFirstMs.toNat * 2 ^ n) netRetryMaxMs.toNat

/-- A tick starts the next attempt exactly from `delay` after `t` on. -/
def DueAfter (l : NetLink) (t delay : Nat) : Prop :=
  ∀ T, t ≤ T → T < t + 2 ^ 31 → ((netLinkTick l (nowMs T)).2 = true ↔ t + delay ≤ T)

/-- A link that is down and wanted, with the delay doubled `n` times and the next attempt at `next`. -/
structure BackingOff (l : NetLink) (n next : Nat) : Prop where
  want : l.wantJoin = true
  down : l.staConnected = false
  idle : l.retry.connected = false
  delay : l.retry.delayMs.toNat = backoffMs n
  due : l.retry.nextTryMs = nowMs next

theorem backoffMs_bounds (n : Nat) : 1000 ≤ backoffMs n ∧ backoffMs n ≤ 60000 := by
  have hpos : 1 ≤ 2 ^ n := Nat.one_le_two_pow
  change 1000 ≤ min (1000 * 2 ^ n) 60000 ∧ min (1000 * 2 ^ n) 60000 ≤ 60000
  omega

theorem backoffMs_lt (n : Nat) : backoffMs n < 2 ^ 31 := by
  have hbounds := backoffMs_bounds n
  omega

theorem backoffMs_succ (n : Nat) : backoffMs (n + 1) = min (2 * backoffMs n) 60000 := by
  change min (1000 * 2 ^ (n + 1)) 60000 = min (2 * min (1000 * 2 ^ n) 60000) 60000
  rw [pow_succ]
  omega

/-- The schedule that doubles once a failure and the one that doubles twice meet at the ceiling. -/
theorem backoffMs_eq_iff {k : Nat} (h : 1 ≤ k) : backoffMs (k - 1) = backoffMs (2 * k - 1) ↔ 7 ≤ k := by
  constructor
  · intro heq
    by_contra hfew
    have hdiffer : ∀ k < 7, 1 ≤ k → backoffMs (k - 1) ≠ backoffMs (2 * k - 1) := by decide
    exact hdiffer k (not_le.mp hfew) h heq
  · intro hk
    have hone : 2 ^ 6 ≤ 2 ^ (k - 1) := Nat.pow_le_pow_right (by decide) (by omega)
    have htwo : 2 ^ 6 ≤ 2 ^ (2 * k - 1) := Nat.pow_le_pow_right (by decide) (by omega)
    change min (1000 * 2 ^ (k - 1)) 60000 = min (1000 * 2 ^ (2 * k - 1)) 60000
    omega

theorem netRetryFailed_delay {r : NetRetry} {n : Nat} (nowMs : UInt32)
    (h : r.delayMs.toNat = backoffMs n) :
    (netRetryFailed r nowMs).delayMs.toNat = backoffMs (n + 1) := by
  have hbounds := backoffMs_bounds n
  have hdouble : (r.delayMs * 2).toNat = 2 * r.delayMs.toNat := by
    rw [UInt32.toNat_mul]
    change r.delayMs.toNat * 2 % 2 ^ 32 = _
    omega
  have hkept : ¬r.delayMs * 2 < r.delayMs := by
    rw [UInt32.lt_iff_toNat_lt]
    omega
  have hmax : netRetryMaxMs.toNat = 60000 := rfl
  rw [backoffMs_succ, ← h, netRetryFailed]
  by_cases hover : r.delayMs * 2 > netRetryMaxMs
  · have hbig := UInt32.lt_iff_toNat_lt.mp hover
    simp only [hover, decide_true, Bool.true_or, if_true]
    omega
  · have hsmall := UInt32.lt_iff_toNat_lt.not.mp hover
    simp only [hover, hkept, decide_false, Bool.or_false, Bool.false_eq_true, if_false]
    omega

theorem BackingOff.start {l : NetLink} {t : Nat} (h : OutageStart l t) : BackingOff l 0 t := by
  cases h with
  | dropped up t hwant hup =>
    have hdrop : onDisconnected up (nowMs t) =
        { up with staConnected := false, staFail := true, retry := netRetryDisconnected (nowMs t) } := by
      simp [onDisconnected, hwant, hup]
    rw [hdrop]
    exact ⟨hwant, rfl, rfl, rfl, rfl⟩
  | booted l t hwant hdown hretry =>
    refine ⟨hwant, hdown, ?_, ?_, ?_⟩
    all_goals rw [hretry]; rfl

theorem BackingOff.failed {l : NetLink} {n next : Nat} (h : BackingOff l n next) (t : Nat) :
    BackingOff { l with retry := netRetryFailed l.retry (nowMs t) } (n + 1) (t + backoffMs n) :=
  ⟨h.want, h.down, rfl, netRetryFailed_delay _ h.delay, by
    rw [← h.delay]
    exact nowMs_add t l.retry.delayMs⟩

theorem netLinkTick_due {l : NetLink} {n next t : Nat} (h : BackingOff l n next) :
    netLinkTick l (nowMs t) =
      if signed (nowMs t - nowMs next) ≥ 0 then
        ({ l with retry := netRetryFailed l.retry (nowMs t) }, true)
      else (l, false) := by
  simp [netLinkTick, netRetryDue, h.want, h.down, h.idle, h.due]

theorem onDisconnected_down {l : NetLink} {n next t : Nat} (h : BackingOff l n next) :
    BackingOff (onDisconnected l (nowMs t)) (n + 1) (t + backoffMs n) := by
  have hfail : onDisconnected l (nowMs t) =
      { l with staConnected := false, staFail := true, retry := netRetryFailed l.retry (nowMs t) } := by
    simp [onDisconnected, h.want, h.down]
  have hnext := h.failed t
  rw [hfail]
  exact ⟨hnext.want, rfl, hnext.idle, hnext.delay, hnext.due⟩

/-- The tick that starts a connect counts as a failure of it, and so does the report. -/
theorem Outage.backingOff {start : NetLink} {t₀ : Nat} (hstart : OutageStart start t₀)
    {es : List LinkEvent} {inFlight : Bool} {failures now : Nat}
    (h : Outage start t₀ es inFlight failures now) :
    ∃ next, BackingOff (exec linkStep start es) (2 * failures + inFlight.toNat) next := by
  induction h with
  | began => exact ⟨t₀, BackingOff.start hstart⟩
  | idle t _ _ hidle ih =>
    obtain ⟨next, hb⟩ := ih
    refine ⟨next, ?_⟩
    rw [exec_concat, linkStep]
    rw [netLinkTick_due hb] at hidle ⊢
    split_ifs at hidle ⊢ with hdue
    exact hb
  | attempt t _ _ hstarts ih =>
    obtain ⟨next, hb⟩ := ih
    rw [exec_concat, linkStep]
    rw [netLinkTick_due hb] at hstarts ⊢
    split_ifs at hstarts ⊢ with hdue
    exact ⟨_, hb.failed t⟩
  | failed t _ _ ih =>
    obtain ⟨next, hb⟩ := ih
    rw [exec_concat, linkStep]
    exact ⟨_, onDisconnected_down hb⟩

theorem Outage.lost {start : NetLink} {t₀ t : Nat} {before : List LinkEvent} {inFlight : Bool}
    {failures now : Nat} (h : Outage start t₀ (before ++ [.lost t]) inFlight failures now) :
    ∃ k now', failures = k + 1 ∧ Outage start t₀ before true k now' := by
  generalize hes : before ++ [.lost t] = es at h
  cases h with
  | began => simp at hes
  | idle u _ _ _ => simp at hes
  | attempt u _ _ _ => simp at hes
  | failed u hbefore hle =>
    obtain ⟨rfl, -⟩ := List.append_inj' hes rfl
    exact ⟨_, _, rfl, hbefore⟩

theorem BackingOff.dueAfter {l : NetLink} {n t delay : Nat} (h : BackingOff l n (t + delay))
    (hdelay : delay < 2 ^ 31) : DueAfter l t delay := by
  intro T hT hnear
  have hnear' : t + delay ≤ T + 2 ^ 31 := by omega
  have hlap : ¬Lapped (t + delay) T := by
    unfold Lapped
    omega
  have hdue : signed (nowMs T - nowMs (t + delay)) ≥ 0 ↔ t + delay ≤ T :=
    (signed_nonneg_iff hnear').trans (and_iff_left hlap)
  rw [netLinkTick_due h, ← hdue]
  split_ifs with hlate
  · simp [hlate]
  · simp [hlate]

theorem DueAfter.unique {l : NetLink} {t a b : Nat} (ha : DueAfter l t a) (hb : DueAfter l t b)
    (hsmall : a < 2 ^ 31) (hsmall' : b < 2 ^ 31) : a = b := by
  have hab := (hb (t + a) (by omega) (by omega)).mp ((ha (t + a) (by omega) (by omega)).mpr le_rfl)
  have hba := (ha (t + b) (by omega) (by omega)).mp ((hb (t + b) (by omega) (by omega)).mpr le_rfl)
  omega

/-- However late, some tick starts another attempt. -/
theorem BackingOff.starts {l : NetLink} {n next : Nat} (h : BackingOff l n next) (t : Nat) :
    ∃ T, t ≤ T ∧ (netLinkTick l (nowMs T)).2 = true := by
  refine ⟨next + 2 ^ 32 * t, by omega, ?_⟩
  have hwrap : nowMs (next + 2 ^ 32 * t) = nowMs next := by
    apply UInt32.toNat_inj.mp
    rw [nowMs, nowMs, UInt32.toNat_ofNat', UInt32.toNat_ofNat', Nat.add_mul_mod_self_left]
  rw [netLinkTick_due h, hwrap, UInt32.sub_self]
  rfl

/-- The delay stays within its bounds and the gate never gives up, but the wait after the `k`-th
failure has doubled twice for each, so that it is the specified one only from the seventh on. -/
theorem outage_backoff_iff (start : NetLink) (t₀ : Nat) (es : List LinkEvent) (inFlight : Bool)
    (k now : Nat) (hstart : OutageStart start t₀) (h : Outage start t₀ es inFlight k now) :
    (netRetryFirstMs ≤ (exec linkStep start es).retry.delayMs ∧
      (exec linkStep start es).retry.delayMs ≤ netRetryMaxMs) ∧
    (∀ t, ∃ T, t ≤ T ∧ (netLinkTick (exec linkStep start es) (nowMs T)).2 = true) ∧
    ∀ before t, es = before ++ [.lost t] →
      DueAfter (exec linkStep start es) t (backoffMs (2 * k - 1)) ∧
      (DueAfter (exec linkStep start es) t (backoffMs (k - 1)) ↔ 7 ≤ k) := by
  obtain ⟨next, hb⟩ := h.backingOff hstart
  have hbounds := backoffMs_bounds (2 * k + inFlight.toNat)
  refine ⟨⟨?_, ?_⟩, hb.starts, ?_⟩
  · rw [UInt32.le_iff_toNat_le, hb.delay]
    exact hbounds.1
  · rw [UInt32.le_iff_toNat_le, hb.delay]
    exact hbounds.2
  · rintro before t rfl
    obtain ⟨failed, now', rfl, hbefore⟩ := h.lost
    obtain ⟨next', hb'⟩ := hbefore.backingOff hstart
    have hafter := onDisconnected_down (t := t) hb'
    have hindex : 2 * (failed + 1) - 1 = 2 * failed + true.toNat := by
      rw [Bool.toNat_true]
      omega
    have hdue : DueAfter (exec linkStep start (before ++ [.lost t])) t
        (backoffMs (2 * (failed + 1) - 1)) := by
      rw [exec_concat, hindex]
      exact hafter.dueAfter (backoffMs_lt _)
    refine ⟨hdue, ?_⟩
    rw [← backoffMs_eq_iff (Nat.succ_pos failed)]
    constructor
    · intro hspec
      exact hspec.unique hdue (backoffMs_lt _) (backoffMs_lt _)
    · intro heq
      rw [heq]
      exact hdue

theorem outage_backoff_dropped :
    DueAfter (exec linkStep (onDisconnected linkUp (nowMs 0)) [.tick 0, .lost 10]) 10 2000 :=
  ((outage_backoff_iff (onDisconnected linkUp (nowMs 0)) 0 [.tick 0, .lost 10] false 1 10
    (.dropped linkUp 0 rfl rfl) (.failed 10 (.attempt 0 .began le_rfl (by decide)) (by decide))).2.2
    [.tick 0] 10 rfl).1

/-- After the first failure the gate waits two seconds, not one. -/
theorem first_failure_waits_double :
    Outage (onDisconnected linkUp (nowMs 0)) 0 [.tick 0, .lost 10] false 1 10 ∧
      ¬DueAfter (exec linkStep (onDisconnected linkUp (nowMs 0)) [.tick 0, .lost 10]) 10 1000 := by
  refine ⟨.failed 10 (.attempt 0 .began le_rfl (by decide)) (by decide), fun hdue => ?_⟩
  have hstarts := (hdue 1010 (by decide) (by decide)).mpr le_rfl
  revert hstarts
  decide

end GateAccess
