import GateAccess.TgPoll
import GateAccess.Traces

namespace GateAccess

/-- The calls on a courier between one `tg_poll_init` and the next, with their true times. -/
inductive TgPollEvent
  | ok (t : Nat)
  | failed (t : Nat)
  | fatal
  | consume (updateId : Nat)
  | persisted
  deriving DecidableEq

def tgPollStep (ctx : TgPollCtx) : TgPollEvent → TgPollCtx
  | .ok t => tgPollOk ctx (nowMs t)
  | .failed t => tgPollFailed ctx (nowMs t)
  | .fatal => tgPollFatal ctx
  | .consume updateId => (tgPollConsume ctx updateId).1
  | .persisted => tgPollPersisted ctx

abbrev tgPollRun (storedOffset start : Nat) (es : List TgPollEvent) : TgPollCtx :=
  exec tgPollStep (tgPollInit storedOffset (nowMs start)) es

/-- The calls that set a new deadline. -/
def TgPollEvent.reschedules : TgPollEvent → Bool
  | .ok _ | .failed _ => true
  | _ => false

/-- What comes at true times between two moments; the calls that read no clock come at any. -/
def TgPollEvent.Within (t T : Nat) : TgPollEvent → Prop
  | .ok t' | .failed t' => t ≤ t' ∧ t' ≤ T
  | _ => True

def countFailure (k : Nat) : TgPollEvent → Nat
  | .ok _ => 0
  | .failed _ => k + 1
  | _ => k

/-- The failures since the last success. -/
def failuresInRow (es : List TgPollEvent) : Nat := exec countFailure 0 es

def consumedIds (es : List TgPollEvent) : List Nat :=
  es.filterMap fun
    | .consume updateId => some updateId
    | _ => none

/-- Five seconds, doubled with every failure behind the first, up to the ceiling. -/
def courierBackoff (k : Nat) : Nat := min (tgBackoffMinMs.toNat * 2 ^ (k - 1)) tgBackoffMaxMs.toNat

theorem courierBackoff_succ {k : Nat} (h : 0 < k) :
    courierBackoff (k + 1) = min (courierBackoff k * 2) 300000 := by
  obtain ⟨k, rfl⟩ : ∃ j, k = j + 1 := ⟨k - 1, by omega⟩
  change min (5000 * 2 ^ (k + 1)) 300000 = min (min (5000 * 2 ^ k) 300000 * 2) 300000
  rw [pow_succ]
  omega

theorem courierBackoff_bounds (k : Nat) : 5000 ≤ courierBackoff k ∧ courierBackoff k ≤ 300000 := by
  have hpos : 1 ≤ 2 ^ (k - 1) := Nat.one_le_two_pow
  change 5000 ≤ min (5000 * 2 ^ (k - 1)) 300000 ∧ min (5000 * 2 ^ (k - 1)) 300000 ≤ 300000
  omega

theorem courierBackoff_mono {k j : Nat} (h : k ≤ j) : courierBackoff k ≤ courierBackoff j := by
  have hpow : 2 ^ (k - 1) ≤ 2 ^ (j - 1) := Nat.pow_le_pow_right (by decide) (Nat.sub_le_sub_right h 1)
  change min (5000 * 2 ^ (k - 1)) 300000 ≤ min (5000 * 2 ^ (j - 1)) 300000
  omega

/-- The interval of a courier that failed this many times in a row. -/
def intervalAfter (k : Nat) : Nat := if k = 0 then 0 else courierBackoff k

theorem tgPollFailed_interval {ctx : TgPollCtx} {k : Nat} (h : ctx.backoffMs.toNat = intervalAfter k)
    (nowMs : UInt32) : (tgPollFailed ctx nowMs).backoffMs.toNat = courierBackoff (k + 1) := by
  have hzero : ctx.backoffMs = 0 ↔ ctx.backoffMs.toNat = 0 := by
    rw [← UInt32.toNat_inj]
    rfl
  have hbounds := courierBackoff_bounds k
  rw [tgPollFailed]
  by_cases hfirst : k = 0
  · have hnone : ctx.backoffMs = 0 := hzero.mpr (by rw [h, hfirst]; rfl)
    rw [hfirst, if_pos hnone]
    rfl
  · rw [intervalAfter, if_neg hfirst] at h
    have hsome : ctx.backoffMs ≠ 0 := fun h0 => by
      have hval := hzero.mp h0
      omega
    have hhalf : (tgBackoffMaxMs / 2).toNat = 150000 := rfl
    rw [courierBackoff_succ (Nat.pos_of_ne_zero hfirst), ← h]
    dsimp only
    rw [if_neg hsome]
    by_cases hbig : ctx.backoffMs > tgBackoffMaxMs / 2
    · have hlarge := UInt32.lt_iff_toNat_lt.mp hbig
      rw [if_pos hbig]
      change 300000 = _
      omega
    · have hsmall := UInt32.lt_iff_toNat_lt.not.mp hbig
      have hdouble : (ctx.backoffMs * 2).toNat = ctx.backoffMs.toNat * 2 := by
        rw [UInt32.toNat_mul]
        change ctx.backoffMs.toNat * 2 % 2 ^ 32 = _
        omega
      rw [if_neg hbig, hdouble]
      omega

/-- What the courier holds after these calls, its deadline apart. -/
structure Paced (storedOffset : Nat) (es : List TgPollEvent) (ctx : TgPollCtx) : Prop where
  started : ctx.started = true
  fatal : ctx.fatal = true ↔ .fatal ∈ es
  interval : ctx.backoffMs.toNat = intervalAfter (failuresInRow es)
  offset : ctx.offset = (consumedIds es).foldl max storedOffset

theorem tgPollConsume_other (ctx : TgPollCtx) (updateId : Nat) :
    (tgPollConsume ctx updateId).1 =
      { ctx with
        offset := max ctx.offset updateId
        offsetDirty := (tgPollConsume ctx updateId).1.offsetDirty } := by
  rw [← tgPollConsume_offset]
  unfold tgPollConsume
  split <;> rfl

theorem tgPollStep_started (ctx : TgPollCtx) (e : TgPollEvent) :
    (tgPollStep ctx e).started = ctx.started := by
  cases e with
  | consume updateId => rw [tgPollStep, tgPollConsume_other]
  | ok t => simp only [tgPollStep, tgPollOk]
  | failed t => simp only [tgPollStep, tgPollFailed]
  | fatal | persisted => rfl

theorem tgPollStep_fatal (ctx : TgPollCtx) (e : TgPollEvent) :
    (tgPollStep ctx e).fatal = true ↔ ctx.fatal = true ∨ e = .fatal := by
  cases e with
  | consume updateId =>
    rw [tgPollStep, tgPollConsume_other]
    simp
  | fatal => simp [tgPollStep, tgPollFatal]
  | _ => simp [tgPollStep, tgPollOk, tgPollFailed, tgPollPersisted]

theorem tgPollStep_offset (ctx : TgPollCtx) (e : TgPollEvent) :
    (tgPollStep ctx e).offset = (consumedIds [e]).foldl max ctx.offset := by
  cases e with
  | consume updateId => exact tgPollConsume_offset ctx updateId
  | ok t => simp [tgPollStep, tgPollOk, consumedIds]
  | failed t => simp [tgPollStep, tgPollFailed, consumedIds]
  | fatal | persisted => rfl

theorem tgPollStep_interval {ctx : TgPollCtx} {k : Nat} (h : ctx.backoffMs.toNat = intervalAfter k)
    (e : TgPollEvent) : (tgPollStep ctx e).backoffMs.toNat = intervalAfter (countFailure k e) := by
  cases e with
  | ok t => rfl
  | failed t => exact tgPollFailed_interval h (nowMs t)
  | consume updateId =>
    rw [tgPollStep, tgPollConsume_other]
    exact h
  | fatal | persisted => exact h

theorem tgPollStep_deadline (ctx : TgPollCtx) {e : TgPollEvent} (h : e.reschedules = false) :
    (tgPollStep ctx e).nextDueMs = ctx.nextDueMs := by
  cases e with
  | ok t | failed t => cases h
  | consume updateId => rw [tgPollStep, tgPollConsume_other]
  | fatal | persisted => rfl

theorem tgPollRun_paced (storedOffset start : Nat) (es : List TgPollEvent) :
    Paced storedOffset es (tgPollRun storedOffset start es) := by
  induction es using List.reverseRecOn with
  | nil => exact ⟨rfl, by simp [tgPollRun, tgPollInit], rfl, rfl⟩
  | append_singleton es e ih =>
    have hfails : failuresInRow (es ++ [e]) = countFailure (failuresInRow es) e := exec_concat _ _ _ _
    have hids : consumedIds (es ++ [e]) = consumedIds es ++ consumedIds [e] :=
      List.filterMap_append ..
    rw [tgPollRun, exec_concat]
    refine ⟨?_, ?_, ?_, ?_⟩
    · rw [tgPollStep_started]
      exact ih.started
    · rw [tgPollStep_fatal, ih.fatal, List.mem_append, List.mem_singleton]
      exact or_congr_right eq_comm
    · rw [hfails]
      exact tgPollStep_interval ih.interval e
    · rw [hids, List.foldl_append, tgPollStep_offset, ih.offset]

/-- A deadline stands until the next success or failure. -/
theorem deadline_stands {ctx : TgPollCtx} {after : List TgPollEvent}
    (h : ∀ e ∈ after, e.reschedules = false) : (exec tgPollStep ctx after).nextDueMs = ctx.nextDueMs := by
  induction after generalizing ctx with
  | nil => rfl
  | cons e after ih =>
    rw [exec_cons, ih fun x hx => h x (List.mem_cons_of_mem _ hx)]
    exact tgPollStep_deadline ctx (h e List.mem_cons_self)

/-- At `T` the courier waits for a deadline that is no earlier than `D`. -/
def HeldBack (ctx : TgPollCtx) (T D : Nat) : Prop :=
  ∃ (t : Nat) (span : UInt32), ctx.nextDueMs = nowMs t + span ∧ span.toNat ≤ 2 ^ 31 ∧ t ≤ T ∧
    D ≤ t + span.toNat

theorem HeldBack.not_due {ctx : TgPollCtx} {T D : Nat} (h : HeldBack ctx T D) (hT : T < D)
    (online : Bool) : tgPollDue ctx (nowMs T) online = false := by
  obtain ⟨t, span, hdue, hspan, ht, hD⟩ := h
  have hearly := signed_sub_ofNat_neg (Nat.lt_of_lt_of_le hT hD) (by omega)
  rw [← nowMs_add, ← hdue, ← nowMs] at hearly
  unfold tgPollDue
  split
  · rfl
  · rw [hearly]
    exact decide_eq_false (by omega)

/-- Failures only put the deadline off, and a success does not bring it below its own gap. -/
theorem heldBack_run {ctx : TgPollCtx} {t T D k : Nat} {after : List TgPollEvent}
    (hinterval : ctx.backoffMs.toNat = intervalAfter k) (hheld : HeldBack ctx T D)
    (hlater : ∀ j, k ≤ j → D ≤ t + courierBackoff (j + 1))
    (hwithin : ∀ e ∈ after, e.Within t T)
    (hgap : (∀ t', .ok t' ∉ after) ∨ D ≤ t + tgMinGapMs.toNat) :
    HeldBack (exec tgPollStep ctx after) T D := by
  induction after generalizing ctx k with
  | nil => exact hheld
  | cons e after ih =>
    have hstep := tgPollStep_interval hinterval e
    have hhead := hwithin e List.mem_cons_self
    have hrest : ∀ e ∈ after, e.Within t T := fun e he => hwithin e (List.mem_cons_of_mem _ he)
    have hgap' : (∀ t', .ok t' ∉ after) ∨ D ≤ t + tgMinGapMs.toNat :=
      hgap.imp_left fun h t' he => h t' (List.mem_cons_of_mem _ he)
    rw [exec_cons]
    cases e with
    | ok t' =>
      have hnear : D ≤ t + 1000 := hgap.resolve_left fun h => h t' List.mem_cons_self
      refine ih hstep ⟨t', tgMinGapMs, rfl, by decide, hhead.2, ?_⟩ (fun j _ => ?_) hrest hgap'
      · exact Nat.le_trans hnear (Nat.add_le_add_right hhead.1 1000)
      · have hbounds := courierBackoff_bounds (j + 1)
        omega
    | failed t' =>
      have hspan := tgPollFailed_interval hinterval (nowMs t')
      have hbounds := courierBackoff_bounds (k + 1)
      have hnext := hlater k (Nat.le_refl k)
      refine ih hstep ⟨t', (tgPollFailed ctx (nowMs t')).backoffMs, rfl, by omega, hhead.2, ?_⟩
        (fun j hj => ?_) hrest hgap'
      · rw [hspan]
        exact Nat.le_trans hnext (Nat.add_le_add_right hhead.1 _)
      · exact hlater j (Nat.le_of_succ_le hj)
    | consume updateId =>
      refine ih hstep ?_ hlater hrest hgap'
      rwa [HeldBack, tgPollStep_deadline ctx rfl]
    | fatal | persisted => exact ih hstep hheld hlater hrest hgap'

theorem tgPollDue_fatal {ctx : TgPollCtx} (h : ctx.fatal = true) (nowMs : UInt32) (online : Bool) :
    tgPollDue ctx nowMs online = false := by
  simp [tgPollDue, h]

/-- The courier keeps its gap and its backoff, and stops for good on a fatal error. -/
theorem courier_pacing (storedOffset start : Nat) (es : List TgPollEvent) :
    (∀ before t after, es = before ++ .ok t :: after →
      ∀ T online, t ≤ T → T < t + tgMinGapMs.toNat → (∀ e ∈ after, e.Within t T) →
        tgPollDue (tgPollRun storedOffset start es) (nowMs T) online = false) ∧
    (∀ before t after k, es = before ++ .failed t :: after →
      k = failuresInRow (before ++ [.failed t]) →
      (∀ T online, t ≤ T → T < t + courierBackoff k →
        (∀ e ∈ after, e.Within t T) → (∀ t', .ok t' ∉ after) →
        tgPollDue (tgPollRun storedOffset start es) (nowMs T) online = false) ∧
      ((∀ e ∈ after, e.reschedules = false) → .fatal ∉ es →
        tgPollDue (tgPollRun storedOffset start es) (nowMs (t + courierBackoff k)) true = true)) ∧
    (∀ before after, es = before ++ .fatal :: after → ∀ nowMs online,
      tgPollDue (tgPollRun storedOffset start es) nowMs online = false) ∧
    (tgPollRun storedOffset start es).offset = (consumedIds es).foldl max storedOffset := by
  have hpaced := tgPollRun_paced storedOffset start es
  refine ⟨?_, ?_, ?_, hpaced.offset⟩
  · rintro before t after rfl T online ht hT hwithin
    have hpast := (tgPollRun_paced storedOffset start before).interval
    rw [tgPollRun, exec_append, exec_cons]
    refine HeldBack.not_due (heldBack_run (tgPollStep_interval hpast (.ok t))
      ⟨t, tgMinGapMs, rfl, by decide, ht, Nat.le_refl _⟩ (fun j _ => ?_) hwithin
      (Or.inr (Nat.le_refl _))) hT online
    have hbounds := courierBackoff_bounds (j + 1)
    change t + 1000 ≤ _
    omega
  · rintro before t after k rfl rfl
    have hk : failuresInRow (before ++ [.failed t]) = failuresInRow before + 1 := exec_concat _ _ _ _
    have hpast := (tgPollRun_paced storedOffset start before).interval
    have hspan := tgPollFailed_interval hpast (nowMs t)
    have hbounds := courierBackoff_bounds (failuresInRow before + 1)
    rw [hk]
    constructor
    · intro T online ht hT hwithin hnone
      rw [tgPollRun, exec_append, exec_cons]
      refine HeldBack.not_due (heldBack_run (tgPollStep_interval hpast (.failed t))
        ⟨t, (tgPollFailed (tgPollRun storedOffset start before) (nowMs t)).backoffMs, rfl, by omega, ht,
          Nat.le_of_eq (by rw [hspan])⟩ (fun j hj => ?_) hwithin (Or.inl hnone)) hT online
      exact Nat.add_le_add_left (courierBackoff_mono (Nat.le_succ_of_le hj)) t
    · intro hafter hgoing
      have hdue : (tgPollRun storedOffset start (before ++ .failed t :: after)).nextDueMs =
          nowMs t + (tgPollFailed (tgPollRun storedOffset start before) (nowMs t)).backoffMs := by
        rw [tgPollRun, exec_append, exec_cons, deadline_stands hafter]
        rfl
      have hnow : (tgPollRun storedOffset start (before ++ .failed t :: after)).fatal = false := by
        rw [← Bool.not_eq_true, hpaced.fatal]
        exact hgoing
      rw [← hspan, tgPollDue, hpaced.started, hnow, hdue, nowMs_add, ← nowMs, UInt32.sub_self]
      rfl
  · rintro before after rfl nowMs online
    exact tgPollDue_fatal (hpaced.fatal.mpr (by simp)) nowMs online

end GateAccess
