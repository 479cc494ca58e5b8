import GateAccess.AccessCore
import GateAccess.Traces
import Mathlib.Tactic.SplitIfs

namespace GateAccess

/-- What can happen to the attempt counter between boots; an edit is any change of the table. -/
inductive AttemptCall
  | evaluate (hash : Bytes acHashLen) (now : Int)
  | tick (now : Int)
  | edit (slots : Fin acMaxSlots → AcSlot)

def AttemptCall.time : AttemptCall → Option Int
  | .evaluate _ now => some now
  | .tick now => some now
  | .edit _ => none

def attemptStep (ctx : AcCtx) : AttemptCall → AcCtx
  | .evaluate hash now => (acEvaluate ctx hash now).1
  | .tick now => acTick ctx now
  | .edit slots => { ctx with slots := slots }

def attemptResult (ctx : AcCtx) : AttemptCall → List (Int × AcResult)
  | .evaluate hash now => [(now, (acEvaluate ctx hash now).2.1)]
  | _ => []

def deniedIn (t len : Int) (r : Int × AcResult) : Bool :=
  t ≤ r.1 && r.1 < t + len && r.2 == .deniedUnknown

@[simp] theorem times_evaluate (hash : Bytes acHashLen) (now : Int) (calls : List AttemptCall) :
    (AttemptCall.evaluate hash now :: calls).filterMap AttemptCall.time =
      now :: calls.filterMap AttemptCall.time := rfl

@[simp] theorem times_tick (now : Int) (calls : List AttemptCall) :
    (AttemptCall.tick now :: calls).filterMap AttemptCall.time =
      now :: calls.filterMap AttemptCall.time := rfl

theorem deniedIn_outside {t len now : Int} {r : AcResult} (h : now < t ∨ t + len ≤ now) :
    deniedIn t len (now, r) = false := by
  have hn : ¬(t ≤ now ∧ now < t + len) := by omega
  simp [deniedIn, hn]

/-- How many more unknown codes the window that ends at `stop` can still see. -/
def attemptBudget (ctx : AcCtx) (stop : Int) : Nat :=
  if stop ≤ ctx.lockoutUntil then 0
  else if ctx.lockoutUntil ≠ 0 then ctx.maxFailedAttempts.toNat
  else max 1 (ctx.maxFailedAttempts.toNat - ctx.failedAttempts.toNat)

theorem attemptBudget_le {ctx : AcCtx} (hm : 1 ≤ ctx.maxFailedAttempts.toNat) (stop : Int) :
    attemptBudget ctx stop ≤ ctx.maxFailedAttempts.toNat := by
  unfold attemptBudget
  split_ifs <;> omega

theorem attemptBudget_tick (ctx : AcCtx) (now : Int) {stop : Int}
    (hm : 1 ≤ ctx.maxFailedAttempts.toNat) (hs : now < stop) :
    attemptBudget (acTick ctx now) stop ≤ attemptBudget ctx stop := by
  by_cases hc : ctx.lockoutUntil ≠ 0 ∧ ctx.lockoutUntil ≤ now
  · have hb : attemptBudget ctx stop = ctx.maxFailedAttempts.toNat := by
      unfold attemptBudget
      rw [if_neg (by omega), if_pos hc.1]
    rw [hb, ← acTick_maxFailedAttempts ctx now]
    exact attemptBudget_le (by simpa using hm) stop
  · rw [acTick, if_neg hc]

/-- An unknown code outside a lockout spends one of the budget, or closes the window. -/
theorem attemptBudget_failure (ctx : AcCtx) {now t : Int} (ht : t ≤ now)
    (hs : now < t + ctx.lockoutSeconds) (hm : 1 ≤ ctx.maxFailedAttempts.toNat)
    (hl : ctx.lockoutUntil ≤ now) (h0 : ctx.lockoutUntil = 0) :
    attemptBudget (registerFailure ctx now) (t + ctx.lockoutSeconds) + 1 ≤
      attemptBudget ctx (t + ctx.lockoutSeconds) := by
  have hb : attemptBudget ctx (t + ctx.lockoutSeconds) =
      max 1 (ctx.maxFailedAttempts.toNat - ctx.failedAttempts.toNat) := by
    unfold attemptBudget
    rw [if_neg (by omega), if_neg (by simpa using h0)]
  have hmax := ctx.maxFailedAttempts.toNat_lt
  have hf := registerFailure_failedAttempts ctx now
  have hu := registerFailure_lockoutUntil ctx now
  rw [hb]
  unfold attemptBudget
  by_cases hge : ctx.maxFailedAttempts.toNat ≤ (registerFailure ctx now).failedAttempts.toNat
  · rw [if_pos ⟨by omega, hge⟩] at hu
    rw [hu, if_pos (by omega)]
    omega
  · rw [if_neg (by omega)] at hu
    rw [hu, if_neg (by omega), if_neg (by simpa using h0), hf]
    change max 1 (ctx.maxFailedAttempts.toNat - _) + 1 ≤ _
    omega

@[simp] theorem acEvaluate_maxFailedAttempts (ctx : AcCtx) (hash : Bytes acHashLen) (now : Int) :
    (acEvaluate ctx hash now).1.maxFailedAttempts = ctx.maxFailedAttempts := by
  have hv := acEvaluate_verdict ctx hash now
  generalize acEvaluate ctx hash now = out at hv
  cases hv <;> simp [registerFailure]

@[simp] theorem acEvaluate_lockoutSeconds (ctx : AcCtx) (hash : Bytes acHashLen) (now : Int) :
    (acEvaluate ctx hash now).1.lockoutSeconds = ctx.lockoutSeconds := by
  have hv := acEvaluate_verdict ctx hash now
  generalize acEvaluate ctx hash now = out at hv
  cases hv <;> simp [registerFailure]

@[simp] theorem attemptStep_maxFailedAttempts (ctx : AcCtx) (call : AttemptCall) :
    (attemptStep ctx call).maxFailedAttempts = ctx.maxFailedAttempts := by
  cases call <;> simp [attemptStep]

@[simp] theorem attemptStep_lockoutSeconds (ctx : AcCtx) (call : AttemptCall) :
    (attemptStep ctx call).lockoutSeconds = ctx.lockoutSeconds := by
  cases call <;> simp [attemptStep]

theorem acTick_unlocked {ctx : AcCtx} {now : Int} (h : (acTick ctx now).lockoutUntil ≤ now) :
    (acTick ctx now).lockoutUntil = 0 := by
  by_cases hc : ctx.lockoutUntil ≠ 0 ∧ ctx.lockoutUntil ≤ now
  · simp [acTick, hc]
  · rw [acTick, if_neg hc] at h ⊢
    by_contra hn
    exact hc ⟨hn, h⟩

theorem attemptBudget_evaluate {ctx : AcCtx} {hash : Bytes acHashLen} {now t : Int} (ht : t ≤ now)
    (hs : now < t + ctx.lockoutSeconds) (hm : 1 ≤ ctx.maxFailedAttempts.toNat)
    (hg : (acEvaluate ctx hash now).2.1 ≠ .granted) :
    (attemptResult ctx (.evaluate hash now)).countP (deniedIn t ctx.lockoutSeconds) +
        attemptBudget (acEvaluate ctx hash now).1 (t + ctx.lockoutSeconds) ≤
      attemptBudget ctx (t + ctx.lockoutSeconds) := by
  have htick := attemptBudget_tick ctx now hm hs
  have hv := acEvaluate_verdict ctx hash now
  simp only [attemptResult]
  generalize acEvaluate ctx hash now = out at hv hg
  cases hv with
  | noClock => simp [deniedIn]
  | lockout => simpa [deniedIn] using htick
  | notYet => simpa [deniedIn] using htick
  | expired => simpa [deniedIn] using htick
  | granted => simp at hg
  | unknown _ hle _ =>
    have hone := attemptBudget_failure (acTick ctx now) ht (by simpa using hs)
      (by simpa using hm) hle (acTick_unlocked hle)
    have hc : [(now, AcResult.deniedUnknown)].countP (deniedIn t ctx.lockoutSeconds) = 1 := by
      simp [deniedIn, ht, hs]
    simp only [acTick_lockoutSeconds] at hone
    rw [hc, Nat.add_comm]
    exact hone.trans htick

theorem attemptLog_late (ctx : AcCtx) {calls : List AttemptCall} {t len : Int}
    (late : ∀ now ∈ calls.filterMap AttemptCall.time, t + len ≤ now) :
    (logOf attemptStep attemptResult ctx calls).countP (deniedIn t len) = 0 := by
  apply List.countP_eq_zero.mpr
  intro r hr
  obtain ⟨⟨c, call⟩, hp, hw⟩ := mem_logOf hr
  have hcall : call ∈ calls := by
    rw [← trace_map_snd attemptStep ctx calls]
    exact List.mem_map_of_mem hp
  cases call with
  | evaluate hash now =>
    have hb := late now (List.mem_filterMap.mpr ⟨_, hcall, rfl⟩)
    have he : r = (now, (acEvaluate c hash now).2.1) := by simpa [attemptResult] using hw
    rw [he, deniedIn_outside (Or.inr hb)]
    simp
  | tick => simp [attemptResult] at hw
  | edit => simp [attemptResult] at hw

theorem attemptLog_inside (ctx : AcCtx) {calls : List AttemptCall} {t : Int}
    (hm : 1 ≤ ctx.maxFailedAttempts.toNat)
    (sorted : (calls.filterMap AttemptCall.time).Pairwise (· ≤ ·))
    (inside : ∀ now ∈ calls.filterMap AttemptCall.time, t ≤ now)
    (hg : ∀ r ∈ logOf attemptStep attemptResult ctx calls,
      t ≤ r.1 → r.1 < t + ctx.lockoutSeconds → r.2 ≠ .granted) :
    (logOf attemptStep attemptResult ctx calls).countP (deniedIn t ctx.lockoutSeconds) ≤
      attemptBudget ctx (t + ctx.lockoutSeconds) := by
  induction calls generalizing ctx with
  | nil => simp [logOf]
  | cons call calls ih =>
    have next := ih (attemptStep ctx call) (by simpa using hm)
    simp only [attemptStep_lockoutSeconds] at next
    have hg' : ∀ r ∈ logOf attemptStep attemptResult (attemptStep ctx call) calls,
        t ≤ r.1 → r.1 < t + ctx.lockoutSeconds → r.2 ≠ .granted :=
      fun r hr => hg r (List.mem_append_right _ hr)
    cases call with
    | edit slots => exact next sorted inside hg'
    | tick now =>
      simp only [times_tick, List.pairwise_cons, List.forall_mem_cons] at sorted inside
      by_cases hs : now < t + ctx.lockoutSeconds
      · exact (next sorted.2 inside.2 hg').trans (attemptBudget_tick ctx now hm hs)
      · have hz := attemptLog_late (acTick ctx now)
          fun x hx => (by have := sorted.1 x hx; omega : t + ctx.lockoutSeconds ≤ x)
        exact hz.le.trans (Nat.zero_le _)
    | evaluate hash now =>
      simp only [times_evaluate, List.pairwise_cons, List.forall_mem_cons] at sorted inside
      have hsplit : logOf attemptStep attemptResult ctx (.evaluate hash now :: calls) =
          attemptResult ctx (.evaluate hash now) ++
            logOf attemptStep attemptResult (acEvaluate ctx hash now).1 calls := rfl
      rw [hsplit, List.countP_append]
      by_cases hs : now < t + ctx.lockoutSeconds
      · have hone := attemptBudget_evaluate inside.1 hs hm
          (hg (now, _) (List.mem_append_left _ List.mem_cons_self) inside.1 hs)
        have hrest := next sorted.2 inside.2 hg'
        exact (Nat.add_le_add_left hrest _).trans hone
      · have hz := attemptLog_late (acEvaluate ctx hash now).1
          fun x hx => (by have := sorted.1 x hx; omega : t + ctx.lockoutSeconds ≤ x)
        have h1 : (attemptResult ctx (.evaluate hash now)).countP
            (deniedIn t ctx.lockoutSeconds) = 0 := by
          simp [attemptResult, deniedIn_outside (Or.inr (Int.not_lt.mp hs))]
        omega

theorem attemptLog_bound (ctx : AcCtx) {calls : List AttemptCall} {t : Int}
    (hm : 1 ≤ ctx.maxFailedAttempts.toNat)
    (sorted : (calls.filterMap AttemptCall.time).Pairwise (· ≤ ·))
    (hg : ∀ r ∈ logOf attemptStep attemptResult ctx calls,
      t ≤ r.1 → r.1 < t + ctx.lockoutSeconds → r.2 ≠ .granted) :
    (logOf attemptStep attemptResult ctx calls).countP (deniedIn t ctx.lockoutSeconds) ≤
      ctx.maxFailedAttempts.toNat := by
  induction calls generalizing ctx with
  | nil => simp [logOf]
  | cons call calls ih =>
    have next := ih (attemptStep ctx call) (by simpa using hm)
    simp only [attemptStep_lockoutSeconds, attemptStep_maxFailedAttempts] at next
    have hg' : ∀ r ∈ logOf attemptStep attemptResult (attemptStep ctx call) calls,
        t ≤ r.1 → r.1 < t + ctx.lockoutSeconds → r.2 ≠ .granted :=
      fun r hr => hg r (List.mem_append_right _ hr)
    by_cases hin : ∀ now ∈ (call :: calls).filterMap AttemptCall.time, t ≤ now
    · exact (attemptLog_inside ctx hm sorted hin hg).trans (attemptBudget_le hm _)
    · have sorted' : (calls.filterMap AttemptCall.time).Pairwise (· ≤ ·) := by
        cases hc : call.time with
        | none => simpa [List.filterMap_cons_none hc] using sorted
        | some now =>
          rw [List.filterMap_cons_some hc] at sorted
          exact (List.pairwise_cons.mp sorted).2
      have hz : (attemptResult ctx call).countP (deniedIn t ctx.lockoutSeconds) = 0 := by
        cases call with
        | tick => rfl
        | edit => rfl
        | evaluate hash now =>
          have hlt : now < t := by
            by_contra hn
            apply hin
            simp only [times_evaluate, List.pairwise_cons, List.forall_mem_cons] at sorted ⊢
            exact ⟨by omega, fun x hx => by have := sorted.1 x hx; omega⟩
          simp [attemptResult, deniedIn_outside (Or.inl hlt)]
      have hrest := next sorted' hg'
      simpa only [logOf, List.countP_append, hz, Nat.zero_add] using hrest

theorem acEvaluate_free_refusal {ctx : AcCtx} {hash : Bytes acHashLen} {now : Int}
    (h : (acEvaluate ctx hash now).2.1 ∈
      [AcResult.deniedNotYet, AcResult.deniedExpired, AcResult.deniedLockout]) :
    (acEvaluate ctx hash now).1.failedAttempts ≤ ctx.failedAttempts := by
  have htick : (acTick ctx now).failedAttempts ≤ ctx.failedAttempts := by
    unfold acTick
    split
    next => exact UInt8.le_iff_toNat_le.mpr (Nat.zero_le _)
    next => exact UInt8.le_refl _
  have hv := acEvaluate_verdict ctx hash now
  generalize acEvaluate ctx hash now = out at hv h
  cases hv with
  | noClock | unknown | granted => simp at h
  | lockout | notYet | expired => exact htick

/-- From any restored counter and deadline, a window one lockout long in which nothing was
granted sees at most the allowed number of unknown codes. -/
theorem unknown_codes_bounded (ctx : AcCtx) (failed : UInt8) (deadline : Int)
    (calls : List AttemptCall) (hm : 1 ≤ ctx.maxFailedAttempts.toNat)
    (sorted : (calls.filterMap AttemptCall.time).Pairwise (· ≤ ·)) :
    (∀ t, (∀ r ∈ logOf attemptStep attemptResult (acRestoreAttempts ctx failed deadline) calls,
        t ≤ r.1 → r.1 < t + ctx.lockoutSeconds → r.2 ≠ .granted) →
      (logOf attemptStep attemptResult (acRestoreAttempts ctx failed deadline) calls).countP
        (deniedIn t ctx.lockoutSeconds) ≤ ctx.maxFailedAttempts.toNat) ∧
    ∀ p ∈ trace attemptStep (acRestoreAttempts ctx failed deadline) calls, ∀ hash now,
      p.2 = .evaluate hash now →
      (acEvaluate p.1 hash now).2.1 ∈
        [AcResult.deniedNotYet, AcResult.deniedExpired, AcResult.deniedLockout] →
      (attemptStep p.1 p.2).failedAttempts ≤ p.1.failedAttempts := by
  refine ⟨fun t hg => ?_, fun p _ hash now he hr => ?_⟩
  · exact attemptLog_bound (acRestoreAttempts ctx failed deadline) hm sorted hg
  · rw [he]
    exact acEvaluate_free_refusal hr

/-- Three wrong codes against a gate that allows two: the window sees no more than two of them. -/
theorem unknown_codes_bounded_two :
    (logOf attemptStep attemptResult
      (acRestoreAttempts { acInit 2 10 with clockTrusted := true } 1 0)
      [.evaluate (zeros _) 3, .evaluate (zeros _) 4, .tick 5, .evaluate (zeros _) 13]).countP
        (deniedIn 3 10) ≤ 2 :=
  (unknown_codes_bounded { acInit 2 10 with clockTrusted := true } 1 0
    [.evaluate (zeros _) 3, .evaluate (zeros _) 4, .tick 5, .evaluate (zeros _) 13]
    (by decide) (by decide)).1 3 (by decide +kernel)

end GateAccess
