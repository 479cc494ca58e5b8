import GateAccess.LockLogic
import Mathlib.Order.Basic

namespace GateAccess

/-- What the state remembers of the accepted requests, at a time after every call so far. -/
def Settled (st : LockLogic) (accepted : List Nat) (now : Nat) : Prop :=
  match st.state with
  | .idle => ∀ s ∈ accepted, s + st.pulseMs.toNat + lockCooldownMs.toNat ≤ now
  | .pulsing => ∃ last, st.pulseStartedMs = UInt32.ofNat last ∧ last ≤ now ∧
      ∀ s ∈ accepted, s ≤ last
  | .cooldown => ∃ last,
      st.cooldownUntilMs = UInt32.ofNat (last + st.pulseMs.toNat + lockCooldownMs.toNat) ∧
      last + st.pulseMs.toNat ≤ now ∧ ∀ s ∈ accepted, s ≤ last

theorem Settled.mono {st : LockLogic} {accepted : List Nat} {now t : Nat}
    (h : Settled st accepted now) (ht : now ≤ t) : Settled st accepted t := by
  unfold Settled at h ⊢
  split at h
  next => exact fun s hs => (h s hs).trans ht
  next =>
    obtain ⟨last, hstart, hle, hall⟩ := h
    exact ⟨last, hstart, hle.trans ht, hall⟩
  next =>
    obtain ⟨last, huntil, hle, hall⟩ := h
    exact ⟨last, huntil, hle.trans ht, hall⟩

/-- The signed comparison does not end a cooldown early. -/
theorem cooled_le {T t : Nat} (h : signed (UInt32.ofNat T - UInt32.ofNat t) ≤ 0)
    (hnear : T < t + 2 ^ 31) : T ≤ t := by
  by_contra hlt
  rw [Nat.not_le] at hlt
  have hn : (UInt32.ofNat T - UInt32.ofNat t).toNat = T - t := by
    rw [elapsed_toNat hlt.le, Nat.mod_eq_of_lt (by omega)]
  rw [signed_eq, hn, if_pos (by omega)] at h
  omega

theorem Settled.tick {st : LockLogic} {accepted : List Nat} {t : Nat}
    (h : Settled st accepted t) : Settled (lockLogicTick st (UInt32.ofNat t)) accepted t := by
  have hs := lockLogicTick_step st (UInt32.ofNat t)
  generalize lockLogicTick st (UInt32.ofNat t) = next at hs
  cases hs with
  | kept => exact h
  | ended hstate helapsed =>
    simp only [Settled, hstate] at h ⊢
    obtain ⟨last, hstart, hle, hall⟩ := h
    rw [hstart] at helapsed
    refine ⟨last, ?_, elapsed_le hle helapsed, hall⟩
    rw [hstart, UInt32.ofNat_add, UInt32.ofNat_add, UInt32.ofNat_toNat, UInt32.ofNat_toNat]
  | cooled hstate hcool =>
    simp only [Settled, hstate] at h ⊢
    obtain ⟨last, huntil, hle, hall⟩ := h
    have hcooldown : lockCooldownMs.toNat = 3000 := rfl
    rw [huntil] at hcool
    have hdone := cooled_le hcool (by omega)
    intro s hs
    have := hall s hs
    omega

/-- Calls at times that never go back. -/
def CallsInOrder (calls : List LockCall) : Prop := (calls.map LockCall.time).Pairwise (· ≤ ·)

theorem CallsInOrder.concat {calls : List LockCall} {call : LockCall} (h : CallsInOrder (calls ++ [call])) :
    CallsInOrder calls ∧ ∀ c ∈ calls, c.time ≤ call.time := by
  unfold CallsInOrder at h
  rw [List.map_append, List.pairwise_append] at h
  refine ⟨h.1, fun c hc => h.2.2 _ (List.mem_map_of_mem hc) _ (by simp)⟩

theorem lockStep_settled {st : LockLogic} {accepted : List Nat} {call : LockCall}
    (h : Settled st accepted call.time) :
    Settled (lockStep st call) (accepted ++ (acceptedAt (st, call)).toList) call.time ∧
      ∀ s ∈ (acceptedAt (st, call)).toList, ∀ r ∈ accepted,
        r + st.pulseMs.toNat + lockCooldownMs.toNat ≤ s := by
  cases call with
  | request t =>
    have ht : Settled (lockLogicTick st (UInt32.ofNat t)) accepted t := Settled.tick h
    have hpulse := lockLogicTick_pulseMs st (UInt32.ofNat t)
    simp only [lockStep, acceptedAt, lockLogicRequest, LockCall.time]
    generalize lockLogicTick st (UInt32.ofNat t) = next at ht hpulse ⊢
    by_cases hidle : next.state = .idle
    · simp only [hidle, ne_eq, not_true, if_false, if_true, Option.toList_some]
      simp only [Settled, hidle, hpulse] at ht
      refine ⟨⟨t, rfl, le_rfl, fun s hs => ?_⟩, fun s hs r hr => ?_⟩
      · rcases List.mem_append.mp hs with hs | hs
        · have := ht s hs
          omega
        · exact (List.mem_singleton.mp hs).le
      · rw [List.mem_singleton.mp hs]
        exact ht r hr
    · simp only [hidle, ne_eq, not_false_eq_true, if_true, Bool.false_eq_true, if_false,
        Option.toList_none, List.append_nil]
      exact ⟨ht, by simp⟩
  | tick t =>
    have ht : Settled (lockLogicTick st (UInt32.ofNat t)) accepted t := Settled.tick h
    exact ⟨by simpa [acceptedAt, lockStep, LockCall.time] using ht, by simp [acceptedAt]⟩
  | output t => exact ⟨by simpa [acceptedAt, lockStep] using h, by simp [acceptedAt]⟩

/-- Any two accepted requests of a run are a pulse and a cooldown apart. -/
theorem acceptedTimes_apart {pulseMs : UInt32} {calls : List LockCall} (h : CallsInOrder calls) :
    (∀ now, (∀ c ∈ calls, c.time ≤ now) →
      Settled (lockRun pulseMs calls) (acceptedTimes pulseMs calls) now) ∧
    (acceptedTimes pulseMs calls).Pairwise fun r s =>
      r + (lockLogicInit pulseMs).pulseMs.toNat + lockCooldownMs.toNat ≤ s := by
  induction calls using List.reverseRecOn with
  | nil =>
    have hnil : acceptedTimes pulseMs [] = [] := rfl
    rw [hnil]
    exact ⟨fun now _ => by simp [Settled, lockLogicInit], List.Pairwise.nil⟩
  | append_singleton calls call ih =>
    obtain ⟨hcalls, hlast⟩ := h.concat
    obtain ⟨hsettled, happart⟩ := ih hcalls
    obtain ⟨hstep, hnew⟩ := lockStep_settled (hsettled call.time hlast)
    rw [acceptedTimes_concat]
    constructor
    · intro now hnow
      rw [lockRun, exec_concat]
      exact hstep.mono (hnow call (by simp))
    · rw [List.pairwise_append]
      refine ⟨happart, ?_, fun r hr s hs => ?_⟩
      · cases acceptedAt (lockRun pulseMs calls, call) <;> simp
      · have := hnew s hs r hr
        rwa [lockRun_pulseMs] at this

def LockCall.drives : LockCall → Bool
  | .output _ => false
  | _ => true

/-- The pulse of the request accepted at `s` has not been ended: every request or tick since came,
as the wrapping clock tells it, within its length. -/
def PulseLeft (pulseMs : UInt32) (calls : List LockCall) (s : Nat) : Prop :=
  ∃ first mid, calls = first ++ .request s :: mid ∧
    (lockLogicRequest (lockRun pulseMs first) (UInt32.ofNat s)).2 = true ∧
    ∀ c ∈ mid, c.drives = true → (c.time - s) % 2 ^ 32 < (lockLogicInit pulseMs).pulseMs.toNat

/-- The coil is energised only within a pulse's length of the last accepted request, and two
accepted requests are a pulse and a cooldown apart. -/
structure CoilProtected (pulseMs : UInt32) (calls : List LockCall) : Prop where
  energised : ∀ before T after, calls = before ++ .output T :: after →
    lockLogicOutput (lockRun pulseMs before) (UInt32.ofNat T) = true →
    ∃ s, (acceptedTimes pulseMs before).getLast? = some s ∧
      T < s + (lockRun pulseMs before).pulseMs.toNat ∧
      (lockRun pulseMs before).pulseMs ≤ lockMaxPulseMs
  apart : (acceptedTimes pulseMs calls).Pairwise fun r s =>
    r + (lockRun pulseMs calls).pulseMs.toNat + lockCooldownMs.toNat ≤ s

theorem lockLogicTick_running {st : LockLogic} {s t : Nat} (hstate : st.state = .pulsing)
    (hstart : st.pulseStartedMs = UInt32.ofNat s) (hle : s ≤ t)
    (ht : (t - s) % 2 ^ 32 < st.pulseMs.toNat) : lockLogicTick st (UInt32.ofNat t) = st := by
  have hs := lockLogicTick_step st (UInt32.ofNat t)
  generalize lockLogicTick st (UInt32.ofNat t) = next at hs ⊢
  cases hs with
  | kept => rfl
  | ended _ helapsed =>
    rw [hstart, span_le_iff hle] at helapsed
    omega
  | cooled hcooldown => rw [hcooldown] at hstate; cases hstate

theorem PulseLeft.running {pulseMs : UInt32} {calls : List LockCall} {s : Nat}
    (horder : CallsInOrder calls) (h : PulseLeft pulseMs calls s) :
    (lockRun pulseMs calls).state = .pulsing ∧
      (lockRun pulseMs calls).pulseStartedMs = UInt32.ofNat s ∧
      (acceptedTimes pulseMs calls).getLast? = some s := by
  obtain ⟨first, mid, rfl, haccepted, hmid⟩ := h
  induction mid using List.reverseRecOn with
  | nil =>
    have hat : acceptedAt (lockRun pulseMs first, .request s) = some s := by
      simp [acceptedAt, haccepted]
    rw [acceptedTimes_concat, hat, lockRun, exec_concat]
    simp only [lockStep, lockLogicRequest] at haccepted ⊢
    split at haccepted
    next => cases haccepted
    next hidle =>
      rw [if_neg hidle]
      exact ⟨rfl, rfl, by simp⟩
  | append_singleton mid c ih =>
    rw [← List.cons_append, ← List.append_assoc] at horder ⊢
    obtain ⟨hbefore, hlast⟩ := horder.concat
    obtain ⟨hstate, hstart, htimes⟩ := ih hbefore fun d hd => hmid d (by simp [hd])
    have hle : s ≤ c.time := hlast (.request s) (by simp)
    have hc := hmid c (by simp)
    rw [← lockRun_pulseMs pulseMs (first ++ .request s :: mid)] at hc
    rw [acceptedTimes_concat, lockRun, exec_concat]
    cases c with
    | output t => exact ⟨hstate, hstart, by simpa [acceptedAt] using htimes⟩
    | tick t =>
      have hsame := lockLogicTick_running hstate hstart hle (hc rfl)
      simp only [lockStep, LockCall.time] at hsame ⊢
      rw [hsame]
      exact ⟨hstate, hstart, by simpa [acceptedAt] using htimes⟩
    | request t =>
      have hsame := lockLogicTick_running hstate hstart hle (hc rfl)
      have hrefused : (lockLogicTick (lockRun pulseMs (first ++ .request s :: mid))
          (UInt32.ofNat t)).state ≠ .idle := by
        simp only [LockCall.time] at hsame
        rw [hsame, hstate]
        simp
      simp only [lockStep, acceptedAt, lockLogicRequest, LockCall.time] at hsame ⊢
      rw [if_pos hrefused, hsame]
      exact ⟨hstate, hstart, by simpa using htimes⟩

/-- A pulse the state still shows has not been ended. -/
theorem pulseLeft_of_pulsing {pulseMs : UInt32} {calls : List LockCall} (horder : CallsInOrder calls)
    (h : (lockRun pulseMs calls).state = .pulsing) :
    ∃ s, PulseLeft pulseMs calls s ∧ ∃ c ∈ calls, c.time = s := by
  induction calls using List.reverseRecOn with
  | nil => cases h
  | append_singleton calls c ih =>
    obtain ⟨hbefore, hlast⟩ := horder.concat
    rw [lockRun, exec_concat] at h
    have extend (hstate : (lockRun pulseMs calls).state = .pulsing)
        (hc : c.drives = true → ¬(lockRun pulseMs calls).pulseMs ≤
          UInt32.ofNat c.time - (lockRun pulseMs calls).pulseStartedMs) :
        ∃ s, PulseLeft pulseMs (calls ++ [c]) s ∧ ∃ d ∈ calls ++ [c], d.time = s := by
      obtain ⟨s, hleft, d, hd, rfl⟩ := ih hbefore hstate
      have hstart := (hleft.running hbefore).2.1
      obtain ⟨first, mid, hcalls, haccepted, hmid⟩ := hleft
      refine ⟨d.time, ⟨first, mid ++ [c], by simp [hcalls], haccepted, fun e he hdrives => ?_⟩, d,
        by simp [hd], rfl⟩
      rcases List.mem_append.mp he with he | he
      · exact hmid e he hdrives
      · obtain rfl := List.mem_singleton.mp he
        have hlt := hc hdrives
        rw [hstart, span_le_iff (hlast d hd), lockRun_pulseMs] at hlt
        omega
    cases c with
    | output t => exact extend h fun hdrives => by cases hdrives
    | tick t =>
      simp only [lockStep] at h
      have hs := lockLogicTick_step (lockRun pulseMs calls) (UInt32.ofNat t)
      generalize lockLogicTick (lockRun pulseMs calls) (UInt32.ofNat t) = next at hs h
      cases hs with
      | kept hkept => exact extend h fun _ => hkept h
      | ended | cooled => cases h
    | request t =>
      simp only [lockStep, lockLogicRequest] at h
      split at h
      next hbusy =>
        have hs := lockLogicTick_step (lockRun pulseMs calls) (UInt32.ofNat t)
        generalize lockLogicTick (lockRun pulseMs calls) (UInt32.ofNat t) = next at hs h
        cases hs with
        | kept hkept => exact extend h fun _ => hkept h
        | ended | cooled => cases h
      next hidle =>
        exact ⟨t, ⟨calls, [], rfl, by simp [lockLogicRequest, hidle], by simp⟩, .request t, by simp,
          rfl⟩

theorem CallsInOrder.of_append {before after : List LockCall} (h : CallsInOrder (before ++ after)) :
    CallsInOrder before := by
  unfold CallsInOrder at h ⊢
  rw [List.map_append] at h
  exact (List.pairwise_append.mp h).1

theorem lockLogicOutput_pulsing {st : LockLogic} {nowMs : UInt32} :
    lockLogicOutput st nowMs = true ↔
      st.state = .pulsing ∧ ¬st.pulseMs ≤ nowMs - st.pulseStartedMs := by
  unfold lockLogicOutput elapsed
  split
  next h => simp [h]
  next h => simp [not_not.mp h]

/-- The coil is protected exactly in the runs in which no output is read, by a clock that has come
round since, within the length of a pulse that no request or tick has ended. -/
theorem coil_protected_iff (pulseMs : UInt32) (calls : List LockCall) (horder : CallsInOrder calls) :
    CoilProtected pulseMs calls ↔
      ∀ before T after s, calls = before ++ .output T :: after → PulseLeft pulseMs before s →
        s + 2 ^ 32 ≤ T → (lockLogicInit pulseMs).pulseMs.toNat ≤ (T - s) % 2 ^ 32 := by
  have hpast {before after : List LockCall} {T : Nat} (hcalls : calls = before ++ .output T :: after) :
      CallsInOrder before ∧ ∀ c ∈ before, c.time ≤ T := by
    rw [hcalls, List.append_cons] at horder
    exact horder.of_append.concat
  constructor
  · intro hprotected before T after s hcalls hleft hround
    by_contra hlt
    obtain ⟨hstate, hstart, htimes⟩ := hleft.running (hpast hcalls).1
    have hon : lockLogicOutput (lockRun pulseMs before) (UInt32.ofNat T) = true := by
      rw [lockLogicOutput_pulsing, hstart, span_le_iff (by omega), lockRun_pulseMs]
      exact ⟨hstate, hlt⟩
    obtain ⟨r, hr, hT, hmax⟩ := hprotected.energised before T after hcalls hon
    obtain rfl : s = r := Option.some.inj (htimes.symm.trans hr)
    have hle := UInt32.le_iff_toNat_le.mp hmax
    have hceiling : lockMaxPulseMs.toNat = 1000 := rfl
    omega
  · intro hround
    refine ⟨fun before T after hcalls hon => ?_, ?_⟩
    · obtain ⟨hbefore, hlast⟩ := hpast hcalls
      obtain ⟨hstate, helapsed⟩ := lockLogicOutput_pulsing.mp hon
      obtain ⟨s, hleft, c, hc, hcs⟩ := pulseLeft_of_pulsing hbefore hstate
      obtain ⟨-, hstart, htimes⟩ := hleft.running hbefore
      have hle : s ≤ T := hcs ▸ hlast c hc
      rw [hstart, span_le_iff hle, lockRun_pulseMs] at helapsed
      refine ⟨s, htimes, ?_, by rw [lockRun_pulseMs]; exact lockLogicInit_pulse pulseMs⟩
      rw [lockRun_pulseMs]
      by_contra hlate
      have hwrapped : s + 2 ^ 32 ≤ T := by omega
      exact helapsed (hround before T after s hcalls hleft hwrapped)
    · rw [lockRun_pulseMs]
      exact (acceptedTimes_apart horder).2

/-- A late tick, well before the clock comes round, keeps the coil protected. -/
theorem coil_protected_late_tick :
    CoilProtected 800 [.request 0, .output 799, .output 800, .tick 4000, .request 4000, .output 5000] := by
  refine (coil_protected_iff 800 [.request 0, .output 799, .output 800, .tick 4000, .request 4000,
    .output 5000] (by unfold CallsInOrder; decide)).mpr fun before T after s hcalls _ hround => ?_
  have hT : LockCall.output T ∈ before ++ .output T :: after := by simp
  rw [← hcalls] at hT
  simp at hT
  omega

/-- Read alone for 2^32 ms, the output comes on again with nobody at the door. -/
theorem output_alone_energises_again :
    CallsInOrder [.request 0, .output (2 ^ 31 - 1), .output (2 ^ 32 - 2), .output (2 ^ 32)] ∧
      [0, 2 ^ 31 - 1, 2 ^ 32 - 2, 2 ^ 32].IsChain (fun s t => t < s + 2 ^ 31) ∧
      ¬CoilProtected 800
        [.request 0, .output (2 ^ 31 - 1), .output (2 ^ 32 - 2), .output (2 ^ 32)] := by
  refine ⟨by unfold CallsInOrder; decide, by decide, fun h => ?_⟩
  obtain ⟨s, hs, hT, -⟩ := h.energised [.request 0, .output (2 ^ 31 - 1), .output (2 ^ 32 - 2)]
    (2 ^ 32) [] rfl (by decide)
  have hlast : (acceptedTimes 800
      [.request 0, .output (2 ^ 31 - 1), .output (2 ^ 32 - 2)]).getLast? = some 0 := by decide
  obtain rfl : 0 = s := Option.some.inj (hlast.symm.trans hs)
  revert hT
  decide

end GateAccess
