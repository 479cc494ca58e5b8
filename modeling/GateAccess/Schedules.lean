import GateAccess.SyncInstall
import GateAccess.TgPoll
import GateAccess.Traces

namespace GateAccess

inductive PollCall
  | syncFailed
  | syncUnchanged
  | syncApply (table : AcCtx) (set : SyncSet)
  | tgInit (storedOffset : Nat)
  | tgOk
  | tgFailed
  | tgFatal
  | tgConsume (updateId : Nat)
  | tgPersisted

/-- A caller may pass a time it read a while before. -/
structure PollEvent where
  lag : Nat
  call : PollCall

/-- The true times behind the millisecond fields: what is due when, and the last success. -/
structure PollHistory where
  syncDeadline : Nat
  lastSuccess : Option Nat
  tgDeadline : Nat

structure PollState where
  sync : SyncCtx
  tg : TgPollCtx
  history : PollHistory

def SyncResult.succeeds : SyncResult → Bool
  | .applied | .overflowed | .unchanged => true
  | .stale | .badEntry => false

def PollHistory.synced (h : PollHistory) (time : Nat) : PollHistory :=
  { h with syncDeadline := time + syncPeriodMs.toNat, lastSuccess := some time }

def pollCall (s : PollState) (time : Nat) : PollCall → PollState
  | .syncFailed =>
    { s with
      sync := syncFailed s.sync (nowMs time)
      history := { s.history with syncDeadline := time + syncPeriodMs.toNat } }
  | .syncUnchanged =>
    { s with sync := syncUnchanged s.sync (nowMs time), history := s.history.synced time }
  | .syncApply table set =>
    let out := syncApply s.sync table set (nowMs time)
    { s with
      sync := out.1
      history := if out.2.2.succeeds then s.history.synced time else s.history }
  | .tgInit storedOffset =>
    { s with
      tg := tgPollInit storedOffset (nowMs time), history := { s.history with tgDeadline := time } }
  | .tgOk =>
    { s with
      tg := tgPollOk s.tg (nowMs time)
      history := { s.history with tgDeadline := time + tgMinGapMs.toNat } }
  | .tgFailed =>
    let tg := tgPollFailed s.tg (nowMs time)
    { s with tg := tg, history := { s.history with tgDeadline := time + tg.backoffMs.toNat } }
  | .tgFatal => { s with tg := tgPollFatal s.tg }
  | .tgConsume updateId => { s with tg := (tgPollConsume s.tg updateId).1 }
  | .tgPersisted => { s with tg := tgPollPersisted s.tg }

def pollAct (uptime : Nat) (s : PollState) (e : PollEvent) : PollState :=
  pollCall s (uptime - e.lag) e.call

/-- The zeroed statics of a boot, with `sync_client_init` behind them. -/
def pollBoot (storedGeneration : Nat) : PollState where
  sync := syncInit storedGeneration 0
  tg := ⟨0, 0, 0, 0, false, false, false⟩
  history := ⟨0, none, 0⟩

def pollRun (storedGeneration : Nat) (es : List (Timed PollEvent)) : AtTime PollState :=
  exec (timedStep pollAct) ⟨0, pollBoot storedGeneration⟩ es

structure PollTimed (uptime : Nat) (s : PollState) : Prop where
  sync_due : s.sync.nextDueMs = UInt32.ofNat s.history.syncDeadline
  sync_near : s.history.syncDeadline ≤ uptime + syncPeriodMs.toNat
  ever : s.sync.everSynced = s.history.lastSuccess.isSome
  ok : ∀ last, s.history.lastSuccess = some last →
    s.sync.lastOkMs = UInt32.ofNat last ∧ last ≤ uptime
  tg_due : s.tg.nextDueMs = UInt32.ofNat s.history.tgDeadline
  tg_near : s.history.tgDeadline ≤ uptime + tgBackoffMaxMs.toNat

theorem PollTimed.later {t : Nat} {s : PollState} (ms : Nat) (h : PollTimed t s) :
    PollTimed (t + ms) s where
  sync_due := h.sync_due
  sync_near := Nat.le_trans h.sync_near (Nat.add_le_add_right (Nat.le_add_right t ms) _)
  ever := h.ever
  ok := fun last hl => ⟨(h.ok last hl).1, Nat.le_trans (h.ok last hl).2 (Nat.le_add_right t ms)⟩
  tg_due := h.tg_due
  tg_near := Nat.le_trans h.tg_near (Nat.add_le_add_right (Nat.le_add_right t ms) _)

theorem period_scheduled (time : Nat) :
    syncPeriodMs + nowMs time = UInt32.ofNat (time + syncPeriodMs.toNat) := by
  rw [UInt32.add_comm, nowMs_add]

/-- What every success leaves, whatever else it did to the context. -/
theorem PollTimed.synced {uptime time : Nat} {s : PollState} (h : PollTimed uptime s)
    (ht : time ≤ uptime) (generation : Nat) :
    PollTimed uptime { s with
      sync := ⟨generation, nowMs time, true, syncPeriodMs + nowMs time⟩
      history := s.history.synced time } where
  sync_due := period_scheduled time
  sync_near := Nat.add_le_add_right ht _
  ever := rfl
  ok := by
    intro last hl
    obtain rfl := Option.some.inj hl
    exact ⟨rfl, ht⟩
  tg_due := h.tg_due
  tg_near := h.tg_near

theorem PollTimed.tgScheduled {uptime time : Nat} {s : PollState} (h : PollTimed uptime s)
    (ht : time ≤ uptime) {tg : TgPollCtx} {span : UInt32} (hdue : tg.nextDueMs = nowMs time + span)
    (hspan : span.toNat ≤ tgBackoffMaxMs.toNat) :
    PollTimed uptime { s with
      tg := tg, history := { s.history with tgDeadline := time + span.toNat } } :=
  { h with
    tg_due := hdue.trans (nowMs_add time span)
    tg_near := Nat.add_le_add ht hspan }

/-- The ladder stops at its top rung from whatever backoff it is entered with. -/
theorem tgPollFailed_backoff (ctx : TgPollCtx) (nowMs : UInt32) :
    (tgPollFailed ctx nowMs).backoffMs.toNat ≤ tgBackoffMaxMs.toNat := by
  have hmax : tgBackoffMaxMs.toNat = 300000 := rfl
  have hmin : tgBackoffMinMs.toNat = 5000 := rfl
  have hhalf : (tgBackoffMaxMs / 2).toNat = 150000 := rfl
  simp only [tgPollFailed]
  split_ifs with h0 hbig
  · omega
  · exact Nat.le_refl _
  · rw [gt_iff_lt, UInt32.lt_iff_toNat_lt, hhalf, not_lt] at hbig
    rw [UInt32.toNat_mul]
    simp only [UInt32.reduceToNat]
    omega

theorem PollTimed.call {uptime time : Nat} {s : PollState} (h : PollTimed uptime s)
    (ht : time ≤ uptime) (c : PollCall) : PollTimed uptime (pollCall s time c) := by
  cases c with
  | syncFailed =>
    exact { h with
      sync_due := period_scheduled time
      sync_near := Nat.add_le_add_right ht _ }
  | syncUnchanged => exact h.synced ht s.sync.generation
  | syncApply table set =>
    have hs := syncApply_step s.sync table set (nowMs time)
    simp only [pollCall]
    generalize syncApply s.sync table set (nowMs time) = out at hs ⊢
    cases hs with
    | badEntry | stale => exact h
    | unchanged => exact h.synced ht s.sync.generation
    | installed =>
      have hok : SyncResult.succeeds (if (installEntries (wipeGuests table) set.entries).2
          then .overflowed else .applied) = true := by
        split <;> rfl
      simp only [hok, if_true]
      exact h.synced ht set.generation
  | tgInit storedOffset =>
    exact { h with
      tg_due := rfl
      tg_near := Nat.le_trans ht (Nat.le_add_right _ _) }
  | tgOk => exact h.tgScheduled ht rfl (by decide)
  | tgFailed => exact h.tgScheduled ht rfl (tgPollFailed_backoff s.tg (nowMs time))
  | tgFatal => exact { h with tg_due := h.tg_due }
  | tgConsume updateId =>
    have hdue : (tgPollConsume s.tg updateId).1.nextDueMs = s.tg.nextDueMs := by
      unfold tgPollConsume
      split <;> rfl
    exact { h with tg_due := hdue.trans h.tg_due }
  | tgPersisted => exact { h with tg_due := h.tg_due }

theorem pollTimed_run (storedGeneration : Nat) (es : List (Timed PollEvent)) :
    PollTimed (pollRun storedGeneration es).uptime (pollRun storedGeneration es).state := by
  refine timed_invariant (fun t ms s h => h.later ms)
    (fun t s e h => h.call (Nat.sub_le t e.lag) e.call) ?_ es
  exact ⟨rfl, Nat.zero_le _, rfl, by simp [pollBoot], rfl, Nat.zero_le _⟩

/-- More than the stale time has passed since the last success, or there was none. -/
def StaleAt (uptime : Nat) (h : PollHistory) : Prop :=
  ∀ last, h.lastSuccess = some last → syncStaleMs.toNat < uptime - last

/-- An age that is over the limit is not just past a whole lap of the counter. -/
def AgeInReach (uptime : Nat) (h : PollHistory) : Prop :=
  ∀ last, h.lastSuccess = some last → syncStaleMs.toNat < uptime - last →
    syncStaleMs.toNat < (uptime - last) % 2 ^ 32

theorem PollTimed.syncDue_iff {uptime : Nat} {s : PollState} (h : PollTimed uptime s) :
    syncDue s.sync (nowMs uptime) = true ↔
      s.history.syncDeadline ≤ uptime ∧ ¬Lapped s.history.syncDeadline uptime := by
  have hp : syncPeriodMs.toNat = 900000 := rfl
  have := h.sync_near
  rw [syncDue, decide_eq_true_eq, h.sync_due, nowMs, signed_nonneg_iff (by omega)]

theorem PollTimed.tgPollDue_iff {uptime : Nat} {s : PollState} (h : PollTimed uptime s)
    (online : Bool) : tgPollDue s.tg (nowMs uptime) online = true ↔
      (s.tg.started = true ∧ s.tg.fatal = false ∧ online = true) ∧
        s.history.tgDeadline ≤ uptime ∧ ¬Lapped s.history.tgDeadline uptime := by
  have hm : tgBackoffMaxMs.toNat = 300000 := rfl
  have hnear := h.tg_near
  have hreach := @signed_nonneg_iff s.history.tgDeadline uptime (by omega)
  rw [← nowMs, ← h.tg_due] at hreach
  unfold tgPollDue
  cases s.tg.started <;> cases s.tg.fatal <;> cases online <;> simp [hreach]

theorem PollTimed.stale_iff {uptime : Nat} {s : PollState} (h : PollTimed uptime s) :
    syncIsStale s.sync (nowMs uptime) = true ↔
      ∀ last, s.history.lastSuccess = some last →
        syncStaleMs.toNat < (uptime - last) % 2 ^ 32 := by
  unfold syncIsStale
  have hever := h.ever
  cases hl : s.history.lastSuccess with
  | none => simp [hever, hl]
  | some last =>
    obtain ⟨hok, hle⟩ := h.ok last hl
    simp only [hever, hl, hok, Option.isSome_some, Bool.not_true, Bool.false_eq_true, if_false,
      decide_eq_true_eq, gt_iff_lt, UInt32.lt_iff_toNat_lt, nowMs, elapsed_toNat hle,
      Option.some.injEq, forall_eq']

theorem PollTimed.stale_exact_iff {uptime : Nat} {s : PollState} (h : PollTimed uptime s) :
    (syncIsStale s.sync (nowMs uptime) = true ↔ StaleAt uptime s.history) ↔
      AgeInReach uptime s.history := by
  rw [h.stale_iff, StaleAt, AgeInReach]
  cases s.history.lastSuccess with
  | none => simp
  | some last =>
    have hmod := Nat.mod_le (uptime - last) (2 ^ 32)
    simp only [Option.some.injEq, forall_eq']
    constructor
    · exact fun hiff => hiff.mpr
    · exact fun hreach => ⟨fun hm => Nat.lt_of_lt_of_le hm hmod, hreach⟩

def SyncDueExact (r : AtTime PollState) : Prop :=
  syncDue r.state.sync (nowMs r.uptime) = true ↔ r.state.history.syncDeadline ≤ r.uptime

/-- The courier polls at all: it was started, its token was not refused, and there is a link. -/
def Listening (r : AtTime PollState) (online : Bool) : Prop :=
  r.state.tg.started = true ∧ r.state.tg.fatal = false ∧ online = true

def TgDueExact (r : AtTime PollState) (online : Bool) : Prop :=
  tgPollDue r.state.tg (nowMs r.uptime) online = true ↔
    Listening r online ∧ r.state.history.tgDeadline ≤ r.uptime

def StaleExact (r : AtTime PollState) : Prop :=
  syncIsStale r.state.sync (nowMs r.uptime) = true ↔ StaleAt r.uptime r.state.history

theorem syncDue_exact_iff {r : AtTime PollState} (h : PollTimed r.uptime r.state) :
    SyncDueExact r ↔ ¬Lapped r.state.history.syncDeadline r.uptime := by
  have hpast := @Lapped.past r.state.history.syncDeadline r.uptime
  rw [SyncDueExact, h.syncDue_iff]
  tauto

theorem tgPollDue_exact_iff {r : AtTime PollState} (h : PollTimed r.uptime r.state)
    (online : Bool) : TgDueExact r online ↔
      (Listening r online → ¬Lapped r.state.history.tgDeadline r.uptime) := by
  have hpast := @Lapped.past r.state.history.tgDeadline r.uptime
  rw [TgDueExact, h.tgPollDue_iff, Listening]
  tauto

/-- Each of the three questions is answered as true time would, exactly where the deadline or the
age it is about has not gone round the counter. -/
theorem schedules_exact_iff (storedGeneration : Nat) (es : List (Timed PollEvent)) (online : Bool)
    (r : AtTime PollState) (hr : r = pollRun storedGeneration es) :
    (SyncDueExact r ↔ ¬Lapped r.state.history.syncDeadline r.uptime) ∧
    (TgDueExact r online ↔
      (Listening r online → ¬Lapped r.state.history.tgDeadline r.uptime)) ∧
    (StaleExact r ↔ AgeInReach r.uptime r.state.history) := by
  subst hr
  have h := pollTimed_run storedGeneration es
  exact ⟨syncDue_exact_iff h, tgPollDue_exact_iff h online, h.stale_exact_iff⟩

/-- A poll that fails and a courier that starts. -/
def firstPolls : List (Timed PollEvent) :=
  [.wait 900, .event ⟨300, .syncFailed⟩, .event ⟨0, .tgInit 0⟩, .wait 5000]

theorem schedules_exact_firstPolls : SyncDueExact (pollRun 0 firstPolls) ∧
    TgDueExact (pollRun 0 firstPolls) true ∧ StaleExact (pollRun 0 firstPolls) := by
  obtain ⟨hsync, htg, hstale⟩ :=
    schedules_exact_iff 0 firstPolls true (pollRun 0 firstPolls) rfl
  refine ⟨hsync.mpr (by decide), htg.mpr fun _ => by decide, hstale.mpr fun last hl => ?_⟩
  exact absurd (show none = some last from hl) (Option.some_ne_none last).symm

/-- Twenty-five days without a network: nothing is due that was due all along. -/
def longOutage : List (Timed PollEvent) := [.event ⟨0, .tgInit 0⟩, .wait (2 ^ 31)]

/-- Fifty days after a poll that found nothing new. -/
def oneLap : List (Timed PollEvent) := [.event ⟨0, .syncUnchanged⟩, .wait (2 ^ 32)]

theorem schedules_lapse : ¬SyncDueExact (pollRun 0 longOutage) ∧
    ¬TgDueExact (pollRun 0 longOutage) true ∧ ¬StaleExact (pollRun 0 oneLap) := by
  refine ⟨fun h => ?_, fun h => ?_, fun h => ?_⟩
  · exact absurd (h.mpr (Nat.zero_le _)) (by decide)
  · exact absurd (h.mpr ⟨⟨rfl, rfl, rfl⟩, Nat.zero_le _⟩) (by decide)
  · refine absurd (h.mpr fun last hl => ?_) (by decide)
    obtain rfl := Option.some.inj hl
    decide

end GateAccess
