import GateAccess.Device

namespace GateAccess

/-- What a pass of the sync task meets: the true time, the link, and what a fetch would bring. -/
structure TaskPass where
  time : Nat
  online : Bool
  table : AcCtx
  nvsGen : Nat
  fetched : Option (List UInt8)

def pollStarts (ctx : SyncCtx) (pass : TaskPass) : Bool :=
  pass.online && syncDue ctx (UInt32.ofNat pass.time)

variable (cfg : SyncClientCfg)

def polled (ctx : SyncCtx) (pass : TaskPass) : SyncCtx :=
  (doSync cfg ctx pass.table pass.nvsGen pass.fetched (UInt32.ofNat pass.time)).1

/-- One pass of the loop in `sync_task`. -/
def syncTask (ctx : SyncCtx) (pass : TaskPass) : SyncCtx :=
  if pollStarts ctx pass then polled cfg ctx pass else ctx

def pollTimes (ctx : SyncCtx) (passes : List TaskPass) : List Nat :=
  logOf (syncTask cfg) (fun ctx pass => if pollStarts ctx pass then [pass.time] else []) ctx passes

/-- The poll brings no authenticated set older than the one held. -/
def NotOlder (ctx : SyncCtx) (pass : TaskPass) : Prop :=
  ∀ set, delivered cfg pass.fetched = some set → ctx.generation ≤ set.generation

/-- For a whole period after the poll no other is due. -/
def Quiet (ctx : SyncCtx) (pass : TaskPass) : Prop :=
  ∀ t, pass.time ≤ t → t < pass.time + syncPeriodMs.toNat →
    syncDue (polled cfg ctx pass) (UInt32.ofNat t) = false

def PassesInOrder (passes : List TaskPass) : Prop := passes.Pairwise fun p q => p.time ≤ q.time

instance (passes : List TaskPass) : Decidable (PassesInOrder passes) :=
  inferInstanceAs (Decidable (passes.Pairwise _))

variable {cfg}

theorem period_add (T : Nat) :
    syncPeriodMs + UInt32.ofNat T = UInt32.ofNat (T + syncPeriodMs.toNat) := by
  rw [UInt32.add_comm]
  exact nowMs_add T syncPeriodMs

theorem syncDue_scheduled {ctx : SyncCtx} {T t : Nat}
    (h : ctx.nextDueMs = syncPeriodMs + UInt32.ofNat T) (hT : T ≤ t)
    (ht : t < T + syncPeriodMs.toNat) : syncDue ctx (UInt32.ofNat t) = false := by
  have hp : syncPeriodMs.toNat = 900000 := rfl
  have hs := signed_sub_ofNat_neg ht (by omega)
  rw [syncDue, h, period_add, hs]
  simp
  omega

/-- Every exit of a poll reschedules, but the one that refuses an older set. -/
theorem polled_nextDue (hkey : cfg.keyOk = true) (ctx : SyncCtx) (pass : TaskPass) :
    (NotOlder cfg ctx pass ∧
      (polled cfg ctx pass).nextDueMs = syncPeriodMs + UInt32.ofNat pass.time) ∨
    (¬NotOlder cfg ctx pass ∧ polled cfg ctx pass = ctx) := by
  unfold polled
  have hs := doSync_step cfg ctx pass.table pass.nvsGen pass.fetched (UInt32.ofNat pass.time)
  generalize doSync cfg ctx pass.table pass.nvsGen pass.fetched (UInt32.ofNat pass.time) = out at hs
  cases hs with
  | noKey h => simp [hkey] at h
  | failed _ hnone =>
    refine Or.inl ⟨fun set h => ?_, rfl⟩
    rw [hnone] at h
    simp at h
  | unchanged set _ hset _ hgen =>
    refine Or.inl ⟨fun set' h => ?_, rfl⟩
    obtain rfl := Option.some.inj (hset.symm.trans h)
    exact hgen.ge
  | stale set _ hset _ hgen =>
    refine Or.inr ⟨fun h => ?_, rfl⟩
    exact absurd (h set hset) (by omega)
  | installed set _ hset _ hinst =>
    refine Or.inl ⟨fun set' h => ?_, rfl⟩
    obtain rfl := Option.some.inj (hset.symm.trans h)
    exact hinst.1

theorem quiet_iff (hkey : cfg.keyOk = true) {ctx : SyncCtx} {pass : TaskPass}
    (hstart : pollStarts ctx pass = true) : Quiet cfg ctx pass ↔ NotOlder cfg ctx pass := by
  rcases polled_nextDue hkey ctx pass with ⟨hnot, hnext⟩ | ⟨hold, hsame⟩
  · exact ⟨fun _ => hnot, fun _ t hT ht => syncDue_scheduled hnext hT ht⟩
  · refine ⟨fun hquiet => ?_, fun hnot => absurd hnot hold⟩
    have hdue : syncDue ctx (UInt32.ofNat pass.time) = true := by
      simp only [pollStarts, Bool.and_eq_true] at hstart
      exact hstart.2
    have hp : syncPeriodMs.toNat = 900000 := rfl
    have := hquiet pass.time le_rfl (by omega)
    rw [hsame, hdue] at this
    simp at this

theorem pollTimes_apart (hkey : cfg.keyOk = true) {ctx : SyncCtx} {passes : List TaskPass}
    (order : PassesInOrder passes)
    (fresh : ∀ p ∈ trace (syncTask cfg) ctx passes, pollStarts p.1 p.2 = true →
      NotOlder cfg p.1 p.2) :
    (∀ T, ctx.nextDueMs = syncPeriodMs + UInt32.ofNat T → (∀ p ∈ passes, T ≤ p.time) →
      ∀ t ∈ pollTimes cfg ctx passes, T + syncPeriodMs.toNat ≤ t) ∧
    (pollTimes cfg ctx passes).Pairwise fun t u => t + syncPeriodMs.toNat ≤ u := by
  induction passes generalizing ctx with
  | nil => exact ⟨fun _ _ _ t ht => by simp [pollTimes, logOf] at ht, List.Pairwise.nil⟩
  | cons pass passes ih =>
    obtain ⟨hafter, order'⟩ := List.pairwise_cons.mp order
    have fresh' := fun p hp => fresh p (List.mem_cons_of_mem _ hp)
    obtain ⟨hlow, happart⟩ := ih order' fresh'
    cases hstart : pollStarts ctx pass with
    | false =>
      have hsame : syncTask cfg ctx pass = ctx := by simp [syncTask, hstart]
      have htimes : pollTimes cfg ctx (pass :: passes) = pollTimes cfg ctx passes := by
        simp [pollTimes, logOf, hstart, hsame]
      rw [hsame] at hlow happart
      rw [htimes]
      exact ⟨fun T hT hall => hlow T hT fun p hp => hall p (List.mem_cons_of_mem _ hp), happart⟩
    | true =>
      have hstep : syncTask cfg ctx pass = polled cfg ctx pass := by simp [syncTask, hstart]
      have htimes : pollTimes cfg ctx (pass :: passes) =
          pass.time :: pollTimes cfg (polled cfg ctx pass) passes := by
        simp [pollTimes, logOf, hstart, hstep]
      have hnext : (polled cfg ctx pass).nextDueMs = syncPeriodMs + UInt32.ofNat pass.time := by
        rcases polled_nextDue hkey ctx pass with ⟨_, hnext⟩ | ⟨hold, _⟩
        · exact hnext
        · exact absurd (fresh (ctx, pass) List.mem_cons_self hstart) hold
      rw [hstep] at hlow happart
      have hlow' := hlow pass.time hnext hafter
      rw [htimes]
      refine ⟨fun T hT hall t ht => ?_, List.pairwise_cons.mpr ⟨hlow', happart⟩⟩
      have hfirst : T + syncPeriodMs.toNat ≤ pass.time := by
        by_contra hlt
        have hnot := syncDue_scheduled hT (hall pass List.mem_cons_self) (by omega)
        simp [pollStarts, hnot] at hstart
      rcases List.mem_cons.mp ht with rfl | ht
      · exact hfirst
      · have := hlow' t ht
        omega

/-- The task keeps its period exactly as long as no poll brings an authenticated set older than
the one held: after any other poll none is due for a period, and no two polls are closer. -/
theorem sync_task_keeps_period (hkey : cfg.keyOk = true) (ctx : SyncCtx) (passes : List TaskPass)
    (order : PassesInOrder passes) :
    ((∀ p ∈ trace (syncTask cfg) ctx passes, pollStarts p.1 p.2 = true → Quiet cfg p.1 p.2) ↔
      ∀ p ∈ trace (syncTask cfg) ctx passes, pollStarts p.1 p.2 = true → NotOlder cfg p.1 p.2) ∧
    ((∀ p ∈ trace (syncTask cfg) ctx passes, pollStarts p.1 p.2 = true → NotOlder cfg p.1 p.2) →
      (pollTimes cfg ctx passes).Pairwise fun t u => t + syncPeriodMs.toNat ≤ u) := by
  refine ⟨⟨fun h p hp hs => (quiet_iff hkey hs).mp (h p hp hs),
    fun h p hp hs => (quiet_iff hkey hs).mpr (h p hp hs)⟩, fun fresh => ?_⟩
  exact (pollTimes_apart hkey order fresh).2

def secondApart (body : Option (List UInt8)) : List TaskPass :=
  [⟨0, true, acInit 5 300, 0, body⟩, ⟨1000, true, acInit 5 300, 0, body⟩]

theorem sync_task_keeps_period_offline :
    (pollTimes plainCfg.sync (syncInit 2 0) (secondApart none)).Pairwise
      fun t u => t + syncPeriodMs.toNat ≤ u :=
  (@sync_task_keeps_period plainCfg.sync rfl (syncInit 2 0) (secondApart none)
    (by decide)).2 fun _ hp _ set h => by
      obtain ⟨_, _, hsplit, _⟩ := mem_trace hp
      have hmem := hsplit ▸ List.mem_append_right _ List.mem_cons_self
      simp [secondApart] at hmem
      rcases hmem with he | he <;> simp [he, delivered] at h

theorem sync_task_hammers :
    pollTimes plainCfg.sync (syncInit 2 0) (secondApart (some (plainBody "gen 1\n"))) = [0, 1000] ∧
    ¬(pollTimes plainCfg.sync (syncInit 2 0) (secondApart (some (plainBody "gen 1\n")))).Pairwise
      fun t u => t + syncPeriodMs.toNat ≤ u := by
  have h : pollTimes plainCfg.sync (syncInit 2 0) (secondApart (some (plainBody "gen 1\n"))) =
      [0, 1000] := by decide +kernel
  exact ⟨h, by rw [h]; decide +kernel⟩

end GateAccess
