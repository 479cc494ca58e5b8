import GateAccess.SyncParse
import GateAccess.SyncInstall

namespace GateAccess

structure SyncClientCfg where
  gateId : List UInt8
  mac : HexMac
  keyOk : Bool

/-- `do_sync` on what the fetch brought: the context, the table, the generation NVS keeps, and
the flag it returns. -/
def doSync (cfg : SyncClientCfg) (ctx : SyncCtx) (table : AcCtx) (nvsGen : Nat)
    (fetched : Option (List UInt8)) (atMs : UInt32) : SyncCtx × AcCtx × Nat × Bool :=
  if !cfg.keyOk then (ctx, table, nvsGen, false)
  else
    match fetched with
    | none => (syncFailed ctx atMs, table, nvsGen, false)
    | some body =>
      let parsed := syncParse body cfg.gateId cfg.mac
      if parsed.1 ≠ .ok then (syncFailed ctx atMs, table, nvsGen, false)
      else
        let done := syncApply ctx table parsed.2 atMs
        match done.2.2 with
        | .applied | .overflowed => (done.1, done.2.1, done.1.generation, true)
        | .unchanged | .stale | .badEntry => (done.1, done.2.1, nvsGen, false)

/-- The set a fetched body delivers, when it is authenticated and well formed. -/
def delivered (cfg : SyncClientCfg) (fetched : Option (List UInt8)) : Option SyncSet :=
  match fetched with
  | none => none
  | some body =>
    let parsed := syncParse body cfg.gateId cfg.mac
    if parsed.1 = .ok then some parsed.2 else none

theorem delivered_some {cfg : SyncClientCfg} {fetched : Option (List UInt8)} {set : SyncSet}
    (h : delivered cfg fetched = some set) :
    ∃ body, fetched = some body ∧ syncParse body cfg.gateId cfg.mac = (.ok, set) := by
  unfold delivered at h
  split at h
  next => simp at h
  next body =>
    dsimp only at h
    split at h
    next hok => exact ⟨body, rfl, Prod.ext hok (Option.some.inj h)⟩
    next => simp at h

theorem doSync_delivered {cfg : SyncClientCfg} (hkey : cfg.keyOk = true) (ctx : SyncCtx)
    (table : AcCtx) (nvsGen : Nat) {fetched : Option (List UInt8)} {set : SyncSet}
    (h : delivered cfg fetched = some set) (atMs : UInt32) :
    (doSync cfg ctx table nvsGen fetched atMs).1 = (syncApply ctx table set atMs).1 ∧
      (doSync cfg ctx table nvsGen fetched atMs).2.1 = (syncApply ctx table set atMs).2.1 := by
  obtain ⟨body, rfl, hparse⟩ := delivered_some h
  simp only [doSync, hkey, hparse, Bool.not_true, Bool.false_eq_true, if_false, ne_eq, not_true]
  split <;> exact ⟨rfl, rfl⟩

/-- Whether `sync_apply` installs the set: it is newer than the one held, or the one held has
not been seen since boot. -/
def Installs (ctx : SyncCtx) (set : SyncSet) : Prop :=
  ctx.generation ≤ set.generation ∧ (set.generation = ctx.generation → ctx.everSynced = false)

inductive DoSyncStep (cfg : SyncClientCfg) (ctx : SyncCtx) (table : AcCtx) (nvsGen : Nat)
    (fetched : Option (List UInt8)) (atMs : UInt32) : SyncCtx × AcCtx × Nat × Bool → Prop
  | noKey : cfg.keyOk = false →
      DoSyncStep cfg ctx table nvsGen fetched atMs (ctx, table, nvsGen, false)
  | failed : cfg.keyOk = true → delivered cfg fetched = none →
      DoSyncStep cfg ctx table nvsGen fetched atMs (syncFailed ctx atMs, table, nvsGen, false)
  | unchanged (set) : cfg.keyOk = true → delivered cfg fetched = some set →
      (syncApply ctx table set atMs).2.2 = .unchanged →
      set.generation = ctx.generation → ctx.everSynced = true →
      DoSyncStep cfg ctx table nvsGen fetched atMs (syncUnchanged ctx atMs, table, nvsGen, false)
  | stale (set) : cfg.keyOk = true → delivered cfg fetched = some set →
      (syncApply ctx table set atMs).2.2 = .stale →
      set.generation < ctx.generation →
      DoSyncStep cfg ctx table nvsGen fetched atMs (ctx, table, nvsGen, false)
  | installed (set) : cfg.keyOk = true → delivered cfg fetched = some set →
      (syncApply ctx table set atMs).2.2 =
        (if (installEntries (wipeGuests table) set.entries).2 then .overflowed else .applied) →
      Installs ctx set → (∀ e ∈ set.entries, entryRefused e = false) →
      DoSyncStep cfg ctx table nvsGen fetched atMs
        (⟨set.generation, atMs, true, syncPeriodMs + atMs⟩,
          (installEntries (wipeGuests table) set.entries).1, set.generation, true)

theorem doSync_step (cfg : SyncClientCfg) (ctx : SyncCtx) (table : AcCtx) (nvsGen : Nat)
    (fetched : Option (List UInt8)) (atMs : UInt32) :
    DoSyncStep cfg ctx table nvsGen fetched atMs (doSync cfg ctx table nvsGen fetched atMs) := by
  cases hkey : cfg.keyOk with
  | false =>
    simp only [doSync, hkey, Bool.not_false, if_true]
    exact .noKey hkey
  | true =>
    cases hd : delivered cfg fetched with
    | none =>
      have hout : doSync cfg ctx table nvsGen fetched atMs =
          (syncFailed ctx atMs, table, nvsGen, false) := by
        unfold delivered at hd
        unfold doSync
        cases fetched with
        | none => simp [hkey]
        | some body =>
          dsimp only at hd ⊢
          split at hd
          next => simp at hd
          next hok => simp [hkey, hok]
      rw [hout]
      exact .failed hkey hd
    | some set =>
      obtain ⟨body, rfl, hparse⟩ := delivered_some hd
      obtain ⟨_, _, _, hregion⟩ := syncParse_ok hparse
      have hgood : ∀ e ∈ set.entries, entryRefused e = false := by
        intro e he
        obtain ⟨_, _, hline⟩ := hregion.entries e he
        exact hline.backend
      simp only [doSync, hkey, hparse, Bool.not_true, Bool.false_eq_true, if_false, ne_eq,
        not_true]
      have hs := syncApply_step ctx table set atMs
      generalize hout : syncApply ctx table set atMs = out at hs
      cases hs with
      | badEntry hbad =>
        rcases hbad with hlen | ⟨e, he, hr⟩
        · exact absurd hregion.few (by omega)
        · rw [hgood e he] at hr
          simp at hr
      | unchanged hgen hever => exact .unchanged set hkey hd (by rw [hout]) hgen hever
      | stale hgen => exact .stale set hkey hd (by rw [hout]) hgen
      | installed hle hever hlen hacc =>
        have hi : DoSyncStep cfg ctx table nvsGen (some body) atMs _ :=
          .installed set hkey hd (by rw [hout]) ⟨hle, hever⟩ hacc
        cases hover : (installEntries (wipeGuests table) set.entries).2 with
        | true => simpa [hover] using hi
        | false => simpa [hover] using hi

end GateAccess
