import GateAccess.TransientIds
import GateAccess.Climbs
import Mathlib.Order.WithBot

namespace GateAccess

variable (cfg : DeviceCfg)

def installedGen (d : Device) : DeviceEvent → List Nat
  | .poll fetched atMs =>
    if (doSync cfg.sync d.sync d.access d.nvsGen fetched atMs).2.2.2 then
      [(doSync cfg.sync d.sync d.access d.nvsGen fetched atMs).1.generation]
    else []
  | _ => []

def DeviceEvent.isReboot : DeviceEvent → Bool
  | .reboot _ => true
  | _ => false

def InstalledBy (p : Device × DeviceEvent) (set : SyncSet) : Prop :=
  cfg.sync.keyOk = true ∧
  ∃ fetched atMs, p.2 = .poll fetched atMs ∧ delivered cfg.sync fetched = some set ∧
    ((syncApply p.1.sync p.1.access set atMs).2.2 = .applied ∨
      (syncApply p.1.sync p.1.access set atMs).2.2 = .overflowed)

variable {cfg}

/-- NVS holds the generation the context does, once there is a key to sync with. -/
def GenStored (cfg : DeviceCfg) (d : Device) : Prop :=
  cfg.sync.keyOk = true → d.nvsGen = d.sync.generation

inductive GenStep (cfg : DeviceCfg) (d : Device) (e : DeviceEvent) : Device → List Nat → Prop
  | kept (d') : e.isReboot = false → d'.nvsGen = d.nvsGen → d'.sync.generation = d.sync.generation →
      d'.sync.everSynced = d.sync.everSynced → GenStep cfg d e d' []
  | reboot (d') : e.isReboot = true → d'.nvsGen = d.nvsGen →
      (cfg.sync.keyOk = true → d'.sync.generation = d.nvsGen) → d'.sync.everSynced = false →
      GenStep cfg d e d' []
  | installed (d' set) : cfg.sync.keyOk = true → InstalledBy cfg (d, e) set → Installs d.sync set →
      d'.nvsGen = set.generation → d'.sync.generation = set.generation →
      d'.sync.everSynced = true → GenStep cfg d e d' [set.generation]

theorem deviceStep_gen (cfg : DeviceCfg) (d : Device) (e : DeviceEvent) :
    GenStep cfg d e (deviceStep cfg d e) (installedGen cfg d e) := by
  cases e with
  | poll fetched atMs =>
    have hs := doSync_step cfg.sync d.sync d.access d.nvsGen fetched atMs
    simp only [deviceStep, installedGen]
    generalize doSync cfg.sync d.sync d.access d.nvsGen fetched atMs = out at hs ⊢
    cases hs with
    | noKey => exact .kept _ rfl rfl rfl rfl
    | failed =>
      rw [syncFailed_eq]
      exact .kept _ rfl rfl rfl rfl
    | unchanged set _ _ _ _ hever =>
      rw [syncUnchanged_eq]
      exact .kept _ rfl rfl rfl hever.symm
    | stale => exact .kept _ rfl rfl rfl rfl
    | installed set hkey hset hres hinst =>
      refine .installed _ set hkey ⟨hkey, fetched, atMs, rfl, hset, ?_⟩ hinst rfl rfl rfl
      rw [hres]
      split
      next => exact Or.inr rfl
      next => exact Or.inl rfl
  | update u =>
    simp only [deviceStep, installedGen]
    split <;> exact .kept _ rfl rfl rfl rfl
  | courier resp nowMs =>
    simp only [deviceStep, installedGen]
    split <;> exact .kept _ rfl rfl rfl rfl
  | console | portalClosed | clockTrusted | attempt | tick => exact .kept _ rfl rfl rfl rfl
  | reboot b =>
    refine .reboot _ rfl rfl (fun hkey => ?_) ?_
    · simp [deviceStep, powerUp, hkey, syncInit, Device.stored]
    · simp only [deviceStep, powerUp]
      split <;> rfl

theorem genStored_step {d : Device} (h : GenStored cfg d) (e : DeviceEvent) :
    GenStored cfg (deviceStep cfg d e) := by
  have hs := deviceStep_gen cfg d e
  generalize deviceStep cfg d e = d' at hs ⊢
  generalize installedGen cfg d e = gens at hs
  cases hs with
  | kept _ hn hg => intro hkey; rw [hn, hg]; exact h hkey
  | reboot _ hn hg => intro hkey; rw [hn, hg hkey]
  | installed set _ _ _ hn hg => intro _; rw [hn, hg]

theorem genStored_powerUp (cfg : DeviceCfg) (s : Stored) (b : BootInputs) :
    GenStored cfg (powerUp cfg s b) := by
  intro hkey
  simp [powerUp, hkey, syncInit]

theorem GenStored.run {d : Device} (h : GenStored cfg d) (es : List DeviceEvent) :
    GenStored cfg (exec (deviceStep cfg) d es) :=
  exec_invariant (I := GenStored cfg) (fun _ e hd => genStored_step hd e) h es

theorem installedGen_climbs {d : Device} (h : GenStored cfg d) (es : List DeviceEvent) :
    Climb (· ≤ ·) d.nvsGen (logOf (deviceStep cfg) (installedGen cfg) d es)
      (exec (deviceStep cfg) d es).nvsGen := by
  apply climb_logOf Device.nvsGen
  intro p hp
  obtain ⟨before, after, _, hd⟩ := mem_trace hp
  have hstored : GenStored cfg p.1 := by
    rw [hd]
    exact h.run before
  have hs := deviceStep_gen cfg p.1 p.2
  generalize deviceStep cfg p.1 p.2 = d' at hs ⊢
  generalize installedGen cfg p.1 p.2 = gens at hs ⊢
  cases hs with
  | kept _ hn => rw [hn]; exact .stay
  | reboot _ hn => rw [hn]; exact .stay
  | installed set hkey _ hinst hn =>
    rw [hn]
    refine .take ?_ .stay
    rw [hstored hkey]
    exact hinst.1

/-- What a boot holds against replays: nothing before its first set, then that set's generation. -/
def bootGen (d : Device) : WithBot Nat :=
  if d.sync.everSynced then WithBot.some d.sync.generation else ⊥

theorem installedGen_climbs_boot (cfg : DeviceCfg) (d : Device) (es : List DeviceEvent)
    (hb : ∀ e ∈ es, e.isReboot = false) :
    Climb (· < ·) (bootGen d) (logOf (deviceStep cfg)
      (fun d e => (installedGen cfg d e).map WithBot.some) d es)
      (bootGen (exec (deviceStep cfg) d es)) := by
  apply climb_logOf bootGen
  intro p hp
  have he : p.2.isReboot = false := by
    obtain ⟨before, after, hes, _⟩ := mem_trace hp
    exact hb p.2 (by simp [hes])
  have hs := deviceStep_gen cfg p.1 p.2
  generalize deviceStep cfg p.1 p.2 = d' at hs ⊢
  generalize installedGen cfg p.1 p.2 = gens at hs ⊢
  cases hs with
  | kept _ _ hg hever =>
    have hsame : bootGen d' = bootGen p.1 := by simp [bootGen, hg, hever]
    rw [hsame]
    exact .stay
  | reboot hr => simp [he] at hr
  | installed set _ _ hinst _ hg hever =>
    have hnew : bootGen d' = WithBot.some set.generation := by simp [bootGen, hg, hever]
    rw [hnew]
    refine .take ?_ .stay
    cases hold : p.1.sync.everSynced with
    | false => simp [bootGen, hold]
    | true =>
      have hne : set.generation ≠ p.1.sync.generation := by
        intro h
        simp [hinst.2 h] at hold
      simpa [bootGen, hold] using lt_of_le_of_ne hinst.1 (Ne.symm hne)

/-- No rollback by replay: whatever is fetched, however often the device restarts, the
generations of the sets installed never go down, within a boot they go up, and a refused set
moves nothing. -/
theorem generations_never_fall (s : Stored) (b : BootInputs) (es : List DeviceEvent) :
    (logOf (deviceStep cfg) (installedGen cfg) (powerUp cfg s b) es).Pairwise (· ≤ ·) ∧
    (∀ before boot after, es = before ++ boot ++ after → (∀ e ∈ boot, e.isReboot = false) →
      (logOf (deviceStep cfg) (installedGen cfg)
        (deviceRun cfg s b before) boot).Pairwise (· < ·)) ∧
    (∀ fetched atMs set, delivered cfg.sync fetched = some set →
      ∀ d, d = deviceRun cfg s b es →
      (syncApply d.sync d.access set atMs).2.2 = .stale ∨
        (syncApply d.sync d.access set atMs).2.2 = .badEntry →
      (deviceStep cfg d (.poll fetched atMs)).access = d.access ∧
        (deviceStep cfg d (.poll fetched atMs)).sync = d.sync ∧
        (deviceStep cfg d (.poll fetched atMs)).nvsGen = d.nvsGen) := by
  refine ⟨(installedGen_climbs (genStored_powerUp cfg s b) es).pairwise, ?_, ?_⟩
  · intro before boot after _ hb
    have h := (installedGen_climbs_boot cfg
      (deviceRun cfg s b before) boot hb).pairwise
    rw [logOf_map, List.pairwise_map] at h
    exact h.imp fun hlt => by simpa using hlt
  · intro fetched atMs set hset d _ hres
    have hs := doSync_step cfg.sync d.sync d.access d.nvsGen fetched atMs
    simp only [deviceStep]
    generalize doSync cfg.sync d.sync d.access d.nvsGen fetched atMs = out at hs ⊢
    cases hs with
    | noKey => exact ⟨rfl, rfl, rfl⟩
    | failed _ hnone => simp [hset] at hnone
    | unchanged set' _ hset' hr =>
      obtain rfl := Option.some.inj (hset.symm.trans hset')
      simp [hr] at hres
    | stale => exact ⟨rfl, rfl, rfl⟩
    | installed set' _ hset' hr =>
      obtain rfl := Option.some.inj (hset.symm.trans hset')
      rw [hr] at hres
      split at hres <;> simp at hres

end GateAccess
