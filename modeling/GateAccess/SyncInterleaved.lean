import GateAccess.SyncClient
import GateAccess.Traces

namespace GateAccess

/-- The two tasks that call `do_sync`. -/
inductive SyncCaller
  | syncTask
  | console
  deriving DecidableEq

def SyncCaller.other : SyncCaller → SyncCaller
  | .syncTask => .console
  | .console => .syncTask

/-- `pending` is the generation a caller read under the lock and has not saved yet. The field
`installer`, which the firmware does not have, is the caller whose set was installed last. -/
structure SyncRace where
  ctx : SyncCtx
  nvsGen : Nat
  pending : SyncCaller → Option Nat
  installer : Option SyncCaller

inductive RaceEvent
  | failed (nowMs : UInt32)
  | apply (who : SyncCaller) (table : AcCtx) (set : SyncSet) (nowMs : UInt32)
  | save (who : SyncCaller)

def SyncResult.installs : SyncResult → Bool
  | .applied | .overflowed => true
  | .unchanged | .stale | .badEntry => false

/-- The locked half of `do_sync`, and the choice behind it whether to save. -/
def applyStep (s : SyncRace) (who : SyncCaller) (table : AcCtx) (set : SyncSet) (nowMs : UInt32) :
    SyncRace :=
  let done := syncApply s.ctx table set nowMs
  if done.2.2.installs then
    { s with
      ctx := done.1
      pending := Function.update s.pending who (some done.1.generation)
      installer := some who }
  else { s with ctx := done.1 }

def saveStep (s : SyncRace) (who : SyncCaller) : SyncRace :=
  match s.pending who with
  | none => s
  | some gen => { s with nvsGen := gen, pending := Function.update s.pending who none }

/-- A caller ends one call before it begins the next. -/
def raceStep (s : SyncRace) : RaceEvent → SyncRace
  | .failed nowMs => { s with ctx := syncFailed s.ctx nowMs }
  | .apply who table set nowMs =>
    if s.pending who = none then applyStep s who table set nowMs else s
  | .save who => saveStep s who

def raceBoot (stored : Nat) : SyncRace := ⟨syncInit stored 0, stored, fun _ => none, none⟩

/-- No call is between its two steps. -/
def Quiescent (s : SyncRace) : Prop := ∀ who, s.pending who = none

/-- What NVS holds is the generation of the table, and a boot from it refuses every older set. -/
structure KeepsUp (s : SyncRace) : Prop where
  saved : s.nvsGen = s.ctx.generation
  refuses : ∀ table set nowMs, set.generation < s.ctx.generation →
    (syncApply (syncInit s.nvsGen 0) table set nowMs).2.2.installs = false

/-- A save that leaves no other call pending is made by the caller that installed last. -/
def EndsInOrder (p : SyncRace × RaceEvent) : Prop :=
  ∀ who, p.2 = .save who → p.1.pending who ≠ none → p.1.pending who.other = none →
    p.1.installer = some who

structure RaceOrdered (s : SyncRace) : Prop where
  synced : ∀ who gen, s.pending who = some gen → s.ctx.everSynced = true
  last : ∀ who gen, s.pending who = some gen → s.installer = some who → gen = s.ctx.generation
  earlier : ∀ who gen, s.pending who = some gen → s.installer ≠ some who → gen < s.ctx.generation

inductive ApplyOutcome (s : SyncRace) (who : SyncCaller) : SyncRace → Prop
  | kept (ctx : SyncCtx) : ctx.generation = s.ctx.generation →
      (s.ctx.everSynced = true → ctx.everSynced = true) → ApplyOutcome s who { s with ctx := ctx }
  | installed (ctx : SyncCtx) : ctx.everSynced = true →
      (s.ctx.everSynced = true → s.ctx.generation < ctx.generation) →
      ApplyOutcome s who ⟨ctx, s.nvsGen, Function.update s.pending who (some ctx.generation),
        some who⟩

theorem applyStep_outcome (s : SyncRace) (who : SyncCaller) (table : AcCtx) (set : SyncSet)
    (nowMs : UInt32) : ApplyOutcome s who (applyStep s who table set nowMs) := by
  have hs := syncApply_step s.ctx table set nowMs
  unfold applyStep
  generalize syncApply s.ctx table set nowMs = out at hs ⊢
  cases hs with
  | badEntry | stale => exact .kept s.ctx rfl id
  | unchanged => exact .kept _ rfl fun _ => rfl
  | installed hle hever =>
    have hin : SyncResult.installs (if (installEntries (wipeGuests table) set.entries).2
        then .overflowed else .applied) = true := by
      split <;> rfl
    simp only [hin, if_true]
    refine .installed _ rfl fun hsynced => Nat.lt_of_le_of_ne hle fun heq => ?_
    simp [hever heq.symm] at hsynced

/-- One caller on its own is `do_sync`: the two steps in a row do what the whole call does. -/
theorem doSync_alone {cfg : SyncClientCfg} (hkey : cfg.keyOk = true) (s : SyncRace)
    (who : SyncCaller) (table : AcCtx) {fetched : Option (List UInt8)} {set : SyncSet}
    (hset : delivered cfg fetched = some set) (nowMs : UInt32) (hfree : s.pending who = none) :
    (saveStep (applyStep s who table set nowMs) who).ctx =
        (doSync cfg s.ctx table s.nvsGen fetched nowMs).1 ∧
      (saveStep (applyStep s who table set nowMs) who).nvsGen =
        (doSync cfg s.ctx table s.nvsGen fetched nowMs).2.2.1 := by
  obtain ⟨body, rfl, hparse⟩ := delivered_some hset
  simp only [doSync, hkey, hparse, Bool.not_true, Bool.false_eq_true, if_false, ne_eq, not_true]
  unfold applyStep
  cases hres : (syncApply s.ctx table set nowMs).2.2 with
  | applied | overflowed => simp [saveStep, hres, SyncResult.installs]
  | unchanged | stale | badEntry => simp [saveStep, hres, hfree, SyncResult.installs]

theorem RaceOrdered.apply {s s' : SyncRace} {who : SyncCaller} (h : RaceOrdered s)
    (hs : ApplyOutcome s who s') : RaceOrdered s' := by
  cases hs with
  | kept ctx hgen hever =>
    exact ⟨fun w g hw => hever (h.synced w g hw), fun w g hw hi => (h.last w g hw hi).trans hgen.symm,
      fun w g hw hi => hgen ▸ h.earlier w g hw hi⟩
  | installed ctx hever hlt =>
    refine ⟨fun _ _ _ => hever, fun w g hw hi => ?_, fun w g hw hi => ?_⟩
    · obtain rfl := Option.some.inj hi
      simpa [eq_comm] using hw
    · have hne : w ≠ who := fun he => hi (congrArg some he.symm)
      have hw : s.pending w = some g := by simpa only [Function.update_of_ne hne] using hw
      have hle : g ≤ s.ctx.generation := by
        by_cases hlast : s.installer = some w
        · exact (h.last w g hw hlast).le
        · exact (h.earlier w g hw hlast).le
      exact Nat.lt_of_le_of_lt hle (hlt (h.synced w g hw))

theorem RaceOrdered.save {s : SyncRace} (h : RaceOrdered s) (who : SyncCaller) :
    RaceOrdered (saveStep s who) := by
  unfold saveStep
  split
  next => exact h
  next gen hgen =>
    have still {w : SyncCaller} {g : Nat} (hw : Function.update s.pending who none w = some g) :
        s.pending w = some g := by
      by_cases he : w = who
      · subst he
        simp at hw
      · rwa [Function.update_of_ne he] at hw
    exact ⟨fun w g hw => h.synced w g (still hw), fun w g hw => h.last w g (still hw),
      fun w g hw => h.earlier w g (still hw)⟩

theorem RaceOrdered.step {s : SyncRace} (h : RaceOrdered s) (e : RaceEvent) :
    RaceOrdered (raceStep s e) := by
  cases e with
  | failed nowMs => exact ⟨h.synced, h.last, h.earlier⟩
  | apply who table set nowMs =>
    simp only [raceStep]
    split
    · exact h.apply (applyStep_outcome s who table set nowMs)
    · exact h
  | save who => exact h.save who

theorem raceBoot_ordered (stored : Nat) : RaceOrdered (raceBoot stored) :=
  ⟨by simp [raceBoot], by simp [raceBoot], by simp [raceBoot]⟩

theorem raceOrdered_run (stored : Nat) (es : List RaceEvent) :
    RaceOrdered (exec raceStep (raceBoot stored) es) :=
  exec_invariant (fun _ e h => h.step e) (raceBoot_ordered stored) es

/-- A boot has seen no set yet, so only the generation it reads back keeps an older one out. -/
theorem syncInit_refuses {stored : Nat} {set : SyncSet} (table : AcCtx) (nowMs : UInt32)
    (h : set.generation < stored) :
    (syncApply (syncInit stored 0) table set nowMs).2.2.installs = false := by
  have hs := syncApply_step (syncInit stored 0) table set nowMs
  generalize syncApply (syncInit stored 0) table set nowMs = out at hs ⊢
  cases hs with
  | badEntry | unchanged | stale => rfl
  | installed hle => exact absurd hle (Nat.not_le.mpr h)

theorem keepsUp_iff {s : SyncRace} : KeepsUp s ↔ s.nvsGen = s.ctx.generation :=
  ⟨fun h => h.saved, fun h => ⟨h, fun table _ nowMs hlt => syncInit_refuses table nowMs (h ▸ hlt)⟩⟩

theorem SyncCaller.eq_or_other (who w : SyncCaller) : w = who ∨ w = who.other := by
  cases who <;> cases w <;> simp [SyncCaller.other]

/-- The save that ends an overlap leaves the newest generation in NVS exactly when its caller
installed it. -/
theorem save_keepsUp_iff {s : SyncRace} (h : RaceOrdered s) {who : SyncCaller} {gen : Nat}
    (hp : s.pending who = some gen) :
    KeepsUp (saveStep s who) ↔ s.installer = some who := by
  have hsave : saveStep s who =
      { s with nvsGen := gen, pending := Function.update s.pending who none } := by
    simp only [saveStep, hp]
  rw [keepsUp_iff, hsave]
  by_cases hlast : s.installer = some who
  · simpa [hlast] using h.last who gen hp hlast
  · simpa [hlast] using (h.earlier who gen hp hlast).ne

theorem quiescent_save {s : SyncRace} {who : SyncCaller} {gen : Nat} (hp : s.pending who = some gen) :
    Quiescent (saveStep s who) ↔ s.pending who.other = none := by
  have hne : who.other ≠ who := by cases who <;> simp [SyncCaller.other]
  have hsave : (saveStep s who).pending = Function.update s.pending who none := by
    simp only [saveStep, hp]
  rw [Quiescent, hsave]
  constructor
  · intro hq
    simpa only [Function.update_of_ne hne] using hq who.other
  · intro ho w
    rcases who.eq_or_other w with rfl | rfl
    · simp
    · simpa only [Function.update_of_ne hne] using ho

/-- What a run whose overlaps end in order keeps. -/
structure RaceKept (s : SyncRace) : Prop where
  ordered : RaceOrdered s
  keeps : Quiescent s → KeepsUp s

theorem raceBoot_kept (stored : Nat) : RaceKept (raceBoot stored) :=
  ⟨raceBoot_ordered stored, fun _ => keepsUp_iff.mpr rfl⟩

theorem RaceKept.step {s : SyncRace} {e : RaceEvent} (h : RaceKept s) (he : EndsInOrder (s, e)) :
    RaceKept (raceStep s e) := by
  refine ⟨h.ordered.step e, fun hq => ?_⟩
  cases e with
  | failed nowMs =>
    have hsaved : s.nvsGen = s.ctx.generation := (h.keeps hq).saved
    exact keepsUp_iff.mpr hsaved
  | apply who table set nowMs =>
    simp only [raceStep] at hq ⊢
    split at hq
    next hfree =>
      rw [if_pos hfree]
      have ho := applyStep_outcome s who table set nowMs
      generalize applyStep s who table set nowMs = s' at hq ho ⊢
      cases ho with
      | kept ctx hgen =>
        exact keepsUp_iff.mpr ((keepsUp_iff.mp (h.keeps hq)).trans hgen.symm)
      | installed ctx =>
        exact absurd (hq who) (by simp)
    next hbusy =>
      rw [if_neg hbusy]
      exact h.keeps hq
  | save who =>
    cases hp : s.pending who with
    | none =>
      have hsame : saveStep s who = s := by simp only [saveStep, hp]
      simp only [raceStep, hsame] at hq ⊢
      exact h.keeps hq
    | some gen =>
      have ho := (quiescent_save hp).mp hq
      exact (save_keepsUp_iff h.ordered hp).mpr (he who rfl (by simp [hp]) ho)

/-- NVS keeps up with the table between the calls exactly where every overlap of two calls ends
with the save of the one that installed last. -/
theorem saved_generation_iff (stored : Nat) (es : List RaceEvent) :
    (∀ before after, es = before ++ after → Quiescent (exec raceStep (raceBoot stored) before) →
        KeepsUp (exec raceStep (raceBoot stored) before)) ↔
      ∀ p ∈ trace raceStep (raceBoot stored) es, EndsInOrder p := by
  refine always_iff_steps (P := fun s => Quiescent s → KeepsUp s) (raceBoot_kept stored)
    (fun _ h => h.keeps) (fun _ _ h he => h.step he) ?_
  rintro before e hkeeps who rfl hpend hother
  obtain ⟨gen, hgen⟩ := Option.ne_none_iff_exists'.mp hpend
  have hquiet := (quiescent_save hgen).mpr hother
  exact (save_keepsUp_iff (raceOrdered_run stored before) hgen).mp (hkeeps hquiet)

/-- Both calls install, and they save the other way round. -/
def crossedSaves : List RaceEvent :=
  [.apply .syncTask (acInit 5 300) ⟨5, []⟩ 1000, .apply .console (acInit 5 300) ⟨6, []⟩ 2000,
    .save .console, .save .syncTask]

/-- The table is at generation 6, NVS at 5, and the next boot takes a set of generation 5 again. -/
theorem crossed_saves_fall_behind :
    Quiescent (exec raceStep (raceBoot 0) crossedSaves) ∧
      ¬KeepsUp (exec raceStep (raceBoot 0) crossedSaves) ∧
      (syncApply (syncInit (exec raceStep (raceBoot 0) crossedSaves).nvsGen 0) (acInit 5 300)
        ⟨5, []⟩ 0).2.2 = .applied := by
  refine ⟨fun who => ?_, fun h => absurd h.saved (by decide +kernel), by decide +kernel⟩
  cases who <;> decide +kernel

end GateAccess
