import GateAccess.AttemptBound
import GateAccess.AttemptPersist

namespace GateAccess

def attemptRecord (ac : AcCtx) (bootCount : UInt32) : PrState :=
  ⟨ac.failedAttempts, UInt32.ofInt ac.lockoutUntil, bootCount⟩

variable (hash : List UInt8 → Bytes acHashLen) (maxFailed : UInt8) (lockoutSeconds : Int)

/-- The save an event makes: into which ring, and what. -/
def MainEvent.saving (d : GateDevice) : MainEvent → Option (PrStore × PrState)
  | .gate e =>
    if (gateOut hash d.gate e).persistAttempts then
      some (d.store, attemptRecord (gateStep hash d.gate e).ac d.bootCount)
    else none
  | .restart eeprom clockOk =>
    let booted := gatePowerUp maxFailed lockoutSeconds d.store.image eeprom clockOk
    some (persistInit d.store.image, attemptRecord booted.gate.ac booted.bootCount)

/-- An event whose save may end early. A power cut is one that does, and then a restart. -/
def lifeStep (d : GateDevice) (e : Save MainEvent) : GateDevice :=
  let next := mainStep hash maxFailed lockoutSeconds d e.value
  match e.value.saving hash maxFailed lockoutSeconds d with
  | none => next
  | some (store, s) => { next with store := persistSave store s e.cut }

/-- A code that has been judged: when, how, and whether the save that followed was completed. -/
structure Judged where
  time : Int
  result : AcResult
  saved : Bool

def gateResults (g : GateCtrl) : GateEvent → List (Int × AcResult)
  | .key key now =>
    if (gateOnKey hash g key now).2.submitted then
      [(now.epoch, (gateOnKey hash g key now).2.result)]
    else []
  | _ => []

def judgedAt (d : GateDevice) (e : Save MainEvent) : List Judged :=
  match e.value with
  | .gate event => (gateResults hash d.gate event).map fun r => ⟨r.1, r.2, e.cut.isNone⟩
  | .restart _ _ => []

def MainEvent.epoch : MainEvent → Option Int
  | .gate e => e.epoch
  | .restart _ _ => none

/-- Every save that ends early leaves a page that does not decode. -/
def CutsInvalid (d : GateDevice) (life : List (Save MainEvent)) : Prop :=
  ∀ p ∈ trace (lifeStep hash maxFailed lockoutSeconds) d life, ∀ k ∈ p.2.cut,
    ∀ saving ∈ p.2.value.saving hash maxFailed lockoutSeconds p.1,
      prDecode (tornPage saving.1 saving.2 k) = none

instance (d : GateDevice) (life : List (Save MainEvent)) :
    Decidable (CutsInvalid hash maxFailed lockoutSeconds d life) :=
  inferInstanceAs (Decidable (∀ p ∈ trace (lifeStep hash maxFailed lockoutSeconds) d life,
    ∀ k ∈ p.2.cut, ∀ saving ∈ p.2.value.saving hash maxFailed lockoutSeconds p.1,
      prDecode (tornPage saving.1 saving.2 k) = none))

/-- What a restart would restore. -/
def chipPair (image : PrImage) : UInt8 × Int :=
  ((prFindLatest image).1.map fun p => (p.attempts, (p.lockoutUntil.toNat : Int))).getD (0, 0)

/-- What an event of the gate makes of the attempt counter. -/
inductive AttemptMove (ac : AcCtx) : Option Int → UInt8 × Int → List (Int × AcResult) → Prop
  | kept (epoch) : AttemptMove ac epoch (attemptPair ac) []
  | ticked (now) : AttemptMove ac (some now) (attemptPair (acTick ac now)) []
  | judged (h now) : AttemptMove ac (some now) (attemptPair (acEvaluate ac h now).1)
      [(now, (acEvaluate ac h now).2.1)]

variable {hash} {maxFailed} {lockoutSeconds}

/-- Where every save is completed this is the main loop's own run. -/
theorem lifeStep_whole (d : GateDevice) (e : MainEvent) :
    lifeStep hash maxFailed lockoutSeconds d ⟨e, none⟩ = mainStep hash maxFailed lockoutSeconds d e := by
  cases e with
  | gate e =>
    simp only [lifeStep, MainEvent.saving, mainStep, handle]
    cases (gateOut hash d.gate e).persistAttempts <;> rfl
  | restart eeprom clockOk => rfl

theorem lifeStep_gate (d : GateDevice) (e : GateEvent) (cut : Option Nat) :
    (lifeStep hash maxFailed lockoutSeconds d ⟨.gate e, cut⟩).gate = gateStep hash d.gate e := by
  simp only [lifeStep, MainEvent.saving, mainStep, handle]
  cases (gateOut hash d.gate e).persistAttempts <;> rfl

/-- A key leaves the table's context alone, or hands it a hash to judge. -/
theorem gateOnKey_judges (g : GateCtrl) (key : UInt8) (now : UiNow) :
    ((gateOnKey hash g key now).2.submitted = false ∧ (gateOnKey hash g key now).1.ac = g.ac) ∨
      ∃ h, (gateOnKey hash g key now).2.submitted = true ∧
        (gateOnKey hash g key now).1.ac = (acEvaluate g.ac h now.epoch).1 ∧
        (gateOnKey hash g key now).2.result = (acEvaluate g.ac h now.epoch).2.1 := by
  rw [gateOnKey_eq]
  split_ifs
  · exact .inl ⟨rfl, rfl⟩
  · exact .inr ⟨_, rfl, rfl, rfl⟩
  · exact .inl ⟨rfl, rfl⟩

theorem gateStep_attempts (g : GateCtrl) (e : GateEvent) :
    AttemptMove g.ac e.epoch (attemptPair (gateStep hash g e).ac) (gateResults hash g e) := by
  by_cases he : e.epoch = none
  · have hnone : gateResults hash g e = [] := by
      cases e with
      | key => cases he
      | _ => rfl
    rw [hnone]
    by_cases ht : ∃ trusted, e = .clockTrusted trusted
    · obtain ⟨trusted, rfl⟩ := ht
      exact .kept _
    · obtain ⟨ac, hac, hstep⟩ := gateStep_table hash (g := g) he fun trusted h => ht ⟨trusted, h⟩
      rw [hstep, hac.attemptPair]
      exact .kept _
  · cases e with
    | key key now =>
      rcases @gateOnKey_judges hash g key now with ⟨hno, hac⟩ | ⟨h, hyes, hac, hresult⟩
      · simp only [gateResults, gateStep, hno, Bool.false_eq_true, if_false, hac]
        exact .kept _
      · simp only [gateResults, gateStep, hyes, if_true, hac, hresult]
        exact .judged h now.epoch
    | longPress now => exact .kept _
    | tick now =>
      simp only [gateResults, gateStep, gateTick, gateTickAc]
      split_ifs
      · exact .ticked now.epoch
      · exact .kept _
    | _ => simp [GateEvent.epoch] at he

theorem TableEdit.policy {before after : AcCtx} (h : TableEdit before after) :
    after.maxFailedAttempts = before.maxFailedAttempts ∧ after.lockoutSeconds = before.lockoutSeconds := by
  obtain ⟨slots, rfl⟩ := h
  exact ⟨rfl, rfl⟩

/-- No event of the gate changes the limits. -/
theorem gateStep_policy (g : GateCtrl) (e : GateEvent) :
    (gateStep hash g e).ac.maxFailedAttempts = g.ac.maxFailedAttempts ∧
      (gateStep hash g e).ac.lockoutSeconds = g.ac.lockoutSeconds := by
  by_cases he : e.epoch = none
  · by_cases ht : ∃ trusted, e = .clockTrusted trusted
    · obtain ⟨trusted, rfl⟩ := ht
      exact ⟨rfl, rfl⟩
    · obtain ⟨ac, hac, hstep⟩ := gateStep_table hash (g := g) he fun trusted h => ht ⟨trusted, h⟩
      rw [hstep]
      exact hac.policy
  · cases e with
    | key key now =>
      rcases @gateOnKey_judges hash g key now with ⟨-, hac⟩ | ⟨h, -, hac, -⟩
      · exact ⟨congrArg AcCtx.maxFailedAttempts hac, congrArg AcCtx.lockoutSeconds hac⟩
      · simp only [gateStep, hac]
        exact ⟨acEvaluate_maxFailedAttempts _ _ _, acEvaluate_lockoutSeconds _ _ _⟩
    | longPress now => exact ⟨rfl, rfl⟩
    | tick now =>
      simp only [gateStep, gateTick, gateTickAc]
      split_ifs
      · exact ⟨acTick_maxFailedAttempts _ _, acTick_lockoutSeconds _ _⟩
      · exact ⟨rfl, rfl⟩
    | _ => simp [GateEvent.epoch] at he

end GateAccess
