import GateAccess.DeviceLife

namespace GateAccess

/-- How many more unknown codes the window that ends at `stop` can still see from this counter. -/
def pairBudget (maxFailed : UInt8) (pair : UInt8 × Int) (stop : Int) : Nat :=
  attemptBudget { acInit maxFailed 0 with failedAttempts := pair.1, lockoutUntil := pair.2 } stop

/-- The same of a device: of the counter in RAM or the one a restart would restore, whichever allows
more. -/
def lifeBudget (maxFailed : UInt8) (d : GateDevice) (stop : Int) : Nat :=
  max (pairBudget maxFailed (attemptPair d.gate.ac) stop) (pairBudget maxFailed (chipPair d.store.image) stop)

def Judged.counts (t len : Int) (r : Judged) : Bool := deniedIn t len (r.time, r.result) && r.saved

/-- The limits are those of the build, the deadline fits the record and the cursor is where a restart would
put it. -/
structure Alive (maxFailed : UInt8) (lockoutSeconds : Int) (d : GateDevice) : Prop where
  inStep : d.store.InStep
  fits : DeadlineFits d
  policy : d.gate.ac.maxFailedAttempts = maxFailed ∧ d.gate.ac.lockoutSeconds = lockoutSeconds

def Deadline (pair : UInt8 × Int) : Prop := 0 ≤ pair.2 ∧ pair.2 < 2 ^ 32

variable {hash : List UInt8 → Bytes acHashLen} {maxFailed : UInt8} {lockoutSeconds : Int}

theorem attemptBudget_pair (ac : AcCtx) (stop : Int) :
    attemptBudget ac stop = pairBudget ac.maxFailedAttempts (attemptPair ac) stop := rfl

theorem pairBudget_le (hm : 1 ≤ maxFailed.toNat) (pair : UInt8 × Int) (stop : Int) :
    pairBudget maxFailed pair stop ≤ maxFailed.toNat :=
  @attemptBudget_le { acInit maxFailed 0 with failedAttempts := pair.1, lockoutUntil := pair.2 } hm stop

/-- Within the window every unknown code spends one of the budget, and nothing but a grant adds to it. -/
theorem AttemptMove.budget {ac : AcCtx} {epoch : Option Int} {pair : UInt8 × Int}
    {results : List (Int × AcResult)} (h : AttemptMove ac epoch pair results)
    (hm : 1 ≤ ac.maxFailedAttempts.toNat) {t : Int}
    (inside : ∀ now ∈ epoch, t ≤ now ∧ now < t + ac.lockoutSeconds)
    (hg : ∀ r ∈ results, r.2 ≠ .granted) :
    results.countP (deniedIn t ac.lockoutSeconds) +
        pairBudget ac.maxFailedAttempts pair (t + ac.lockoutSeconds) ≤
      pairBudget ac.maxFailedAttempts (attemptPair ac) (t + ac.lockoutSeconds) := by
  cases h with
  | kept => simp
  | ticked now =>
    have hin := inside now rfl
    have htick := attemptBudget_tick ac now hm hin.2
    rw [attemptBudget_pair, attemptBudget_pair, acTick_maxFailedAttempts] at htick
    simpa using htick
  | judged h now =>
    have hin := inside now rfl
    have hone := @attemptBudget_evaluate ac h now t hin.1 hin.2 hm (hg (now, _) List.mem_cons_self)
    rw [attemptBudget_pair, attemptBudget_pair, acEvaluate_maxFailedAttempts] at hone
    exact hone

theorem AttemptMove.fits {ac : AcCtx} {epoch : Option Int} {pair : UInt8 × Int}
    {results : List (Int × AcResult)} (h : AttemptMove ac epoch pair results)
    (hfits : Deadline (attemptPair ac))
    (hepoch : ∀ now ∈ epoch, 0 ≤ now + ac.lockoutSeconds ∧ now + ac.lockoutSeconds < 2 ^ 32) :
    Deadline pair := by
  have htick : ∀ now, Deadline (attemptPair (acTick ac now)) := fun now => by
    unfold acTick
    split_ifs
    · exact ⟨by simp [attemptPair], by simp [attemptPair]⟩
    · exact hfits
  cases h with
  | kept => exact hfits
  | ticked now => exact htick now
  | judged h now =>
    have hin := hepoch now rfl
    have hv := acEvaluate_verdict ac h now
    generalize acEvaluate ac h now = out at hv
    cases hv with
    | noClock => exact hfits
    | lockout | notYet | expired => exact htick now
    | unknown =>
      have hu := registerFailure_lockoutUntil (acTick ac now) now
      have hold := htick now
      simp only [Deadline, attemptPair, acTick_lockoutSeconds] at hu hold ⊢
      rw [hu]
      split_ifs
      · exact hin
      · exact hold
    | granted => exact ⟨by simp [attemptPair], by simp [attemptPair]⟩

/-- After a save the chip holds the new counter if the save was completed, and the old one if not. -/
theorem save_chipPair {store : PrStore} (h : store.InStep) (hseq : store.cur.seq.toNat < 2 ^ 32 - 1)
    (s : PrState) (cut : Option Nat) (htorn : ∀ k, cut = some k → prDecode (tornPage store s k) = none) :
    (persistSave store s cut).InStep ∧ (persistSave store s cut).cur.seq.toNat ≤ store.cur.seq.toNat + 1 ∧
      chipPair (persistSave store s cut).image =
        if cut.isNone then (s.attempts, (s.lockoutUntil.toNat : Int)) else chipPair store.image := by
  refine ⟨persistSave_inStep h ⟨⟨s, false⟩, cut⟩ hseq htorn, ?_⟩
  cases cut with
  | none =>
    obtain ⟨hfind, hnext⟩ := persistSave_done h s hseq
    exact ⟨hnext.le, by rw [chipPair, hfind]; rfl⟩
  | some k => exact ⟨Nat.le_succ _, by rw [chipPair, persistSave_torn h (htorn k rfl)]; rfl⟩

theorem booted_chipPair (image : PrImage) (eeprom : Eeprom) (clockOk : Bool) :
    attemptPair (gatePowerUp maxFailed lockoutSeconds image eeprom clockOk).gate.ac = chipPair image := by
  have hpair := bootPersist_pair maxFailed lockoutSeconds image eeprom
  refine Eq.trans ?_ (hpair.trans ?_)
  · rfl
  · unfold chipPair
    cases (prFindLatest image).1 <;> rfl

theorem booted_policy (image : PrImage) (eeprom : Eeprom) (clockOk : Bool) :
    (gatePowerUp maxFailed lockoutSeconds image eeprom clockOk).gate.ac.maxFailedAttempts = maxFailed ∧
      (gatePowerUp maxFailed lockoutSeconds image eeprom clockOk).gate.ac.lockoutSeconds =
        lockoutSeconds := by
  simp only [gatePowerUp, bootPersist, persistLoad, persistInit]
  cases (prFindLatest image).1 <;> exact ⟨rfl, rfl⟩

theorem record_pair {ac : AcCtx} (h : Deadline (attemptPair ac)) (bootCount : UInt32) :
    ((attemptRecord ac bootCount).attempts, ((attemptRecord ac bootCount).lockoutUntil.toNat : Int)) =
      attemptPair ac := Prod.ext rfl (ofInt_toNat h.1 h.2)

theorem chipPair_fits (image : PrImage) : Deadline (chipPair image) := by
  unfold chipPair
  cases (prFindLatest image).1 with
  | none => exact ⟨le_rfl, by decide⟩
  | some p =>
    have := p.lockoutUntil.toNat_lt
    exact ⟨by simp, by simp; omega⟩

/-- What a step asks of the ring: room for another record, and a torn page that does not decode. -/
structure RingTakes (hash : List UInt8 → Bytes acHashLen) (maxFailed : UInt8) (lockoutSeconds : Int)
    (d : GateDevice) (e : Save MainEvent) : Prop where
  room : d.store.cur.seq.toNat < 2 ^ 32 - 1
  torn : ∀ k, e.cut = some k → ∀ saving ∈ e.value.saving hash maxFailed lockoutSeconds d,
    prDecode (tornPage saving.1 saving.2 k) = none

theorem lifeStep_gate_saved {d : GateDevice} (h : Alive maxFailed lockoutSeconds d) {e : GateEvent}
    {cut : Option Nat} (htakes : RingTakes hash maxFailed lockoutSeconds d ⟨.gate e, cut⟩)
    (hepoch : ∀ now ∈ e.epoch, 0 ≤ now + lockoutSeconds ∧ now + lockoutSeconds < 2 ^ 32) :
    Alive maxFailed lockoutSeconds (lifeStep hash maxFailed lockoutSeconds d ⟨.gate e, cut⟩) ∧
      (lifeStep hash maxFailed lockoutSeconds d ⟨.gate e, cut⟩).store.cur.seq.toNat ≤
        d.store.cur.seq.toNat + 1 ∧
      (chipPair (lifeStep hash maxFailed lockoutSeconds d ⟨.gate e, cut⟩).store.image =
          attemptPair (gateStep hash d.gate e).ac ∨
        chipPair (lifeStep hash maxFailed lockoutSeconds d ⟨.gate e, cut⟩).store.image =
            chipPair d.store.image ∧
          (cut.isNone = false ∨ attemptPair (gateStep hash d.gate e).ac = attemptPair d.gate.ac)) := by
  have hfits : Deadline (attemptPair (gateStep hash d.gate e).ac) := by
    refine (gateStep_attempts d.gate e).fits h.fits ?_
    rw [h.policy.2]
    exact hepoch
  have hpolicy := @gateStep_policy hash d.gate e
  rw [h.policy.1, h.policy.2] at hpolicy
  have hflag := gateOut_persistAttempts hash d.gate e
  have hgate := @lifeStep_gate hash maxFailed lockoutSeconds d e cut
  have htorn := htakes.torn
  simp only [lifeStep, MainEvent.saving, mainStep, handle] at hgate htorn ⊢
  cases hsaves : (gateOut hash d.gate e).persistAttempts with
  | false =>
    simp only [hsaves, Bool.false_eq_true, if_false, false_iff, not_not, ne_eq] at hflag ⊢
    exact ⟨⟨h.inStep, hfits, hpolicy⟩, Nat.le_succ _, .inr ⟨trivial, .inr hflag⟩⟩
  | true =>
    simp only [hsaves, if_true, Option.mem_some_iff, forall_eq'] at htorn ⊢
    obtain ⟨hin, hseq, hchip⟩ := save_chipPair h.inStep htakes.room _ cut htorn
    refine ⟨⟨hin, hfits, hpolicy⟩, hseq, ?_⟩
    rw [hchip]
    cases cut with
    | none => exact .inl (record_pair hfits _)
    | some k => exact .inr ⟨rfl, .inl rfl⟩

theorem lifeStep_restart_saved {d : GateDevice} (h : Alive maxFailed lockoutSeconds d) {eeprom : Eeprom}
    {clockOk : Bool} {cut : Option Nat}
    (htakes : RingTakes hash maxFailed lockoutSeconds d ⟨.restart eeprom clockOk, cut⟩) :
    Alive maxFailed lockoutSeconds
        (lifeStep hash maxFailed lockoutSeconds d ⟨.restart eeprom clockOk, cut⟩) ∧
      (lifeStep hash maxFailed lockoutSeconds d ⟨.restart eeprom clockOk, cut⟩).store.cur.seq.toNat ≤
        d.store.cur.seq.toNat + 1 ∧
      attemptPair (lifeStep hash maxFailed lockoutSeconds d ⟨.restart eeprom clockOk, cut⟩).gate.ac =
        chipPair d.store.image ∧
      chipPair (lifeStep hash maxFailed lockoutSeconds d ⟨.restart eeprom clockOk, cut⟩).store.image =
        chipPair d.store.image := by
  have hpair := @booted_chipPair maxFailed lockoutSeconds d.store.image eeprom clockOk
  have hcur : (persistInit d.store.image).cur = d.store.cur := h.inStep.symm
  have hroom := htakes.room
  rw [← hcur] at hroom
  have htorn : ∀ k, cut = some k → prDecode (tornPage (persistInit d.store.image) _ k) = none :=
    fun k hk => htakes.torn k hk (_, _) rfl
  have hinit : (persistInit d.store.image).InStep := rfl
  obtain ⟨hin, hseq, hchip⟩ := save_chipPair hinit hroom _ cut htorn
  have hfits : Deadline (attemptPair
      (gatePowerUp maxFailed lockoutSeconds d.store.image eeprom clockOk).gate.ac) := by
    rw [hpair]
    exact chipPair_fits _
  refine ⟨⟨hin, hfits, ?_⟩, ?_, hpair, ?_⟩
  · exact booted_policy d.store.image eeprom clockOk
  · rw [← hcur]
    exact hseq
  · refine hchip.trans ?_
    cases cut with
    | none => exact (record_pair hfits _).trans hpair
    | some k => rfl

theorem lifeStep_alive {d : GateDevice} (h : Alive maxFailed lockoutSeconds d) {e : Save MainEvent}
    (htakes : RingTakes hash maxFailed lockoutSeconds d e)
    (hepoch : ∀ now ∈ e.value.epoch, 0 ≤ now + lockoutSeconds ∧ now + lockoutSeconds < 2 ^ 32) :
    Alive maxFailed lockoutSeconds (lifeStep hash maxFailed lockoutSeconds d e) ∧
      (lifeStep hash maxFailed lockoutSeconds d e).store.cur.seq.toNat ≤ d.store.cur.seq.toNat + 1 := by
  obtain ⟨event, cut⟩ := e
  cases event with
  | gate e =>
    obtain ⟨halive, hseq, -⟩ := lifeStep_gate_saved h htakes hepoch
    exact ⟨halive, hseq⟩
  | restart eeprom clockOk =>
    obtain ⟨halive, hseq, -⟩ := lifeStep_restart_saved h htakes
    exact ⟨halive, hseq⟩

theorem countP_judged (t len : Int) (results : List (Int × AcResult)) (saved : Bool) :
    (results.map fun r => Judged.mk r.1 r.2 saved).countP (Judged.counts t len) =
      if saved then results.countP (deniedIn t len) else 0 := by
  rw [List.countP_map]
  cases saved with
  | true => exact List.countP_congr fun r _ => by simp [Judged.counts]
  | false => simp [Judged.counts, Function.comp_def]

/-- A restart gives back nothing that a completed save has spent. -/
theorem lifeStep_budget {d : GateDevice} (h : Alive maxFailed lockoutSeconds d)
    (hm : 1 ≤ maxFailed.toNat) {e : Save MainEvent} (htakes : RingTakes hash maxFailed lockoutSeconds d e)
    (hepoch : ∀ now ∈ e.value.epoch, 0 ≤ now + lockoutSeconds ∧ now + lockoutSeconds < 2 ^ 32) {t : Int}
    (inside : ∀ now ∈ e.value.epoch, t ≤ now ∧ now < t + lockoutSeconds)
    (hg : ∀ r ∈ judgedAt hash d e, r.result ≠ .granted) :
    (judgedAt hash d e).countP (Judged.counts t lockoutSeconds) +
        lifeBudget maxFailed (lifeStep hash maxFailed lockoutSeconds d e) (t + lockoutSeconds) ≤
      lifeBudget maxFailed d (t + lockoutSeconds) := by
  obtain ⟨event, cut⟩ := e
  cases event with
  | gate e =>
    obtain ⟨-, -, hchip⟩ := lifeStep_gate_saved h htakes hepoch
    have hspent := (@gateStep_attempts hash d.gate e).budget (by rw [h.policy.1]; exact hm)
      (by rw [h.policy.2]; exact inside) fun r hr => hg ⟨r.1, r.2, cut.isNone⟩ (List.mem_map_of_mem hr)
    rw [h.policy.1, h.policy.2] at hspent
    simp only [judgedAt, countP_judged, lifeBudget, lifeStep_gate]
    rcases hchip with hnew | ⟨hold, hunsaved | hsame⟩
    · rw [hnew]
      split_ifs <;> omega
    · rw [hold, hunsaved, if_neg (by simp)]
      omega
    · rw [hold]
      rw [hsame] at hspent ⊢
      split_ifs <;> omega
  | restart eeprom clockOk =>
    obtain ⟨-, -, hpair, hchip⟩ := lifeStep_restart_saved h htakes
    simp only [judgedAt, List.countP_nil, lifeBudget, hpair, hchip]
    omega

def lifeLog (hash : List UInt8 → Bytes acHashLen) (maxFailed : UInt8) (lockoutSeconds : Int)
    (d : GateDevice) (life : List (Save MainEvent)) : List Judged :=
  logOf (lifeStep hash maxFailed lockoutSeconds) (judgedAt hash) d life

def lifeEpochs (life : List (Save MainEvent)) : List Int := life.filterMap fun e => e.value.epoch

/-- What a life asks of the ring and of the clock. -/
structure LifeFits (hash : List UInt8 → Bytes acHashLen) (maxFailed : UInt8) (lockoutSeconds : Int)
    (d : GateDevice) (life : List (Save MainEvent)) : Prop where
  room : d.store.cur.seq.toNat + life.length < 2 ^ 32 - 1
  torn : CutsInvalid hash maxFailed lockoutSeconds d life
  epochs : ∀ now ∈ lifeEpochs life, 0 ≤ now + lockoutSeconds ∧ now + lockoutSeconds < 2 ^ 32

theorem mem_lifeEpochs_cons {e : Save MainEvent} {life : List (Save MainEvent)} {now : Int} :
    now ∈ lifeEpochs (e :: life) ↔ e.value.epoch = some now ∨ now ∈ lifeEpochs life := by
  simp [lifeEpochs]

theorem LifeFits.head {d : GateDevice} {e : Save MainEvent} {life : List (Save MainEvent)}
    (h : LifeFits hash maxFailed lockoutSeconds d (e :: life)) :
    RingTakes hash maxFailed lockoutSeconds d e ∧
      ∀ now ∈ e.value.epoch, 0 ≤ now + lockoutSeconds ∧ now + lockoutSeconds < 2 ^ 32 := by
  have hroom := h.room
  rw [List.length_cons] at hroom
  exact ⟨⟨by omega, fun k hk => h.torn (d, e) List.mem_cons_self k hk⟩,
    fun now hnow => h.epochs now (mem_lifeEpochs_cons.mpr (.inl hnow))⟩

theorem LifeFits.tail {d : GateDevice} {e : Save MainEvent} {life : List (Save MainEvent)}
    (h : LifeFits hash maxFailed lockoutSeconds d (e :: life))
    (hseq : (lifeStep hash maxFailed lockoutSeconds d e).store.cur.seq.toNat ≤
      d.store.cur.seq.toNat + 1) :
    LifeFits hash maxFailed lockoutSeconds (lifeStep hash maxFailed lockoutSeconds d e) life := by
  have hroom := h.room
  rw [List.length_cons] at hroom
  exact ⟨by omega, fun p hp => h.torn p (List.mem_cons_of_mem _ hp),
    fun now hnow => h.epochs now (mem_lifeEpochs_cons.mpr (.inr hnow))⟩

theorem judgedAt_time {d : GateDevice} {e : Save MainEvent} {r : Judged} (h : r ∈ judgedAt hash d e) :
    e.value.epoch = some r.time := by
  obtain ⟨event, cut⟩ := e
  cases event with
  | restart eeprom clockOk => cases h
  | gate e =>
    obtain ⟨q, hq, rfl⟩ := List.mem_map.mp h
    cases e with
    | key key now =>
      simp only [gateResults] at hq
      split at hq
      next =>
        rw [List.mem_singleton.mp hq]
        rfl
      next => cases hq
    | _ => cases hq

theorem lifeLog_late (d : GateDevice) {life : List (Save MainEvent)} {t len : Int}
    (late : ∀ now ∈ lifeEpochs life, t + len ≤ now) :
    (lifeLog hash maxFailed lockoutSeconds d life).countP (Judged.counts t len) = 0 := by
  apply List.countP_eq_zero.mpr
  intro r hr
  obtain ⟨⟨d', e⟩, hp, hw⟩ := mem_logOf hr
  have he : e ∈ life := by
    rw [← trace_map_snd (lifeStep hash maxFailed lockoutSeconds) d life]
    exact List.mem_map_of_mem hp
  have hb := late r.time (List.mem_filterMap.mpr ⟨e, he, judgedAt_time hw⟩)
  rw [Judged.counts, deniedIn_outside (.inr hb)]
  simp

theorem judgedAt_outside {d : GateDevice} {e : Save MainEvent} {t len : Int}
    (h : ∀ now ∈ e.value.epoch, now < t ∨ t + len ≤ now) :
    (judgedAt hash d e).countP (Judged.counts t len) = 0 := by
  apply List.countP_eq_zero.mpr
  intro r hr
  rw [Judged.counts, deniedIn_outside (h r.time (judgedAt_time hr))]
  simp

/-- No code is granted at a time in the window. -/
def NoGrant (t len : Int) (log : List Judged) : Prop :=
  ∀ r ∈ log, t ≤ r.time → r.time < t + len → r.result ≠ .granted

instance (t len : Int) (log : List Judged) : Decidable (NoGrant t len log) :=
  inferInstanceAs (Decidable (∀ r ∈ log, t ≤ r.time → r.time < t + len → r.result ≠ .granted))

theorem lifeLog_cons (d : GateDevice) (e : Save MainEvent) (life : List (Save MainEvent)) :
    lifeLog hash maxFailed lockoutSeconds d (e :: life) = judgedAt hash d e ++
      lifeLog hash maxFailed lockoutSeconds (lifeStep hash maxFailed lockoutSeconds d e) life := rfl

theorem lifeEpochs_cons {e : Save MainEvent} {life : List (Save MainEvent)}
    (h : (lifeEpochs (e :: life)).Pairwise (· ≤ ·)) :
    (∀ now ∈ e.value.epoch, ∀ later ∈ lifeEpochs life, now ≤ later) ∧
      (lifeEpochs life).Pairwise (· ≤ ·) := by
  unfold lifeEpochs at h ⊢
  cases hepoch : e.value.epoch with
  | none =>
    simp only [List.filterMap_cons, hepoch] at h
    exact ⟨nofun, h⟩
  | some now =>
    simp only [List.filterMap_cons, hepoch, List.pairwise_cons] at h
    refine ⟨fun now' hnow => ?_, h.2⟩
    rw [← Option.mem_some_iff.mp hnow]
    exact h.1

/-- From the start of the window on, the budget bounds what is counted. -/
theorem lifeLog_inside {life : List (Save MainEvent)} {d : GateDevice} {t : Int}
    (h : Alive maxFailed lockoutSeconds d) (hm : 1 ≤ maxFailed.toNat)
    (hfits : LifeFits hash maxFailed lockoutSeconds d life) (sorted : (lifeEpochs life).Pairwise (· ≤ ·))
    (inside : ∀ now ∈ lifeEpochs life, t ≤ now)
    (hg : NoGrant t lockoutSeconds (lifeLog hash maxFailed lockoutSeconds d life)) :
    (lifeLog hash maxFailed lockoutSeconds d life).countP (Judged.counts t lockoutSeconds) ≤
      lifeBudget maxFailed d (t + lockoutSeconds) := by
  induction life generalizing d with
  | nil => exact Nat.zero_le _
  | cons e life ih =>
    obtain ⟨htakes, hepoch⟩ := hfits.head
    obtain ⟨halive, hseq⟩ := lifeStep_alive h htakes hepoch
    obtain ⟨hfirst, hlater⟩ := lifeEpochs_cons sorted
    have hrest := ih halive (hfits.tail hseq) hlater
      (fun now hnow => inside now (mem_lifeEpochs_cons.mpr (.inr hnow)))
      fun r hr => hg r (List.mem_append_right _ hr)
    rw [lifeLog_cons, List.countP_append]
    by_cases hin : ∀ now ∈ e.value.epoch, now < t + lockoutSeconds
    · have hone := lifeStep_budget h hm htakes hepoch
        (fun now hnow => ⟨inside now (mem_lifeEpochs_cons.mpr (.inl hnow)), hin now hnow⟩)
        fun r hr => hg r (List.mem_append_left _ hr)
          (inside _ (mem_lifeEpochs_cons.mpr (.inl (judgedAt_time hr)))) (hin _ (judgedAt_time hr))
      omega
    · obtain ⟨now, hnow, hlate⟩ : ∃ now ∈ e.value.epoch, ¬now < t + lockoutSeconds := by simpa using hin
      have hnone := @judgedAt_outside hash d e t lockoutSeconds fun now' hnow' => by
        have heq := Option.mem_unique hnow' hnow
        exact .inr (by omega)
      have hpast := @lifeLog_late hash maxFailed lockoutSeconds
        (lifeStep hash maxFailed lockoutSeconds d e) life t lockoutSeconds fun later hmem =>
          (Int.not_lt.mp hlate).trans (hfirst now hnow later hmem)
      rw [hnone, hpast]
      exact Nat.zero_le _

theorem lifeLog_bound {life : List (Save MainEvent)} {d : GateDevice} {t : Int}
    (h : Alive maxFailed lockoutSeconds d) (hm : 1 ≤ maxFailed.toNat)
    (hfits : LifeFits hash maxFailed lockoutSeconds d life) (sorted : (lifeEpochs life).Pairwise (· ≤ ·))
    (hg : NoGrant t lockoutSeconds (lifeLog hash maxFailed lockoutSeconds d life)) :
    (lifeLog hash maxFailed lockoutSeconds d life).countP (Judged.counts t lockoutSeconds) ≤
      maxFailed.toNat := by
  induction life generalizing d with
  | nil => exact Nat.zero_le _
  | cons e life ih =>
    by_cases hin : ∀ now ∈ lifeEpochs (e :: life), t ≤ now
    · exact (lifeLog_inside h hm hfits sorted hin hg).trans
        (max_le (pairBudget_le hm _ _) (pairBudget_le hm _ _))
    · obtain ⟨htakes, hepoch⟩ := hfits.head
      obtain ⟨halive, hseq⟩ := lifeStep_alive h htakes hepoch
      obtain ⟨hfirst, hlater⟩ := lifeEpochs_cons sorted
      have hrest := ih halive (hfits.tail hseq) hlater fun r hr => hg r (List.mem_append_right _ hr)
      have hbefore := @judgedAt_outside hash d e t lockoutSeconds fun now hnow => by
        by_contra hnot
        refine hin fun now' hnow' => ?_
        rcases mem_lifeEpochs_cons.mp hnow' with hhead | hmem
        · have heq := Option.mem_unique hhead hnow
          omega
        · have hle := hfirst now hnow now' hmem
          omega
      rw [lifeLog_cons, List.countP_append, hbefore, Nat.zero_add]
      exact hrest

theorem countP_denied (t len : Int) (log : List Judged) :
    log.countP (fun r => deniedIn t len (r.time, r.result)) = log.countP (Judged.counts t len) +
      log.countP fun r => deniedIn t len (r.time, r.result) && !r.saved := by
  induction log with
  | nil => rfl
  | cons r log ih =>
    simp only [List.countP_cons, ih, Judged.counts]
    by_cases hdenied : deniedIn t len (r.time, r.result) = true
    · by_cases hsaved : r.saved = true
      · simp [hdenied, hsaved, Nat.add_right_comm]
      · simp [hdenied, hsaved, Nat.add_assoc]
    · simp [hdenied]

/-- The power is cut while the first wrong code is being saved, and a second one is typed. -/
def cutAndRetried : List (Save MainEvent) :=
  let key : MainEvent := .gate (.key 49 ⟨1000, 1700000000⟩)
  List.replicate 8 ⟨key, none⟩ ++ [⟨key, some 0⟩, ⟨.restart (fun _ => ⟨zeros _, zeros _⟩) true, none⟩] ++
    List.replicate 9 ⟨key, none⟩

end GateAccess
