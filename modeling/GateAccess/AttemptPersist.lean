import GateAccess.GateRun
import GateAccess.PersistStore
import GateAccess.RingKeeps

namespace GateAccess

/-- `persist_attempts` with the write going through. -/
def persistAttempts (store : PrStore) (ac : AcCtx) (bootCount : UInt32) : PrStore :=
  persistSave store ⟨ac.failedAttempts, UInt32.ofInt ac.lockoutUntil, bootCount⟩ none

/-- `boot_persist` on a chip that answers: the table, the ring and the boot count. -/
def bootPersist (ac : AcCtx) (image : PrImage) (eeprom : Eeprom) : AcCtx × PrStore × UInt32 :=
  let store := persistInit image
  let restored : AcCtx × UInt32 :=
    match persistLoad store with
    | some p => (acRestoreAttempts ac p.attempts p.lockoutUntil.toNat, p.bootCount + 1)
    | none => (ac, 1)
  let ac := persistCodesLoad restored.1 eeprom
  (ac, persistAttempts store ac restored.2, restored.2)

structure GateDevice where
  gate : GateCtrl
  store : PrStore
  bootCount : UInt32

/-- The part of `handle` that reaches the chip. -/
def handle (d : GateDevice) (o : GateOut) : GateDevice :=
  if o.persistAttempts then { d with store := persistAttempts d.store d.gate.ac d.bootCount } else d

/-- What the main loop is handed for an event; an edit of the table or of the trust in the clock
hands it nothing. -/
def gateOut (hash : List UInt8 → Bytes acHashLen) (g : GateCtrl) : GateEvent → GateOut
  | .key key now => (gateOnKey hash g key now).2
  | .longPress now => (gateOnLongPress g now).2
  | .tick now => (gateTick g now).2
  | _ => .zero

inductive MainEvent
  | gate (e : GateEvent)
  | restart (eeprom : Eeprom) (clockOk : Bool)

variable (hash : List UInt8 → Bytes acHashLen) (maxFailed : UInt8) (lockoutSeconds : Int)

/-- `app_main` up to its loop. -/
def gatePowerUp (image : PrImage) (eeprom : Eeprom) (clockOk : Bool) : GateDevice :=
  let booted := bootPersist (acInit maxFailed lockoutSeconds) image eeprom
  ⟨gateAppSetClockTrusted (gateInit booted.1 uiInit) clockOk, booted.2.1, booted.2.2⟩

def mainStep (d : GateDevice) : MainEvent → GateDevice
  | .gate e => handle { d with gate := gateStep hash d.gate e } (gateOut hash d.gate e)
  | .restart eeprom clockOk => gatePowerUp maxFailed lockoutSeconds d.store.image eeprom clockOk

/-- The records an event writes to the ring. -/
def MainEvent.saves (d : GateDevice) : MainEvent → Nat
  | .gate e => if (gateOut hash d.gate e).persistAttempts then 1 else 0
  | .restart .. => 1

def savesOf (d : GateDevice) (events : List MainEvent) : Nat :=
  ((trace (mainStep hash maxFailed lockoutSeconds) d events).map fun p => p.2.saves hash p.1).sum

/-- What a restart would find of the attempt counter, in RAM and on the chip. -/
def attemptPair (ac : AcCtx) : UInt8 × Int := (ac.failedAttempts, ac.lockoutUntil)

def DeadlineFits (d : GateDevice) : Prop :=
  0 ≤ d.gate.ac.lockoutUntil ∧ d.gate.ac.lockoutUntil < 2 ^ 32

instance : DecidablePred DeadlineFits := fun d =>
  inferInstanceAs (Decidable (0 ≤ d.gate.ac.lockoutUntil ∧ d.gate.ac.lockoutUntil < 2 ^ 32))

/-- The ring is as its cursor says, and its newest record is the attempt pair in RAM. -/
structure Synced (d : GateDevice) : Prop where
  inStep : d.store.InStep
  newest : ∃ p, (prFindLatest d.store.image).1 = some p ∧
    (p.attempts, (p.lockoutUntil.toNat : Int)) = attemptPair d.gate.ac

theorem TableEdit.attemptPair {before after : AcCtx} (h : TableEdit before after) :
    attemptPair after = attemptPair before := by
  obtain ⟨slots, rfl⟩ := h
  rfl

theorem attemptsChanged_iff (ac ac' : AcCtx) :
    attemptsChanged ac' ac.failedAttempts ac.lockoutUntil = true ↔ attemptPair ac' ≠ attemptPair ac := by
  simp only [attemptsChanged, attemptPair, Bool.or_eq_true, decide_eq_true_eq, ne_eq, Prod.mk.injEq]
  exact not_and_or.symm

/-- The two snapshot comparisons miss no change: the flag is raised exactly by the events that
change the pair. -/
theorem gateOut_persistAttempts (g : GateCtrl) (e : GateEvent) :
    (gateOut hash g e).persistAttempts = true ↔
      attemptPair (gateStep hash g e).ac ≠ attemptPair g.ac := by
  have quiet {ac : AcCtx} (h : attemptPair ac = attemptPair g.ac) :
      GateOut.zero.persistAttempts = true ↔ attemptPair ac ≠ attemptPair g.ac := by
    simp [GateOut.zero, h]
  by_cases he : e.epoch = none
  · have hzero : gateOut hash g e = .zero := by
      cases e with
      | key | longPress | tick => cases he
      | _ => rfl
    rw [hzero]
    by_cases ht : ∃ trusted, e = .clockTrusted trusted
    · obtain ⟨trusted, rfl⟩ := ht
      exact quiet rfl
    · obtain ⟨ac, hac, hstep⟩ := gateStep_table hash (g := g) he fun trusted h => ht ⟨trusted, h⟩
      rw [hstep]
      exact quiet hac.attemptPair
  · cases e with
    | key key now =>
      simp only [gateOut, gateStep, gateOnKey]
      split
      next => exact quiet rfl
      next =>
        split
        next => exact attemptsChanged_iff _ _
        next => exact quiet rfl
    | longPress now => exact quiet rfl
    | tick now => exact attemptsChanged_iff _ _
    | _ => simp [GateEvent.epoch] at he

theorem persistAttempts_synced {d : GateDevice} {store : PrStore} (h : store.InStep)
    (hseq : store.cur.seq.toNat < 2 ^ 32 - 1) (hfits : DeadlineFits d)
    (hstore : d.store = persistAttempts store d.gate.ac d.bootCount) :
    Synced d ∧ d.store.cur.seq.toNat = store.cur.seq.toNat + 1 := by
  obtain ⟨hfind, hnext⟩ := persistSave_done h
    ⟨d.gate.ac.failedAttempts, UInt32.ofInt d.gate.ac.lockoutUntil, d.bootCount⟩ hseq
  have hdone : prFindLatest d.store.image =
      (some ⟨d.gate.ac.failedAttempts, UInt32.ofInt d.gate.ac.lockoutUntil, d.bootCount⟩,
        d.store.cur) := by
    rw [hstore]
    exact hfind
  have hcur : d.store.cur.seq.toNat = store.cur.seq.toNat + 1 := by
    rw [hstore, ← hnext]
    rfl
  refine ⟨⟨(congrArg Prod.snd hdone).symm, _, congrArg Prod.fst hdone, ?_⟩, hcur⟩
  rw [ofInt_toNat hfits.1 hfits.2]
  rfl

/-- What `boot_persist` restores into the fresh table it is given. -/
theorem bootPersist_pair (image : PrImage) (eeprom : Eeprom) :
    attemptPair (bootPersist (acInit maxFailed lockoutSeconds) image eeprom).1 =
      match (prFindLatest image).1 with
      | some p => (p.attempts, (p.lockoutUntil.toNat : Int))
      | none => (0, 0) := by
  simp only [bootPersist, persistLoad, persistInit]
  cases (prFindLatest image).1 <;> rfl

theorem bootPersist_fits (image : PrImage) (eeprom : Eeprom) :
    0 ≤ (bootPersist (acInit maxFailed lockoutSeconds) image eeprom).1.lockoutUntil ∧
      (bootPersist (acInit maxFailed lockoutSeconds) image eeprom).1.lockoutUntil < 2 ^ 32 := by
  have hpair := congrArg Prod.snd (bootPersist_pair maxFailed lockoutSeconds image eeprom)
  simp only [attemptPair] at hpair
  rw [hpair]
  cases (prFindLatest image).1 with
  | none => simp
  | some p =>
    have := p.lockoutUntil.toNat_lt
    simp only
    omega

theorem gatePowerUp_synced (image : PrImage) (eeprom : Eeprom) (clockOk : Bool)
    (hseq : (persistInit image).cur.seq.toNat < 2 ^ 32 - 1) :
    Synced (gatePowerUp maxFailed lockoutSeconds image eeprom clockOk) ∧
      (gatePowerUp maxFailed lockoutSeconds image eeprom clockOk).store.cur.seq.toNat =
        (persistInit image).cur.seq.toNat + 1 :=
  persistAttempts_synced rfl hseq (bootPersist_fits maxFailed lockoutSeconds image eeprom) rfl

theorem handle_synced {d : GateDevice} {e : GateEvent} (h : Synced d)
    (hseq : d.store.cur.seq.toNat + (MainEvent.gate e).saves hash d < 2 ^ 32)
    (hfits : DeadlineFits (mainStep hash maxFailed lockoutSeconds d (.gate e))) :
    Synced (mainStep hash maxFailed lockoutSeconds d (.gate e)) ∧
      (mainStep hash maxFailed lockoutSeconds d (.gate e)).store.cur.seq.toNat =
        d.store.cur.seq.toNat + (MainEvent.gate e).saves hash d := by
  have hflag := gateOut_persistAttempts hash d.gate e
  simp only [mainStep, handle, MainEvent.saves] at hseq hfits ⊢
  by_cases ho : (gateOut hash d.gate e).persistAttempts = true
  · simp only [ho, if_true] at hseq hfits ⊢
    exact persistAttempts_synced h.inStep (by omega) hfits rfl
  · have hsame := not_not.mp (hflag.not.mp ho)
    simp only [ho, Bool.false_eq_true, if_false, Nat.add_zero, and_true]
    exact ⟨h.inStep, by rw [hsame]; exact h.newest⟩

theorem Synced.next_boot {d : GateDevice} (h : Synced d) (eeprom : Eeprom) :
    attemptPair (bootPersist (acInit maxFailed lockoutSeconds) d.store.image eeprom).1 =
      attemptPair d.gate.ac := by
  obtain ⟨p, hfind, hpair⟩ := h.newest
  rw [bootPersist_pair, hfind]
  exact hpair

theorem restart_synced {d : GateDevice} (h : Synced d) (eeprom : Eeprom) (clockOk : Bool)
    (hseq : d.store.cur.seq.toNat + 1 < 2 ^ 32) :
    Synced (mainStep hash maxFailed lockoutSeconds d (.restart eeprom clockOk)) ∧
      (mainStep hash maxFailed lockoutSeconds d (.restart eeprom clockOk)).store.cur.seq.toNat =
        d.store.cur.seq.toNat + 1 := by
  have hcur : (persistInit d.store.image).cur = d.store.cur := h.inStep.symm
  rw [← hcur] at hseq ⊢
  exact gatePowerUp_synced maxFailed lockoutSeconds d.store.image eeprom clockOk (by omega)

variable {hash} {maxFailed} {lockoutSeconds}

theorem savesOf_append (d : GateDevice) (before after : List MainEvent) :
    savesOf hash maxFailed lockoutSeconds d (before ++ after) =
      savesOf hash maxFailed lockoutSeconds d before +
        savesOf hash maxFailed lockoutSeconds
          (exec (mainStep hash maxFailed lockoutSeconds) d before) after := by
  simp [savesOf, trace_append]

theorem savesOf_single (d : GateDevice) (e : MainEvent) :
    savesOf hash maxFailed lockoutSeconds d [e] = e.saves hash d := by
  simp [savesOf]

theorem run_synced {d : GateDevice} (events : List MainEvent) (h : Synced d)
    (hseq : d.store.cur.seq.toNat + savesOf hash maxFailed lockoutSeconds d events < 2 ^ 32)
    (hfits : ∀ before after, events = before ++ after →
      DeadlineFits (exec (mainStep hash maxFailed lockoutSeconds) d before)) :
    Synced (exec (mainStep hash maxFailed lockoutSeconds) d events) ∧
      (exec (mainStep hash maxFailed lockoutSeconds) d events).store.cur.seq.toNat =
        d.store.cur.seq.toNat + savesOf hash maxFailed lockoutSeconds d events := by
  induction events using List.reverseRecOn with
  | nil => exact ⟨h, rfl⟩
  | append_singleton events e ih =>
    rw [savesOf_append, savesOf_single] at hseq ⊢
    obtain ⟨hrun, hcur⟩ := ih (by omega) fun before after hevents =>
      hfits before (after ++ [e]) (by rw [hevents, List.append_assoc])
    have hend := hfits (events ++ [e]) [] (by simp)
    rw [exec_concat] at hend ⊢
    cases e with
    | gate e =>
      obtain ⟨hnext, hstep⟩ := handle_synced hash maxFailed lockoutSeconds hrun (by omega) hend
      exact ⟨hnext, by omega⟩
    | restart eeprom clockOk =>
      obtain ⟨hnext, hstep⟩ := restart_synced hash maxFailed lockoutSeconds hrun eeprom clockOk
        (by simp only [MainEvent.saves] at hseq; omega)
      exact ⟨hnext, by simp only [MainEvent.saves]; omega⟩

/-- A reboot is invisible to the attempt counter. -/
theorem reboot_invisible (image : PrImage) (eeprom : Eeprom) (clockOk : Bool)
    (events : List MainEvent)
    (hsaves : largestSeq image + 1 + savesOf hash maxFailed lockoutSeconds
      (gatePowerUp maxFailed lockoutSeconds image eeprom clockOk) events < 2 ^ 32)
    (hfits : ∀ before after, events = before ++ after →
      DeadlineFits (exec (mainStep hash maxFailed lockoutSeconds)
        (gatePowerUp maxFailed lockoutSeconds image eeprom clockOk) before)) :
    ∀ before after codes, events = before ++ after →
      attemptPair (bootPersist (acInit maxFailed lockoutSeconds)
          (exec (mainStep hash maxFailed lockoutSeconds)
            (gatePowerUp maxFailed lockoutSeconds image eeprom clockOk) before).store.image codes).1 =
        attemptPair (exec (mainStep hash maxFailed lockoutSeconds)
          (gatePowerUp maxFailed lockoutSeconds image eeprom clockOk) before).gate.ac := by
  intro before after codes hevents
  have hinit := persistInit_seq image
  obtain ⟨hboot, hcur⟩ := gatePowerUp_synced maxFailed lockoutSeconds image eeprom clockOk
    (by omega)
  rw [hevents, savesOf_append] at hsaves
  have hrun := (run_synced before hboot (by omega) fun first rest hbefore =>
    hfits first (rest ++ after) (by rw [hevents, hbefore, List.append_assoc])).1
  exact hrun.next_boot maxFailed lockoutSeconds codes

/-- A first boot on a blank chip. -/
abbrev blankDevice : GateDevice :=
  gatePowerUp 3 300 (fun _ => zeros _) (fun _ => ⟨zeros _, zeros _⟩) true

abbrev wrongEntry : List MainEvent := List.replicate 9 (.gate (.key 49 ⟨1000, 1700000000⟩))

theorem reboot_invisible_wrong_entry :
    attemptPair (bootPersist (acInit 3 300)
      (exec (mainStep (fun _ => zeros _) 3 300) blankDevice wrongEntry).store.image
      fun _ => ⟨zeros _, zeros _⟩).1 = (1, 0) := by
  have hfits : ∀ n < 10, DeadlineFits
      (exec (mainStep (fun _ => zeros _) 3 300) blankDevice (wrongEntry.take n)) := by
    decide +kernel
  have h := @reboot_invisible (fun _ => zeros _) 3 300 (fun _ => zeros _)
    (fun _ => ⟨zeros _, zeros _⟩) true wrongEntry (by decide +kernel) (fun before after hevents => by
      have hlen := congrArg List.length hevents
      have htake : before = wrongEntry.take before.length := by rw [hevents, List.take_left]
      rw [htake]
      exact hfits _ (by rw [List.length_append] at hlen; change 9 = _ at hlen; omega))
    wrongEntry [] (fun _ => ⟨zeros _, zeros _⟩) (by simp)
  exact h.trans (by decide +kernel)

end GateAccess
