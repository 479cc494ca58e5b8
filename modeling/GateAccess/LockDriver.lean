import GateAccess.CoilProtected

namespace GateAccess

structure LockDriverConfig where
  activeHigh : Bool
  pulseMs : UInt32

/-- The statics of `lock_driver.c`, and the level last written to the pin. -/
structure LockDriver where
  activeHigh : Bool
  logic : LockLogic
  ready : Bool
  level : Bool
  deriving DecidableEq

def writeCoil (d : LockDriver) (energised : Bool) : LockDriver :=
  { d with level := if d.activeHigh then energised else !energised }

/-- The flag says whether the pin could be configured. -/
def lockDriverInit (cfg : LockDriverConfig) (gpioOk : Bool) : LockDriver :=
  let d : LockDriver := ⟨cfg.activeHigh, lockLogicInit cfg.pulseMs, false, !cfg.activeHigh⟩
  if gpioOk then { writeCoil d false with ready := true } else d

def lockDriverOpen (d : LockDriver) (nowMs : UInt32) : LockDriver × Bool :=
  if !d.ready then (d, false)
  else
    let asked := lockLogicRequest d.logic nowMs
    (writeCoil { d with logic := asked.1 } (lockLogicOutput asked.1 nowMs), asked.2)

def lockDriverTick (d : LockDriver) (nowMs : UInt32) : LockDriver :=
  if !d.ready then d
  else
    let logic := lockLogicTick d.logic nowMs
    writeCoil { d with logic := logic } (lockLogicOutput logic nowMs)

def LockDriver.energised (d : LockDriver) : Bool := d.level = d.activeHigh

inductive DriverCall
  | driverOpen
  | driverTick
  deriving DecidableEq

/-- The driver, and the true time at which the last pulse started, which no code reads. -/
structure DriverRun where
  driver : LockDriver
  startedAt : Nat
  deriving DecidableEq

def driverAct (uptime : Nat) (r : DriverRun) : DriverCall → DriverRun
  | .driverOpen =>
    let opened := lockDriverOpen r.driver (UInt32.ofNat uptime)
    ⟨opened.1, if opened.2 then uptime else r.startedAt⟩
  | .driverTick => { r with driver := lockDriverTick r.driver (UInt32.ofNat uptime) }

abbrev driverStart (cfg : LockDriverConfig) (gpioOk : Bool) : AtTime DriverRun :=
  ⟨0, lockDriverInit cfg gpioOk, 0⟩

abbrev driverRun (cfg : LockDriverConfig) (gpioOk : Bool) (calls : List (Timed DriverCall)) :
    AtTime DriverRun := exec (timedStep driverAct) (driverStart cfg gpioOk) calls

/-- The coil is energised for less than the ceiling. Of a wait the end says it all: no instant of it is
further from the start of the pulse. -/
def UnderCeiling (r : AtTime DriverRun) : Prop :=
  r.state.driver.energised = true → r.uptime < r.state.startedAt + lockMaxPulseMs.toNat

/-- A call at some instant from `s + pulse` on and before the ceiling. -/
def Releases (pulse : UInt32) (s : Nat) (p : AtTime DriverRun × Timed DriverCall) : Prop :=
  (∃ call, p.2 = .event call) ∧ s + pulse.toNat ≤ p.1.uptime ∧ p.1.uptime < s + lockMaxPulseMs.toNat

/-- Every pulse that the run outlives by the ceiling has a call that comes late enough to end it, and
in time. -/
def ReleasedInTime (cfg : LockDriverConfig) (gpioOk : Bool) (calls : List (Timed DriverCall)) : Prop :=
  ∀ before after, calls = before ++ .event .driverOpen :: after →
    (lockDriverOpen (driverRun cfg gpioOk before).state.driver
      (UInt32.ofNat (driverRun cfg gpioOk before).uptime)).2 = true →
    (driverRun cfg gpioOk before).uptime + lockMaxPulseMs.toNat ≤ (driverRun cfg gpioOk calls).uptime →
    ∃ p ∈ trace (timedStep driverAct) (driverRun cfg gpioOk (before ++ [.event .driverOpen])) after,
      Releases (lockLogicInit cfg.pulseMs).pulseMs (driverRun cfg gpioOk before).uptime p

@[simp] theorem writeCoil_energised (d : LockDriver) (energised : Bool) :
    (writeCoil d energised).energised = energised := by
  cases h : d.activeHigh <;> simp [writeCoil, LockDriver.energised, h]

theorem lockLogicInit_pos (pulseMs : UInt32) : 0 < (lockLogicInit pulseMs).pulseMs.toNat := by
  have hwanted : (if pulseMs = 0 then lockDefaultPulseMs else pulseMs) ≠ 0 := by
    split
    next => decide
    next hne => exact hne
  simp only [lockLogicInit]
  generalize (if pulseMs = 0 then lockDefaultPulseMs else pulseMs) = wanted at hwanted ⊢
  split
  next => decide
  next => exact Nat.pos_of_ne_zero fun hzero => hwanted (UInt32.toNat_inj.mp hzero)

theorem lockLogicInit_le (pulseMs : UInt32) : (lockLogicInit pulseMs).pulseMs.toNat ≤ 1000 :=
  UInt32.le_iff_toNat_le.mp (lockLogicInit_pulse pulseMs)

/-- After a tick the output is read off the state. -/
theorem lockLogicOutput_tick (st : LockLogic) (nowMs : UInt32) :
    lockLogicOutput (lockLogicTick st nowMs) nowMs = true ↔
      (lockLogicTick st nowMs).state = .pulsing := by
  rw [lockLogicOutput_pulsing]
  refine and_iff_left_of_imp fun hpulsing => ?_
  have hs := lockLogicTick_step st nowMs
  generalize lockLogicTick st nowMs = next at hs hpulsing ⊢
  cases hs with
  | kept hrunning => exact hrunning hpulsing
  | ended => cases hpulsing
  | cooled => cases hpulsing

/-- The driver with a pulse of that length: the pin shows whether the logic is pulsing. -/
structure Driven (pulse : UInt32) (d : LockDriver) : Prop where
  shown : d.energised = true ↔ d.logic.state = .pulsing
  ready : d.logic.state = .pulsing → d.ready = true
  pulse : d.logic.pulseMs = pulse

theorem driven_init (cfg : LockDriverConfig) (gpioOk : Bool) :
    Driven (lockLogicInit cfg.pulseMs).pulseMs (lockDriverInit cfg gpioOk) := by
  have hlogic : (lockDriverInit cfg gpioOk).logic = lockLogicInit cfg.pulseMs := by
    cases gpioOk <;> rfl
  have hidle : (lockDriverInit cfg gpioOk).logic.state ≠ .pulsing := by
    rw [hlogic, lockLogicInit]
    simp
  have hoff : (lockDriverInit cfg gpioOk).energised = false := by
    cases gpioOk with
    | false => simp [lockDriverInit, LockDriver.energised]
    | true => exact writeCoil_energised _ false
  refine ⟨?_, fun hpulsing => absurd hpulsing hidle, congrArg LockLogic.pulseMs hlogic⟩
  rw [hoff]
  simpa using hidle

@[simp] theorem writeCoil_logic (d : LockDriver) (energised : Bool) :
    (writeCoil d energised).logic = d.logic := rfl

@[simp] theorem writeCoil_ready (d : LockDriver) (energised : Bool) :
    (writeCoil d energised).ready = d.ready := rfl

/-- What a call at `u` makes of a driver that is up: it starts a pulse, or it ticks. -/
inductive CallStep (u : Nat) (r : DriverRun) : DriverCall → DriverRun → Prop
  | started (d) : (lockDriverOpen r.driver (UInt32.ofNat u)).2 = true → d.ready = true →
      d.energised = true → d.logic.state = .pulsing → d.logic.pulseStartedMs = UInt32.ofNat u →
      d.logic.pulseMs = r.driver.logic.pulseMs → CallStep u r .driverOpen ⟨d, u⟩
  | ticked (call d) :
      (call = .driverOpen → (lockDriverOpen r.driver (UInt32.ofNat u)).2 = false) → d.ready = true →
      d.logic.state = (lockLogicTick r.driver.logic (UInt32.ofNat u)).state →
      d.logic.pulseStartedMs = (lockLogicTick r.driver.logic (UInt32.ofNat u)).pulseStartedMs →
      d.logic.pulseMs = r.driver.logic.pulseMs →
      (d.energised = true ↔ d.logic.state = .pulsing) → CallStep u r call ⟨d, r.startedAt⟩

theorem driverAct_dead {u : Nat} {r : DriverRun} (call : DriverCall) (h : r.driver.ready = false) :
    driverAct u r call = r := by
  cases call <;> simp [driverAct, lockDriverOpen, lockDriverTick, h]

theorem driverAct_step {u : Nat} {r : DriverRun} (call : DriverCall) (hready : r.driver.ready = true)
    (hpos : 0 < r.driver.logic.pulseMs.toNat) : CallStep u r call (driverAct u r call) := by
  cases call with
  | driverTick =>
    simp only [driverAct, lockDriverTick, hready, Bool.not_true, Bool.false_eq_true, if_false]
    refine .ticked .driverTick _ nofun rfl rfl rfl (by simp) ?_
    simpa using lockLogicOutput_tick r.driver.logic (UInt32.ofNat u)
  | driverOpen =>
    by_cases hidle : (lockLogicTick r.driver.logic (UInt32.ofNat u)).state = .idle
    · have hok : (lockDriverOpen r.driver (UInt32.ofNat u)).2 = true := by
        simp [lockDriverOpen, lockLogicRequest, hready, hidle]
      simp only [driverAct, hok, if_true]
      refine .started _ hok ?_ ?_ ?_ ?_ ?_
      all_goals simp [lockDriverOpen, lockLogicRequest, hready, hidle]
      rw [lockLogicOutput_pulsing]
      refine ⟨rfl, fun hle => ?_⟩
      have hzero := UInt32.le_iff_toNat_le.mp hle
      simp only [UInt32.sub_self, UInt32.toNat_zero] at hzero
      omega
    · have hno : (lockDriverOpen r.driver (UInt32.ofNat u)).2 = false := by
        simp [lockDriverOpen, lockLogicRequest, hready, hidle]
      simp only [driverAct, hno, Bool.false_eq_true, if_false]
      refine .ticked .driverOpen _ (fun _ => hno) ?_ ?_ ?_ ?_ ?_
      all_goals simp [lockDriverOpen, lockLogicRequest, hready, hidle]
      have hout := lockLogicOutput_tick r.driver.logic (UInt32.ofNat u)
      rw [lockLogicOutput_pulsing] at hout ⊢
      simpa using hout

theorem driverAct_driven {pulse : UInt32} {u : Nat} {r : DriverRun} (call : DriverCall)
    (hpos : 0 < pulse.toNat) (h : Driven pulse r.driver) :
    Driven pulse (driverAct u r call).driver := by
  cases hready : r.driver.ready with
  | false => rwa [driverAct_dead call hready]
  | true =>
    have hs := driverAct_step (u := u) call hready (h.pulse ▸ hpos)
    generalize driverAct u r call = next at hs ⊢
    cases hs with
    | started d _ hd henergised hstate _ hpulse =>
      exact ⟨by simp [henergised, hstate], fun _ => hd, hpulse.trans h.pulse⟩
    | ticked _ d _ hd _ _ hpulse hshown => exact ⟨hshown, fun _ => hd, hpulse.trans h.pulse⟩

/-- A pulse under way at a call was under way before it, or the call starts it. -/
theorem driverAct_pulsing {pulse : UInt32} {u : Nat} {r : DriverRun} {call : DriverCall}
    (hpos : 0 < pulse.toNat) (h : Driven pulse r.driver)
    (hafter : (driverAct u r call).driver.logic.state = .pulsing) :
    (call = .driverOpen ∧ (lockDriverOpen r.driver (UInt32.ofNat u)).2 = true ∧
      (driverAct u r call).startedAt = u ∧
      (driverAct u r call).driver.logic.pulseStartedMs = UInt32.ofNat u) ∨
    (r.driver.logic.state = .pulsing ∧
      ¬pulse ≤ UInt32.ofNat u - r.driver.logic.pulseStartedMs ∧
      (driverAct u r call).startedAt = r.startedAt ∧
      (driverAct u r call).driver.logic.pulseStartedMs = r.driver.logic.pulseStartedMs) := by
  cases hready : r.driver.ready with
  | false =>
    rw [driverAct_dead call hready] at hafter
    rw [h.ready hafter] at hready
    cases hready
  | true =>
    have hs := driverAct_step (u := u) call hready (h.pulse ▸ hpos)
    generalize driverAct u r call = next at hs hafter ⊢
    cases hs with
    | started d hok _ _ _ hstart _ => exact .inl ⟨rfl, hok, rfl, hstart⟩
    | ticked _ d _ _ hstate hstart _ _ =>
      rw [hstate] at hafter
      have ht := lockLogicTick_step r.driver.logic (UInt32.ofNat u)
      rw [← h.pulse]
      generalize lockLogicTick r.driver.logic (UInt32.ofNat u) = ticked at ht hafter hstart
      cases ht with
      | kept hrunning => exact .inr ⟨hafter, hrunning hafter, rfl, hstart⟩
      | ended => cases hafter
      | cooled => cases hafter

/-- Within its length a pulse goes on. -/
theorem driverAct_running {pulse : UInt32} {u s : Nat} {r : DriverRun} (call : DriverCall)
    (hpos : 0 < pulse.toNat) (h : Driven pulse r.driver) (hstate : r.driver.logic.state = .pulsing)
    (hstart : r.driver.logic.pulseStartedMs = UInt32.ofNat s) (hs : s ≤ u)
    (hu : (u - s) % 2 ^ 32 < pulse.toNat) :
    (driverAct u r call).driver.logic.state = .pulsing ∧
      (driverAct u r call).driver.logic.pulseStartedMs = UInt32.ofNat s ∧
      (driverAct u r call).startedAt = r.startedAt := by
  have hready := h.ready hstate
  have htick := lockLogicTick_running hstate hstart hs (h.pulse ▸ hu)
  have hstep := driverAct_step (u := u) call hready (h.pulse ▸ hpos)
  generalize driverAct u r call = next at hstep ⊢
  cases hstep with
  | started d hok =>
    simp [lockDriverOpen, lockLogicRequest, hready, htick, hstate] at hok
  | ticked _ d _ _ hstate' hstart' =>
    rw [htick] at hstate' hstart'
    exact ⟨hstate'.trans hstate, hstart'.trans hstart, rfl⟩

variable {cfg : LockDriverConfig} {gpioOk : Bool}

/-- The pulse that the call between two stretches of a run started is under way at the end. -/
structure PulseSince (cfg : LockDriverConfig) (gpioOk : Bool) (before mid : List (Timed DriverCall)) :
    Prop where
  accepted : (lockDriverOpen (driverRun cfg gpioOk before).state.driver
    (UInt32.ofNat (driverRun cfg gpioOk before).uptime)).2 = true
  state : (driverRun cfg gpioOk (before ++ .event .driverOpen :: mid)).state.driver.logic.state = .pulsing
  start : (driverRun cfg gpioOk (before ++ .event .driverOpen :: mid)).state.driver.logic.pulseStartedMs =
    UInt32.ofNat (driverRun cfg gpioOk before).uptime
  startedAt : (driverRun cfg gpioOk (before ++ .event .driverOpen :: mid)).state.startedAt =
    (driverRun cfg gpioOk before).uptime

theorem driverRun_driven (calls : List (Timed DriverCall)) :
    Driven (lockLogicInit cfg.pulseMs).pulseMs (driverRun cfg gpioOk calls).state.driver :=
  timed_invariant (I := fun _ (r : DriverRun) => Driven (lockLogicInit cfg.pulseMs).pulseMs r.driver)
    (fun _ _ _ h => h) (fun _ _ call h => driverAct_driven call (lockLogicInit_pos _) h)
    (driven_init cfg gpioOk) calls

theorem driverRun_concat (before mid : List (Timed DriverCall)) (e : Timed DriverCall) :
    driverRun cfg gpioOk (before ++ .event .driverOpen :: (mid ++ [e])) =
      timedStep driverAct (driverRun cfg gpioOk (before ++ .event .driverOpen :: mid)) e := by
  rw [← List.cons_append, ← List.append_assoc, driverRun, exec_concat]

theorem driverRun_split (before mid : List (Timed DriverCall)) :
    driverRun cfg gpioOk (before ++ .event .driverOpen :: mid) =
      exec (timedStep driverAct) (driverRun cfg gpioOk (before ++ [.event .driverOpen])) mid :=
  exec_split _ _ _ _ _

theorem driverRun_after (before mid : List (Timed DriverCall)) :
    (driverRun cfg gpioOk before).uptime ≤
      (driverRun cfg gpioOk (before ++ .event .driverOpen :: mid)).uptime := by
  rw [driverRun, driverRun, exec_append]
  exact uptime_le_exec _ _

theorem pulseSince_start {before : List (Timed DriverCall)}
    (haccepted : (lockDriverOpen (driverRun cfg gpioOk before).state.driver
      (UInt32.ofNat (driverRun cfg gpioOk before).uptime)).2 = true) :
    PulseSince cfg gpioOk before [] := by
  have hready : (driverRun cfg gpioOk before).state.driver.ready = true := by
    cases hdead : (driverRun cfg gpioOk before).state.driver.ready with
    | true => rfl
    | false => simp [lockDriverOpen, hdead] at haccepted
  have hd : Driven (lockLogicInit cfg.pulseMs).pulseMs (driverRun cfg gpioOk before).state.driver :=
    driverRun_driven before
  have hs := driverAct_step (u := (driverRun cfg gpioOk before).uptime) .driverOpen hready
    (hd.pulse ▸ lockLogicInit_pos _)
  refine ⟨haccepted, ?_, ?_, ?_⟩
  all_goals
    rw [driverRun, exec_concat, timedStep]
    dsimp only
    generalize driverAct _ _ _ = next at hs ⊢
    cases hs with
    | started d _ _ _ hstate hstart _ => first | exact hstate | exact hstart | rfl
    | ticked _ d hno => rw [hno rfl] at haccepted; cases haccepted

/-- An event that leaves the pulse alone. -/
theorem PulseSince.concat {before mid : List (Timed DriverCall)} {e : Timed DriverCall}
    (h : PulseSince cfg gpioOk before mid)
    (hstate : (timedStep driverAct (driverRun cfg gpioOk (before ++ .event .driverOpen :: mid))
      e).state.driver.logic.state = .pulsing)
    (hstart : (timedStep driverAct (driverRun cfg gpioOk (before ++ .event .driverOpen :: mid))
      e).state.driver.logic.pulseStartedMs =
      (driverRun cfg gpioOk (before ++ .event .driverOpen :: mid)).state.driver.logic.pulseStartedMs)
    (hat : (timedStep driverAct (driverRun cfg gpioOk (before ++ .event .driverOpen :: mid))
      e).state.startedAt =
      (driverRun cfg gpioOk (before ++ .event .driverOpen :: mid)).state.startedAt) :
    PulseSince cfg gpioOk before (mid ++ [e]) := by
  refine ⟨h.accepted, ?_, ?_, ?_⟩
  · rwa [driverRun_concat]
  · rw [driverRun_concat, hstart, h.start]
  · rw [driverRun_concat, hat, h.startedAt]

theorem notReleases_concat {before mid : List (Timed DriverCall)} {e : Timed DriverCall} {pulse : UInt32}
    {s : Nat} :
    (∀ p ∈ trace (timedStep driverAct) (driverRun cfg gpioOk (before ++ [.event .driverOpen]))
      (mid ++ [e]), ¬Releases pulse s p) ↔
      (∀ p ∈ trace (timedStep driverAct) (driverRun cfg gpioOk (before ++ [.event .driverOpen])) mid,
        ¬Releases pulse s p) ∧
      ¬Releases pulse s (driverRun cfg gpioOk (before ++ .event .driverOpen :: mid), e) := by
  rw [driverRun_split before mid, trace_concat]
  simp only [List.mem_append, List.mem_singleton, or_imp, forall_and, forall_eq]

/-- What is pulsing was started, and no call since came between the end of the pulse and the ceiling. -/
theorem pulseSince_exists {calls : List (Timed DriverCall)}
    (h : (driverRun cfg gpioOk calls).state.driver.logic.state = .pulsing) :
    ∃ before mid, calls = before ++ .event .driverOpen :: mid ∧ PulseSince cfg gpioOk before mid ∧
      ∀ p ∈ trace (timedStep driverAct) (driverRun cfg gpioOk (before ++ [.event .driverOpen])) mid,
        ¬Releases (lockLogicInit cfg.pulseMs).pulseMs (driverRun cfg gpioOk before).uptime p := by
  induction calls using List.reverseRecOn with
  | nil => cases gpioOk <;> cases h
  | append_singleton calls e ih =>
    rw [driverRun, exec_concat] at h
    cases e with
    | wait ms =>
      obtain ⟨before, mid, rfl, hsince, hnone⟩ := ih h
      refine ⟨before, mid ++ [.wait ms], by simp, hsince.concat h rfl rfl,
        notReleases_concat.mpr ⟨hnone, fun hr => ?_⟩⟩
      obtain ⟨call, hcall⟩ := hr.1
      cases hcall
    | event call =>
      rcases driverAct_pulsing (lockLogicInit_pos _) (driverRun_driven calls) h with
        ⟨rfl, haccepted, -, -⟩ | ⟨hpulsing, hrunning, hat, hstart⟩
      · exact ⟨calls, [], rfl, pulseSince_start haccepted, by simp⟩
      · obtain ⟨before, mid, rfl, hsince, hnone⟩ := ih hpulsing
        rw [hsince.start, span_le_iff (driverRun_after before mid)] at hrunning
        have hnext : PulseSince cfg gpioOk before (mid ++ [.event call]) :=
          hsince.concat h hstart hat
        refine ⟨before, mid ++ [.event call], by simp, hnext, notReleases_concat.mpr ⟨hnone, fun hr => hrunning ?_⟩⟩
        have hmax : lockMaxPulseMs.toNat = 1000 := rfl
        have hfrom := hr.2.1
        have hbelow := hr.2.2
        dsimp only at hfrom hbelow
        omega

/-- With no such call the coil stays energised, so that a run under the ceiling ends before it. -/
theorem PulseSince.under {before mid : List (Timed DriverCall)}
    (haccepted : (lockDriverOpen (driverRun cfg gpioOk before).state.driver
      (UInt32.ofNat (driverRun cfg gpioOk before).uptime)).2 = true)
    (hunder : ∀ first rest, before ++ .event .driverOpen :: mid = first ++ rest →
      UnderCeiling (driverRun cfg gpioOk first))
    (hnone : ∀ p ∈ trace (timedStep driverAct) (driverRun cfg gpioOk (before ++ [.event .driverOpen])) mid,
      ¬Releases (lockLogicInit cfg.pulseMs).pulseMs (driverRun cfg gpioOk before).uptime p) :
    PulseSince cfg gpioOk before mid ∧
      (driverRun cfg gpioOk (before ++ .event .driverOpen :: mid)).uptime <
        (driverRun cfg gpioOk before).uptime + lockMaxPulseMs.toNat := by
  induction mid using List.reverseRecOn with
  | nil =>
    refine ⟨pulseSince_start haccepted, ?_⟩
    rw [driverRun, exec_concat]
    exact Nat.lt_add_of_pos_right (by decide)
  | append_singleton mid e ih =>
    obtain ⟨hnone', hlast⟩ := notReleases_concat.mp hnone
    have hunder' : ∀ first rest, before ++ .event .driverOpen :: mid = first ++ rest →
        UnderCeiling (driverRun cfg gpioOk first) := by
      intro first rest hsplit
      refine hunder first (rest ++ [e]) ?_
      rw [← List.append_assoc, ← hsplit]
      simp
    obtain ⟨hsince, hlt⟩ := ih hunder' hnone'
    cases e with
    | wait ms =>
      have hnext : PulseSince cfg gpioOk before (mid ++ [.wait ms]) :=
        hsince.concat hsince.state rfl rfl
      have hall := hunder _ [] (List.append_nil _).symm
      refine ⟨hnext, ?_⟩
      have hceiling := hall ((driverRun_driven _).shown.mpr hnext.state)
      rwa [hnext.startedAt] at hceiling
    | event call =>
      have hnear : (driverRun cfg gpioOk (before ++ .event .driverOpen :: mid)).uptime <
          (driverRun cfg gpioOk before).uptime + (lockLogicInit cfg.pulseMs).pulseMs.toNat := by
        by_contra hlate
        exact hlast ⟨⟨call, rfl⟩, not_lt.mp hlate, hlt⟩
      have hafter : (driverRun cfg gpioOk before).uptime ≤
          (driverRun cfg gpioOk (before ++ .event .driverOpen :: mid)).uptime := driverRun_after before mid
      have hlen := lockLogicInit_le cfg.pulseMs
      obtain ⟨hstate, hstart, hat⟩ := driverAct_running call (lockLogicInit_pos _)
        (driverRun_driven _) hsince.state hsince.start hafter (by omega)
      have hnext : PulseSince cfg gpioOk before (mid ++ [.event call]) :=
        hsince.concat hstate (hstart.trans hsince.start.symm) hat
      refine ⟨hnext, ?_⟩
      rw [driverRun_concat]
      exact hlt

/-- The pin obeys the ceiling throughout a run exactly when every pulse is followed in time by a call
that can end it. -/
theorem ceiling_kept_iff (cfg : LockDriverConfig) (gpioOk : Bool) (calls : List (Timed DriverCall)) :
    (∀ before after, calls = before ++ after → UnderCeiling (driverRun cfg gpioOk before)) ↔
      ReleasedInTime cfg gpioOk calls := by
  constructor
  · rintro hunder before after rfl haccepted hlate
    by_contra hno
    have hnone : ∀ p ∈ trace (timedStep driverAct)
        (driverRun cfg gpioOk (before ++ [.event .driverOpen])) after,
        ¬Releases (lockLogicInit cfg.pulseMs).pulseMs (driverRun cfg gpioOk before).uptime p :=
      fun p hp hr => hno ⟨p, hp, hr⟩
    exact absurd (PulseSince.under haccepted hunder hnone).2 (not_lt.mpr hlate)
  · rintro hreleased first rest rfl henergised
    have hstate := (driverRun_driven first).shown.mp henergised
    obtain ⟨before, mid, rfl, hsince, hnone⟩ := pulseSince_exists hstate
    rw [hsince.startedAt]
    by_contra hlate
    have hend : (driverRun cfg gpioOk (before ++ .event .driverOpen :: mid)).uptime ≤
        (driverRun cfg gpioOk ((before ++ .event .driverOpen :: mid) ++ rest)).uptime := by
      rw [driverRun, driverRun, exec_append _ _ (before ++ .event .driverOpen :: mid)]
      exact uptime_le_exec _ _
    obtain ⟨p, hp, hr⟩ := hreleased before (mid ++ rest) (by simp) hsince.accepted
      ((not_lt.mp hlate).trans hend)
    rw [trace_append, ← driverRun_split, List.mem_append] at hp
    rcases hp with hp | hp
    · exact hnone p hp hr
    · obtain ⟨done, next, -, hat⟩ := mem_trace hp
      have hle : (driverRun cfg gpioOk (before ++ .event .driverOpen :: mid)).uptime ≤ p.1.uptime := by
        rw [hat]
        exact uptime_le_exec _ done
      have hbelow := hr.2.2
      omega

/-- A pulse of 800 ms that no call ends is still on the pin after ten seconds. -/
theorem stalled_loop_holds_coil :
    ¬UnderCeiling (driverRun ⟨true, 800⟩ true [.event .driverOpen, .wait 10000]) := by
  intro h
  exact absurd (h (by decide)) (by decide)

end GateAccess
