import GateAccess.Traces
import GateAccess.WrapClock

namespace GateAccess

def lockDefaultPulseMs : UInt32 := 800
def lockMaxPulseMs : UInt32 := 1000
def lockCooldownMs : UInt32 := 3000

inductive LockState
  | idle
  | pulsing
  | cooldown
  deriving DecidableEq

structure LockLogic where
  state : LockState
  pulseMs : UInt32
  pulseStartedMs : UInt32
  cooldownUntilMs : UInt32
  pulsesTotal : UInt32
  requestsRefused : UInt32
  deriving DecidableEq

def elapsed (nowMs sinceMs spanMs : UInt32) : Bool := nowMs - sinceMs ≥ spanMs

def lockLogicInit (pulseMs : UInt32) : LockLogic :=
  let pulseMs := if pulseMs = 0 then lockDefaultPulseMs else pulseMs
  let pulseMs := if pulseMs > lockMaxPulseMs then lockMaxPulseMs else pulseMs
  ⟨.idle, pulseMs, 0, 0, 0, 0⟩

def lockLogicTick (st : LockLogic) (nowMs : UInt32) : LockLogic :=
  match st.state with
  | .pulsing =>
    if elapsed nowMs st.pulseStartedMs st.pulseMs then
      { st with
        state := .cooldown
        cooldownUntilMs := st.pulseStartedMs + st.pulseMs + lockCooldownMs }
    else st
  | .cooldown => if signed (st.cooldownUntilMs - nowMs) ≤ 0 then { st with state := .idle } else st
  | .idle => st

def lockLogicRequest (st : LockLogic) (nowMs : UInt32) : LockLogic × Bool :=
  let st := lockLogicTick st nowMs
  if st.state ≠ .idle then ({ st with requestsRefused := st.requestsRefused + 1 }, false)
  else
    ({ st with
      state := .pulsing
      pulseStartedMs := nowMs
      pulsesTotal := st.pulsesTotal + 1 }, true)

def lockLogicOutput (st : LockLogic) (nowMs : UInt32) : Bool :=
  if st.state ≠ .pulsing then false else !elapsed nowMs st.pulseStartedMs st.pulseMs

/-- A call, at a true time of which the code sees the low 32 bits. -/
inductive LockCall
  | request (atMs : Nat)
  | tick (atMs : Nat)
  | output (atMs : Nat)
  deriving DecidableEq

def LockCall.time : LockCall → Nat
  | .request t | .tick t | .output t => t

def lockStep (st : LockLogic) : LockCall → LockLogic
  | .request t => (lockLogicRequest st (UInt32.ofNat t)).1
  | .tick t => lockLogicTick st (UInt32.ofNat t)
  | .output _ => st

abbrev lockRun (pulseMs : UInt32) (calls : List LockCall) : LockLogic :=
  exec lockStep (lockLogicInit pulseMs) calls

/-- The time of a request that starts a pulse. -/
def acceptedAt (p : LockLogic × LockCall) : Option Nat :=
  match p.2 with
  | .request t => if (lockLogicRequest p.1 (UInt32.ofNat t)).2 then some t else none
  | _ => none

def acceptedTimes (pulseMs : UInt32) (calls : List LockCall) : List Nat :=
  (trace lockStep (lockLogicInit pulseMs) calls).filterMap acceptedAt

theorem lockLogicInit_pulse (pulseMs : UInt32) : (lockLogicInit pulseMs).pulseMs ≤ lockMaxPulseMs := by
  simp only [lockLogicInit]
  generalize (if pulseMs = 0 then lockDefaultPulseMs else pulseMs) = wanted
  split
  next => exact UInt32.le_refl _
  next h => exact UInt32.not_lt.mp h

@[simp] theorem lockLogicTick_pulseMs (st : LockLogic) (nowMs : UInt32) :
    (lockLogicTick st nowMs).pulseMs = st.pulseMs := by
  unfold lockLogicTick
  split
  · split <;> rfl
  · split <;> rfl
  · rfl

@[simp] theorem lockStep_pulseMs (st : LockLogic) (call : LockCall) :
    (lockStep st call).pulseMs = st.pulseMs := by
  cases call with
  | request t =>
    simp only [lockStep, lockLogicRequest]
    split <;> simp
  | tick t => exact lockLogicTick_pulseMs st _
  | output t => rfl

@[simp] theorem lockRun_pulseMs (pulseMs : UInt32) (calls : List LockCall) :
    (lockRun pulseMs calls).pulseMs = (lockLogicInit pulseMs).pulseMs :=
  exec_invariant (I := fun st => st.pulseMs = (lockLogicInit pulseMs).pulseMs)
    (fun st call h => (lockStep_pulseMs st call).trans h) rfl calls

/-- The exits of `lock_logic_tick`. -/
inductive TickStep (st : LockLogic) (nowMs : UInt32) : LockLogic → Prop
  | kept : (st.state = .pulsing → ¬st.pulseMs ≤ nowMs - st.pulseStartedMs) →
      TickStep st nowMs st
  | ended : st.state = .pulsing → st.pulseMs ≤ nowMs - st.pulseStartedMs →
      TickStep st nowMs { st with
        state := .cooldown
        cooldownUntilMs := st.pulseStartedMs + st.pulseMs + lockCooldownMs }
  | cooled : st.state = .cooldown → signed (st.cooldownUntilMs - nowMs) ≤ 0 →
      TickStep st nowMs { st with state := .idle }

theorem lockLogicTick_step (st : LockLogic) (nowMs : UInt32) :
    TickStep st nowMs (lockLogicTick st nowMs) := by
  unfold lockLogicTick
  split
  next hs =>
    split
    next he => exact .ended hs (by simpa [elapsed] using he)
    next he => exact .kept fun _ => by simpa [elapsed] using he
  next hs =>
    split
    next hc => exact .cooled hs hc
    next => exact .kept (by simp [hs])
  next hs => exact .kept (by simp [hs])

theorem acceptedTimes_concat (pulseMs : UInt32) (calls : List LockCall) (call : LockCall) :
    acceptedTimes pulseMs (calls ++ [call]) =
      acceptedTimes pulseMs calls ++ (acceptedAt (lockRun pulseMs calls, call)).toList := by
  unfold acceptedTimes
  rw [trace_concat, List.filterMap_append]
  cases h : acceptedAt (lockRun pulseMs calls, call) <;> simp [h]

end GateAccess
