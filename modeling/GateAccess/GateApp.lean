import GateAccess.AttemptPersist
import GateAccess.DoorOpening
import GateAccess.KeypadTask
import GateAccess.LockDriver

namespace GateAccess

/-- What the tasks of `app_main` share: the keypad's queue, the gate under its mutex, and the lock. -/
structure GateApp where
  keypad : KeypadTask
  device : GateDevice
  lock : DriverRun

/-- A turn of the scan task, a piece of a pass of the main loop, or what another task does under the
mutex. -/
inductive AppEvent
  | scan (level : Fin 4 → Fin 4 → Bool)
  | receive (now : UiNow)
  | tick (now : UiNow)
  | lockTick
  | edit (e : {e : GateEvent // e.epoch = none})

def gateEventOf (ev : KpEvent) (now : UiNow) : GateEvent :=
  if ev.type = .longPress then .longPress now else .key ev.key now

variable (hash : List UInt8 → Bytes acHashLen)

/-- An event of the gate, and what `handle` does about it. -/
def appGate (uptime : Nat) (a : GateApp) (e : GateEvent) : GateApp :=
  let o := gateOut hash a.device.gate e
  { a with
    device := handle { a.device with gate := gateStep hash a.device.gate e } o
    lock := if o.openLock then driverAct uptime a.lock .driverOpen else a.lock }

def appAct (uptime : Nat) (a : GateApp) : AppEvent → GateApp
  | .scan level => { a with keypad := keypadAct uptime a.keypad (.scan level) }
  | .receive now =>
    match a.keypad.queue.waiting.head? with
    | none => a
    | some ev =>
      appGate hash uptime { a with keypad := keypadAct uptime a.keypad .receive } (gateEventOf ev now)
  | .tick now => appGate hash uptime a (.tick now)
  | .lockTick => { a with lock := driverAct uptime a.lock .driverTick }
  | .edit e => appGate hash uptime a e

/-- `app_main` up to its loop, with whatever the chip holds. -/
def appStart (maxFailed : UInt8) (lockoutSeconds : Int) (image : PrImage) (eeprom : Eeprom)
    (clockOk : Bool) (cfg : LockDriverConfig) (gpioOk : Bool) : GateApp where
  keypad := keypadInit
  device := gatePowerUp maxFailed lockoutSeconds image eeprom clockOk
  lock := ⟨lockDriverInit cfg gpioOk, 0⟩

abbrev appRun (a : GateApp) (ops : List (Timed AppEvent)) : AtTime GateApp :=
  exec (timedStep (appAct hash)) ⟨0, a⟩ ops

/-- The events of the gate in a step. -/
def gateEventsAt (s : AtTime GateApp) : Timed AppEvent → List GateEvent
  | .event (.receive now) => s.state.keypad.queue.waiting.head?.toList.map (gateEventOf · now)
  | .event (.tick now) => [.tick now]
  | .event (.edit e) => [e]
  | _ => []

def gateEventsOf (a : GateApp) (ops : List (Timed AppEvent)) : List GateEvent :=
  logOf (timedStep (appAct hash)) gateEventsAt ⟨0, a⟩ ops

/-- The driver call in a step. -/
def lockCallAt (s : AtTime GateApp) : Timed AppEvent → Option DriverCall
  | .event (.receive now) =>
    if s.state.keypad.queue.waiting.head?.any fun ev =>
      (gateOut hash s.state.device.gate (gateEventOf ev now)).openLock
    then some .driverOpen else none
  | .event .lockTick => some .driverTick
  | _ => none

def pressedKeys (evs : List KpEvent) : List UInt8 :=
  evs.filterMap fun ev => if ev.type = .press then some ev.key else none

variable {hash}

theorem appRun_concat (a : GateApp) (ops : List (Timed AppEvent)) (e : Timed AppEvent) :
    appRun hash a (ops ++ [e]) = timedStep (appAct hash) (appRun hash a ops) e := exec_concat _ _ _ _

theorem gateEventsOf_concat (a : GateApp) (ops : List (Timed AppEvent)) (e : Timed AppEvent) :
    gateEventsOf hash a (ops ++ [e]) =
      gateEventsOf hash a ops ++ gateEventsAt (appRun hash a ops) e := by
  rw [gateEventsOf, logOf_append, logOf, logOf, List.append_nil]
  rfl

theorem handle_gate (d : GateDevice) (o : GateOut) : (handle d o).gate = d.gate := by
  unfold handle
  split <;> rfl

/-- The gate sees its events and nothing else of the run. -/
theorem appRun_gate (a : GateApp) (ops : List (Timed AppEvent)) :
    (appRun hash a ops).state.device.gate =
      exec (gateStep hash) a.device.gate (gateEventsOf hash a ops) := by
  induction ops using List.reverseRecOn with
  | nil => rfl
  | append_singleton ops e ih =>
    rw [gateEventsOf_concat, exec_append, ← ih, appRun_concat]
    rcases e with ms | level | now | now | _ | e
    · rfl
    · rfl
    · simp only [timedStep, appAct, gateEventsAt]
      cases (appRun hash a ops).state.keypad.queue.waiting.head? with
      | none => rfl
      | some ev => exact handle_gate _ _
    · exact handle_gate _ _
    · rfl
    · exact handle_gate _ _

theorem gateEventOf_char (ev : KpEvent) (now : UiNow) :
    (gateEventOf ev now).char = if ev.type = .press then some ev.key else none := by
  cases h : ev.type <;> simp [gateEventOf, h, GateEvent.char]

theorem char_of_epoch {e : GateEvent} (h : e.epoch = none) : e.char = none := by
  cases e <;> first | rfl | cases h

theorem pressedKeys_append (evs evs' : List KpEvent) :
    pressedKeys (evs ++ evs') = pressedKeys evs ++ pressedKeys evs' := List.filterMap_append

theorem keypadScan_received (uptime : Nat) (k : KeypadTask) (level : Fin 4 → Fin 4 → Bool) :
    (keypadScan uptime k level).queue.received = k.queue.received :=
  @exec_invariant _ _ (BoundedQueue.send queueDepth) (fun q => q.received = k.queue.received)
    (fun q ev h => by unfold BoundedQueue.send; split <;> exact h) _ rfl _

/-- The keys the gate has handled are those of the events taken from the queue. -/
theorem gateEventsOf_keys {a : GateApp} (h : a.keypad.queue.received = []) (ops : List (Timed AppEvent)) :
    (gateEventsOf hash a ops).filterMap GateEvent.char =
      pressedKeys (appRun hash a ops).state.keypad.queue.received := by
  induction ops using List.reverseRecOn with
  | nil => simp [gateEventsOf, logOf, pressedKeys, h]
  | append_singleton ops e ih =>
    rw [gateEventsOf_concat, List.filterMap_append, ih, appRun_concat]
    rcases e with ms | level | now | now | _ | ⟨e, he⟩
    · exact List.append_nil _
    · exact (List.append_nil _).trans (congrArg pressedKeys (keypadScan_received _ _ level).symm)
    · simp only [timedStep, appAct, gateEventsAt]
      cases hwaiting : (appRun hash a ops).state.keypad.queue.waiting with
      | nil => simp
      | cons ev rest =>
        simp only [List.head?_cons, appGate, keypadAct, BoundedQueue.receive_cons hwaiting,
          pressedKeys_append]
        simp [pressedKeys, List.filterMap_cons, gateEventOf_char]
    · exact List.append_nil _
    · exact List.append_nil _
    · simp only [gateEventsAt, List.filterMap_cons, char_of_epoch he]
      exact List.append_nil _

theorem gateOut_key {g : GateCtrl} {e : GateEvent} (h : (gateOut hash g e).openLock = true) :
    ∃ key now, e = .key key now := by
  cases e with
  | key key now => exact ⟨key, now, rfl⟩
  | longPress | tick | clockTrusted | upsert | upsertTransient | revoke | revokeTransient | sync =>
    cases h

theorem appGate_lock {uptime : Nat} {a : GateApp} {e : GateEvent} (h : ∀ key now, e ≠ .key key now) :
    (appGate hash uptime a e).lock = a.lock := by
  refine if_neg fun hopen => ?_
  obtain ⟨key, now, rfl⟩ := gateOut_key hopen
  exact h key now rfl

/-- The lock sees its calls. -/
theorem appRun_lock (a : GateApp) (ops : List (Timed AppEvent)) (e : Timed AppEvent) :
    (appRun hash a (ops ++ [e])).state.lock = ((lockCallAt hash (appRun hash a ops) e).map
      (driverAct (appRun hash a ops).uptime (appRun hash a ops).state.lock)).getD
        (appRun hash a ops).state.lock := by
  rw [appRun_concat]
  rcases e with ms | level | now | now | _ | ⟨e, he⟩
  · rfl
  · rfl
  · simp only [timedStep, appAct, lockCallAt]
    cases (appRun hash a ops).state.keypad.queue.waiting.head? with
    | none => rfl
    | some ev =>
      simp only [Option.any_some, appGate]
      split <;> rfl
  · exact appGate_lock (by simp)
  · rfl
  · refine appGate_lock fun key now heq => ?_
    rw [show e = _ from heq] at he
    cases he

end GateAccess
