import GateAccess.GateApp
import GateAccess.KeypadEvents

namespace GateAccess

variable (hash : List UInt8 → Bytes acHashLen)

/-- The event next in the queue is the last of nine keys that a slot accepts at this time. -/
structure Grants (a : GateApp) (now : UiNow) (code : List UInt8) : Prop where
  typed : ∃ key rest, a.keypad.queue.waiting = ⟨.press, key⟩ :: rest ∧
    code <:+ pressedKeys a.keypad.queue.received ++ [key]
  nine : code.length = acCodeLen
  clock : a.device.gate.ac.clockTrusted = true
  unlocked : acIsLockedOut a.device.gate.ac now.epoch = false
  accepted : ∃ i, (a.device.gate.ac.slots i).occupied = true ∧
    (a.device.gate.ac.slots i).hash = hash (code ++ [0]) ∧
    (a.device.gate.ac.slots i).validFrom ≤ now.epoch ∧ now.epoch ≤ (a.device.gate.ac.slots i).validUntil

/-- The pulse under way began when this event was taken, and no tick of the lock since could end it. -/
structure PulseBehind (a : GateApp) (pulse : UInt32) (ops before : List (Timed AppEvent)) (now : UiNow)
    (after : List (Timed AppEvent)) : Prop where
  split : ops = before ++ .event (.receive now) :: after
  opens : lockCallAt hash (appRun hash a before) (.event (.receive now)) = some .driverOpen
  started : (appRun hash a ops).state.lock.driver.logic.pulseStartedMs =
    UInt32.ofNat (appRun hash a before).uptime
  unended : ∀ part more, after = part ++ .event .lockTick :: more →
    ((appRun hash a (before ++ .event (.receive now) :: part)).uptime -
      (appRun hash a before).uptime) % 2 ^ 32 < pulse.toNat

variable {hash}

theorem PulseBehind.concat {a : GateApp} {pulse : UInt32} {ops before after : List (Timed AppEvent)}
    {now : UiNow} (h : PulseBehind hash a pulse ops before now after) {e : Timed AppEvent}
    (hstarted : (appRun hash a (ops ++ [e])).state.lock.driver.logic.pulseStartedMs =
      (appRun hash a ops).state.lock.driver.logic.pulseStartedMs)
    (htick : e = .event .lockTick → ((appRun hash a ops).uptime - (appRun hash a before).uptime) %
      2 ^ 32 < pulse.toNat) :
    PulseBehind hash a pulse (ops ++ [e]) before now (after ++ [e]) where
  split := by rw [h.split, List.append_assoc, List.cons_append]
  opens := h.opens
  started := hstarted.trans h.started
  unended part more hafter := by
    rcases concat_split hafter with ⟨rfl, he, -⟩ | ⟨more', -, hbefore⟩
    · rw [← h.split]
      exact htick he
    · exact h.unended part more' hbefore

theorem appRun_driven {a : GateApp} {pulse : UInt32} (hpos : 0 < pulse.toNat)
    (h : Driven pulse a.lock.driver) (ops : List (Timed AppEvent)) :
    Driven pulse (appRun hash a ops).state.lock.driver := by
  induction ops using List.reverseRecOn with
  | nil => exact h
  | append_singleton ops e ih =>
    rw [appRun_lock]
    cases lockCallAt hash (appRun hash a ops) e with
    | none => exact ih
    | some call => exact driverAct_driven call hpos ih

theorem before_uptime {a : GateApp} (before rest : List (Timed AppEvent)) :
    (appRun hash a before).uptime ≤ (appRun hash a (before ++ rest)).uptime := by
  rw [appRun, appRun, exec_append]
  exact uptime_le_exec _ rest

theorem lockCall_open {s : AtTime GateApp} {e : Timed AppEvent}
    (h : lockCallAt hash s e = some .driverOpen) : ∃ now, e = .event (.receive now) := by
  rcases e with ms | level | now | now | _ | e
  · cases h
  · cases h
  · exact ⟨now, rfl⟩
  · cases h
  · cases h
  · cases h

/-- Only an event that opens the lock starts a pulse, and a tick that comes late enough ends it. -/
theorem pulse_behind {a : GateApp} {pulse : UInt32} (hpos : 0 < pulse.toNat)
    (h : Driven pulse a.lock.driver) (hidle : a.lock.driver.logic.state ≠ .pulsing)
    (ops : List (Timed AppEvent))
    (hpulsing : (appRun hash a ops).state.lock.driver.logic.state = .pulsing) :
    ∃ before now after, PulseBehind hash a pulse ops before now after := by
  induction ops using List.reverseRecOn with
  | nil => exact absurd hpulsing hidle
  | append_singleton ops e ih =>
    have hdriven : Driven pulse (appRun hash a ops).state.lock.driver := appRun_driven hpos h ops
    have hlock := @appRun_lock hash a ops e
    cases hcall : lockCallAt hash (appRun hash a ops) e with
    | none =>
      rw [hcall] at hlock
      rw [hlock] at hpulsing
      obtain ⟨before, now, after, hbehind⟩ := ih hpulsing
      refine ⟨before, now, after ++ [e], hbehind.concat (by rw [hlock]; rfl) ?_⟩
      rintro rfl
      cases hcall
    | some call =>
      rw [hcall] at hlock
      have hact : (appRun hash a (ops ++ [e])).state.lock =
        driverAct (appRun hash a ops).uptime (appRun hash a ops).state.lock call := hlock
      rw [hact] at hpulsing
      rcases driverAct_pulsing hpos hdriven hpulsing with
        ⟨rfl, -, -, hstart⟩ | ⟨hbefore, hrunning, -, hstart⟩
      · obtain ⟨now, rfl⟩ := lockCall_open hcall
        refine ⟨ops, now, [], rfl, hcall, by rw [hact]; exact hstart, fun part more hnil => ?_⟩
        simp at hnil
      · obtain ⟨before, now, after, hbehind⟩ := ih hbefore
        refine ⟨before, now, after ++ [e], hbehind.concat (by rw [hact]; exact hstart) fun _ => ?_⟩
        rw [hbehind.started] at hrunning
        by_contra hlong
        have hle : (appRun hash a before).uptime ≤ (appRun hash a ops).uptime := by
          rw [hbehind.split]
          exact before_uptime _ _
        exact hrunning ((span_le_iff hle).mpr (Nat.not_lt.mp hlong))

/-- The entry's history, from any gate with no entry in progress. -/
theorem entryHistory_from {g : GateCtrl} (h : EntryHistory hash [] g) (es : List GateEvent)
    (sorted : EpochsInOrder es) :
    EntryHistory hash (trace (gateStep hash) g es) (exec (gateStep hash) g es) := by
  induction es using List.reverseRecOn with
  | nil => exact h
  | append_singleton es e ih =>
    obtain ⟨hes, ho⟩ := sorted.snoc hash g
    rw [trace_append, exec_append]
    exact (ih hes).step ho

theorem keysOf_trace (g : GateCtrl) (es : List GateEvent) :
    keysOf (trace (gateStep hash) g es) = es.filterMap GateEvent.char := by
  have hmap := List.filterMap_map (f := Prod.snd) (g := GateEvent.char)
    (l := trace (gateStep hash) g es)
  rw [trace_map_snd] at hmap
  exact hmap.symm

theorem appRun_grants {a : GateApp} (hnew : EntryHistory hash [] a.device.gate)
    (hnone : a.keypad.queue.received = []) {before : List (Timed AppEvent)} {now : UiNow}
    (sorted : EpochsInOrder (gateEventsOf hash a before))
    (hopens : lockCallAt hash (appRun hash a before) (.event (.receive now)) = some .driverOpen) :
    ∃ code, Grants hash (appRun hash a before).state now code := by
  have hist := entryHistory_from hnew _ sorted
  have hkeys := @gateEventsOf_keys hash a hnone before
  rw [← appRun_gate] at hist
  simp only [lockCallAt, ite_eq_left_iff, reduceCtorEq, imp_false, Option.any_eq_true,
    not_not] at hopens
  obtain ⟨⟨type, key⟩, hhead, hopen⟩ := hopens
  obtain ⟨key', now', hevent⟩ := gateOut_key hopen
  obtain ⟨rest, hwaiting⟩ := List.head?_eq_some_iff.mp hhead
  cases type with
  | longPress => cases hevent
  | press =>
    obtain ⟨-, hl, hlen, code, -, hcode, hgr, -⟩ := gateOnKey_open hist.short hopen
    obtain ⟨first, seg, hsteps, hseg, -⟩ := hist.typed
    rw [putByte_code hlen, ← hseg] at hcode
    subst hcode
    obtain ⟨hac, i, hocc, hhash, hf, hu, -⟩ := acEvaluate_granted hgr
    refine ⟨keysOf seg ++ [key], ⟨key, rest, hwaiting, ?_⟩, ?_, hac, hl, i, hocc, hhash, hf, hu⟩
    · refine ⟨keysOf first, ?_⟩
      have hall : keysOf (first ++ seg) = pressedKeys (appRun hash a before).state.keypad.queue.received := by
        rw [← hsteps, ← hkeys, keysOf_trace]
      rw [← List.append_assoc, ← hall]
      congr 1
      exact List.filterMap_append.symm
    · rw [List.length_append, hseg, List.length_take, List.length_singleton]
      have h9 : acCodeLen = 9 := rfl
      have hb : (appRun hash a before).state.device.gate.buf.toList.length = 10 := by simp
      omega

/-- Whatever the tasks do and in whichever order, the coil is energised only by the last of nine keys
that a slot accepts, and until the first tick of the lock a pulse later. -/
theorem coil_needs_code (maxFailed : UInt8) (lockoutSeconds : Int) (image : PrImage) (eeprom : Eeprom)
    (clockOk : Bool) (cfg : LockDriverConfig) (gpioOk : Bool) (ops : List (Timed AppEvent))
    (a : GateApp) (ha : a = appStart maxFailed lockoutSeconds image eeprom clockOk cfg gpioOk)
    (sorted : EpochsInOrder (gateEventsOf hash a ops))
    (hcoil : (appRun hash a ops).state.lock.driver.energised = true) :
    ∃ before now after, ops = before ++ .event (.receive now) :: after ∧
      (∃ code, Grants hash (appRun hash a before).state now code) ∧
      ∀ part more, after = part ++ .event .lockTick :: more →
        ((appRun hash a (before ++ .event (.receive now) :: part)).uptime -
          (appRun hash a before).uptime) % 2 ^ 32 < (lockLogicInit cfg.pulseMs).pulseMs.toNat := by
  subst ha
  have hpos := lockLogicInit_pos cfg.pulseMs
  have hdriven := driven_init cfg gpioOk
  have hidle : (lockDriverInit cfg gpioOk).logic.state ≠ .pulsing := by
    cases gpioOk <;> simp [lockDriverInit, lockLogicInit]
  have hpulsing := (appRun_driven hpos hdriven ops).shown.mp hcoil
  obtain ⟨before, now, after, hbehind⟩ := pulse_behind hpos hdriven hidle ops hpulsing
  refine ⟨before, now, after, hbehind.split, ?_, hbehind.unended⟩
  have hnew : EntryHistory hash []
      (appStart maxFailed lockoutSeconds image eeprom clockOk cfg gpioOk).device.gate := by
    cases clockOk with
    | false => exact .reset rfl rfl
    | true => exact .reset rfl rfl
  refine appRun_grants hnew rfl ?_ hbehind.opens
  rw [hbehind.split, gateEventsOf, logOf_append] at sorted
  exact sorted.sublist ((List.sublist_append_left _ _).filterMap _)

/-- One scan sees the keys so, and another a debounce time later. -/
def scannedTwice (level : Fin 4 → Fin 4 → Bool) : List (Timed AppEvent) :=
  [.event (.scan level), .wait 15, .event (.scan level)]

/-- A code is stored, and 5 is pressed and let go nine times. -/
def nineFives : List (Timed AppEvent) :=
  .event (.edit ⟨.upsert (ascii "0a1b2c3d") (zeros _) 0 100, rfl⟩) ::
    (List.replicate 9 (scannedTwice (fun r c => !(r = 1 && c = 1)) ++
      [.event (.receive ⟨0, 10⟩)] ++ scannedTwice fun _ _ => true)).flatten

def erasedGate : GateApp :=
  appStart 5 300 (fun _ => List.Vector.replicate _ 255)
    (fun _ => ⟨List.Vector.replicate _ 255, List.Vector.replicate _ 255⟩) true ⟨true, 800⟩ true

theorem nineFives_code :
    ∃ before now after code, nineFives = before ++ .event (.receive now) :: after ∧
      Grants (fun _ => zeros _) (appRun (fun _ => zeros _) erasedGate before).state now code := by
  obtain ⟨before, now, after, hsplit, ⟨code, hcode⟩, -⟩ :=
    @coil_needs_code (fun _ => zeros _) 5 300 (fun _ => List.Vector.replicate _ 255)
      (fun _ => ⟨List.Vector.replicate _ 255, List.Vector.replicate _ 255⟩) true ⟨true, 800⟩ true
      nineFives erasedGate rfl (by decide +kernel) (by decide +kernel)
  exact ⟨before, now, after, code, hsplit, hcode⟩

end GateAccess
