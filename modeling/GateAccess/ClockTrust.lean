import GateAccess.CodeGranted
import GateAccess.RtcDs3231

namespace GateAccess

/-- What a boot finds: the context that `ac_init` and `boot_persist` leave, what the chip holds by
then, and how the bus answers the driver's start and the reading after it. -/
structure ClockBoot where
  restored : AcCtx
  regs : Bytes 7
  status : UInt8
  initTurn : I2cTurn
  readTurn : I2cTurn

/-- The gate over its clock. The field `vouched`, which the firmware does not have, says that since
the boot a trusted source has given the RTC's time. -/
structure ClockGate where
  gate : GateCtrl
  rtc : Ds3231
  vouched : Bool

def bootClock (b : ClockBoot) : Ds3231 × Bool :=
  let init := rtcInit ⟨b.regs, b.status, false⟩ b.initTurn
  if !init.2 then (init.1, false) else (init.1, (rtcGetTime init.1 b.readTurn).isSome)

/-- `app_main` up to its loop, as far as the clock goes. -/
def clockBoot (b : ClockBoot) : ClockGate :=
  let booted := bootClock b
  { gate := gateAppSetClockTrusted (gateInit b.restored uiInit) booted.2
    rtc := booted.1
    vouched := booted.2 }

def onNetworkTime (d : ClockGate) (epoch : Int) (turn : I2cTurn) : ClockGate :=
  let set := rtcSetTime d.rtc epoch turn
  { d with rtc := set.1, vouched := d.vouched || set.2 }

/-- `time set` on the console. -/
def cmdTime (d : ClockGate) (epoch : Int) (turn : I2cTurn) : ClockGate :=
  let set := rtcSetTime d.rtc epoch turn
  if !set.2 then { d with rtc := set.1 }
  else { d with gate := gateAppSetClockTrusted d.gate true, rtc := set.1, vouched := true }

inductive ClockEvent
  | boot (b : ClockBoot)
  | networkTime (epoch : Int) (turn : I2cTurn)
  | timeSet (epoch : Int) (turn : I2cTurn)
  | key (char : UInt8) (now : UiNow)
  | longPress (now : UiNow)
  | tick (now : UiNow)

variable (hash : List UInt8 → Bytes acHashLen)

def clockStep (d : ClockGate) : ClockEvent → ClockGate
  | .boot b => clockBoot b
  | .networkTime epoch turn => onNetworkTime d epoch turn
  | .timeSet epoch turn => cmdTime d epoch turn
  | .key char now => { d with gate := (gateOnKey hash d.gate char now).1 }
  | .longPress now => { d with gate := (gateOnLongPress d.gate now).1 }
  | .tick now => { d with gate := (gateTick d.gate now).1 }

/-- Both contexts trust the clock exactly when a source has vouched for it, and then every valid
code opens the gate. -/
structure TrustFollows (d : ClockGate) : Prop where
  agree : d.gate.ac.clockTrusted = d.gate.ui.clockTrusted
  sourced : d.gate.ac.clockTrusted = d.vouched
  grants : d.vouched = true → GrantsValid hash d.gate

/-- A network time that reaches the RTC finds the clock trusted already. -/
def NetworkKnown (p : ClockGate × ClockEvent) : Prop :=
  ∀ epoch turn, p.2 = .networkTime epoch turn → (rtcSetTime p.1.rtc epoch turn).2 = true →
    p.1.gate.ac.clockTrusted = true

variable {hash}

def TrustAgrees (g : GateCtrl) : Prop := g.ac.clockTrusted = g.ui.clockTrusted

/-- No event of the keypad path touches the trust of either context. -/
theorem gateOnKey_trust (g : GateCtrl) (key : UInt8) (now : UiNow) :
    (gateOnKey hash g key now).1.ac.clockTrusted = g.ac.clockTrusted ∧
      (gateOnKey hash g key now).1.ui.clockTrusted = g.ui.clockTrusted := by
  have hui : (uiOnKey g.ui g.ac now).1.clockTrusted = g.ui.clockTrusted := by
    have hk := uiOnKey_step g.ui g.ac now
    generalize uiOnKey g.ui g.ac now = out at hk
    cases hk <;> rfl
  rw [gateOnKey_eq]
  split_ifs
  · exact ⟨rfl, hui⟩
  · obtain ⟨-, hu, ha⟩ :=
      submit_entry hash (storeKey ⟨g.ac, (uiOnKey g.ui g.ac now).1, g.buf⟩ key) now
    exact ⟨ha, hu.trans hui⟩
  · exact ⟨rfl, hui⟩

theorem gateOnLongPress_trust (g : GateCtrl) (now : UiNow) :
    (gateOnLongPress g now).1.ac.clockTrusted = g.ac.clockTrusted ∧
      (gateOnLongPress g now).1.ui.clockTrusted = g.ui.clockTrusted :=
  ⟨rfl, (uiOnLongPress_entry g.ui g.ac now).1⟩

theorem gateTick_trust (g : GateCtrl) (now : UiNow) :
    (gateTick g now).1.ac.clockTrusted = g.ac.clockTrusted ∧
      (gateTick g now).1.ui.clockTrusted = g.ui.clockTrusted :=
  ⟨gateTickAc_clockTrusted g now, uiTick_clockTrusted _ _ _⟩

/-- Once both contexts are right about the clock, valid codes follow. -/
theorem TrustFollows.of {d : ClockGate} (agree : TrustAgrees d.gate)
    (sourced : d.gate.ac.clockTrusted = d.vouched) : TrustFollows hash d where
  agree := agree
  sourced := sourced
  grants := fun hv =>
    grantsValid_of_trusted (sourced.trans hv) (agree.symm.trans (sourced.trans hv))

theorem clockStep_agrees {d : ClockGate} (h : TrustAgrees d.gate) (e : ClockEvent) :
    TrustAgrees (clockStep hash d e).gate := by
  cases e with
  | boot b => exact (uiSetClockTrusted_clockTrusted _ _).symm
  | networkTime epoch turn => exact h
  | timeSet epoch turn =>
    simp only [clockStep, cmdTime]
    split
    · exact h
    · exact (uiSetClockTrusted_clockTrusted _ _).symm
  | key char now =>
    obtain ⟨ha, hu⟩ := @gateOnKey_trust hash d.gate char now
    exact ha.trans (h.trans hu.symm)
  | longPress now =>
    obtain ⟨ha, hu⟩ := gateOnLongPress_trust d.gate now
    exact ha.trans (h.trans hu.symm)
  | tick now =>
    obtain ⟨ha, hu⟩ := gateTick_trust d.gate now
    exact ha.trans (h.trans hu.symm)

theorem clockBoot_follows (b : ClockBoot) : TrustFollows hash (clockBoot b) :=
  .of (uiSetClockTrusted_clockTrusted _ _).symm rfl

theorem TrustFollows.step {d : ClockGate} {e : ClockEvent} (h : TrustFollows hash d)
    (known : NetworkKnown (d, e)) : TrustFollows hash (clockStep hash d e) := by
  refine .of (clockStep_agrees h.agree e) ?_
  cases e with
  | boot b => rfl
  | networkTime epoch turn =>
    change d.gate.ac.clockTrusted = (d.vouched || (rtcSetTime d.rtc epoch turn).2)
    cases hset : (rtcSetTime d.rtc epoch turn).2 with
    | false => rw [Bool.or_false, h.sourced]
    | true => rw [Bool.or_true, known epoch turn rfl hset]
  | timeSet epoch turn =>
    simp only [clockStep, cmdTime]
    split
    · exact h.sourced
    · rfl
  | key char now => exact (gateOnKey_trust d.gate char now).1.trans h.sourced
  | longPress now => exact (gateOnLongPress_trust d.gate now).1.trans h.sourced
  | tick now => exact (gateTick_trust d.gate now).1.trans h.sourced

/-- Trust follows its sources exactly in the runs whose network times all reach an RTC that was
trusted before. -/
theorem clock_trust_iff (b : ClockBoot) (es : List ClockEvent) :
    (∀ before after, es = before ++ after →
        TrustFollows hash (exec (clockStep hash) (clockBoot b) before)) ↔
      ∀ p ∈ trace (clockStep hash) (clockBoot b) es, NetworkKnown p := by
  refine always_iff_steps (clockBoot_follows b) (fun _ h => h) (fun _ _ h known => h.step known) ?_
  rintro before e h epoch turn rfl hset
  exact h.sourced.trans (by simp [clockStep, onNetworkTime, hset])

def goodTurn : I2cTurn := ⟨fun _ => true, zeros _⟩

/-- The chip lost its battery: the oscillator stop flag is set. -/
def flatBattery : ClockBoot := ⟨acInit 5 300, zeros _, 0x80, goodTurn, goodTurn⟩

theorem network_time_not_trusted : ¬TrustFollows (fun _ => zeros _)
    (exec (clockStep fun _ => zeros _) (clockBoot flatBattery) [.networkTime 1790000000 goodTurn]) :=
  fun h => absurd h.sourced (by decide +kernel)

end GateAccess
