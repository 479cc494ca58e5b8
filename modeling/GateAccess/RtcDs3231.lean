import GateAccess.CBytes

namespace GateAccess

def statusOsf : UInt8 := 0x80
def rtcMinPlausibleEpoch : Int := 1767225600
def rtcMaxPlausibleEpoch : Int := 2524608000

/-- The chip's time and status registers, and the driver's own belief in them. -/
structure Ds3231 where
  regs : Bytes 7
  status : UInt8
  trusted : Bool

/-- How the bus answers the transfers of one call, in order. `left` is what the time registers
hold after a write that it gave up on. -/
structure I2cTurn where
  acks : Nat → Bool
  left : Bytes 7

def I2cTurn.after (turn : I2cTurn) (n : Nat) : I2cTurn :=
  { turn with acks := fun k => turn.acks (n + k) }

def bcdToBin (v : UInt8) : UInt8 := (v >>> 4) * 10 + (v &&& 0x0F)

def binToBcd (v : UInt8) : UInt8 := (v / 10) <<< 4 ||| v % 10

/-- Days since 1970-01-01 for a civil date. -/
def daysFromCivil (y : Int) (m d : Nat) : Int :=
  let y := if m ≤ 2 then y - 1 else y
  let era := (if y ≥ 0 then y else y - 399).tdiv 400
  let yoe := (y - era * 400).toNat
  let doy := (153 * (if m > 2 then m - 3 else m + 9) + 2) / 5 + d - 1
  let doe := yoe * 365 + yoe / 4 - yoe / 100 + doy
  era * 146097 + doe - 719468

structure Tm where
  sec : Nat
  min : Nat
  hour : Nat
  wday : Nat
  mday : Nat
  mon : Nat
  year : Int
  deriving DecidableEq

/-- The C library's `gmtime_r`, by the proleptic Gregorian calendar in UTC. -/
def gmtimeR (epoch : Int) : Tm :=
  let days := epoch / 86400
  let secs := (epoch % 86400).toNat
  let era := (days + 719468) / 146097
  let doe := ((days + 719468) % 146097).toNat
  let yoe := (doe - doe / 1460 + doe / 36524 - doe / 146096) / 365
  let doy := doe - (365 * yoe + yoe / 4 - yoe / 100)
  let mp := (5 * doy + 2) / 153
  let mon := if mp < 10 then mp + 2 else mp - 10
  let year := yoe + era * 400 + (if mon < 2 then 1 else 0)
  { sec := secs % 60
    min := secs / 60 % 60
    hour := secs / 3600
    wday := ((days + 4) % 7).toNat
    mday := doy - (153 * mp + 2) / 5 + 1
    mon := mon
    year := year - 1900 }

def rtcReg (rtc : Ds3231) (i : Fin 7) : UInt8 := rtc.regs.get i

/-- `rtc_ds3231_get_time` from the status and the seven registers read. -/
def rtcReading (rtc : Ds3231) : Option Int :=
  if rtc.status &&& statusOsf ≠ 0 then none
  else
    let sec := bcdToBin (rtcReg rtc 0 &&& 0x7F)
    let min := bcdToBin (rtcReg rtc 1 &&& 0x7F)
    let hour := bcdToBin (rtcReg rtc 2 &&& 0x3F)
    let day := bcdToBin (rtcReg rtc 4 &&& 0x3F)
    let mon := bcdToBin (rtcReg rtc 5 &&& 0x1F)
    let year : Int := 2000 + (bcdToBin (rtcReg rtc 6)).toNat +
      if rtcReg rtc 5 &&& 0x80 ≠ 0 then 100 else 0
    if mon < 1 ∨ mon > 12 ∨ day < 1 ∨ day > 31 ∨ hour > 23 ∨ min > 59 ∨ sec > 59 then none
    else
      let epoch := daysFromCivil year mon.toNat day.toNat * 86400 + hour.toNat * 3600 +
        min.toNat * 60 + sec.toNat
      if epoch < rtcMinPlausibleEpoch ∨ epoch > rtcMaxPlausibleEpoch then none else some epoch

def rtcGetTime (rtc : Ds3231) (turn : I2cTurn) : Option Int :=
  if turn.acks 0 && turn.acks 1 then rtcReading rtc else none

/-- The seven bytes `rtc_ds3231_set_time` writes. -/
def rtcImage (epoch : Int) : Bytes 7 :=
  let t := gmtimeR epoch
  ⟨[binToBcd (UInt8.ofNat t.sec), binToBcd (UInt8.ofNat t.min), binToBcd (UInt8.ofNat t.hour),
    UInt8.ofNat (t.wday + 1), binToBcd (UInt8.ofNat t.mday),
    binToBcd (UInt8.ofNat (t.mon + 1)) ||| (if t.year ≥ 200 then 0x80 else 0),
    binToBcd (UInt8.ofInt (t.year.tmod 100))], rfl⟩

/-- The flag says `ESP_OK`. -/
def rtcSetTime (rtc : Ds3231) (epoch : Int) (turn : I2cTurn) : Ds3231 × Bool :=
  if epoch < rtcMinPlausibleEpoch ∨ epoch > rtcMaxPlausibleEpoch then (rtc, false)
  else if !turn.acks 0 then ({ rtc with regs := turn.left }, false)
  else
    let rtc := { rtc with regs := rtcImage epoch }
    if turn.acks 1 && turn.acks 2 then
      ({ rtc with status := rtc.status &&& ~~~statusOsf, trusted := true }, true)
    else (rtc, false)

def rtcInit (rtc : Ds3231) (turn : I2cTurn) : Ds3231 × Bool :=
  if !turn.acks 0 then (rtc, false)
  else ({ rtc with trusted := (rtcGetTime rtc (turn.after 1)).isSome }, true)

example : rtcReading ⟨rtcImage 2147483647, 0, false⟩ = some 2147483647 := by decide

/-! ### What the time registers read as, before any check -/

section fields

variable (rtc : Ds3231)

def regSec : Nat := (bcdToBin (rtcReg rtc 0 &&& 0x7F)).toNat

def regMin : Nat := (bcdToBin (rtcReg rtc 1 &&& 0x7F)).toNat

def regHour : Nat := (bcdToBin (rtcReg rtc 2 &&& 0x3F)).toNat

def regDay : Nat := (bcdToBin (rtcReg rtc 4 &&& 0x3F)).toNat

def regMon : Nat := (bcdToBin (rtcReg rtc 5 &&& 0x1F)).toNat

def regYear : Int :=
  2000 + (bcdToBin (rtcReg rtc 6)).toNat + if rtcReg rtc 5 &&& 0x80 ≠ 0 then 100 else 0

/-- The checks that a reading passes, register by register. -/
structure FieldsInRange : Prop where
  mon_pos : 1 ≤ regMon rtc
  mon_le : regMon rtc ≤ 12
  day_pos : 1 ≤ regDay rtc
  day_le : regDay rtc ≤ 31
  hour_le : regHour rtc ≤ 23
  min_le : regMin rtc ≤ 59
  sec_le : regSec rtc ≤ 59

def regEpoch : Int :=
  daysFromCivil (regYear rtc) (regMon rtc) (regDay rtc) * 86400 + regHour rtc * 3600 +
    regMin rtc * 60 + regSec rtc

end fields

/-- What a set that reports success leaves, whatever the chip held before. -/
theorem rtcSetTime_ok {rtc : Ds3231} {epoch : Int} {turn : I2cTurn}
    (h : (rtcSetTime rtc epoch turn).2 = true) :
    rtcMinPlausibleEpoch ≤ epoch ∧ epoch ≤ rtcMaxPlausibleEpoch ∧
      (rtcSetTime rtc epoch turn).1 = ⟨rtcImage epoch, rtc.status &&& ~~~statusOsf, true⟩ := by
  unfold rtcSetTime at h ⊢
  split at h
  next => simp at h
  next hrange =>
    rw [if_neg hrange]
    split at h
    next => simp at h
    next hwrite =>
      rw [if_neg hwrite]
      dsimp only at h ⊢
      split at h
      next hstatus =>
        rw [if_pos hstatus]
        exact ⟨by omega, by omega, rfl⟩
      next => simp at h

/-- The six registers hold the image of an epoch; the weekday is not compared. -/
def HoldsImage (rtc : Ds3231) (epoch : Int) : Prop :=
  ∀ i, i ≠ 3 → rtcReg rtc i = (rtcImage epoch).get i

end GateAccess
