import GateAccess.CivilDays
import Mathlib.Data.Fintype.Basic
import Mathlib.Tactic.FinCases

namespace GateAccess

theorem rtcReading_eq_some {rtc : Ds3231} {epoch : Int} : rtcReading rtc = some epoch ↔
    rtc.status &&& statusOsf = 0 ∧ FieldsInRange rtc ∧
      (rtcMinPlausibleEpoch ≤ epoch ∧ epoch ≤ rtcMaxPlausibleEpoch) ∧ regEpoch rtc = epoch := by
  have hrange : ¬(bcdToBin (rtcReg rtc 5 &&& 0x1F) < 1 ∨ bcdToBin (rtcReg rtc 5 &&& 0x1F) > 12 ∨
      bcdToBin (rtcReg rtc 4 &&& 0x3F) < 1 ∨ bcdToBin (rtcReg rtc 4 &&& 0x3F) > 31 ∨
      bcdToBin (rtcReg rtc 2 &&& 0x3F) > 23 ∨ bcdToBin (rtcReg rtc 1 &&& 0x7F) > 59 ∨
      bcdToBin (rtcReg rtc 0 &&& 0x7F) > 59) ↔ FieldsInRange rtc := by
    simp only [gt_iff_lt, UInt8.lt_iff_toNat_lt, not_or, not_lt]
    exact ⟨fun ⟨a, b, c, d, e, f, g⟩ => ⟨a, b, c, d, e, f, g⟩,
      fun ⟨a, b, c, d, e, f, g⟩ => ⟨a, b, c, d, e, f, g⟩⟩
  unfold rtcReading
  dsimp only
  rw [Option.ite_none_left_eq_some, Option.ite_none_left_eq_some, hrange,
    Option.ite_none_left_eq_some, not_not, Option.some.injEq, ← regYear, ← regMon, ← regDay,
    ← regHour, ← regMin, ← regSec, ← regEpoch]
  refine and_congr_right fun _ => and_congr_right fun _ => and_congr_left fun h => ?_
  rw [h]
  omega

/-! ### The calendar fields of an epoch -/

theorem gmtimeR_bounds (epoch : Int) : (gmtimeR epoch).sec ≤ 59 ∧ (gmtimeR epoch).min ≤ 59 ∧
    (gmtimeR epoch).hour ≤ 23 ∧
    ((gmtimeR epoch).hour * 3600 + (gmtimeR epoch).min * 60 + (gmtimeR epoch).sec : Int) =
      epoch % 86400 := by
  simp only [gmtimeR]
  omega

/-- `days_from_civil` and the time of day bring the fields of an epoch back to it. -/
theorem gmtimeR_epoch (epoch : Int) :
    daysFromCivil ((gmtimeR epoch).year + 1900) ((gmtimeR epoch).mon + 1) (gmtimeR epoch).mday *
      86400 + (gmtimeR epoch).hour * 3600 + (gmtimeR epoch).min * 60 + (gmtimeR epoch).sec =
    epoch := by
  obtain ⟨d, hyear, hmon, hday, hnum⟩ := gmtimeR_date epoch
  have hclock := (gmtimeR_bounds epoch).2.2.2
  rw [hyear, hmon, hday, d.daysFromCivil_eq, hnum]
  omega

/-- The fields of an epoch that was put together from a date and a time of day. -/
theorem gmtimeR_of_date (d : CivilDate) {h m s : Nat} (hh : h ≤ 23) (hm : m ≤ 59) (hs : s ≤ 59) :
    let t := gmtimeR (daysFromCivil d.year d.month d.day * 86400 + h * 3600 + m * 60 + s)
    t.year + 1900 = d.year ∧ t.mon + 1 = d.month ∧ t.mday = d.day ∧
      t.hour = h ∧ t.min = m ∧ t.sec = s := by
  intro t
  obtain ⟨d', hyear, hmon, hday, hnum⟩ :=
    gmtimeR_date (daysFromCivil d.year d.month d.day * 86400 + h * 3600 + m * 60 + s)
  have hsame : d' = d := by
    apply CivilDate.dayNumber_injective
    rw [hnum, d.daysFromCivil_eq]
    omega
  rw [hsame] at hyear hmon hday
  refine ⟨hyear, hmon, hday, ?_⟩
  simp only [t, gmtimeR]
  omega

/-- In the plausible range the century bit stays clear. -/
theorem gmtimeR_year {epoch : Int} (hlo : rtcMinPlausibleEpoch ≤ epoch)
    (hhi : epoch ≤ rtcMaxPlausibleEpoch) :
    100 ≤ (gmtimeR epoch).year ∧ (gmtimeR epoch).year < 200 := by
  obtain ⟨d, hyear, _, _, hnum⟩ := gmtimeR_date epoch
  have hlast := d.marchDay_lt
  have hmarch : d.year = d.marchYear ∨ d.year = d.marchYear + 1 := by
    unfold CivilDate.marchYear
    split_ifs
    · exact Or.inr (Int.sub_add_cancel _ 1).symm
    · exact Or.inl rfl
  unfold rtcMinPlausibleEpoch at hlo
  unfold rtcMaxPlausibleEpoch at hhi
  unfold CivilDate.dayNumber at hnum
  unfold marchStart at hlast hnum
  omega

/-! ### Binary-coded decimal -/

theorem bcdToBin_binToBcd : ∀ n < 100, (bcdToBin (binToBcd (UInt8.ofNat n))).toNat = n := by
  decide +kernel

theorem binToBcd_mask : ∀ n < 80, binToBcd (UInt8.ofNat n) &&& 0x7F = binToBcd (UInt8.ofNat n) ∧
    (n < 40 → binToBcd (UInt8.ofNat n) &&& 0x3F = binToBcd (UInt8.ofNat n)) ∧
    (n < 20 → binToBcd (UInt8.ofNat n) &&& 0x1F = binToBcd (UInt8.ofNat n) ∧
      binToBcd (UInt8.ofNat n) &&& 0x80 = 0) := by decide +kernel

/-- A register is what the driver would write for the number it reads there exactly when its low
digit is decimal and the bits that the reading masks off are clear. -/
theorem binToBcd_read (v : UInt8) :
    (binToBcd (bcdToBin (v &&& 0x7F)) = v ↔ v &&& 0x0F ≤ 9 ∧ v &&& 0x80 = 0) ∧
    (binToBcd (bcdToBin (v &&& 0x3F)) = v ↔ v &&& 0x0F ≤ 9 ∧ v &&& 0xC0 = 0) ∧
    (v &&& 0x80 = 0 →
      (binToBcd (bcdToBin (v &&& 0x1F)) = v ↔ v &&& 0x0F ≤ 9 ∧ v &&& 0x60 = 0)) ∧
    (binToBcd (bcdToBin v) = v ↔ v &&& 0x0F ≤ 9) := by
  have hall : ∀ n < 256, ∀ v, v = UInt8.ofNat n →
      (binToBcd (bcdToBin (v &&& 0x7F)) = v ↔ v &&& 0x0F ≤ 9 ∧ v &&& 0x80 = 0) ∧
      (binToBcd (bcdToBin (v &&& 0x3F)) = v ↔ v &&& 0x0F ≤ 9 ∧ v &&& 0xC0 = 0) ∧
      (v &&& 0x80 = 0 →
        (binToBcd (bcdToBin (v &&& 0x1F)) = v ↔ v &&& 0x0F ≤ 9 ∧ v &&& 0x60 = 0)) ∧
      (binToBcd (bcdToBin v) = v ↔ v &&& 0x0F ≤ 9) := by
    simp only [forall_eq]
    decide +kernel
  exact hall v.toNat v.toNat_lt v UInt8.ofNat_toNat.symm

/-! ### The image that a set writes -/

/-- Within the plausible range the registers hold the six fields and no century bit. -/
theorem rtcImage_get {epoch : Int} (hlo : rtcMinPlausibleEpoch ≤ epoch)
    (hhi : epoch ≤ rtcMaxPlausibleEpoch) :
    (rtcImage epoch).get 0 = binToBcd (UInt8.ofNat (gmtimeR epoch).sec) ∧
    (rtcImage epoch).get 1 = binToBcd (UInt8.ofNat (gmtimeR epoch).min) ∧
    (rtcImage epoch).get 2 = binToBcd (UInt8.ofNat (gmtimeR epoch).hour) ∧
    (rtcImage epoch).get 4 = binToBcd (UInt8.ofNat (gmtimeR epoch).mday) ∧
    (rtcImage epoch).get 5 = binToBcd (UInt8.ofNat ((gmtimeR epoch).mon + 1)) ∧
    (rtcImage epoch).get 6 = binToBcd (UInt8.ofNat ((gmtimeR epoch).year - 100).toNat) := by
  obtain ⟨hyear, hyear'⟩ := gmtimeR_year hlo hhi
  have hcent : (if (gmtimeR epoch).year ≥ 200 then (0x80 : UInt8) else 0) = 0 :=
    if_neg (not_le.mpr hyear')
  have hmod : UInt8.ofInt ((gmtimeR epoch).year.tmod 100) =
      UInt8.ofNat ((gmtimeR epoch).year - 100).toNat := by
    unfold UInt8.ofInt
    rw [Int.tmod_eq_emod_of_nonneg (by omega)]
    congr 1
    omega
  refine ⟨rfl, rfl, rfl, rfl, ?_, ?_⟩
  · change binToBcd _ ||| _ = _
    rw [hcent, UInt8.or_zero]
  · change binToBcd _ = _
    rw [hmod]

theorem forall_time_reg {p : Fin 7 → Prop} :
    (∀ i, i ≠ 3 → p i) ↔ p 0 ∧ p 1 ∧ p 2 ∧ p 4 ∧ p 5 ∧ p 6 := by
  constructor
  · intro h
    exact ⟨h 0 (by decide), h 1 (by decide), h 2 (by decide), h 4 (by decide), h 5 (by decide),
      h 6 (by decide)⟩
  · rintro ⟨h0, h1, h2, h4, h5, h6⟩ i hi
    fin_cases i
    · exact h0
    · exact h1
    · exact h2
    · exact absurd rfl hi
    · exact h4
    · exact h5
    · exact h6

/-- The registers read as the fields of an epoch. -/
structure ReadsAs (rtc : Ds3231) (epoch : Int) : Prop where
  sec : regSec rtc = (gmtimeR epoch).sec
  min : regMin rtc = (gmtimeR epoch).min
  hour : regHour rtc = (gmtimeR epoch).hour
  day : regDay rtc = (gmtimeR epoch).mday
  mon : regMon rtc = (gmtimeR epoch).mon + 1
  year : regYear rtc = (gmtimeR epoch).year + 1900

theorem readsAs_of_holdsImage {rtc : Ds3231} {epoch : Int} (hlo : rtcMinPlausibleEpoch ≤ epoch)
    (hhi : epoch ≤ rtcMaxPlausibleEpoch) (h : HoldsImage rtc epoch) : ReadsAs rtc epoch := by
  obtain ⟨h0, h1, h2, h4, h5, h6⟩ := forall_time_reg.mp h
  obtain ⟨i0, i1, i2, i4, i5, i6⟩ := rtcImage_get hlo hhi
  obtain ⟨hsec, hmin, hhour, _⟩ := gmtimeR_bounds epoch
  obtain ⟨hyear, hyear'⟩ := gmtimeR_year hlo hhi
  obtain ⟨d, _, hmon, hday, _⟩ := gmtimeR_date epoch
  have hmonth := d.month_le
  have hdom := d.day_lt
  constructor
  · rw [regSec, h0, i0, (binToBcd_mask _ (by omega)).1, bcdToBin_binToBcd _ (by omega)]
  · rw [regMin, h1, i1, (binToBcd_mask _ (by omega)).1, bcdToBin_binToBcd _ (by omega)]
  · rw [regHour, h2, i2, (binToBcd_mask _ (by omega)).2.1 (by omega),
      bcdToBin_binToBcd _ (by omega)]
  · rw [regDay, h4, i4, (binToBcd_mask _ (by omega)).2.1 (by omega),
      bcdToBin_binToBcd _ (by omega)]
  · rw [regMon, h5, i5, ((binToBcd_mask _ (by omega)).2.2 (by omega)).1,
      bcdToBin_binToBcd _ (by omega)]
  · rw [regYear, h5, i5, h6, i6, ((binToBcd_mask _ (by omega)).2.2 (by omega)).2,
      bcdToBin_binToBcd _ (by omega), if_neg (not_not.mpr rfl)]
    omega

/-- A set that is acknowledged leaves the image of the epoch, whatever the chip held before. -/
theorem rtcSetTime_regs {rtc : Ds3231} {epoch : Int} {turn : I2cTurn}
    (hlo : rtcMinPlausibleEpoch ≤ epoch) (hhi : epoch ≤ rtcMaxPlausibleEpoch)
    (hack : turn.acks 0 = true) : (rtcSetTime rtc epoch turn).1.regs = rtcImage epoch := by
  unfold rtcSetTime
  rw [if_neg (by omega), if_neg (by simp [hack])]
  dsimp only
  split_ifs <;> rfl

/-- **RTC time round-trips.** An epoch in the plausible range that is set is the epoch that is
read back, and `days_from_civil` counts the days of the proleptic Gregorian calendar from
1970-01-01: one date is `n` days after another exactly when its number is `n` larger. -/
theorem rtc_round_trip :
    (∀ (rtc : Ds3231) (epoch : Int) (set get : I2cTurn),
      rtcMinPlausibleEpoch ≤ epoch → epoch ≤ rtcMaxPlausibleEpoch →
      (∀ n, set.acks n = true) → (∀ n, get.acks n = true) →
      (rtcSetTime rtc epoch set).2 = true ∧
        rtcGetTime (rtcSetTime rtc epoch set).1 get = some epoch) ∧
    daysFromCivil 1970 1 1 = 0 ∧
    ∀ (a b : CivilDate) (n : Nat), CivilDate.next^[n] a = b ↔
      daysFromCivil b.year b.month b.day = daysFromCivil a.year a.month a.day + n := by
  refine ⟨?_, by decide, ?_⟩
  · intro rtc epoch set get hlo hhi hset hget
    have hok : (rtcSetTime rtc epoch set).2 = true := by
      unfold rtcSetTime
      rw [if_neg (by omega), if_neg (by simp [hset])]
      dsimp only
      rw [hset, hset, if_pos (by decide)]
    refine ⟨hok, ?_⟩
    have hleft := (rtcSetTime_ok hok).2.2
    have hread : ReadsAs (rtcSetTime rtc epoch set).1 epoch := by
      refine readsAs_of_holdsImage hlo hhi fun i _ => ?_
      rw [hleft, rtcReg]
    rw [rtcGetTime, hget, hget, if_pos (by decide), rtcReading_eq_some]
    obtain ⟨hsec, hmin, hhour, _⟩ := gmtimeR_bounds epoch
    obtain ⟨d, _, hmon, hday, _⟩ := gmtimeR_date epoch
    have hmonth := d.month_le
    have hdom := d.day_lt
    have hdom' := d.day_pos
    refine ⟨?_, ⟨?_, ?_, ?_, ?_, ?_, ?_, ?_⟩, ⟨hlo, hhi⟩, ?_⟩
    · have hclear : ~~~statusOsf &&& statusOsf = 0 := by decide
      rw [hleft, UInt8.and_assoc, hclear, UInt8.and_zero]
    · rw [hread.mon]
      omega
    · rw [hread.mon]
      omega
    · rw [hread.day]
      omega
    · rw [hread.day]
      omega
    · rw [hread.hour]
      exact hhour
    · rw [hread.min]
      exact hmin
    · rw [hread.sec]
      exact hsec
    · rw [regEpoch, hread.sec, hread.min, hread.hour, hread.day, hread.mon, hread.year]
      exact gmtimeR_epoch epoch
  · intro a b n
    rw [CivilDate.next_iterate_iff, a.daysFromCivil_eq, b.daysFromCivil_eq]
    omega

/-! ### Which register images name an instant -/

/-- The bits of each register that the reading masks off. -/
def unreadBits : Bytes 7 := ⟨[0x80, 0x80, 0xC0, 0, 0xC0, 0x60, 0], rfl⟩

/-- The registers spell an instant in 24-hour time: decimal low digits, nothing in the bits that
are not read, a day that its month has. -/
structure RealInstant (rtc : Ds3231) : Prop where
  decimal : ∀ i, i ≠ 3 → rtcReg rtc i &&& 0x0F ≤ 9
  unread : ∀ i, i ≠ 3 → rtcReg rtc i &&& unreadBits.get i = 0
  day_le : regDay rtc ≤ monthDays (regYear rtc) (regMon rtc)

/-- An accepted reading whose date exists has the fields of the epoch it is read as. -/
theorem readsAs_of_date {rtc : Ds3231} {epoch : Int} (h : rtcReading rtc = some epoch)
    (hdate : regDay rtc ≤ monthDays (regYear rtc) (regMon rtc)) : ReadsAs rtc epoch := by
  obtain ⟨_, hf, _, hepoch⟩ := rtcReading_eq_some.mp h
  obtain ⟨hyear, hmon, hday, hhour, hmin, hsec⟩ :=
    gmtimeR_of_date ⟨regYear rtc, regMon rtc, regDay rtc, hf.mon_pos, hf.mon_le, hf.day_pos, hdate⟩
      hf.hour_le hf.min_le hf.sec_le
  rw [← regEpoch, hepoch] at hyear hmon hday hhour hmin hsec
  exact ⟨hsec.symm, hmin.symm, hhour.symm, hday.symm, hmon.symm, hyear.symm⟩

/-- Where the fields agree, the registers do exactly when they hold nothing but those fields. -/
theorem holdsImage_iff_of_readsAs {rtc : Ds3231} {epoch : Int}
    (hlo : rtcMinPlausibleEpoch ≤ epoch) (hhi : epoch ≤ rtcMaxPlausibleEpoch)
    (h : ReadsAs rtc epoch) : HoldsImage rtc epoch ↔
      ∀ i, i ≠ 3 → rtcReg rtc i &&& 0x0F ≤ 9 ∧ rtcReg rtc i &&& unreadBits.get i = 0 := by
  obtain ⟨i0, i1, i2, i4, i5, i6⟩ := rtcImage_get hlo hhi
  obtain ⟨_, hyear'⟩ := gmtimeR_year hlo hhi
  have hyear := h.year
  have hcent : rtcReg rtc 5 &&& 0x80 = 0 := by
    by_contra hset
    rw [regYear, if_pos hset] at hyear
    omega
  have hyy : ((gmtimeR epoch).year - 100).toNat = (bcdToBin (rtcReg rtc 6)).toNat := by
    rw [regYear, if_neg (not_not.mpr hcent)] at hyear
    omega
  rw [HoldsImage, forall_time_reg, forall_time_reg, i0, i1, i2, i4, i5, i6, ← h.sec, ← h.min,
    ← h.hour, ← h.day, ← h.mon, hyy, regSec, regMin, regHour, regDay, regMon]
  simp only [UInt8.ofNat_toNat]
  have hread := fun i => binToBcd_read (rtcReg rtc i)
  refine and_congr ?_ (and_congr ?_ (and_congr ?_ (and_congr ?_ (and_congr ?_ ?_))))
  · rw [eq_comm]
    exact (hread 0).1
  · rw [eq_comm]
    exact (hread 1).1
  · rw [eq_comm]
    exact (hread 2).2.1
  · rw [eq_comm]
    exact (hread 4).2.1
  · rw [eq_comm]
    exact (hread 5).2.2.1 hcent
  · rw [eq_comm, (hread 6).2.2.2]
    exact ⟨fun hlow => ⟨hlow, UInt8.and_zero⟩, And.left⟩

/-- **Only a spelled-out instant reads back as itself.** An accepted reading that is set again
leaves the same registers, the weekday aside, exactly when the digits were decimal, the bits that
the reading masks off were clear and the date exists. -/
theorem rtc_accepted_iff_real {rtc : Ds3231} {epoch : Int} {get set : I2cTurn}
    (hget : rtcGetTime rtc get = some epoch) (hset : set.acks 0 = true) :
    (∀ i, i ≠ 3 → rtcReg (rtcSetTime rtc epoch set).1 i = rtcReg rtc i) ↔ RealInstant rtc := by
  have h : rtcReading rtc = some epoch := by
    unfold rtcGetTime at hget
    split at hget
    next => exact hget
    next => simp at hget
  obtain ⟨_, _, ⟨hlo, hhi⟩, _⟩ := rtcReading_eq_some.mp h
  have hsame : (∀ i, i ≠ 3 → rtcReg (rtcSetTime rtc epoch set).1 i = rtcReg rtc i) ↔
      HoldsImage rtc epoch := by
    refine forall_congr' fun i => imp_congr_right fun _ => ?_
    rw [eq_comm, rtcReg, rtcReg, rtcSetTime_regs hlo hhi hset]
  rw [hsame]
  constructor
  · intro himage
    have hread := readsAs_of_holdsImage hlo hhi himage
    have hboth := (holdsImage_iff_of_readsAs hlo hhi hread).mp himage
    refine ⟨fun i hi => (hboth i hi).1, fun i hi => (hboth i hi).2, ?_⟩
    obtain ⟨d, hyear, hmon, hday, _⟩ := gmtimeR_date epoch
    rw [hread.day, hread.mon, hread.year, hyear, hmon, hday]
    exact d.day_le
  · intro hreal
    exact (holdsImage_iff_of_readsAs hlo hhi (readsAs_of_date h hreal.day_le)).mpr
      fun i hi => ⟨hreal.decimal i hi, hreal.unread i hi⟩

theorem rtc_accepted_iff_real_2030 :
    (∀ i, i ≠ 3 → rtcReg (rtcSetTime ⟨rtcImage 1893456020, 0, true⟩ 1893456020
        ⟨fun _ => true, zeros 7⟩).1 i =
      rtcReg ⟨rtcImage 1893456020, 0, true⟩ i) ↔
    RealInstant ⟨rtcImage 1893456020, 0, true⟩ := by
  have hget : rtcGetTime ⟨rtcImage 1893456020, 0, true⟩ ⟨fun _ => true, zeros 7⟩ =
    some 1893456020 := by decide
  exact rtc_accepted_iff_real hget rfl

/-- Seconds `0x1A` are accepted as twenty, which a set spells `0x20`. -/
theorem rtc_accepts_nonsense : ¬∀ (rtc : Ds3231) (epoch : Int) (get set : I2cTurn),
    rtcGetTime rtc get = some epoch → (∀ n, set.acks n = true) →
      ∀ i, i ≠ 3 → rtcReg (rtcSetTime rtc epoch set).1 i = rtcReg rtc i := by
  intro hclaim
  have hsame := hclaim ⟨⟨[0x1A, 0x00, 0x00, 0x03, 0x01, 0x01, 0x30], rfl⟩, 0, true⟩ 1893456020
    ⟨fun _ => true, zeros 7⟩ ⟨fun _ => true, zeros 7⟩ (by decide) (fun _ => rfl) 0 (by decide)
  exact absurd hsame (by decide)

end GateAccess
