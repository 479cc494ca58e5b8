import Mathlib.Logic.Function.Iterate
import Mathlib.Order.Monotone.Basic

namespace GateAccess

/-- A leap year of the proleptic Gregorian calendar. -/
def isLeap (y : Int) : Bool := y % 4 = 0 && (y % 100 ≠ 0 || y % 400 = 0)

def daysOfMonth (leap : Bool) (m : Nat) : Nat :=
  if m = 2 then (if leap then 29 else 28)
  else if m = 4 ∨ m = 6 ∨ m = 9 ∨ m = 11 then 30 else 31

def monthDays (y : Int) (m : Nat) : Nat := daysOfMonth (isLeap y) m

/-- A date that exists. -/
@[ext] structure CivilDate where
  year : Int
  month : Nat
  day : Nat
  month_pos : 1 ≤ month
  month_le : month ≤ 12
  day_pos : 1 ≤ day
  day_le : day ≤ monthDays year month
  deriving DecidableEq

theorem daysOfMonth_pos (leap : Bool) (m : Nat) : 1 ≤ daysOfMonth leap m := by
  unfold daysOfMonth
  split_ifs <;> decide

def CivilDate.next (d : CivilDate) : CivilDate :=
  if h : d.day < monthDays d.year d.month then
    ⟨d.year, d.month, d.day + 1, d.month_pos, d.month_le, Nat.le_add_left 1 d.day, h⟩
  else if hm : d.month < 12 then
    ⟨d.year, d.month + 1, 1, Nat.le_add_left 1 d.month, hm, Nat.le_refl 1, daysOfMonth_pos _ _⟩
  else ⟨d.year + 1, 1, 1, Nat.le_refl 1, by decide, Nat.le_refl 1, daysOfMonth_pos _ _⟩

/-- The days from 0000-03-01 to March the first of a year. -/
def marchStart (y : Int) : Int := 365 * y + y / 4 - y / 100 + y / 400

/-- The days since March the first, for a month and a day. -/
def marchDay (m d : Nat) : Nat := (153 * (if m > 2 then m - 3 else m + 9) + 2) / 5 + d - 1

/-- The month, and the day in it, that many days after March the first. -/
def marchMonth (doy : Nat) : Nat :=
  if (5 * doy + 2) / 153 < 10 then (5 * doy + 2) / 153 + 3 else (5 * doy + 2) / 153 - 9

def marchDom (doy : Nat) : Nat := doy - (153 * ((5 * doy + 2) / 153) + 2) / 5 + 1

/-- The year in which the last March the first lies. -/
def CivilDate.marchYear (d : CivilDate) : Int := if d.month ≤ 2 then d.year - 1 else d.year

def CivilDate.dayNumber (d : CivilDate) : Int := marchStart d.marchYear + marchDay d.month d.day

theorem isLeap_iff {y : Int} : isLeap y = true ↔ y % 4 = 0 ∧ (y % 100 ≠ 0 ∨ y % 400 = 0) := by
  simp [isLeap]

theorem marchStart_succ (y : Int) :
    marchStart (y + 1) = marchStart y + 365 + (isLeap (y + 1)).toNat := by
  unfold marchStart
  cases h : isLeap (y + 1) with
  | true =>
    have hleap := isLeap_iff.mp h
    rw [Bool.toNat_true]
    omega
  | false =>
    have hplain := isLeap_iff.not.mp (by rw [h]; decide)
    rw [Bool.toNat_false]
    omega

theorem marchStart_mono {y y' : Int} (h : y ≤ y') : marchStart y ≤ marchStart y' := by
  unfold marchStart
  omega

theorem marchDay_month_end : ∀ leap : Bool, ∀ m < 12, 1 ≤ m → m ≠ 2 →
    marchDay (m + 1) 1 = marchDay m (daysOfMonth leap m) + 1 := by decide

theorem marchDay_lt : ∀ leap : Bool, ∀ m < 13, 1 ≤ m → ∀ d < 32, d ≤ daysOfMonth leap m →
    marchDay m d < 365 + (decide (m ≤ 2) && leap).toNat := by decide

theorem marchDay_read : ∀ m < 13, ∀ d < 32, 1 ≤ m ∧ 1 ≤ d ∧ d ≤ daysOfMonth true m →
    marchMonth (marchDay m d) = m ∧ marchDom (marchDay m d) = d := by decide

theorem daysOfMonth_le (leap : Bool) (m : Nat) :
    daysOfMonth leap m ≤ daysOfMonth true m ∧ daysOfMonth leap m ≤ 31 := by
  have hfeb : (if leap then 29 else 28) ≤ 29 := by cases leap <;> decide
  unfold daysOfMonth
  simp only [if_true]
  split_ifs at hfeb ⊢ <;> omega

theorem CivilDate.day_lt (d : CivilDate) : d.day < 32 := by
  have hmonth := (daysOfMonth_le (isLeap d.year) d.month).2
  have hday := d.day_le
  unfold monthDays at hday
  omega

/-- A date is in the year that began at its last March the first. -/
theorem CivilDate.marchDay_lt (d : CivilDate) :
    marchStart d.marchYear + marchDay d.month d.day < marchStart (d.marchYear + 1) := by
  have hlt := GateAccess.marchDay_lt (isLeap d.year) d.month (Nat.lt_succ_of_le d.month_le) d.month_pos
    d.day d.day_lt d.day_le
  rw [marchStart_succ]
  by_cases hm : d.month ≤ 2
  · have hyear : d.marchYear + 1 = d.year := by
      rw [CivilDate.marchYear, if_pos hm]
      omega
    rw [hyear]
    simp only [hm, decide_true, Bool.true_and] at hlt
    omega
  · simp only [hm, decide_false, Bool.false_and, Bool.toNat_false] at hlt
    omega

theorem CivilDate.dayNumber_next (d : CivilDate) : d.next.dayNumber = d.dayNumber + 1 := by
  have hpos := d.day_pos
  unfold CivilDate.next
  by_cases h : d.day < monthDays d.year d.month
  · rw [dif_pos h]
    simp only [dayNumber, marchYear, marchDay]
    omega
  have hlast : d.day = monthDays d.year d.month := Nat.le_antisymm d.day_le (not_lt.mp h)
  rw [dif_neg h]
  by_cases hm : d.month < 12
  · rw [dif_pos hm]
    by_cases hfeb : d.month = 2
    · have hdays : d.day = 28 + (isLeap d.year).toNat := by
        rw [hlast, hfeb, monthDays]
        cases isLeap d.year <;> rfl
      have hstart := marchStart_succ (d.year - 1)
      rw [Int.sub_add_cancel] at hstart
      simp only [dayNumber, marchYear, marchDay, hfeb, hdays]
      simp
      omega
    · have hend := marchDay_month_end (isLeap d.year) d.month hm d.month_pos hfeb
      rw [← monthDays, ← hlast] at hend
      have hyear : (if d.month + 1 ≤ 2 then d.year - 1 else d.year) =
          if d.month ≤ 2 then d.year - 1 else d.year := by
        have hmonth := d.month_pos
        split_ifs <;> omega
      simp only [dayNumber, marchYear, hyear, hend]
      omega
  · rw [dif_neg hm]
    have hdec : d.month = 12 := Nat.le_antisymm d.month_le (not_lt.mp hm)
    have hdays : d.day = 31 := by
      rw [hlast, hdec]
      rfl
    simp only [dayNumber, marchYear, hdec, hdays]
    simp [marchDay]
    omega

theorem CivilDate.dayNumber_injective : Function.Injective CivilDate.dayNumber := by
  intro a b h
  have hyears : ∀ a b : CivilDate, a.dayNumber = b.dayNumber → ¬a.marchYear < b.marchYear := by
    intro a b h hlt
    have hend := a.marchDay_lt
    have hmono := marchStart_mono (Int.add_one_le_of_lt hlt)
    unfold dayNumber at h
    omega
  have hyear : a.marchYear = b.marchYear :=
    Int.le_antisymm (not_lt.mp (hyears b a h.symm)) (not_lt.mp (hyears a b h))
  have hday : marchDay a.month a.day = marchDay b.month b.day := by
    unfold dayNumber at h
    rw [hyear] at h
    omega
  have hread : ∀ d : CivilDate, marchMonth (marchDay d.month d.day) = d.month ∧
      marchDom (marchDay d.month d.day) = d.day := fun d =>
    marchDay_read d.month (Nat.lt_succ_of_le d.month_le) d.day d.day_lt
      ⟨d.month_pos, d.day_pos, d.day_le.trans (daysOfMonth_le _ _).1⟩
  have hmonth : a.month = b.month := by rw [← (hread a).1, hday, (hread b).1]
  refine CivilDate.ext ?_ hmonth ?_
  · unfold marchYear at hyear
    rw [hmonth] at hyear
    split_ifs at hyear
    · omega
    · exact hyear
  · rw [← (hread a).2, hday, (hread b).2]

theorem marchDom_valid : ∀ leap : Bool, ∀ doy < 365 + leap.toNat,
    (1 ≤ marchMonth doy ∧ marchMonth doy ≤ 12) ∧ 1 ≤ marchDom doy ∧
      marchDay (marchMonth doy) (marchDom doy) = doy ∧
      (∀ leap' : Bool, (marchMonth doy = 2 → leap' = leap) →
        marchDom doy ≤ daysOfMonth leap' (marchMonth doy)) := by decide +kernel

/-- The date that many days after March the first of a year, before the next March. -/
def CivilDate.ofMarch (y : Int) (doy : Nat) (h : doy < 365 + (isLeap (y + 1)).toNat) :
    CivilDate where
  year := if marchMonth doy ≤ 2 then y + 1 else y
  month := marchMonth doy
  day := marchDom doy
  month_pos := (marchDom_valid _ doy h).1.1
  month_le := (marchDom_valid _ doy h).1.2
  day_pos := (marchDom_valid _ doy h).2.1
  day_le := by
    refine (marchDom_valid _ doy h).2.2.2 _ fun hfeb => ?_
    rw [if_pos (by omega)]

theorem CivilDate.ofMarch_dayNumber {y : Int} {doy : Nat}
    (h : doy < 365 + (isLeap (y + 1)).toNat) :
    (CivilDate.ofMarch y doy h).dayNumber = marchStart y + doy := by
  have hyear : (CivilDate.ofMarch y doy h).marchYear = y := by
    unfold marchYear ofMarch
    dsimp only
    split_ifs
    · exact Int.add_sub_cancel y 1
    · rfl
  rw [dayNumber, hyear]
  exact congrArg (fun n : Nat => marchStart y + n) (marchDom_valid _ doy h).2.2.1

/-- One date is `n` days after another exactly when their numbers differ by `n`. -/
theorem CivilDate.next_iterate_iff {a b : CivilDate} {n : Nat} :
    CivilDate.next^[n] a = b ↔ b.dayNumber = a.dayNumber + n := by
  have hcount : (CivilDate.next^[n] a).dayNumber = a.dayNumber + n := by
    induction n with
    | zero => simp
    | succ n ih =>
      rw [Function.iterate_succ_apply', dayNumber_next, ih]
      omega
  rw [← hcount]
  exact ⟨fun h => h ▸ rfl, fun h => dayNumber_injective h.symm⟩

end GateAccess
