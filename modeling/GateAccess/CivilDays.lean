import GateAccess.Calendar
import GateAccess.RtcDs3231

namespace GateAccess

/-- The days from the start of an era to the start of its year `k`. -/
def yearStart (k : Nat) : Nat := 365 * k + k / 4 - k / 100 + k / 400

/-- A day of an era, the leap days before it taken out. -/
def plainDay (doe : Nat) : Nat := doe - doe / 1460 + doe / 36524 - doe / 146096

theorem plainDay_mono : Monotone plainDay := by
  refine monotone_nat_of_le_succ fun doe => ?_
  unfold plainDay
  omega

theorem plainDay_edges : ∀ k < 400, 365 * k ≤ plainDay (yearStart k) ∧
    plainDay (yearStart (k + 1) - 1) < 365 * (k + 1) := by decide +kernel

theorem exists_yearStart {n doe : Nat} (h : doe < yearStart n) :
    ∃ k < n, yearStart k ≤ doe ∧ doe < yearStart (k + 1) := by
  induction n with
  | zero => exact absurd h (Nat.not_lt_zero doe)
  | succ n ih =>
    by_cases hn : doe < yearStart n
    · obtain ⟨k, hk, hspan⟩ := ih hn
      exact ⟨k, Nat.lt_succ_of_lt hk, hspan⟩
    · exact ⟨n, Nat.lt_succ_self n, not_lt.mp hn, h⟩

/-- The year of the era in which a day lies, as the calendar arithmetic reads it off. -/
theorem plainDay_year {doe : Nat} (h : doe < 146097) :
    plainDay doe / 365 < 400 ∧ yearStart (plainDay doe / 365) ≤ doe ∧
      doe < yearStart (plainDay doe / 365 + 1) := by
  obtain ⟨k, hk, hstart, hend⟩ := exists_yearStart (n := 400) h
  have hedge := plainDay_edges k hk
  have hlow := plainDay_mono hstart
  have hhigh := plainDay_mono (Nat.le_sub_one_of_lt hend)
  have hyear : plainDay doe / 365 = k := by omega
  rw [hyear]
  exact ⟨hk, hstart, hend⟩

theorem marchStart_era (era : Int) (k : Nat) :
    marchStart (k + era * 400) = era * 146097 + yearStart k := by
  unfold marchStart yearStart
  omega

theorem daysFromCivil_eq (y : Int) {m d : Nat} :
    daysFromCivil y m d = marchStart (if m ≤ 2 then y - 1 else y) + marchDay m d - 719468 := by
  have hera : ∀ y : Int, (if y ≥ 0 then y else y - 399).tdiv 400 = y / 400 := by
    intro y
    split_ifs with hy
    · exact Int.tdiv_eq_ediv_of_nonneg hy
    · rw [← Int.neg_neg (y - 399), Int.neg_tdiv, Int.tdiv_eq_ediv_of_nonneg (by omega)]
      omega
  unfold daysFromCivil
  simp only [hera]
  generalize (if m ≤ 2 then y - 1 else y) = y
  unfold marchStart marchDay
  omega

/-- `days_from_civil` counts the days of the calendar from 1970-01-01. -/
theorem CivilDate.daysFromCivil_eq (d : CivilDate) :
    daysFromCivil d.year d.month d.day = d.dayNumber - 719468 :=
  GateAccess.daysFromCivil_eq d.year

/-- `gmtime_r` gives the civil date of a moment. -/
theorem gmtimeR_date (epoch : Int) : ∃ d : CivilDate, (gmtimeR epoch).year + 1900 = d.year ∧
    (gmtimeR epoch).mon + 1 = d.month ∧ (gmtimeR epoch).mday = d.day ∧
    d.dayNumber = epoch / 86400 + 719468 := by
  have hdoe : ((epoch / 86400 + 719468) % 146097).toNat < 146097 := by omega
  obtain ⟨hk, hstart, hend⟩ := plainDay_year hdoe
  have hday : epoch / 86400 + 719468 = (epoch / 86400 + 719468) / 146097 * 146097 +
      ((epoch / 86400 + 719468) % 146097).toNat := by omega
  unfold gmtimeR
  dsimp only
  rw [← plainDay]
  generalize (epoch / 86400 + 719468) / 146097 = era at hday ⊢
  generalize ((epoch / 86400 + 719468) % 146097).toNat = doe at *
  generalize plainDay doe / 365 = k at *
  have hyear : 365 * k + k / 4 - k / 100 = yearStart k := by
    unfold yearStart
    omega
  have hspan : doe - yearStart k < 365 + (isLeap (k + era * 400 + 1)).toNat := by
    have hsucc := marchStart_succ (k + era * 400)
    have hnext := marchStart_era era (k + 1)
    rw [Int.natCast_add, Int.natCast_one, Int.add_right_comm] at hnext
    rw [hnext, marchStart_era] at hsucc
    omega
  rw [hyear]
  refine ⟨CivilDate.ofMarch _ _ hspan, ?_, ?_, rfl, ?_⟩
  · simp only [CivilDate.ofMarch, marchMonth]
    split_ifs <;> omega
  · simp only [CivilDate.ofMarch, marchMonth]
    split_ifs <;> omega
  · rw [CivilDate.ofMarch_dayNumber, marchStart_era]
    omega

end GateAccess
