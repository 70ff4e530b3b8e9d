import Mathlib.Data.Int.Notation
import Mathlib.Data.Nat.Notation
import Mathlib.Tactic.Common
import PeerFleet.Time.Calendar

/-! # Dates and days

Every day has a date that exists, and the date tells the day. Days are counted in eras of 400
years that begin in March, so that a leap day is the last day of its year.
-/

namespace PeerFleet.Date

def daysBefore (yoe : ℤ) : ℤ :=
  yoe * 365 + yoe / 4 - yoe / 100

def ofMarch (year doy : ℤ) : Date :=
  let mp := (5 * doy + 2) / 153
  let month := if mp < 10 then mp + 3 else mp - 9
  ⟨year + (if month ≤ 2 then 1 else 0), month.toNat, (doy - (153 * mp + 2) / 5 + 1).toNat⟩

/-- A day of a year that begins in March, the last one only if there is a leap day. -/
structure InYear (year doy : ℤ) : Prop where
  nonneg : 0 ≤ doy
  le : doy ≤ 365
  leap : doy = 365 → isLeap (year + 1) = true

/-- A day of an era as a day of a year, by the centuries, the spans of four years and the years
that end before it. -/
theorem exists_parts {doe : ℤ} (h₀ : 0 ≤ doe) (h₁ : doe ≤ 146096) :
    ∃ c q r d : ℤ, doe = 36524 * c + 1461 * q + 365 * r + d ∧ (0 ≤ c ∧ c ≤ 3) ∧
      (0 ≤ q ∧ q ≤ 24) ∧ (0 ≤ r ∧ r ≤ 3) ∧ 0 ≤ d ∧
      (d ≤ 364 ∨ d = 365 ∧ r = 3 ∧ (q = 24 → c = 3)) := by
  obtain ⟨c, hc⟩ : ∃ c, c = min (doe / 36524) 3 := ⟨_, rfl⟩
  obtain ⟨q, hq⟩ : ∃ q, q = (doe - 36524 * c) / 1461 := ⟨_, rfl⟩
  obtain ⟨r, hr⟩ : ∃ r, r = min ((doe - 36524 * c) % 1461 / 365) 3 := ⟨_, rfl⟩
  refine ⟨c, q, r, doe - 36524 * c - 1461 * q - 365 * r, ?_⟩
  omega

theorem isLeap_iff {year : ℤ} :
    isLeap year = true ↔ year % 4 = 0 ∧ (year % 100 ≠ 0 ∨ year % 400 = 0) := by
  simp [isLeap]

section parts

variable {doe c q r d : ℤ}

/-- The year of an era is found from its days less the leap days before them. -/
theorem year_of_parts (h : doe = 36524 * c + 1461 * q + 365 * r + d) (hc : 0 ≤ c ∧ c ≤ 3)
    (hq : 0 ≤ q ∧ q ≤ 24) (hr : 0 ≤ r ∧ r ≤ 3) (hd : 0 ≤ d)
    (hlast : d ≤ 364 ∨ d = 365 ∧ r = 3 ∧ (q = 24 → c = 3)) :
    (doe - doe / 1460 + doe / 36524 - doe / 146096) / 365 = 100 * c + 4 * q + r := by
  have hleaps : (doe / 1460 = 25 * c + q ∧ d ≤ 364) ∨
      (doe / 1460 = 25 * c + q + 1 ∧ 1 ≤ d) := by
    subst h
    rcases hlast with hd' | ⟨rfl, rfl, hq'⟩ <;> omega
  have hcenturies : doe / 36524 - doe / 146096 = c := by
    by_cases he : doe = 146096
    · omega
    · have hrest : 1461 * q + 365 * r + d ≤ 36523 := by omega
      omega
  have hsum : doe - doe / 1460 + doe / 36524 - doe / 146096 = doe - doe / 1460 + c := by omega
  rw [hsum]
  rcases hleaps with ⟨hl, hd'⟩ | ⟨hl, hd'⟩ <;> rw [hl, h] <;> omega

theorem daysBefore_parts (hq : 0 ≤ q ∧ q ≤ 24) (hr : 0 ≤ r ∧ r ≤ 3) :
    daysBefore (100 * c + 4 * q + r) = 36524 * c + 1461 * q + 365 * r := by
  have hfours : (100 * c + 4 * q + r) / 4 = 25 * c + q := by omega
  have hcenturies : (100 * c + 4 * q + r) / 100 = c := by omega
  unfold daysBefore
  omega

theorem isLeap_of_parts {era : ℤ} (hq : 0 ≤ q ∧ q ≤ 24) (hr : r = 3) (hq' : q = 24 → c = 3) :
    isLeap (100 * c + 4 * q + r + era * 400 + 1) = true := by
  rw [isLeap_iff]
  refine ⟨by omega, ?_⟩
  by_cases h : q = 24
  · right
    omega
  · left
    omega

end parts

theorem exists_inYear (days : ℤ) : ∃ era yoe doy : ℤ, (0 ≤ yoe ∧ yoe ≤ 399) ∧
    InYear (yoe + era * 400) doy ∧ days = era * 146097 + daysBefore yoe + doy - 719468 ∧
    ofDays days = ofMarch (yoe + era * 400) doy := by
  obtain ⟨doe, hdoe⟩ : ∃ doe, doe = (days + 719468) % 146097 := ⟨_, rfl⟩
  have h₀ : 0 ≤ doe := by omega
  have h₁ : doe ≤ 146096 := by omega
  obtain ⟨c, q, r, d, hparts, hc, hq, hr, hd, hlast⟩ := exists_parts h₀ h₁
  have hyoe := year_of_parts hparts hc hq hr hd hlast
  have hdays : daysBefore (100 * c + 4 * q + r) = _ := daysBefore_parts hq hr
  refine ⟨(days + 719468) / 146097, 100 * c + 4 * q + r, d, by omega,
    ⟨hd, by omega, fun hd' => ?_⟩, by omega, ?_⟩
  · obtain ⟨hr', hq'⟩ : r = 3 ∧ (q = 24 → c = 3) := by omega
    exact isLeap_of_parts hq hr' hq'
  · have hdoy : doe - daysBefore (100 * c + 4 * q + r) = d := by omega
    unfold daysBefore at hdoy
    simp only [ofDays, ofMarch, ← hdoe, hyoe, Int.mul_comm 365, hdoy]

section ofMarch

variable {year doy : ℤ}

theorem month_cases (h : InYear year doy) :
    ∃ mp : ℤ, (5 * doy + 2) / 153 = mp ∧ (mp = 0 ∨ mp = 1 ∨ mp = 2 ∨ mp = 3 ∨ mp = 4 ∨ mp = 5 ∨
      mp = 6 ∨ mp = 7 ∨ mp = 8 ∨ mp = 9 ∨ mp = 10 ∨ mp = 11) := by
  have h₀ := h.nonneg
  have h₁ := h.le
  exact ⟨_, rfl, by omega⟩

theorem valid_ofMarch (h : InYear year doy) : (ofMarch year doy).valid = true := by
  have h₀ := h.nonneg
  have h₁ := h.le
  obtain ⟨mp, hmp, hcases⟩ := month_cases h
  simp only [ofMarch, hmp, valid]
  rcases hcases with rfl | rfl | rfl | rfl | rfl | rfl | rfl | rfl | rfl | rfl | rfl | rfl
  -- February, the last month of the year.
  on_goal 12 =>
    simp only [daysInMonth]
    by_cases hl : isLeap (year + 1)
    · simp [hl]
      omega
    · have hne : doy ≠ 365 := mt h.leap hl
      simp [hl]
      omega
  all_goals
    simp [daysInMonth]
    omega

theorem toDays_ofMarch {era yoe : ℤ} (hy : 0 ≤ yoe ∧ yoe ≤ 399)
    (h : InYear (yoe + era * 400) doy) :
    (ofMarch (yoe + era * 400) doy).toDays = era * 146097 + daysBefore yoe + doy - 719468 := by
  have h₀ := h.nonneg
  have h₁ := h.le
  obtain ⟨mp, hmp, hcases⟩ := month_cases h
  have hera : (yoe + era * 400) / 400 = era := by omega
  have hyoe : (yoe + era * 400) % 400 = yoe := by omega
  simp only [ofMarch, hmp, toDays, daysBefore]
  rcases hcases with rfl | rfl | rfl | rfl | rfl | rfl | rfl | rfl | rfl | rfl | rfl | rfl
  all_goals
    simp [hera, hyoe]
    omega

end ofMarch

theorem toDays_ofDays (days : ℤ) : (ofDays days).toDays = days := by
  obtain ⟨era, yoe, doy, hy, h, hdays, hof⟩ := exists_inYear days
  rw [hof, toDays_ofMarch hy h, hdays]

theorem valid_ofDays (days : ℤ) : (ofDays days).valid = true := by
  obtain ⟨era, yoe, doy, -, h, -, hof⟩ := exists_inYear days
  rw [hof, valid_ofMarch h]

theorem year_ofDays {days : ℤ} (h₀ : -96465292 ≤ days) (h₁ : days ≤ 95026236) :
    -262143 ≤ (ofDays days).year ∧ (ofDays days).year ≤ 262142 := by
  obtain ⟨era, yoe, doy, hy, h, hdays, hof⟩ := exists_inYear days
  have hdoy := h.nonneg
  have hdoy' := h.le
  obtain ⟨mp, hmp, -⟩ := month_cases h
  rw [hof]
  simp only [ofMarch, hmp]
  unfold daysBefore at hdays
  have hera : era = -656 ∨ (-655 ≤ era ∧ era ≤ 654) ∨ era = 655 := by omega
  rcases hera with rfl | hera | rfl
  · split_ifs <;> omega
  · split_ifs <;> omega
  · split_ifs <;> omega

end PeerFleet.Date
