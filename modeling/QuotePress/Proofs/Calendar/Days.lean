import QuotePress.Calendar.Date
import Mathlib.Tactic.IntervalCases

/-! # Day numbers name dates

The date of a day number is the date that has it. Years are counted from March, so that the leap
day is the last of its year, its century and its era of four hundred years. -/
namespace QuotePress

theorem year_of_era {century four year day dayOfEra : Int} (hcentury : 0 ≤ century ∧ century ≤ 3)
    (hfour : 0 ≤ four ∧ four ≤ 24) (hyear : 0 ≤ year ∧ year ≤ 3) (hday : 0 ≤ day ∧ day ≤ 365)
    (hleap : day = 365 → year = 3 ∧ (four ≠ 24 ∨ century = 3))
    (h : dayOfEra = 36524 * century + 1461 * four + 365 * year + day) :
    (dayOfEra - dayOfEra / 1460 + dayOfEra / 36524 - dayOfEra / 146096) / 365 =
      100 * century + 4 * four + year := by
  have hlast : dayOfEra / 146096 = if dayOfEra = 146096 then 1 else 0 := by
    split <;> omega
  have hcenturies : dayOfEra / 36524 = century + if dayOfEra = 146096 then 1 else 0 := by
    split <;> omega
  have hlow : 365 * (100 * century + 4 * four + year) ≤
      dayOfEra - dayOfEra / 1460 + dayOfEra / 36524 - dayOfEra / 146096 := by
    rw [hlast, hcenturies]
    omega
  have hhigh : dayOfEra - dayOfEra / 1460 + dayOfEra / 36524 - dayOfEra / 146096 <
      365 * (100 * century + 4 * four + year + 1) := by
    rw [hlast, hcenturies]
    omega
  omega

namespace Date

theorem february_le (year : Int) : daysInMonth year 2 ≤ 29 := by
  rw [daysInMonth, if_pos rfl]
  split <;> decide

theorem daysInMonth_le (year : Int) {month : Nat} (h : 1 ≤ month ∧ month ≤ 12) :
    (daysInMonth year month : Int) ≤
      daysBefore (((month : Int) + 9) % 12 + 1) - daysBefore (((month : Int) + 9) % 12) := by
  obtain ⟨hlow, hhigh⟩ := h
  by_cases hfebruary : month = 2
  · subst hfebruary
    have hshort :
        daysBefore (((2 : Nat) + 9) % 12 + 1) - daysBefore (((2 : Nat) + 9) % 12) = 30 := by
      decide
    have := february_le year
    omega
  · rw [daysInMonth, if_neg hfebruary]
    interval_cases month <;> simp [daysBefore] at hfebruary ⊢

theorem daysInMonth_le_31 (year : Int) (month : Nat) : daysInMonth year month ≤ 31 := by
  rw [daysInMonth]
  split
  · split <;> decide
  · split
    · decide
    · split <;> decide

theorem year_mem (d : Date) : minYear ≤ d.year ∧ d.year ≤ maxYear := by
  have hvalid := d.valid
  simp only [isDate, Bool.and_eq_true, decide_eq_true_eq] at hvalid
  exact hvalid.1.1

theorem month_mem (d : Date) : 1 ≤ d.month ∧ d.month ≤ 12 := by
  have hvalid := d.valid
  simp only [isDate, Bool.and_eq_true, decide_eq_true_eq] at hvalid
  obtain ⟨⟨-, hday⟩, hlast⟩ := hvalid
  by_contra hmonth
  have : daysInMonth d.year d.month = 0 := by
    rw [daysInMonth, if_neg (by omega), if_neg (by omega), if_neg (by omega)]
  omega

theorem day_mem (d : Date) : 1 ≤ d.day ∧ d.day ≤ daysInMonth d.year d.month := by
  have hvalid := d.valid
  simp only [isDate, Bool.and_eq_true, decide_eq_true_eq] at hvalid
  exact ⟨hvalid.1.2, hvalid.2⟩

structure FromMarch (d : Date) (year month : Int) : Prop where
  isMonth : 0 ≤ month ∧ month ≤ 11
  number : d.toDayNumber =
    365 * year + year / 4 - year / 100 + year / 400 + daysBefore month + d.day - 1
  sameYear : d.year = if month < 10 then year else year + 1
  sameMonth : (d.month : Int) = (month + 2) % 12 + 1
  isDay : 1 ≤ (d.day : Int) ∧ (d.day : Int) ≤ daysBefore (month + 1) - daysBefore month
  leapDay : month = 11 → d.day ≤ 29 ∧ (d.day = 29 → isLeapYear (year + 1) = true)

theorem fromMarch (d : Date) : ∃ year month, FromMarch d year month := by
  obtain ⟨hlow, hhigh⟩ := d.month_mem
  obtain ⟨hday, hlast⟩ := d.day_mem
  obtain ⟨year, month, day, valid⟩ := d
  dsimp only at hlow hhigh hday hlast
  refine ⟨if month ≤ 2 then year - 1 else year, ((month : Int) + 9) % 12, ?_, rfl, ?_, ?_, ?_, ?_⟩
  · omega
  · dsimp only
    split <;> split <;> omega
  · dsimp only
    omega
  · dsimp only
    have := daysInMonth_le year ⟨hlow, hhigh⟩
    omega
  · intro hfebruary
    have hmonth : month = 2 := by omega
    subst hmonth
    dsimp only [daysInMonth] at hlast ⊢
    simp only [↓reduceIte, Int.sub_add_cancel, le_refl] at hlast ⊢
    split at hlast
    · exact ⟨hlast, fun _ => ‹_›⟩
    · exact ⟨by omega, fun h => by omega⟩

theorem month_of_day {month day : Int}
    (hday : daysBefore month ≤ day ∧ day < daysBefore (month + 1)) :
    (5 * day + 2) / 153 = month := by
  simp only [daysBefore] at hday
  omega

theorem daysBefore_mono {month later : Int} (h : month ≤ later) :
    daysBefore month ≤ daysBefore later := by
  simp only [daysBefore]
  omega

theorem days_of_years {era century four year : Int} (hcentury : 0 ≤ century ∧ century ≤ 3)
    (hfour : 0 ≤ four ∧ four ≤ 24) (hyear : 0 ≤ year ∧ year ≤ 3) :
    let years := 400 * era + 100 * century + 4 * four + year
    365 * years + years / 4 - years / 100 + years / 400 =
      146097 * era + (36524 * century + 1461 * four + 365 * year) := by
  intro years
  have hfours : years / 4 = 100 * era + 25 * century + four := by omega
  have hcenturies : years / 100 = 4 * era + century := by omega
  have heras : years / 400 = era := by omega
  rw [hfours, hcenturies, heras]
  simp only [years]
  omega

/-- A leap year that starts in March is the last of four, and ends a century only if it ends
an era. -/
theorem last_of_isLeapYear {era century four year : Int} (hcentury : 0 ≤ century ∧ century ≤ 3)
    (hyear : 0 ≤ year ∧ year ≤ 3)
    (h : isLeapYear (400 * era + 100 * century + 4 * four + year + 1) = true) :
    year = 3 ∧ (four ≠ 24 ∨ century = 3) := by
  simp only [isLeapYear, Bool.and_eq_true, Bool.or_eq_true, decide_eq_true_eq] at h
  omega

namespace FromMarch

variable {d : Date} {year month : Int}

/-- Only the leap day is the 366th of its year. -/
theorem dayOfYear (h : FromMarch d year month) :
    0 ≤ daysBefore month + d.day - 1 ∧ daysBefore month + d.day - 1 ≤ 365 ∧
      (daysBefore month + d.day - 1 = 365 → isLeapYear (year + 1) = true) := by
  obtain ⟨hlow, hhigh⟩ := h.isMonth
  obtain ⟨hfirst, hlast⟩ := h.isDay
  have hstart : 0 ≤ daysBefore month := daysBefore_mono hlow
  by_cases hmonth : month = 11
  · obtain ⟨hday, hleap⟩ := h.leapDay hmonth
    subst hmonth
    have hbefore : daysBefore 11 = 337 := by decide
    exact ⟨by omega, by omega, fun h => hleap (by omega)⟩
  · have hbefore : daysBefore (month + 1) ≤ daysBefore 11 := daysBefore_mono (by omega)
    have hlast : daysBefore 11 = 337 := by decide
    exact ⟨by omega, by omega, fun h => by omega⟩

end FromMarch

theorem era_of_number {n era century four year day : Int} (hcentury : 0 ≤ century ∧ century ≤ 3)
    (hfour : 0 ≤ four ∧ four ≤ 24) (hyear : 0 ≤ year ∧ year ≤ 3) (hday : 0 ≤ day ∧ day ≤ 365)
    (h : n = 146097 * era + (36524 * century + 1461 * four + 365 * year + day)) :
    n / 146097 = era ∧ n % 146097 = 36524 * century + 1461 * four + 365 * year + day := by
  generalize hwithin : 36524 * century + 1461 * four + 365 * year + day = within at h ⊢
  have hbound : 0 ≤ within ∧ within < 146097 := by omega
  clear hwithin
  omega

theorem dayOfYear_of_era {century four year day dayOfEra : Int} (hfour : 0 ≤ four ∧ four ≤ 24)
    (hyear : 0 ≤ year ∧ year ≤ 3)
    (h : dayOfEra = 36524 * century + 1461 * four + 365 * year + day) :
    dayOfEra - (365 * (100 * century + 4 * four + year) + (100 * century + 4 * four + year) / 4 -
      (100 * century + 4 * four + year) / 100) = day := by
  have hfours : (100 * century + 4 * four + year) / 4 = 25 * century + four := by omega
  have hcenturies : (100 * century + 4 * four + year) / 100 = century := by omega
  rw [hfours, hcenturies, h]
  omega

/-- The date of a day number is the date that has it. -/
theorem ofDayNumber?_toDayNumber (d : Date) : ofDayNumber? d.toDayNumber = some d := by
  obtain ⟨year, month, h⟩ := d.fromMarch
  obtain ⟨hday, hyearEnd, hleap⟩ := h.dayOfYear
  have hmonth : (5 * (daysBefore month + d.day - 1) + 2) / 153 = month :=
    month_of_day (by have := h.isDay; omega)
  have hnumber := h.number
  obtain ⟨era, century, four, last, hcentury, hfour, hlast, rfl⟩ :
      ∃ era century four last : Int, (0 ≤ century ∧ century ≤ 3) ∧ (0 ≤ four ∧ four ≤ 24) ∧
        (0 ≤ last ∧ last ≤ 3) ∧ year = 400 * era + 100 * century + 4 * four + last :=
    ⟨year / 400, year / 100 % 4, year % 100 / 4, year % 100 % 4,
      by omega, by omega, by omega, by omega⟩
  rw [days_of_years hcentury hfour hlast] at hnumber
  have hsameDay : (daysBefore month + d.day - 1 - daysBefore month + 1).toNat = d.day := by omega
  have hsameMonth : ((month + 2) % 12 + 1).toNat = d.month := by rw [← h.sameMonth]; rfl
  have hsameYear : (if month < 10 then 100 * century + 4 * four + last + 400 * era
      else 100 * century + 4 * four + last + 400 * era + 1) = d.year := by
    rw [h.sameYear, show 400 * era + 100 * century + 4 * four + last =
      100 * century + 4 * four + last + 400 * era by omega]
  replace hnumber : d.toDayNumber = 146097 * era + (36524 * century + 1461 * four + 365 * last +
      (daysBefore month + d.day - 1)) := by
    rw [hnumber]
    omega
  generalize daysBefore month + d.day - 1 = day at hday hyearEnd hleap hmonth hsameDay hnumber
  obtain ⟨hera, hdayOfEra⟩ := era_of_number hcentury hfour hlast ⟨hday, hyearEnd⟩ hnumber
  have hyear := year_of_era hcentury hfour hlast ⟨hday, hyearEnd⟩
    (fun h => last_of_isLeapYear hcentury hlast (hleap h)) hdayOfEra
  have hrest := dayOfYear_of_era hfour hlast hdayOfEra
  simp only [ofDayNumber?, hera, hyear, hrest, hmonth]
  rw [hsameDay, hsameMonth, hsameYear, of?, dif_pos d.valid]

end Date

end QuotePress
