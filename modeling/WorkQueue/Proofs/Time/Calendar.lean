import Mathlib.Tactic.IntervalCases
import Mathlib.Tactic.Lemma
import WorkQueue.Time.Calendar

/-!
# Dates and day numbers

`dayNumber` undoes `ofDayNumber`, and the date that `ofDayNumber` gives exists
(`dayNumber_ofDayNumber`, `ofDayNumber_exists`).

The four hundred years of an era begin in March.  `Cut` divides a day of an era as the calendar
does: into centuries, cycles of four years, years, and the days of the year, where the last year of
a cycle has a day more, unless it ends a century and not the era.  That the formula for the year
counts the same (`Cut.year_eq`) is the one argument here; months are a matter of twelve cases.
-/

namespace WorkQueue.Calendar

variable {day century cycle year rest : Int} {n : Int}

/-! ## The days of an era -/

/-- How a day of an era is counted in centuries, cycles of four years, years and days. -/
structure Cut (day century cycle year rest : Int) : Prop where
  sum : day = 36524 * century + 1461 * cycle + 365 * year + rest
  centuries : 0 ≤ century ∧ century ≤ 3
  cycles : 0 ≤ cycle ∧ cycle ≤ 24
  years : 0 ≤ year ∧ year ≤ 3
  /-- The last year of a cycle may have a leap day. -/
  days : 0 ≤ rest ∧ rest ≤ 364 ∨ rest = 365 ∧ year = 3 ∧ (cycle = 24 → century = 3)

lemma exists_cut (h : 0 ≤ day) (hlt : day < 146097) :
    ∃ century cycle year rest, Cut day century cycle year rest := by
  -- The last day of the era does not begin a fifth century, nor the last of a cycle a fifth year.
  obtain ⟨century, within, hcentury, hsum, hwithin⟩ : ∃ century within : Int,
      (0 ≤ century ∧ century ≤ 3) ∧ day = 36524 * century + within ∧
        (0 ≤ within ∧ within ≤ 36523 ∨ within = 36524 ∧ century = 3) := by
    by_cases hlast : day = 146096
    · exact ⟨3, 36524, by omega, by omega, by omega⟩
    · exact ⟨day / 36524, day % 36524, by omega, by omega, by omega⟩
  obtain ⟨year, rest, hyear, hrest, hdays⟩ : ∃ year rest : Int, (0 ≤ year ∧ year ≤ 3) ∧
      within % 1461 = 365 * year + rest ∧ (0 ≤ rest ∧ rest ≤ 364 ∨ rest = 365 ∧ year = 3) := by
    by_cases hlast : within % 1461 = 1460
    · exact ⟨3, 365, by omega, by omega, by omega⟩
    · exact ⟨within % 1461 / 365, within % 1461 % 365, by omega, by omega, by omega⟩
  exact ⟨century, within / 1461, year, rest, by omega, hcentury, by omega, hyear, by omega⟩

namespace Cut

/-- The formula counts centuries, cycles and years. -/
lemma year_eq (h : Cut day century cycle year rest) :
    (day - day / 1460 + day / 36524 - day / 146096) / 365 =
      100 * century + 4 * cycle + year := by
  obtain ⟨hday, hcentury, hcycle, hyear, hrest⟩ := h
  have hcenturies : day / 36524 - day / 146096 = century := by
    obtain ⟨within, hwithin⟩ : ∃ within, within = 1461 * cycle + 365 * year + rest := ⟨_, rfl⟩
    have hsum : day = 36524 * century + within := by omega
    have hrange : 0 ≤ within ∧ (within ≤ 36523 ∨ within = 36524 ∧ century = 3) := by omega
    clear hday hwithin hrest hcycle hyear
    omega
  have hcycles : day / 1460 =
      25 * century + cycle + (24 * century + cycle + 365 * year + rest) / 1460 := by
    omega
  omega

/-- What is left of a day number after its years are the days of its year. -/
lemma rest_eq (h : Cut day century cycle year rest) :
    day - (365 * (100 * century + 4 * cycle + year) + (100 * century + 4 * cycle + year) / 4 -
      (100 * century + 4 * cycle + year) / 100) = rest := by
  obtain ⟨rfl, hcentury, hcycle, hyear, hrest⟩ := h
  omega

/-- The leap day is the last of a year that begins in March, if the next year is a leap year. -/
lemma isLeapYear (h : Cut day century cycle year rest) (hrest : rest = 365) (era : Int) :
    isLeapYear (100 * century + 4 * cycle + year + era * 400 + 1) = true := by
  obtain ⟨-, hcentury, hcycle, hyear, hdays⟩ := h
  simp only [Calendar.isLeapYear, Bool.and_eq_true, Bool.or_eq_true, beq_iff_eq, bne_iff_ne]
  omega

end Cut

/-! ## Dates -/

/-- The date that is so many years after the year zero, both beginning in March, and so many
days. -/
def dateOf (year rest : Int) : Date :=
  let month := (5 * rest + 2) / 153
  let day := rest - (153 * month + 2) / 5 + 1
  if month < 10 then ⟨year, (month + 3).toNat, day.toNat⟩
  else ⟨year + 1, (month - 9).toNat, day.toNat⟩

/-- The date of a day number by the division of its era. -/
lemma ofDayNumber_eq (h : Cut ((n + epochOffset) % daysPerEra) century cycle year rest) :
    ofDayNumber n = dateOf (100 * century + 4 * cycle + year +
      (n + epochOffset) / daysPerEra * 400) rest := by
  unfold ofDayNumber
  simp only [h.year_eq, h.rest_eq]
  rfl

/-- The months that begin in March follow one rule. -/
lemma month_range (hrest : 0 ≤ rest ∧ rest ≤ 365) :
    0 ≤ (5 * rest + 2) / 153 ∧ (5 * rest + 2) / 153 ≤ 11 ∧
      (153 * ((5 * rest + 2) / 153) + 2) / 5 ≤ rest := by
  omega

lemma dayNumber_dateOf (hyear : 0 ≤ year ∧ year ≤ 399) (hrest : 0 ≤ rest ∧ rest ≤ 365)
    (era : Int) :
    dayNumber (dateOf (year + era * 400) rest) =
      era * daysPerEra + (365 * year + year / 4 - year / 100 + rest) - epochOffset := by
  obtain ⟨hlow, hhigh, hday⟩ := month_range hrest
  have hera : (year + era * 400) / 400 = era := by omega
  have hyears : (year + era * 400) % 400 = year := by omega
  unfold dateOf
  simp only
  generalize (5 * rest + 2) / 153 = month at hlow hhigh hday ⊢
  by_cases hspring : month < 10
  · have hmonth : ¬ (month + 3).toNat ≤ 2 := by omega
    simp only [if_pos hspring, dayNumber, if_neg hmonth, hera, hyears]
    have hback : ((month + 3).toNat : Int) - 3 = month := by omega
    rw [hback]
    omega
  · have hmonth : (month - 9).toNat ≤ 2 := by omega
    simp only [if_neg hspring, dayNumber, if_pos hmonth, Int.add_sub_cancel, hera, hyears]
    have hback : ((month - 9).toNat : Int) + 9 = month := by omega
    rw [hback]
    omega

lemma dateOf_exists (hrest : 0 ≤ rest ∧ rest ≤ 365)
    (hleap : rest = 365 → isLeapYear (year + 1) = true) :
    (1 ≤ (dateOf year rest).month ∧ (dateOf year rest).month ≤ 12) ∧
      1 ≤ (dateOf year rest).day ∧
        (dateOf year rest).day ≤ monthLength (dateOf year rest).year (dateOf year rest).month := by
  obtain ⟨hlow, hhigh, hday⟩ := month_range hrest
  unfold dateOf
  simp only
  generalize hmonth : (5 * rest + 2) / 153 = month at hlow hhigh hday ⊢
  have hrange : 153 * month ≤ 5 * rest + 2 ∧ 5 * rest + 2 ≤ 153 * month + 152 := by omega
  by_cases hfebruary : month = 11
  · subst hfebruary
    by_cases hlast : rest = 365
    · simp [monthLength, hleap hlast, hlast]
    · simp only [show ¬ (11 : Int) < 10 by decide, if_false, monthLength]
      by_cases hnext : isLeapYear (year + 1) = true
      · simp [hnext]
        omega
      · simp [hnext]
        omega
  · have hbefore : month ≤ 10 := by omega
    interval_cases month <;> (simp [monthLength]; omega)

/-- A year that begins in March ends in the next year of the calendar. -/
lemma year_dateOf (year rest : Int) :
    (dateOf year rest).year = if rest < 306 then year else year + 1 := by
  have hmonth : (5 * rest + 2) / 153 < 10 ↔ rest < 306 := by omega
  unfold dateOf
  by_cases hrest : rest < 306
  · simp only [if_pos hrest, if_pos (hmonth.mpr hrest)]
  · simp only [if_neg hrest, if_neg (mt hmonth.mp hrest)]

/-! ## Day numbers -/

lemma cut_of_dayNumber (n : Int) :
    ∃ century cycle year rest, Cut ((n + epochOffset) % daysPerEra) century cycle year rest :=
  exists_cut (Int.emod_nonneg _ (by decide)) (Int.emod_lt_of_pos _ (by decide))

/-- **The date of a day number has this number.** -/
theorem dayNumber_ofDayNumber (n : Int) : dayNumber (ofDayNumber n) = n := by
  obtain ⟨century, cycle, year, rest, h⟩ := cut_of_dayNumber n
  have hrest := h.rest_eq
  obtain ⟨-, hcentury, hcycle, hyear, hdays⟩ := id h
  rw [ofDayNumber_eq h, dayNumber_dateOf (by omega) (by omega)]
  have hsplit := Int.ediv_mul_add_emod (n + epochOffset) daysPerEra
  omega

/-- The date of a day number exists. -/
theorem ofDayNumber_exists (n : Int) :
    (1 ≤ (ofDayNumber n).month ∧ (ofDayNumber n).month ≤ 12) ∧ 1 ≤ (ofDayNumber n).day ∧
      (ofDayNumber n).day ≤ monthLength (ofDayNumber n).year (ofDayNumber n).month := by
  obtain ⟨century, cycle, year, rest, h⟩ := cut_of_dayNumber n
  obtain ⟨-, -, -, -, hdays⟩ := id h
  rw [ofDayNumber_eq h]
  exact dateOf_exists (by omega) fun hlast => h.isLeapYear hlast _

/-- The days on which instants lie are those of the years from -262143 to 262142. -/
lemma year_ofDayNumber (hlow : -96465292 ≤ n) (hhigh : n ≤ 95026236) :
    -262143 ≤ (ofDayNumber n).year ∧ (ofDayNumber n).year ≤ 262142 := by
  obtain ⟨century, cycle, year, rest, h⟩ := cut_of_dayNumber n
  rw [ofDayNumber_eq h, year_dateOf]
  obtain ⟨hsum, hcentury, hcycle, hyear, hdays⟩ := h
  have hsplit := Int.mul_ediv_add_emod (n + epochOffset) daysPerEra
  unfold epochOffset daysPerEra at *
  split <;> omega

end WorkQueue.Calendar
