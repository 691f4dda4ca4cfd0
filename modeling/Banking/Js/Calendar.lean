import Banking.Js.Date
import Mathlib.Tactic.IntervalCases

/-!
# Calendar arithmetic

Library `Js`. The day number of a calendar date, the UTC accessors and `Date.UTC`, the parsing of
ISO date-times, and the facts that connect them: the date computed from a day number is a date of
the calendar and has that day number.
-/

namespace Js

/-- The day number of a calendar date; years again begin on 1 March. -/
def daysFromCivil (year : Int) (month day : Nat) : Int :=
  let year := if month ≤ 2 then year - 1 else year
  let yearOfEra := (year % 400).toNat
  let shifted := if month ≤ 2 then month + 9 else month - 3
  let dayOfYear := (153 * shifted + 2) / 5 + (day - 1)
  let dayOfEra := yearOfEra * 365 + yearOfEra / 4 - yearOfEra / 100 + dayOfYear
  year / 400 * 146097 + dayOfEra - 719468

namespace Date

/-- `getUTCFullYear`. -/
def getUTCFullYear (t : Date) : Int := (civilFromDays (t / 86400000)).1

/-- `getUTCMonth`, from 0. -/
def getUTCMonth (t : Date) : Nat := (civilFromDays (t / 86400000)).2.1 - 1

/-- `getUTCDate`, from 1. -/
def getUTCDate (t : Date) : Nat := (civilFromDays (t / 86400000)).2.2

/-- `getUTCHours`. -/
def getUTCHours (t : Date) : Nat := (t % 86400000 / 3600000).toNat

/-- `Date.UTC` of a year, a month from 0, a day and an hour: the years 0 to 99 stand for 1900 to
1999. -/
def UTC (year : Int) (month day hours : Nat) : Date :=
  let fullYear := if 0 ≤ year ∧ year ≤ 99 then 1900 + year else year
  daysFromCivil fullYear (month + 1) day * 86400000 + hours * 3600000

/-- The instant of a date and a time of day. -/
def ofFields (year month day hour minute second millisecond : Nat) : Date :=
  daysFromCivil year month day * 86400000 +
    (hour * 3600000 + minute * 60000 + second * 1000 + millisecond : Nat)

/-- The seconds and the milliseconds of a time of day; further digits are cut off. -/
def secondsOf : List Char → Nat × Nat
  | ':' :: s₁ :: s₂ :: '.' :: fraction =>
    (number [s₁, s₂], number ((fraction.dropLast ++ ['0', '0', '0']).take 3))
  | ':' :: s₁ :: s₂ :: _ => (number [s₁, s₂], 0)
  | _ => (0, 0)

/-- `new Date(text)` for the texts that `isDatetime` accepts with at most nine digits after the
point; more are cut off here, while engines differ in how they read them. -/
def parse (s : String) : Option Date :=
  if isDatetime s then
    match s.toList with
    | y₁ :: y₂ :: y₃ :: y₄ :: '-' :: m₁ :: m₂ :: '-' :: d₁ :: d₂ :: 'T' ::
        h₁ :: h₂ :: ':' :: i₁ :: i₂ :: rest =>
      some (ofFields (number [y₁, y₂, y₃, y₄]) (number [m₁, m₂]) (number [d₁, d₂])
        (number [h₁, h₂]) (number [i₁, i₂]) (secondsOf rest).1 (secondsOf rest).2)
    | _ => none
  else none

end Date

/-! ### Years -/

/-- A day of an era lies in a century, a group of four years, a year and a day of the year; only
the last year of a group has a leap day, and only the last century has one in its last group. -/
theorem exists_dayOfEra {dayOfEra : Nat} (h : dayOfEra < 146097) :
    ∃ century group year day, dayOfEra = 36524 * century + 1461 * group + 365 * year + day ∧
      century ≤ 3 ∧ group ≤ 24 ∧ year ≤ 3 ∧ day ≤ 365 ∧
      (day = 365 → year = 3 ∧ (group = 24 → century = 3)) := by
  obtain ⟨century, rest, hcentury, hrest, hle, hlast⟩ : ∃ century rest,
      dayOfEra = 36524 * century + rest ∧ rest ≤ 36524 ∧ century ≤ 3 ∧
        (rest = 36524 → century = 3) := by
    refine ⟨min (dayOfEra / 36524) 3, dayOfEra - 36524 * min (dayOfEra / 36524) 3, ?_⟩
    omega
  obtain ⟨year, day, hyear, hyear3, hday, hleap⟩ : ∃ year day,
      rest % 1461 = 365 * year + day ∧ year ≤ 3 ∧ day ≤ 365 ∧ (day = 365 → year = 3) := by
    refine ⟨min (rest % 1461 / 365) 3, rest % 1461 - 365 * min (rest % 1461 / 365) 3, ?_⟩
    omega
  refine ⟨century, rest / 1461, year, day, ?_⟩
  omega

/-- The year of the era that `civilFromDays` computes. -/
theorem yearOfEra_eq {dayOfEra century group year day : Nat}
    (h : dayOfEra = 36524 * century + 1461 * group + 365 * year + day) (hcentury : century ≤ 3)
    (hgroup : group ≤ 24) (hyear : year ≤ 3) (hday : day ≤ 365)
    (hleap : day = 365 → year = 3 ∧ (group = 24 → century = 3)) :
    (dayOfEra - dayOfEra / 1460 + dayOfEra / 36524 - dayOfEra / 146096) / 365 =
      100 * century + 4 * group + year := by
  have hcenturies : dayOfEra / 36524 - dayOfEra / 146096 = century := by omega
  have hle : dayOfEra / 146096 ≤ dayOfEra / 36524 := by omega
  -- the quotient by 1460 is one group ahead from some day of the last year of a group on
  by_cases hcarry : 24 * century + group + 365 * year + day < 1460
  · have hgroups : dayOfEra / 1460 = 25 * century + group := by omega
    omega
  · have hgroups : dayOfEra / 1460 = 25 * century + group + 1 := by omega
    omega

/-- The days of an era before a year. -/
theorem daysBeforeYear_eq {century group year : Nat} (hgroup : group ≤ 24) (hyear : year ≤ 3) :
    365 * (100 * century + 4 * group + year) + (100 * century + 4 * group + year) / 4 -
      (100 * century + 4 * group + year) / 100 = 36524 * century + 1461 * group + 365 * year := by
  omega

/-! ### Months -/

/-- The month that contains a day of the year, counted from March, and the days before it. -/
theorem shifted_bounds {dayOfYear : Nat} (h : dayOfYear ≤ 365) :
    (5 * dayOfYear + 2) / 153 ≤ 11 ∧
      (153 * ((5 * dayOfYear + 2) / 153) + 2) / 5 ≤ dayOfYear ∧
      dayOfYear - (153 * ((5 * dayOfYear + 2) / 153) + 2) / 5 ≤ 30 := by
  omega

/-- The day number of a day of a year that begins in March. -/
theorem daysFromCivil_eq (era : Int) {yearOfEra shifted day : Nat} (hyears : yearOfEra ≤ 399)
    (hmonth : shifted ≤ 11) (hstart : (153 * shifted + 2) / 5 ≤ day) :
    daysFromCivil
      (if shifted < 10 then (yearOfEra : Int) + era * 400 else yearOfEra + era * 400 + 1)
      (if shifted < 10 then shifted + 3 else shifted - 9) (day - (153 * shifted + 2) / 5 + 1) =
      era * 146097 + ((365 * yearOfEra + yearOfEra / 4 - yearOfEra / 100 + day : Nat) : Int) -
        719468 := by
  have hyear : (((yearOfEra : Int) + era * 400) % 400).toNat = yearOfEra := by omega
  have hera : ((yearOfEra : Int) + era * 400) / 400 = era := by omega
  have hday : (153 * shifted + 2) / 5 + (day - (153 * shifted + 2) / 5) = day :=
    Nat.add_sub_of_le hstart
  split
  · next hmarch =>
    have hafter : ¬ shifted + 3 ≤ 2 := by omega
    simp only [daysFromCivil, if_neg hafter, hyear, hera, Nat.add_sub_cancel, hday,
      Nat.mul_comm yearOfEra]
  · next hjanuary =>
    have hbegin : shifted - 9 ≤ 2 := by omega
    have hback : shifted - 9 + 9 = shifted := by omega
    simp only [daysFromCivil, if_pos hbegin, hback, add_sub_cancel_right, hyear, hera,
      Nat.add_sub_cancel, hday, Nat.mul_comm yearOfEra]

/-- A month has 28 days at least. -/
theorem le_daysInMonth (year month : Nat) : 28 ≤ daysInMonth year month := by
  unfold daysInMonth
  split
  · split <;> decide
  · split <;> decide

/-- A month has 31 days at most. -/
theorem daysInMonth_le (year month : Nat) : daysInMonth year month ≤ 31 := by
  unfold daysInMonth
  split
  · split <;> decide
  · split <;> decide

private theorem monthLength_march {day shifted : Nat} (hshifted : (5 * day + 2) / 153 = shifted)
    (hmarch : shifted < 10) (year : Nat) :
    day - (153 * shifted + 2) / 5 + 1 ≤ daysInMonth year (shifted + 3) := by
  interval_cases shifted <;> simp only [daysInMonth, Nat.reduceAdd, Nat.reduceEqDiff, if_false,
    or_self, or_false, or_true, if_true] <;> omega

private theorem monthLength_february {day year : Nat} (hday : day ≤ 365)
    (hleap : day = 365 → year % 4 = 0 ∧ (year % 100 ≠ 0 ∨ year % 400 = 0)) :
    day - 337 + 1 ≤ daysInMonth year 2 := by
  by_cases hlast : day = 365
  · rw [daysInMonth, if_pos rfl, if_pos (hleap hlast)]
    omega
  · exact Nat.le_trans (by omega) (le_daysInMonth _ _)

private theorem leap_last {era : Int} {century group year : Nat}
    (_ : 0 ≤ ((100 * century + 4 * group + year : Nat) : Int) + era * 400 + 1)
    (hgroup : group ≤ 24) (hyear : year = 3) (hlast : group = 24 → century = 3) :
    (((100 * century + 4 * group + year : Nat) : Int) + era * 400 + 1).toNat % 4 = 0 ∧
      ((((100 * century + 4 * group + year : Nat) : Int) + era * 400 + 1).toNat % 100 ≠ 0 ∨
        (((100 * century + 4 * group + year : Nat) : Int) + era * 400 + 1).toNat % 400 = 0) := by
  refine ⟨by omega, ?_⟩
  by_cases hg : group = 24
  · have := hlast hg
    omega
  · omega

/-- The date of a day of an era. -/
theorem civilFromDays_eq {era : Int} {century group year day : Nat} (hcentury : century ≤ 3)
    (hgroup : group ≤ 24) (hyear : year ≤ 3) (hday : day ≤ 365)
    (hleap : day = 365 → year = 3 ∧ (group = 24 → century = 3)) :
    civilFromDays (era * 146097 + ((36524 * century + 1461 * group + 365 * year + day : Nat) : Int)
        - 719468) =
      (if (5 * day + 2) / 153 < 10 then ((100 * century + 4 * group + year : Nat) : Int) + era * 400
        else ((100 * century + 4 * group + year : Nat) : Int) + era * 400 + 1,
       if (5 * day + 2) / 153 < 10 then (5 * day + 2) / 153 + 3 else (5 * day + 2) / 153 - 9,
       day - (153 * ((5 * day + 2) / 153) + 2) / 5 + 1) := by
  generalize hdoe : 36524 * century + 1461 * group + 365 * year + day = dayOfEra
  have hbound : dayOfEra < 146097 := by omega
  have hera : (era * 146097 + (dayOfEra : Int) - 719468 + 719468) / 146097 = era := by omega
  have hrest : ((era * 146097 + (dayOfEra : Int) - 719468 + 719468) % 146097).toNat = dayOfEra := by
    omega
  have hyearOfEra := yearOfEra_eq hdoe.symm hcentury hgroup hyear hday hleap
  have hdayOfYear : dayOfEra - (365 * (100 * century + 4 * group + year) +
      (100 * century + 4 * group + year) / 4 - (100 * century + 4 * group + year) / 100) = day := by
    rw [daysBeforeYear_eq hgroup hyear]
    omega
  obtain ⟨hmonth, -, -⟩ := shifted_bounds hday
  simp only [civilFromDays, hera, hrest, hyearOfEra, hdayOfYear]
  split
  · next hmarch => rw [if_neg (by omega)]
  · next hjanuary => rw [if_pos (by omega)]

/-- The date of a day number is a date of the calendar and has that day number. -/
theorem civilFromDays_spec (days : Int) :
    daysFromCivil (civilFromDays days).1 (civilFromDays days).2.1 (civilFromDays days).2.2 = days ∧
      1 ≤ (civilFromDays days).2.1 ∧ (civilFromDays days).2.1 ≤ 12 ∧
      1 ≤ (civilFromDays days).2.2 ∧ (civilFromDays days).2.2 ≤ 31 ∧
      (0 ≤ (civilFromDays days).1 → (civilFromDays days).2.2 ≤
        daysInMonth (civilFromDays days).1.toNat (civilFromDays days).2.1) := by
  obtain ⟨century, group, year, day, hdays, hcentury, hgroup, hyear, hday, hleap⟩ :=
    exists_dayOfEra (show ((days + 719468) % 146097).toNat < 146097 by omega)
  obtain ⟨era, hera⟩ : ∃ era : Int, days = era * 146097 +
      ((36524 * century + 1461 * group + 365 * year + day : Nat) : Int) - 719468 :=
    ⟨(days + 719468) / 146097, by omega⟩
  rw [hera, civilFromDays_eq hcentury hgroup hyear hday hleap]
  obtain ⟨hmonth, hstart, hlength⟩ := shifted_bounds hday
  generalize hshifted : (5 * day + 2) / 153 = shifted at *
  have hyears : 100 * century + 4 * group + year ≤ 399 := by omega
  have hdays := daysFromCivil_eq era hyears hmonth hstart
  rw [daysBeforeYear_eq hgroup hyear] at hdays
  refine ⟨hdays, ?_⟩
  dsimp only
  split
  · next hmarch =>
    exact ⟨by omega, by omega, by omega, by omega, fun _ ↦ monthLength_march hshifted hmarch _⟩
  · next hjanuary =>
    refine ⟨by omega, by omega, by omega, by omega, fun hnonneg ↦ ?_⟩
    have hmonths : shifted = 10 ∨ shifted = 11 := by omega
    rcases hmonths with rfl | rfl
    · change day - 306 + 1 ≤ 31
      omega
    · -- only the last day of a leap year is the 29th
      refine monthLength_february hday fun hlast ↦ ?_
      obtain ⟨hlastYear, hlastGroup⟩ := hleap hlast
      exact leap_last hnonneg hgroup hlastYear hlastGroup

/-! ### Hours -/

private theorem floor_hour (t : Int) :
    t / 86400000 * 86400000 + ((t % 86400000 / 3600000).toNat : Int) * 3600000 =
      t - t % 3600000 := by
  omega

/-- Outside the years 0 to 99 `Date.UTC` of the accessors cuts an instant to its hour. -/
theorem UTC_eq {t : Date} (h : ¬ (0 ≤ t.getUTCFullYear ∧ t.getUTCFullYear ≤ 99)) :
    Date.UTC t.getUTCFullYear t.getUTCMonth t.getUTCDate t.getUTCHours = t - t % 3600000 := by
  obtain ⟨hdays, hmonth, -⟩ := civilFromDays_spec (t / 86400000)
  simp only [Date.UTC, if_neg h, Date.getUTCMonth, Nat.sub_add_cancel hmonth]
  rw [Date.getUTCFullYear, Date.getUTCDate, hdays, Date.getUTCHours]
  exact floor_hour t

/-- The first day of year 1900 and the last of year 99 are far apart. -/
theorem daysFromCivil_bounds {year : Int} {month day : Nat} (hmonth : 1 ≤ month ∧ month ≤ 12)
    (hday : 1 ≤ day ∧ day ≤ 31) :
    (year ≤ 99 → daysFromCivil year month day ≤ -600000) ∧
      (1900 ≤ year → -600000 < daysFromCivil year month day) := by
  simp only [daysFromCivil]
  constructor
  · intro hyear
    split <;> omega
  · intro hyear
    split <;> omega

private theorem hour_emod (days : Int) (hours : Nat) :
    (days * 86400000 + (hours : Int) * 3600000) % 3600000 = 0 := by
  omega

/-- `Date.UTC` of a day and an hour is a full hour. -/
theorem UTC_emod (year : Int) (month day hours : Nat) :
    (Date.UTC year month day hours : Int) % 3600000 = 0 :=
  hour_emod _ hours

private theorem same_day {t t' : Int} (h : t' - t' % 3600000 = t - t % 3600000) :
    t' / 86400000 = t / 86400000 := by
  omega

private theorem hour_before {t days days' : Int} {hours : Nat} (hdays : t / 86400000 = days)
    (hle : days ≤ -600000) (hlt : -600000 < days') :
    days' * 86400000 + (hours : Int) * 3600000 ≠ t - t % 3600000 := by
  omega

/-- No hour of the years 0 to 99 is `Date.UTC` of the accessors of an instant. -/
theorem UTC_ne {t t' : Date} (h : 0 ≤ t.getUTCFullYear ∧ t.getUTCFullYear ≤ 99) :
    Date.UTC t'.getUTCFullYear t'.getUTCMonth t'.getUTCDate t'.getUTCHours ≠ t - t % 3600000 := by
  by_cases h' : 0 ≤ t'.getUTCFullYear ∧ t'.getUTCFullYear ≤ 99
  · obtain ⟨hdays, hmonth, hmonth', hday, hday', -⟩ := civilFromDays_spec (t / 86400000)
    obtain ⟨-, hmonth₁, hmonth₁', hday₁, hday₁', -⟩ := civilFromDays_spec (t' / 86400000)
    simp only [Date.UTC, if_pos h', Date.getUTCMonth, Nat.sub_add_cancel hmonth₁]
    exact hour_before hdays.symm ((daysFromCivil_bounds ⟨hmonth, hmonth'⟩ ⟨hday, hday'⟩).1 h.2)
      ((daysFromCivil_bounds ⟨hmonth₁, hmonth₁'⟩ ⟨hday₁, hday₁'⟩).2 (by omega))
  · rw [UTC_eq h']
    intro hsame
    rw [Date.getUTCFullYear, same_day hsame] at h'
    exact h' h

/-! ### Texts -/

/-- One more digit in front of the last one. -/
theorem toList_padStart_succ {width : Nat} (hwidth : 1 ≤ width) (n : Nat) :
    (padStart (width + 1) n).toList = (padStart width (n / 10)).toList ++ [(n % 10).digitChar] := by
  obtain ⟨width, rfl⟩ := Nat.exists_eq_add_of_le hwidth
  simp only [padStart, String.toList_ofList]
  by_cases hn : n < 10
  · rw [Nat.toDigits_of_lt_base hn, Nat.div_eq_of_lt hn, Nat.mod_eq_of_lt hn]
    simp [Nat.add_comm 1 width, List.replicate_succ']
  · rw [Nat.toDigits_of_base_le (by decide) (not_lt.mp hn), List.length_append,
      List.length_singleton, Nat.add_sub_add_right, List.append_assoc]

/-- A digit. -/
theorem toList_padStart_one {n : Nat} (h : n < 10) : (padStart 1 n).toList = [n.digitChar] := by
  simp [padStart, Nat.toDigits_of_lt_base h]

/-- Two digits. -/
theorem toList_padStart_two {n : Nat} (h : n < 100) :
    (padStart 2 n).toList = [(n / 10).digitChar, (n % 10).digitChar] := by
  rw [toList_padStart_succ (by decide), toList_padStart_one (by omega)]
  rfl

/-- Three digits. -/
theorem toList_padStart_three {n : Nat} (h : n < 1000) :
    (padStart 3 n).toList =
      [(n / 100).digitChar, (n / 10 % 10).digitChar, (n % 10).digitChar] := by
  rw [toList_padStart_succ (by decide), toList_padStart_two (by omega), Nat.div_div_eq_div_mul]
  rfl

/-- Four digits. -/
theorem toList_padStart_four {n : Nat} (h : n < 10000) :
    (padStart 4 n).toList = [(n / 1000).digitChar, (n / 100 % 10).digitChar,
      (n / 10 % 10).digitChar, (n % 10).digitChar] := by
  rw [toList_padStart_succ (by decide), toList_padStart_three (by omega),
    Nat.div_div_eq_div_mul, Nat.div_div_eq_div_mul]
  rfl

/-- Two digits write their number. -/
theorem number_two {n : Nat} (h : n < 100) :
    number [(n / 10).digitChar, (n % 10).digitChar] = n := by
  rw [number, Nat.ofDigitChars_cons_digitChar_of_lt_ten (by omega),
    Nat.ofDigitChars_cons_digitChar_of_lt_ten (by omega), Nat.ofDigitChars_nil]
  omega

/-- Three digits write their number. -/
theorem number_three {n : Nat} (h : n < 1000) :
    number [(n / 100).digitChar, (n / 10 % 10).digitChar, (n % 10).digitChar] = n := by
  rw [number, Nat.ofDigitChars_cons_digitChar_of_lt_ten (by omega),
    Nat.ofDigitChars_cons_digitChar_of_lt_ten (by omega),
    Nat.ofDigitChars_cons_digitChar_of_lt_ten (by omega), Nat.ofDigitChars_nil]
  omega

/-- Four digits write their number. -/
theorem number_four {n : Nat} (h : n < 10000) :
    number [(n / 1000).digitChar, (n / 100 % 10).digitChar, (n / 10 % 10).digitChar,
      (n % 10).digitChar] = n := by
  rw [number, Nat.ofDigitChars_cons_digitChar_of_lt_ten (by omega),
    Nat.ofDigitChars_cons_digitChar_of_lt_ten (by omega),
    Nat.ofDigitChars_cons_digitChar_of_lt_ten (by omega),
    Nat.ofDigitChars_cons_digitChar_of_lt_ten (by omega), Nat.ofDigitChars_nil]
  omega

/-- The characters of an ISO date-time with a four-digit year. -/
def isoChars (year month day hour minute second millisecond : Nat) : List Char :=
  [(year / 1000).digitChar, (year / 100 % 10).digitChar, (year / 10 % 10).digitChar,
    (year % 10).digitChar, '-', (month / 10).digitChar, (month % 10).digitChar, '-',
    (day / 10).digitChar, (day % 10).digitChar, 'T', (hour / 10).digitChar, (hour % 10).digitChar,
    ':', (minute / 10).digitChar, (minute % 10).digitChar, ':', (second / 10).digitChar,
    (second % 10).digitChar, '.', (millisecond / 100).digitChar,
    (millisecond / 10 % 10).digitChar, (millisecond % 10).digitChar, 'Z']

section

variable {s : String} {year month day hour minute second millisecond : Nat}

/-- The characters of the date-time of a calendar date pass as a date-time. -/
theorem isDatetime_of_isoChars
    (hs : s.toList = isoChars year month day hour minute second millisecond)
    (hyear : year ≤ 9999) (hmonth : 1 ≤ month ∧ month ≤ 12)
    (hday : 1 ≤ day ∧ day ≤ daysInMonth year month) (hhour : hour < 24) (hminute : minute < 60)
    (hsecond : second < 60) (hms : millisecond < 1000) : isDatetime s = true := by
  have hday31 : day ≤ 31 := Nat.le_trans hday.2 (daysInMonth_le year month)
  have hdigit : ∀ {n : Nat}, n < 10 → n.digitChar.isDigit = true := fun hn ↦ by
    rw [Nat.isDigit_digitChar, decide_eq_true hn]
  simp only [isDatetime, hs, isoChars, number_two (show month < 100 by omega),
    number_two (show day < 100 by omega), number_two (show hour < 100 by omega),
    number_two (show minute < 100 by omega), number_four (show year < 10000 by omega)]
  have hzone : isSecondsAndZone [':', (second / 10).digitChar, (second % 10).digitChar, '.',
      (millisecond / 100).digitChar, (millisecond / 10 % 10).digitChar,
      (millisecond % 10).digitChar, 'Z'] = true := by
    simp only [isSecondsAndZone, number_two (show second < 100 by omega)]
    simp (disch := omega) [hdigit, hsecond]
  simp (disch := omega) [hdigit, hzone, hmonth, hday, hhour, hminute]

/-- The instant that these characters stand for. -/
theorem parse_of_isoChars
    (hs : s.toList = isoChars year month day hour minute second millisecond)
    (hyear : year ≤ 9999) (hmonth : 1 ≤ month ∧ month ≤ 12)
    (hday : 1 ≤ day ∧ day ≤ daysInMonth year month) (hhour : hour < 24) (hminute : minute < 60)
    (hsecond : second < 60) (hms : millisecond < 1000) :
    Date.parse s = some (Date.ofFields year month day hour minute second millisecond) := by
  have hday31 : day ≤ 31 := Nat.le_trans hday.2 (daysInMonth_le year month)
  rw [Date.parse, if_pos (isDatetime_of_isoChars hs hyear hmonth hday hhour hminute hsecond hms),
    hs]
  have hfraction : Date.secondsOf [':', (second / 10).digitChar, (second % 10).digitChar, '.',
      (millisecond / 100).digitChar, (millisecond / 10 % 10).digitChar,
      (millisecond % 10).digitChar, 'Z'] = (second, millisecond) := by
    change (number _, number [_, _, _]) = _
    rw [number_two (by omega), number_three hms]
  simp only [isoChars, hfraction, number_two (show month < 100 by omega),
    number_two (show day < 100 by omega), number_two (show hour < 100 by omega),
    number_two (show minute < 100 by omega), number_four (show year < 10000 by omega)]

end

/-- The characters of the ISO form of an instant in the years 0 to 9999. -/
theorem toList_toISOString {t : Date} {year : Nat} (hyear : t.getUTCFullYear = year)
    (h : year ≤ 9999) :
    t.toISOString.toList = isoChars year (civilFromDays (t / 86400000)).2.1
      (civilFromDays (t / 86400000)).2.2 ((t % 86400000).toNat / 3600000)
      ((t % 86400000).toNat / 60000 % 60) ((t % 86400000).toNat / 1000 % 60)
      ((t % 86400000).toNat % 1000) := by
  obtain ⟨-, -, hmonth, -, hday, -⟩ := civilFromDays_spec (t / 86400000)
  have hyearString : yearString (civilFromDays (t / 86400000)).1 = padStart 4 year := by
    change yearString t.getUTCFullYear = _
    rw [hyear, yearString, if_pos (by omega)]
    rfl
  have hms : (t % 86400000).toNat < 86400000 := by
    have := Int.emod_lt_of_pos t (show (0 : Int) < 86400000 by decide)
    omega
  simp only [Date.toISOString, hyearString, String.toList_append]
  rw [toList_padStart_four (by omega), toList_padStart_two (n := (civilFromDays _).2.1) (by omega),
    toList_padStart_two (n := (civilFromDays _).2.2) (by omega),
    toList_padStart_two (n := _ / 3600000) (by omega),
    toList_padStart_two (n := _ / 60000 % 60) (by omega),
    toList_padStart_two (n := _ / 1000 % 60) (by omega),
    toList_padStart_three (n := _ % 1000) (by omega)]
  rfl

private theorem ofFields_timeOfDay {t : Int} {days : Int} (hdays : days = t / 86400000) :
    days * 86400000 + (((t % 86400000).toNat / 3600000 * 3600000 +
      (t % 86400000).toNat / 60000 % 60 * 60000 + (t % 86400000).toNat / 1000 % 60 * 1000 +
      (t % 86400000).toNat % 1000 : Nat) : Int) = t := by
  omega

/-- The ISO form of an instant in the years 0 to 9999 is a date-time of that instant. -/
theorem parse_toISOString {t : Date}
    (h : 0 ≤ t.getUTCFullYear ∧ t.getUTCFullYear ≤ 9999) :
    isDatetime t.toISOString = true ∧ Date.parse t.toISOString = some t := by
  obtain ⟨hnumber, hmonth, hmonth', hday, -, hlength⟩ := civilFromDays_spec (t / 86400000)
  obtain ⟨year, hyear⟩ := Int.eq_ofNat_of_zero_le h.1
  have hbound : year ≤ 9999 := by
    have := hyear ▸ h.2
    omega
  have hmonthLength := hlength h.1
  rw [show (civilFromDays (t / 86400000)).1.toNat = year by
    change t.getUTCFullYear.toNat = year
    rw [hyear]
    rfl] at hmonthLength
  have hms : (t % 86400000).toNat < 86400000 := by
    have := Int.emod_lt_of_pos t (show (0 : Int) < 86400000 by decide)
    omega
  have hchars := toList_toISOString hyear hbound
  constructor
  · exact isDatetime_of_isoChars hchars hbound ⟨hmonth, hmonth'⟩ ⟨hday, hmonthLength⟩ (by omega)
      (by omega) (by omega) (by omega)
  · rw [parse_of_isoChars hchars hbound ⟨hmonth, hmonth'⟩ ⟨hday, hmonthLength⟩ (by omega)
      (by omega) (by omega) (by omega), Date.ofFields, ← hyear]
    exact congrArg some (ofFields_timeOfDay hnumber)

end Js
