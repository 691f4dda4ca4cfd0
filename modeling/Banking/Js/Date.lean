import Banking.Js.Text

/-!
# Instants and their ISO form

Library `Js`. A `Date` is its number of milliseconds since the epoch. `toISOString` computes
the proleptic Gregorian calendar date from the day number; `isDatetime` is the pattern that
accepts a UTC date and time with any number of fractional digits.
-/

namespace Js

/-- Milliseconds since the epoch, `Date.prototype.getTime`. -/
abbrev Date := Int

/-- A number in decimal with at least `width` digits. -/
def padStart (width n : Nat) : String :=
  let digits := Nat.toDigits 10 n
  String.ofList (List.replicate (width - digits.length) '0' ++ digits)

/-- Year, month and day of a day number; the computation counts from 1 March of year 0, so
that the leap day ends the year, and in eras of 400 years. -/
def civilFromDays (days : Int) : Int × Nat × Nat :=
  let z := days + 719468
  let era := z / 146097
  let dayOfEra := (z % 146097).toNat
  let yearOfEra := (dayOfEra - dayOfEra / 1460 + dayOfEra / 36524 - dayOfEra / 146096) / 365
  let dayOfYear := dayOfEra - (365 * yearOfEra + yearOfEra / 4 - yearOfEra / 100)
  let shifted := (5 * dayOfYear + 2) / 153
  let day := dayOfYear - (153 * shifted + 2) / 5 + 1
  let month := if shifted < 10 then shifted + 3 else shifted - 9
  let year := (yearOfEra : Int) + era * 400
  (if month ≤ 2 then year + 1 else year, month, day)

/-- Four digits, or a sign and six digits outside the years 0 to 9999. -/
def yearString (year : Int) : String :=
  if 0 ≤ year ∧ year ≤ 9999 then padStart 4 year.toNat
  else (if year < 0 then "-" else "+") ++ padStart 6 year.natAbs

/-- `Date.prototype.toISOString`. -/
def Date.toISOString (t : Date) : String :=
  let (year, month, day) := civilFromDays (t / 86400000)
  let ms := (t % 86400000).toNat
  yearString year ++ "-" ++ padStart 2 month ++ "-" ++ padStart 2 day ++ "T" ++
    padStart 2 (ms / 3600000) ++ ":" ++ padStart 2 (ms / 60000 % 60) ++ ":" ++
    padStart 2 (ms / 1000 % 60) ++ "." ++ padStart 3 (ms % 1000) ++ "Z"

/-- The length of a month of the Gregorian calendar. -/
def daysInMonth (year month : Nat) : Nat :=
  if month = 2 then
    if year % 4 = 0 ∧ (year % 100 ≠ 0 ∨ year % 400 = 0) then 29 else 28
  else if month = 4 ∨ month = 6 ∨ month = 9 ∨ month = 11 then 30 else 31

/-- The number that digits write. -/
def number (cs : List Char) : Nat := Nat.ofDigitChars 10 cs 0

/-- Optional seconds with an optional fraction, and `Z`. -/
def isSecondsAndZone : List Char → Bool
  | ['Z'] => true
  | ':' :: s₁ :: s₂ :: rest =>
    s₁.isDigit && s₂.isDigit && number [s₁, s₂] < 60 &&
      match rest with
      | ['Z'] => true
      | '.' :: fraction =>
        fraction.getLast? == some 'Z' && !fraction.dropLast.isEmpty &&
          fraction.dropLast.all Char.isDigit
      | _ => false
  | _ => false

/-- The pattern of a date, `T`, a time of day with optional seconds and fraction, and `Z`. -/
def isDatetime (s : String) : Bool :=
  match s.toList with
  | y₁ :: y₂ :: y₃ :: y₄ :: '-' :: m₁ :: m₂ :: '-' :: d₁ :: d₂ :: 'T' ::
      h₁ :: h₂ :: ':' :: i₁ :: i₂ :: rest =>
    [y₁, y₂, y₃, y₄, m₁, m₂, d₁, d₂, h₁, h₂, i₁, i₂].all Char.isDigit &&
      (1 ≤ number [m₁, m₂] && number [m₁, m₂] ≤ 12) &&
      (1 ≤ number [d₁, d₂] &&
        number [d₁, d₂] ≤ daysInMonth (number [y₁, y₂, y₃, y₄]) (number [m₁, m₂])) &&
      number [h₁, h₂] < 24 && number [i₁, i₂] < 60 && isSecondsAndZone rest
  | _ => false

example : Date.toISOString 951782400000 = "2000-02-29T00:00:00.000Z" := by decide

end Js
