import TemplateScopes.Text.Basic

/-!
# Timestamps

A moment as text, such as `2026-02-12T14:30:00Z`, from the seconds since
the beginning of 1970.  The calendar is counted in years that start in
March, so that the leap day is the last day of a year, and in eras of 400
years, which all have the same number of days.
-/

namespace TemplateScopes.Timestamp

/-- A day of the calendar. -/
structure Date where
  year : Nat
  month : Nat
  day : Nat
deriving DecidableEq, Repr

/-- The number of days in 400 years. -/
def daysPerEra : Nat := 146097

/-- The number of days from March 1 of the year 0 to the beginning of
1970. -/
def daysBefore1970 : Nat := 719468

/-- The day that so many days after the beginning of 1970 is. -/
def Date.ofDays (days : Nat) : Date :=
  let counted := days + daysBefore1970
  let era := counted / daysPerEra
  let dayOfEra := counted % daysPerEra
  let yearOfEra := (dayOfEra - dayOfEra / 1460 + dayOfEra / 36524 - dayOfEra / 146096) / 365
  let dayOfYear := dayOfEra - (365 * yearOfEra + yearOfEra / 4 - yearOfEra / 100)
  let monthFromMarch := (5 * dayOfYear + 2) / 153
  let day := dayOfYear - (153 * monthFromMarch + 2) / 5 + 1
  let month := if monthFromMarch < 10 then monthFromMarch + 3 else monthFromMarch - 9
  let year := era * 400 + yearOfEra + (if month ≤ 2 then 1 else 0)
  ⟨year, month, day⟩

/-- A number with zeros on the left up to the given width. -/
def padZeros (width n : Nat) : Text :=
  let digits := Text.ofNat n
  (List.replicate (width - digits.length) '0' : Text) ++ digits

/-- The moment so many seconds after the beginning of 1970. -/
def ofSeconds (seconds : Nat) : Text :=
  let date := Date.ofDays (seconds / 86400)
  let rest := seconds % 86400
  padZeros 4 date.year ++ "-" ++ padZeros 2 date.month ++ "-" ++ padZeros 2 date.day ++ "T" ++
    padZeros 2 (rest / 3600) ++ ":" ++ padZeros 2 (rest / 60 % 60) ++ ":" ++
    padZeros 2 (rest % 60) ++ "Z"

end TemplateScopes.Timestamp
