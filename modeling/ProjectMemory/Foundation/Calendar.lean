import ProjectMemory.Foundation.Digits

/-!
# Dates

The civil date of a number of days, and the text of a point in time as
`datetime.isoformat` writes it for a time in UTC.
-/

namespace Foundation

structure CivilDate where
  year : Nat
  month : Nat
  day : Nat
  deriving DecidableEq, Repr

/-- The date in the proleptic Gregorian calendar of a number of days after
1970-01-01.  Years are counted from March on, in eras of 400 years. -/
def civilDate (days : Nat) : CivilDate :=
  let shifted := days + 719468
  let era := shifted / 146097
  let dayOfEra := shifted % 146097
  let yearOfEra :=
    (dayOfEra - dayOfEra / 1460 + dayOfEra / 36524 - dayOfEra / 146096) / 365
  let dayOfYear :=
    dayOfEra - (365 * yearOfEra + yearOfEra / 4 - yearOfEra / 100)
  let marchMonth := (5 * dayOfYear + 2) / 153
  let month := if marchMonth < 10 then marchMonth + 3 else marchMonth - 9
  {
    year := era * 400 + yearOfEra + if month ≤ 2 then 1 else 0
    month := month
    day := dayOfYear - (153 * marchMonth + 2) / 5 + 1 }

/-- `isoformat()` of a number of microseconds after 1970-01-01 in UTC; the
fraction is left out where it is zero. -/
def isoformat (microseconds : Nat) : String :=
  let seconds := microseconds / 1000000
  let date := civilDate (seconds / 86400)
  let fraction :=
    if microseconds % 1000000 = 0 then []
    else '.' :: fixedDigits 10 6 (microseconds % 1000000)
  String.ofList
    (fixedDigits 10 4 date.year ++ '-' :: fixedDigits 10 2 date.month ++
      '-' :: fixedDigits 10 2 date.day ++
      'T' :: fixedDigits 10 2 (seconds / 3600 % 24) ++
      ':' :: fixedDigits 10 2 (seconds / 60 % 60) ++
      ':' :: fixedDigits 10 2 (seconds % 60) ++
      fraction ++ "+00:00".toList)

theorem length_isoformat_le (microseconds : Nat) :
    (isoformat microseconds).length ≤ 32 := by
  have zone : ("+00:00".toList).length = 6 := by decide
  rw [isoformat, String.length_ofList]
  by_cases whole : microseconds % 1000000 = 0
  · simp only [if_pos whole, List.length_append, List.length_cons,
      length_fixedDigits, List.length_nil, zone]
    omega
  · simp only [if_neg whole, List.length_append, List.length_cons,
      length_fixedDigits, zone]
    omega

example : isoformat 1709208000000500 = "2024-02-29T12:00:00.000500+00:00" := by
  decide

end Foundation
