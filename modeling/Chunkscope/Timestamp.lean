/-!
Points in time, counted in milliseconds from the start of 1970 and written as a UTC date and
time of day. Dates follow the Gregorian calendar in both directions.
-/

namespace Chunkscope.Timestamp

structure Date where
  year : Int
  month : Nat
  day : Nat
  deriving DecidableEq, Repr

/-- The date a number of days from the start of 1970. Years are counted from March, so that the
leap day is the last of its year, and in eras of 400 years, which have equally many days. -/
def dateOfDay (dayNumber : Int) : Date :=
  let shifted := dayNumber + 719468
  let era := shifted / 146097
  let dayOfEra := (shifted % 146097).toNat
  let yearOfEra := (dayOfEra - dayOfEra / 1460 + dayOfEra / 36524 - dayOfEra / 146096) / 365
  let dayOfYear := dayOfEra - (365 * yearOfEra + yearOfEra / 4 - yearOfEra / 100)
  let monthFromMarch := (5 * dayOfYear + 2) / 153
  let day := dayOfYear - (153 * monthFromMarch + 2) / 5 + 1
  let month := if monthFromMarch < 10 then monthFromMarch + 3 else monthFromMarch - 9
  let year := yearOfEra + era * 400
  { year := if month ≤ 2 then year + 1 else year, month, day }

/-- The number with zeros before it up to a width. -/
def padded (width value : Nat) : String :=
  let digits := (toString value).toList
  String.ofList (List.replicate (width - digits.length) '0' ++ digits)

/-- Four digits, with a sign for a year that four digits cannot hold. -/
def yearText (year : Int) : String :=
  if 0 ≤ year ∧ year ≤ 9999 then padded 4 year.toNat
  else (if year < 0 then "-" else "+") ++ padded 4 year.natAbs

/-- The earliest and the latest time that a date is known for. -/
def earliest : Int := -8334601228800000

def latest : Int := 8210266876799999

/-- The time as a date; milliseconds appear where there are any. -/
def dateText (milliseconds : Int) : String :=
  let seconds := milliseconds / 1000
  let fraction := (milliseconds % 1000).toNat
  let date := dateOfDay (seconds / 86400)
  let second := (seconds % 86400).toNat
  yearText date.year ++ "-" ++ padded 2 date.month ++ "-" ++ padded 2 date.day ++ "T" ++
    padded 2 (second / 3600) ++ ":" ++ padded 2 (second / 60 % 60) ++ ":" ++
    padded 2 (second % 60) ++
    (if fraction = 0 then "" else "." ++ padded 3 fraction) ++ "Z"

/-- Zero stands for no time at all. -/
def text (milliseconds : Int64) : String :=
  let time := milliseconds.toInt
  if time = 0 then "0"
  else if earliest ≤ time ∧ time ≤ latest then dateText time
  else toString time ++ " (out of range)"

example : text 1500 = "1970-01-01T00:00:01.500Z" := by decide +kernel

example : text (-62167219200001) = "-0001-12-31T23:59:59.999Z" := by decide +kernel

example : text 253402300800000 = "+10000-01-01T00:00:00Z" := by decide +kernel

end Chunkscope.Timestamp
