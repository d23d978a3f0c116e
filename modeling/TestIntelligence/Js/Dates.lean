import TestIntelligence.Js.Patterns

/-!
# UTC timestamps

The time value of a text `YYYY-MM-DDTHH:mm:ss.sssZ` and the text of a time value,
with the proleptic Gregorian calendar of the language. A date such as February 30
rolls over to the next month, as the parser of the runtime lets it.
-/

namespace TestIntelligence.Js

/-- The day on which a year begins, counted from 1970-01-01. -/
def dayFromYear (year : ℤ) : ℤ :=
  365 * (year - 1970) + (year - 1969) / 4 - (year - 1901) / 100 + (year - 1601) / 400

def isLeapYear (year : ℤ) : Bool := year % 4 = 0 && (year % 100 ≠ 0 || year % 400 = 0)

def monthLengths (year : ℤ) : List ℤ :=
  [31, if isLeapYear year then 29 else 28, 31, 30, 31, 30, 31, 31, 30, 31, 30, 31]

def makeDay (year : ℤ) (month date : ℕ) : ℤ :=
  dayFromYear year + ((monthLengths year).take (month - 1)).sum + (date - 1)

/-- The largest year that begins on or before the day. -/
def yearFromDay (day : ℤ) : ℤ :=
  let latest := 1970 + day / (if day < 0 then 366 else 365)
  (((List.range 8).map fun (back : ℕ) ↦ latest - back).find? (dayFromYear · ≤ day)).getD latest

/-- The month and the day in it, from the day within the year. -/
def monthAndDate : ℕ → ℤ → List ℤ → ℕ × ℤ
  | month, day, length :: lengths =>
      if day < length then (month, day + 1) else monthAndDate (month + 1) (day - length) lengths
  | month, day, [] => (month, day + 1)

def paddedNumber (width : ℕ) (n : ℕ) : JsString := padStartZero width (digitsText n)

def msPerDay : ℤ := 86400000

/-- `new Date(time).toISOString()` -/
def toISOString (time : ℤ) : JsString :=
  let day := time / msPerDay
  let inDay := (time % msPerDay).toNat
  let year := yearFromDay day
  let (month, date) := monthAndDate 1 (day - dayFromYear year) (monthLengths year)
  let yearText :=
    if 0 ≤ year ∧ year ≤ 9999 then paddedNumber 4 year.toNat
    else (if year < 0 then js "-" else js "+") ++ paddedNumber 6 year.natAbs
  yearText ++ js "-" ++ paddedNumber 2 month ++ js "-" ++ paddedNumber 2 date.toNat ++ js "T" ++
    paddedNumber 2 (inDay / 3600000) ++ js ":" ++ paddedNumber 2 (inDay / 60000 % 60) ++ js ":" ++
      paddedNumber 2 (inDay / 1000 % 60) ++ js "." ++ paddedNumber 3 (inDay % 1000) ++ js "Z"

/-- The fraction digits of a timestamp, between the seconds and the final `Z`. -/
def fractionDigits (value : JsString) : JsString := (value.drop 20).dropLast

def padEndZero (width : ℕ) (s : JsString) : JsString :=
  s ++ List.replicate (width - s.length) 0x30

/-- `Date.parse` of a text that matches `isUtcForm`. -/
def dateParseUtc (value : JsString) : Option ℤ :=
  let number (start width : ℕ) : ℕ := readDigits ((value.drop start).take width)
  let month := number 5 2
  let date := number 8 2
  let hour := number 11 2
  let minute := number 14 2
  let second := number 17 2
  let ms := readDigits (padEndZero 3 (fractionDigits value))
  if 1 ≤ month ∧ month ≤ 12 ∧ 1 ≤ date ∧ date ≤ 31 ∧
      (hour < 24 ∧ minute < 60 ∧ second < 60 ∨ hour = 24 ∧ minute = 0 ∧ second = 0 ∧ ms = 0) then
    some (makeDay (number 0 4) month date * msPerDay +
      (hour * 3600000 + minute * 60000 + second * 1000 + ms : ℕ))
  else none

/-- `/^[0-9]{4}-[0-9]{2}-[0-9]{2}T[0-9]{2}:[0-9]{2}:[0-9]{2}(?:\.[0-9]{1,3})?Z$/` -/
def isUtcForm (value : JsString) : Bool :=
  matchesClasses dateTimeClasses (value.take 19) &&
    (value.drop 19 == [0x5A] ||
      [1, 2, 3].any fun width ↦ matchesClasses
        (literal 0x2E :: List.replicate width isDigit ++ [literal 0x5A]) (value.drop 19))

/-- The timestamp with three fraction digits. -/
def withMilliseconds (value : JsString) : JsString :=
  value.take 19 ++ js "." ++
    padEndZero 3 (if includes value (js ".") then fractionDigits value else []) ++ js "Z"

def isStrictIsoUtc (value : JsString) : Bool :=
  isUtcForm value && (dateParseUtc value).any (toISOString · == withMilliseconds value)

example : isStrictIsoUtc (js "2024-02-29T23:59:59.5Z") = true := by decide

example : isStrictIsoUtc (js "2023-02-29T00:00:00Z") = false := by decide

end TestIntelligence.Js
