import Kaleidoscope.Library.Calendar
import Kaleidoscope.Library.Decimal

/-!
# Timestamps of the command line

Nanoseconds since the epoch are written and read as UTC timestamps. The arithmetic from dates to
days and back is Hinnant's; integers that are proved to stay in their range are unbounded.
-/

namespace Kaleidoscope.Cli

open Utf8 Decimal

/-- `civil_from_days`. -/
def civilFromDays (z : Int) : Int × Nat × Nat :=
  let z := z + 719468
  let era := (if 0 ≤ z then z else z - 146096).tdiv 146097
  let doe := z - era * 146097
  let yoe := (doe - doe / 1460 + doe / 36524 - doe / 146096) / 365
  let y := yoe + era * 400
  let doy := doe - (365 * yoe + yoe / 4 - yoe / 100)
  let mp := (5 * doy + 2) / 153
  let d := doy - (153 * mp + 2) / 5 + 1
  let m := if mp < 10 then mp + 3 else mp - 9
  (y + if m ≤ 2 then 1 else 0, m.toNat, d.toNat)

/-- `days_from_civil`. -/
def daysFromCivil (y : Int) (m d : Nat) : Int :=
  let y := y - if m ≤ 2 then 1 else 0
  let era := (if 0 ≤ y then y else y - 399).tdiv 400
  let yoe := y - era * 400
  let doy := (153 * (if 2 < m then (m : Int) - 3 else m + 9) + 2) / 5 + d - 1
  let doe := yoe * 365 + yoe / 4 - yoe / 100 + doy
  era * 146097 + doe - 719468

/-- `{:04}` of a year. -/
def yearText (year : Int) : Text :=
  if 0 ≤ year then fixed 4 year.toNat else '-' :: fixed 3 year.natAbs

/-- `format_iso8601_utc_nanos`. -/
def formatIso8601UtcNanos (ns : UInt64) : String :=
  let totalSeconds := ns.toNat / 1000000000
  let nanosOfSecond := ns.toNat % 1000000000
  let totalDays := totalSeconds / 86400
  let secsOfDay := totalSeconds % 86400
  let hour := secsOfDay / 3600
  let minute := secsOfDay % 3600 / 60
  let second := secsOfDay % 60
  let (year, month, day) := civilFromDays totalDays
  String.ofList (yearText year ++ '-' :: fixed 2 month ++ '-' :: fixed 2 day ++ 'T' ::
    fixed 2 hour ++ ':' :: fixed 2 minute ++ ':' :: fixed 2 second ++ '.' ::
    fixed 9 nanosOfSecond ++ ['Z'])

/-- `IsoParseError`. -/
inductive IsoParseError where
  | badLength (len : Nat)
  | badPunctuation (pos : Nat) (expected got : Char)
  | nonDigit (pos : Nat)
  | outOfRange (field : String) (value : Nat)
  deriving DecidableEq, Repr

/-- `punct`. -/
def punct (bytes : Bytes) (pos : Nat) (expected : Char) : Except IsoParseError Unit :=
  let got := Char.ofNat (bytes.getD pos 0).toNat
  if got ≠ expected then .error (.badPunctuation pos expected got) else .ok ()

/-- The loop over the digits of a slice, which the source has once in `digits` and once for the
fraction. -/
def accumulate (acc pos : Nat) : Bytes → Except IsoParseError Nat
  | [] => .ok acc
  | b :: bytes =>
    if 48 ≤ b.toNat ∧ b.toNat ≤ 57 then accumulate (acc * 10 + (b.toNat - 48)) (pos + 1) bytes
    else .error (.nonDigit pos)

/-- `digits`. -/
def digits (bytes : Bytes) (first toExclusive : Nat) : Except IsoParseError Nat :=
  accumulate 0 first ((bytes.take toExclusive).drop first)

/-- `is_leap_year`. -/
def isLeapYear (year : Nat) : Bool := (year % 4 == 0 && year % 100 != 0) || year % 400 == 0

/-- `days_in_month`, of a month from 1 to 12. -/
def daysInMonth (year month : Nat) : Nat :=
  match month with
  | 1 | 3 | 5 | 7 | 8 | 10 | 12 => 31
  | 4 | 6 | 9 | 11 => 30
  | _ => if isLeapYear year then 29 else 28

/-- What `parse_iso8601_utc_nanos` has read before it computes. -/
structure Components where
  year : Nat
  month : Nat
  day : Nat
  hour : Nat
  minute : Nat
  second : Nat
  fractionalNanos : Nat
  deriving DecidableEq, Repr

/-- A component in its range. -/
def inRange (field : String) (value low high : Nat) : Except IsoParseError Unit :=
  if low ≤ value ∧ value ≤ high then .ok () else .error (.outOfRange field value)

/-- Whether a text of this length has a fraction. -/
def hasFraction (len : Nat) : Except IsoParseError Bool :=
  if len = 20 then .ok false
  else if 22 ≤ len ∧ len ≤ 30 then .ok true
  else .error (.badLength len)

/-- The punctuation after the seconds. -/
def punctEnd (bytes : Bytes) (fraction : Bool) : Except IsoParseError Unit :=
  if fraction then do
    punct bytes 19 '.'
    punct bytes (bytes.length - 1) 'Z'
  else punct bytes 19 'Z'

/-- The nanoseconds of the fraction, scaled from its number of digits. -/
def fractionalNanos (bytes : Bytes) (fraction : Bool) : Except IsoParseError Nat :=
  if fraction then
    let fracEnd := bytes.length - 1
    (digits bytes 20 fracEnd).map fun acc => acc * 10 ^ (9 - (fracEnd - 20))
  else .ok 0

/-- The checks of `parse_iso8601_utc_nanos`, in their order. -/
def readComponents (bytes : Bytes) : Except IsoParseError Components := do
  let fraction ← hasFraction bytes.length
  punct bytes 4 '-'
  punct bytes 7 '-'
  punct bytes 10 'T'
  punct bytes 13 ':'
  punct bytes 16 ':'
  punctEnd bytes fraction
  let year ← digits bytes 0 4
  let month ← digits bytes 5 7
  let day ← digits bytes 8 10
  let hour ← digits bytes 11 13
  let minute ← digits bytes 14 16
  let second ← digits bytes 17 19
  inRange "year" year 1970 9999
  inRange "month" month 1 12
  inRange "day" day 1 (daysInMonth year month)
  inRange "hour" hour 0 23
  inRange "minute" minute 0 59
  inRange "second" second 0 59
  let fractionalNanos ← fractionalNanos bytes fraction
  return { year, month, day, hour, minute, second, fractionalNanos }

/-- How the arithmetic of `u64` was compiled. -/
inductive Arithmetic where
  | panicking
  | wrapping
  deriving DecidableEq, Repr

/-- The result of an operation on `u64`; none where it panics. -/
def Arithmetic.result (arithmetic : Arithmetic) (exact : Nat) : Option Nat :=
  if exact < 2 ^ 64 then some exact
  else
    match arithmetic with
    | .panicking => none
    | .wrapping => some (exact % 2 ^ 64)

/-- The computation of `parse_iso8601_utc_nanos`. -/
def totalNanos (arithmetic : Arithmetic) (c : Components) : Option Nat := do
  let dayIndex := daysFromCivil c.year c.month c.day
  let secsOfDay := c.hour * 3600 + c.minute * 60 + c.second
  let secsOfDays ← arithmetic.result (dayIndex.toNat * 86400)
  let totalSeconds ← arithmetic.result (secsOfDays + secsOfDay)
  let nanosOfSeconds ← arithmetic.result (totalSeconds * 1000000000)
  arithmetic.result (nanosOfSeconds + c.fractionalNanos)

/-- `parse_iso8601_utc_nanos`; none where it panics. -/
def parseIso8601UtcNanos (arithmetic : Arithmetic) (s : String) :
    Option (Except IsoParseError Nat) :=
  match readComponents (asBytes s.toList) with
  | .error e => some (.error e)
  | .ok components => (totalNanos arithmetic components).map .ok

end Kaleidoscope.Cli
