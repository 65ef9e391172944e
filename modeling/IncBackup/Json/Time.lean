import IncBackup.Json.Value

/-!
# Times as JSON

`time.Time` writes itself as an RFC 3339 string with nanoseconds, `Time.MarshalJSON`, and
reads such a string back with `time.Parse(RFC3339, ...)`, `Time.UnmarshalJSON`.  The date
fields are those of the proleptic Gregorian calendar in the time's own offset; RFC 3339 has
room for four year digits only, so `MarshalJSON` fails outside the years 0 to 9999.  The
zone is written in whole minutes.

The calendar is computed with the era arithmetic of days since 1970-01-01 (a 400-year era
has 146097 days).
-/

namespace IncBackup

namespace Time

/-! ## The calendar -/

/-- Days since 1970-01-01 of a date. -/
def daysFromCivil (year : Int) (month day : Nat) : Int :=
  let year := if month ≤ 2 then year - 1 else year
  let era := year / 400
  let yearOfEra := year % 400
  let shifted : Int := if 2 < month then month - 3 else month + 9
  let dayOfYear := (153 * shifted + 2) / 5 + day - 1
  let dayOfEra := yearOfEra * 365 + yearOfEra / 4 - yearOfEra / 100 + dayOfYear
  era * 146097 + dayOfEra - 719468

/-- The date (year, month, day) of a count of days since 1970-01-01. -/
def civilFromDays (days : Int) : Int × Nat × Nat :=
  let days := days + 719468
  let era := days / 146097
  let dayOfEra := days % 146097
  let yearOfEra := (dayOfEra - dayOfEra / 1460 + dayOfEra / 36524 - dayOfEra / 146096) / 365
  let dayOfYear := dayOfEra - (365 * yearOfEra + yearOfEra / 4 - yearOfEra / 100)
  let shifted := (5 * dayOfYear + 2) / 153
  let day := dayOfYear - (153 * shifted + 2) / 5 + 1
  let month := if shifted < 10 then shifted + 3 else shifted - 9
  (yearOfEra + era * 400 + if month ≤ 2 then 1 else 0, month.toNat, day.toNat)

/-- Whether a year of the proleptic Gregorian calendar is a leap year. -/
def isLeap (year : Int) : Bool := year % 4 = 0 && (year % 100 ≠ 0 || year % 400 = 0)

/-- The number of days of a month, `daysIn`. -/
def daysIn (year : Int) (month : Nat) : Nat :=
  if month = 2 then (if isLeap year then 29 else 28)
  else if month = 4 ∨ month = 6 ∨ month = 9 ∨ month = 11 then 30
  else 31

/-- Nanoseconds in a second. -/
def nanosPerSecond : Int := 1000000000

/-- Seconds since 1970-01-01 of the time's wall clock in its own offset. -/
def localSeconds (time : Time) : Int := time.unixNano / nanosPerSecond + time.offset

/-- `Time.Year` in the time's own offset. -/
def year (time : Time) : Int := (civilFromDays (time.localSeconds / 86400)).1

/-! ## Writing -/

/-- `appendInt(b, value, width)`: the decimal digits of a natural number, padded with zeros
to `width`. -/
def digits (width value : Nat) : GoString :=
  let text := (Nat.toDigits 10 value).map fun digit => (digit.toNat.toUInt8 : UInt8)
  List.replicate (width - text.length) 0x30 ++ text

/-- The nine digits of the nanoseconds with the trailing zeros cut, after a dot; nothing
for a whole second (the `.999999999` of `RFC3339Nano`). -/
def fraction (nanos : Nat) : GoString :=
  if nanos = 0 then []
  else 0x2E :: ((digits 9 nanos).reverse.dropWhile (· = 0x30)).reverse

/-- The zone of `RFC3339Nano`: `Z` for UTC, else the sign and the hours and minutes of the
offset. -/
def zone (offset : Int) : GoString :=
  if offset = 0 then ascii "Z"
  else
    let minutes := offset.natAbs / 60
    (if offset < 0 then ascii "-" else ascii "+") ++ digits 2 (minutes / 60) ++ ascii ":" ++
      digits 2 (minutes % 60)

/-- `time.Format(RFC3339Nano)`. -/
def formatRFC3339Nano (time : Time) : GoString :=
  let seconds := time.localSeconds
  let (year, month, day) := civilFromDays (seconds / 86400)
  let clock := (seconds % 86400).toNat
  digits 4 year.toNat ++ ascii "-" ++ digits 2 month ++ ascii "-" ++ digits 2 day ++ ascii "T" ++
    digits 2 (clock / 3600) ++ ascii ":" ++ digits 2 (clock / 60 % 60) ++ ascii ":" ++
    digits 2 (clock % 60) ++ fraction (time.unixNano % nanosPerSecond).toNat ++ zone time.offset

/-- `Time.MarshalJSON`. -/
def marshalJSON (time : Time) : Except String Json :=
  if time.year < 0 ∨ 10000 ≤ time.year then
    .error "Time.MarshalJSON: year outside of range [0,9999]"
  else .ok (.string (formatRFC3339Nano time))

/-! ## Reading -/

/-- A decimal digit's value. -/
def digitValue (byte : UInt8) : Option Nat :=
  if 0x30 ≤ byte ∧ byte ≤ 0x39 then some (byte.toNat - 0x30) else none

/-- `count` decimal digits, and the bytes after them. -/
def readDigits : Nat → Nat → GoString → Option (Nat × GoString)
  | 0, value, rest => some (value, rest)
  | count + 1, value, byte :: rest =>
    (digitValue byte).bind fun digit => readDigits count (10 * value + digit) rest
  | _ + 1, _, [] => none

/-- The digits of a fraction of a second: the nanoseconds of its first nine digits, scaled
from as many as there are, and the bytes after the last digit. -/
def readFraction : Nat → Nat → GoString → Nat × GoString
  | count, value, byte :: rest =>
    match digitValue byte with
    | some digit =>
      if count < 9 then readFraction (count + 1) (10 * value + digit) rest
      else readFraction count value rest
    | none => (value * 10 ^ (9 - count), byte :: rest)
  | count, value, [] => (value * 10 ^ (9 - count), [])

/-- The nanoseconds after the seconds: a dot and at least one digit, or nothing. -/
def readNanos : GoString → Option (Nat × GoString)
  | 0x2E :: byte :: rest =>
    (digitValue byte).map fun digit => readFraction 1 digit rest
  | rest => some (0, rest)

/-- The zone after the clock: `Z`, or a sign, hours, a colon and minutes; its offset in
seconds, and the bytes after it. -/
def readZone : GoString → Option (Int × GoString)
  | 0x5A :: rest => some (0, rest)
  | sign :: rest =>
    if sign = 0x2B ∨ sign = 0x2D then
      (readDigits 2 0 rest).bind fun (hours, rest) =>
        match rest with
        | 0x3A :: rest =>
          (readDigits 2 0 rest).map fun (minutes, rest) =>
            let offset : Int := 60 * (60 * hours + minutes)
            (if sign = 0x2D then -offset else offset, rest)
        | _ => none
    else none
  | [] => none

/-- The fields of an RFC 3339 time: year, month, day, hour, minute, second, nanoseconds and
offset; none where the text does not follow the layout. -/
def readFields (text : GoString) : Option (Nat × Nat × Nat × Nat × Nat × Nat × Nat × Int) := do
  let (year, rest) ← readDigits 4 0 text
  let rest ← match rest with | 0x2D :: rest => some rest | _ => none
  let (month, rest) ← readDigits 2 0 rest
  let rest ← match rest with | 0x2D :: rest => some rest | _ => none
  let (day, rest) ← readDigits 2 0 rest
  let rest ← match rest with | 0x54 :: rest => some rest | _ => none
  let (hour, rest) ← readDigits 2 0 rest
  let rest ← match rest with | 0x3A :: rest => some rest | _ => none
  let (minute, rest) ← readDigits 2 0 rest
  let rest ← match rest with | 0x3A :: rest => some rest | _ => none
  let (second, rest) ← readDigits 2 0 rest
  let (nanos, rest) ← readNanos rest
  let (offset, rest) ← readZone rest
  if rest = [] then some (year, month, day, hour, minute, second, nanos, offset) else none

/-- `time.Parse(RFC3339, text)`: the fields must follow the layout and lie in range. -/
def parseRFC3339 (text : GoString) : Except String Time :=
  match readFields text with
  | none => .error "parsing time: cannot parse as RFC3339"
  | some (year, month, day, hour, minute, second, nanos, offset) =>
    if month < 1 ∨ 12 < month then .error "parsing time: month out of range"
    else if day < 1 ∨ daysIn year month < day then .error "parsing time: day out of range"
    else if 24 ≤ hour ∨ 60 ≤ minute ∨ 60 ≤ second then
      .error "parsing time: hour, minute or second out of range"
    else
      let seconds := daysFromCivil year month day * 86400 + hour * 3600 + minute * 60 + second
      .ok ⟨(seconds - offset) * nanosPerSecond + nanos, offset⟩

/-- `Time.UnmarshalJSON` into a time that holds `current`: `null` leaves it. -/
def unmarshalJSON (current : Time) : Json → Except String Time
  | .null => .ok current
  | .string text => parseRFC3339 text
  | _ => .error "parsing time: cannot parse as RFC3339"

end Time

end IncBackup
