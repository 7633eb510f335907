import SchemaBoard.Decimal.Literal
import SchemaBoard.Decimal.Style
import SchemaBoard.Yaml.Token

set_option autoImplicit false

/-!
Dates and times of documents, in the calendar that is in use today, carried back to the year one.
-/
namespace SchemaBoard.Yaml

structure Date where
  year : Nat
  month : Nat
  day : Nat
deriving DecidableEq, Repr

/-- A day and a time of that day; the zone is given in minutes ahead of universal time. -/
structure Moment extends Date where
  hour : Nat
  minute : Nat
  second : Nat
  microsecond : Nat
  zone : Option Int
deriving DecidableEq, Repr

def isLeapYear (year : Nat) : Bool := year % 4 == 0 && (year % 100 ≠ 0 || year % 400 == 0)

def daysInMonth (year month : Nat) : Nat :=
  if month = 2 then if isLeapYear year then 29 else 28
  else if month = 4 || month = 6 || month = 9 || month = 11 then 30
  else 31

/-- The day, if it exists. -/
def Date.check (date : Date) : Except Failure Date :=
  if date.year = 0 then .error .yearZero
  else if date.month = 0 || 12 < date.month then .error .noSuchMonth
  else if date.day = 0 || daysInMonth date.year date.month < date.day then .error .noSuchDay
  else .ok date

/-- The number of days of a year in its first `months` months. -/
def daysOfMonths (year : Nat) : (months : Nat) → Nat
  | 0 => 0
  | months + 1 => daysOfMonths year months + daysInMonth year (months + 1)

/-- The number of days from the first day of the year one. -/
def Date.ordinal (date : Date) : Nat :=
  let years := date.year - 1
  365 * years + years / 4 - years / 100 + years / 400 + daysOfMonths date.year (date.month - 1) +
    date.day - 1

def Date.text (date : Date) : Text :=
  Decimal.padded 4 date.year ++ .char '-' :: Decimal.padded 2 date.month ++
    .char '-' :: Decimal.padded 2 date.day

/-- The moment in microseconds, by its own clock. -/
def Moment.clock (moment : Moment) : Int :=
  ((((moment.toDate.ordinal * 24 + moment.hour) * 60 + moment.minute) * 60 + moment.second) *
    1000000 + moment.microsecond : Nat)

/-- The moment in microseconds, by universal time if its zone is known. -/
def Moment.instant (moment : Moment) : Int :=
  moment.clock - moment.zone.getD 0 * 60000000

/-- A zone as text: a sign, hours and minutes. -/
def zoneText (minutes : Int) : Text :=
  let size := minutes.natAbs
  let sign : CodePoint := if minutes < 0 then '-' else '+'
  sign :: Decimal.padded 2 (size / 60) ++ .char ':' :: Decimal.padded 2 (size % 60)

/-- The moment as text. Microseconds are left out if there are none. -/
def Moment.text (moment : Moment) : Text :=
  moment.toDate.text ++ .char ' ' :: Decimal.padded 2 moment.hour ++
    .char ':' :: Decimal.padded 2 moment.minute ++ .char ':' :: Decimal.padded 2 moment.second ++
    (if moment.microsecond = 0 then [] else .char '.' :: Decimal.padded 6 moment.microsecond) ++
    (match moment.zone with
      | some minutes => zoneText minutes
      | none => [])

/-! ### Written forms -/

/-- Between `least` and `most` digits at the start of a text, and the rest. -/
def digits? (least most : Nat) (text : Text) : Option (Text × Text) :=
  let found := (text.take most).takeWhile CodePoint.isDigit
  if found.length < least then none else some (found, text.drop found.length)

/-- The text behind a character that has to stand at its start. -/
def behind? (c : CodePoint) (text : Text) : Option Text :=
  match text with
  | d :: rest => if d = c then some rest else none
  | [] => none

/-- A time of day as it is written: hour, minute, second, fraction and zone. -/
structure WrittenTime where
  hour : Nat
  minute : Nat
  second : Nat
  fraction : Text
  /-- Universal time, or a sign with hours and minutes. -/
  zone : Option (Bool × Nat × Nat)

def isSpaceOrTab (c : CodePoint) : Bool := c == ' ' || c == '\t'

/-- A zone at the end of a text, where there may be none. -/
def zone? (text : Text) : Option (Option (Bool × Nat × Nat)) :=
  match text with
  | [] => some none
  | _ =>
    match text.dropWhile isSpaceOrTab with
    | [.char 'Z'] => some (some (false, 0, 0))
    | sign :: rest =>
      if sign == '+' || sign == '-' then
        match digits? 1 2 rest with
        | some (hours, []) => some (some (sign == '-', Decimal.digitsValue hours, 0))
        | some (hours, .char ':' :: rest) =>
          match digits? 2 2 rest with
          | some (minutes, []) =>
            some (some (sign == '-', Decimal.digitsValue hours, Decimal.digitsValue minutes))
          | _ => none
        | _ => none
      else none
    | [] => none

/-- The gap between a day and a time: `T`, or spaces and tabs. -/
def behindDayGap? (text : Text) : Option Text :=
  match text with
  | c :: rest =>
    if c == 'T' || c == 't' then some rest
    else if isSpaceOrTab c then some (rest.dropWhile isSpaceOrTab)
    else none
  | [] => none

def writtenTime? (text : Text) : Option WrittenTime := do
  let text ← behindDayGap? text
  let (hour, text) ← digits? 1 2 text
  let text ← behind? ':' text
  let (minute, text) ← digits? 2 2 text
  let text ← behind? ':' text
  let (second, text) ← digits? 2 2 text
  let (fraction, text) :=
    match text with
    | .char '.' :: rest => (rest.takeWhile CodePoint.isDigit, rest.dropWhile CodePoint.isDigit)
    | rest => ([], rest)
  let zone ← zone? text
  return { hour := Decimal.digitsValue hour, minute := Decimal.digitsValue minute,
           second := Decimal.digitsValue second, fraction := fraction, zone := zone }

/-- A day with at least `least` digits for month and day, and what stands behind it. -/
def writtenDay? (least : Nat) (text : Text) : Option (Date × Text) := do
  let (year, text) ← digits? 4 4 text
  let text ← behind? '-' text
  let (month, text) ← digits? least 2 text
  let text ← behind? '-' text
  let (day, text) ← digits? least 2 text
  return ({ year := Decimal.digitsValue year, month := Decimal.digitsValue month,
            day := Decimal.digitsValue day }, text)

/-- Whether a text is written as a day, with two digits for month and day, or as a moment. -/
def isMomentForm (text : Text) : Bool :=
  (match writtenDay? 2 text with
    | some (_, []) => true
    | _ => false) ||
  (match writtenDay? 1 text with
    | some (_, rest) => (writtenTime? rest).isSome
    | none => false)

/-- A zone in minutes. A day or more is too far. -/
def checkZone (zone : Bool × Nat × Nat) : Except Failure Int :=
  let (negative, hours, minutes) := zone
  let total := Decimal.withSign negative (hours * 60 + minutes)
  if total.natAbs < 1440 then .ok total
  else .error (.farZone (Int.fdiv total 1440) (Int.fmod total 1440 * 60))

/-- The first six digits of a fraction, in microseconds. -/
def microseconds (fraction : Text) : Nat :=
  let digits := fraction.take 6
  Decimal.digitsValue (digits ++ List.replicate (6 - digits.length) (.char '0'))

def Moment.ofWritten (date : Date) (time : WrittenTime) : Except Failure Moment := do
  let zone ← match time.zone with
    | none => pure none
    | some zone => (checkZone zone).map some
  let date ← date.check
  if 23 < time.hour then .error .noSuchHour
  else if 59 < time.minute then .error .noSuchMinute
  else if 59 < time.second then .error .noSuchSecond
  else
    return { toDate := date, hour := time.hour, minute := time.minute, second := time.second,
             microsecond := microseconds time.fraction, zone := zone }

end SchemaBoard.Yaml
