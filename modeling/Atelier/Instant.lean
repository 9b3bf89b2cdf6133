import Atelier.Checked
import Atelier.Decimal.Digits
import Atelier.Text

/-!
Points in time and their texts. An instant counts seconds since the start of 1970 and nanoseconds
within the second; a second that is inserted into the calendar appears as the second before it with
10⁹ nanoseconds or more.
-/

namespace Atelier

structure Instant where
  seconds : Int
  nanos : Nat
deriving DecidableEq

/-- Spans of time are counted in nanoseconds. -/
abbrev Span := Int

namespace Span

def ofSeconds (s : Int) : Span := s * 1000000000

def ofMillis (ms : Int) : Span := ms * 1000000

/-- The longest span in whole seconds. -/
def maxSeconds : Int := 9223372036854775

def ofSecondsChecked (s : Int) : Checked Span :=
  if -maxSeconds ≤ s ∧ s ≤ maxSeconds then .ok (ofSeconds s) else .error .spanTooLong

/-- The longest span in milliseconds. -/
def maxMillis : Int := 9223372036854775807

def ofMillisChecked (ms : Int) : Checked Span :=
  if -maxMillis ≤ ms ∧ ms ≤ maxMillis then .ok (ofMillis ms) else .error .spanTooLong

end Span

structure Date where
  year : Int
  month : Nat
  day : Nat
deriving DecidableEq

namespace Date

def isLeap (year : Int) : Bool :=
  year % 4 = 0 && (year % 100 != 0 || year % 400 = 0)

def monthLength (year : Int) : Nat → Nat
  | 2 => if isLeap year then 29 else 28
  | 4 | 6 | 9 | 11 => 30
  | _ => 31

def IsValid (d : Date) : Prop :=
  (1 ≤ d.month ∧ d.month ≤ 12) ∧ 1 ≤ d.day ∧ d.day ≤ monthLength d.year d.month

instance (d : Date) : Decidable d.IsValid := by
  unfold IsValid
  infer_instance

-- Years are taken to begin in March, so that the day that leap years add comes last.
/-- Days since the start of 1970. -/
def toDays (d : Date) : Int :=
  let year := if d.month ≤ 2 then d.year - 1 else d.year
  let month : Int := if d.month ≤ 2 then d.month + 9 else d.month - 3
  let era := year / 400
  let yearOfEra := year % 400
  let dayOfYear := (153 * month + 2) / 5 + d.day - 1
  let dayOfEra := yearOfEra * 365 + yearOfEra / 4 - yearOfEra / 100 + dayOfYear
  era * 146097 + dayOfEra - 719468

def ofDays (days : Int) : Date :=
  let shifted := days + 719468
  let era := shifted / 146097
  let dayOfEra := shifted % 146097
  let yearOfEra := (dayOfEra - dayOfEra / 1460 + dayOfEra / 36524 - dayOfEra / 146096) / 365
  let dayOfYear := dayOfEra - (365 * yearOfEra + yearOfEra / 4 - yearOfEra / 100)
  let month := (5 * dayOfYear + 2) / 153
  let day := dayOfYear - (153 * month + 2) / 5 + 1
  let year := era * 400 + yearOfEra
  if month < 10 then
    ⟨year, (month + 3).toNat, day.toNat⟩
  else
    ⟨year + 1, (month - 9).toNat, day.toNat⟩

end Date

namespace Instant

def secondsPerDay : Int := 86400

def ofMillis (ms : Int) : Instant :=
  ⟨ms / 1000, (ms % 1000).toNat * 1000000⟩

def timeOfDay (t : Instant) : Int := t.seconds % secondsPerDay

/-- The time from `t` to `u`. The rest of an inserted second is counted if the other time of day is
past it. -/
def since (u t : Instant) : Span :=
  let plain := (u.seconds - t.seconds) * 1000000000 + (u.nanos - t.nanos)
  if u.timeOfDay > t.timeOfDay ∧ t.nanos ≥ 1000000000 then plain + 1000000000
  else if u.timeOfDay < t.timeOfDay ∧ u.nanos ≥ 1000000000 then plain - 1000000000
  else plain

/-- The calendar has years of six digits, up to these. -/
def minDay : Int := Date.toDays ⟨-262143, 1, 1⟩

def maxDay : Int := Date.toDays ⟨262142, 12, 31⟩

def InCalendar (t : Instant) : Prop :=
  minDay ≤ t.seconds / secondsPerDay ∧ t.seconds / secondsPerDay ≤ maxDay

instance (t : Instant) : Decidable t.InCalendar := by
  unfold InCalendar
  infer_instance

def ofMillisChecked (ms : Int) : Checked Instant :=
  let t := ofMillis ms
  if t.InCalendar then .ok t else .error .spanTooLong

open Decimal

def yearText (y : Int) : List Char :=
  if 0 ≤ y ∧ y ≤ 9999 then
    padded 4 y.natAbs
  else
    (if y < 0 then '-' else '+') :: padded 4 y.natAbs

/-- The fraction of a second in as many digits as it takes: none, three, six or nine. -/
def fractionText (nanos : Nat) : List Char :=
  if nanos = 0 then []
  else if nanos % 1000000 = 0 then '.' :: padded 3 (nanos / 1000000)
  else if nanos % 1000 = 0 then '.' :: padded 6 (nanos / 1000)
  else '.' :: padded 9 nanos

def dateText (separator : List Char) (d : Date) : List Char :=
  yearText d.year ++ separator ++ padded 2 d.month ++ separator ++ padded 2 d.day

def clockText (separator : List Char) (timeOfDay inserted : Nat) : List Char :=
  padded 2 (timeOfDay / 3600) ++ separator ++ padded 2 (timeOfDay / 60 % 60) ++ separator ++
    padded 2 (timeOfDay % 60 + inserted)

def date (t : Instant) : Date :=
  .ofDays (t.seconds / secondsPerDay)

/-- Date and time of day, without their zone. -/
def dateTime (t : Instant) : List Char :=
  let inserted := t.nanos / 1000000000
  dateText ['-'] t.date ++ ['T'] ++ clockText [':'] t.timeOfDay.toNat inserted ++
    fractionText (t.nanos % 1000000000)

/-- Date and time of day in UTC. -/
def chars (t : Instant) : List Char :=
  t.dateTime ++ ['Z']

def text (t : Instant) : String :=
  String.ofList t.chars

/-- Date and time of day without marks. Files are named by that of the time which local clocks show. -/
def stamp (t : Instant) : String :=
  String.ofList <|
    dateText [] t.date ++ ['_'] ++ clockText [] t.timeOfDay.toNat (t.nanos / 1000000000)

/-- Between one digit and `width` digits, after blanks. -/
def readNumber (width : Nat) (cs : List Char) : Option (Nat × List Char) :=
  let cs := cs.dropWhile Text.isBlank
  let ds := (cs.take width).takeWhile Char.isDigit
  if ds.isEmpty then none else some (value ds, cs.drop ds.length)

/-- A year has four digits at most, or a sign and any number of digits. -/
def readYear (cs : List Char) : Option (Int × List Char) :=
  let signed (sign : Int) (cs : List Char) : Option (Int × List Char) :=
    let ds := cs.takeWhile Char.isDigit
    if ds.isEmpty then none else some (sign * value ds, cs.drop ds.length)
  match cs.dropWhile Text.isBlank with
  | '-' :: rest => signed (-1) rest
  | '+' :: rest => signed 1 rest
  | cs => (readNumber 4 cs).map fun (n, cs) => ((n : Int), cs)

/-- A mark, after blanks. -/
def expect (c : Char) (cs : List Char) : Option (List Char) :=
  match cs.dropWhile Text.isBlank with
  | d :: cs => if c = d then some cs else none
  | [] => none

/-- Digits after a point count as a fraction of a second; from the tenth on they are passed over. -/
def readFraction : List Char → Option (Nat × List Char)
  | '.' :: rest =>
    let ds := rest.takeWhile Char.isDigit
    let kept := ds.take 9
    if ds.isEmpty then none
    else some (value kept * ten (9 - kept.length), rest.drop ds.length)
  | cs => some (0, cs)

def twoDigits : List Char → Option (Nat × List Char)
  | a :: b :: rest => if a.isDigit && b.isDigit then some (value [a, b], rest) else none
  | _ => none

/-- The offset of a zone in seconds, east of Greenwich. -/
def readZone (cs : List Char) : Option (Int × List Char) :=
  if (cs.take 3).map Char.toUpper = ['U', 'T', 'C'] then
    some (0, cs.drop 3)
  else
    let offset (sign : Int) (cs : List Char) : Option (Int × List Char) := do
      let (hours, cs) ← twoDigits cs
      let (minutes, cs) ← twoDigits (cs.dropWhile fun c => c = ':' || Text.isBlank c)
      if minutes < 60 ∧ hours < 24 then
        some (sign * (hours * 3600 + minutes * 60 : Nat), cs)
      else
        none
    match cs with
    | 'Z' :: cs => some (0, cs)
    | 'z' :: cs => some (0, cs)
    | '+' :: cs => offset 1 cs
    | '-' :: cs => offset (-1) cs
    | '\u2212' :: cs => offset (-1) cs
    | _ => none

/-- Reads date, time of day and zone. The time of day may name an inserted second. -/
def readChars (cs : List Char) : Option Instant := do
  let (year, cs) ← readYear cs
  let (month, cs) ← readNumber 2 (← expect '-' cs)
  let (day, cs) ← readNumber 2 (← expect '-' cs)
  let cs ←
    match cs with
    | 'T' :: cs | 't' :: cs | ' ' :: cs => some cs
    | _ => none
  let (hour, cs) ← readNumber 2 cs
  let (minute, cs) ← readNumber 2 (← expect ':' cs)
  let (second, cs) ← readNumber 2 (← expect ':' cs)
  let (nanos, cs) ← readFraction cs
  let (zone, cs) ← readZone (cs.dropWhile Text.isBlank)
  if !(cs.dropWhile Text.isBlank).isEmpty then
    none
  let d : Date := ⟨year, month, day⟩
  if ¬d.IsValid ∨ d.toDays < minDay ∨ maxDay < d.toDays ∨ hour > 23 ∨ minute > 59 ∨ second > 60 then
    none
  let inserted := second / 60
  let t : Instant :=
    ⟨d.toDays * secondsPerDay + (hour * 3600 + minute * 60 + (second - inserted) : Nat) - zone,
      nanos + inserted * 1000000000⟩
  if t.InCalendar then some t else none

def read (s : String) : Option Instant :=
  readChars s.toList

end Instant

end Atelier
