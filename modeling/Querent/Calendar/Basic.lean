import Querent.Decimal.Digits

/-! Dates of the Gregorian calendar, times of day and moments, to the nanosecond. -/
namespace Querent

def isLeapYear (year : Int) : Bool := year % 4 == 0 && (year % 100 != 0 || year % 400 == 0)

def daysInMonth (year : Int) (month : Nat) : Nat :=
  match month with
  | 2 => if isLeapYear year then 29 else 28
  | 4 | 6 | 9 | 11 => 30
  | _ => 31

/-- A day, in a year from -262143 to 262142. -/
structure Date where
  year : Int
  month : Nat
  day : Nat
  year_in : -262143 ≤ year ∧ year ≤ 262142
  month_in : 1 ≤ month ∧ month ≤ 12
  day_in : 1 ≤ day ∧ day ≤ daysInMonth year month
deriving DecidableEq

/-- A second of the day and its fraction. A fraction of a second or more stands for a leap second,
which only the last second of a minute has. -/
structure Time where
  hour : Nat
  minute : Nat
  second : Nat
  nanos : Nat
  clock_in : hour < 24 ∧ minute < 60 ∧ second < 60
  nanos_in : nanos < 1_000_000_000 ∨ second = 59 ∧ nanos < 2_000_000_000
deriving DecidableEq

structure Moment where
  date : Date
  time : Time
deriving DecidableEq

namespace Date

/-- The day of a year, month and day, if there is one. -/
def of? (year : Int) (month day : Nat) : Option Date :=
  if hy : -262143 ≤ year ∧ year ≤ 262142 then
    if hm : 1 ≤ month ∧ month ≤ 12 then
      if hd : 1 ≤ day ∧ day ≤ daysInMonth year month then
        some ⟨year, month, day, hy, hm, hd⟩
      else none
    else none
  else none

/-- The day after. -/
def next? (d : Date) : Option Date :=
  if d.day < daysInMonth d.year d.month then of? d.year d.month (d.day + 1)
  else if d.month < 12 then of? d.year (d.month + 1) 1
  else of? (d.year + 1) 1 1

/-- The day before. -/
def previous? (d : Date) : Option Date :=
  if 1 < d.day then of? d.year d.month (d.day - 1)
  else if 1 < d.month then of? d.year (d.month - 1) (daysInMonth d.year (d.month - 1))
  else of? (d.year - 1) 12 31

def key (d : Date) : List Int := [d.year, d.month, d.day]

end Date

namespace Time

def of? (hour minute second nanos : Nat) : Option Time :=
  if hc : hour < 24 ∧ minute < 60 ∧ second < 60 then
    if hn : nanos < 1_000_000_000 ∨ second = 59 ∧ nanos < 2_000_000_000 then
      some ⟨hour, minute, second, nanos, hc, hn⟩
    else none
  else none

def midnight : Time := ⟨0, 0, 0, 0, by decide, by decide⟩

def key (t : Time) : List Int := [t.hour, t.minute, t.second, t.nanos]

end Time

namespace Moment

/-- The parts of a moment, the most significant first: later moments have later keys. -/
def key (m : Moment) : List Int := m.date.key ++ m.time.key

def isUpTo (a b : Moment) : Bool := !(b.key < a.key)

/-- The moment some minutes, less than a day, before. -/
def minus? (m : Moment) (minutes : Int) : Option Moment :=
  let n := (m.time.hour : Int) * 60 + m.time.minute - minutes
  let date := if n < 0 then m.date.previous? else if n < 1440 then some m.date else m.date.next?
  let n := (n % 1440).toNat
  match date, Time.of? (n / 60) (n % 60) m.time.second m.time.nanos with
  | some date, some time => some { date, time }
  | _, _ => none

end Moment

/-! Dates and times as text. -/

open Decimal (padded)

/-- Four digits, and a sign before them outside the years 0 to 9999. -/
def yearText (year : Int) : String :=
  if 0 ≤ year && year ≤ 9999 then padded 4 year.toNat
  else (if year < 0 then "-" else "+") ++ padded 4 year.natAbs

/-- The year, the month and the day with hyphens between them. -/
def Date.text (d : Date) : String :=
  yearText d.year ++ "-" ++ padded 2 d.month ++ "-" ++ padded 2 d.day

namespace Time

/-- The second as shown: a leap second is the sixtieth. -/
def shownSecond (t : Time) : Nat := t.second + t.nanos / 1_000_000_000

/-- Hours, minutes and seconds. -/
def clockText (t : Time) : String :=
  padded 2 t.hour ++ ":" ++ padded 2 t.minute ++ ":" ++ padded 2 t.shownSecond

/-- The fraction cut to milliseconds. -/
def milliText (t : Time) : String := "." ++ padded 3 (t.nanos % 1_000_000_000 / 1_000_000)

/-- The fraction in none, three, six or nine digits, the fewest that lose nothing. -/
def fractionText (t : Time) : String :=
  let n := t.nanos % 1_000_000_000
  if n == 0 then ""
  else if n % 1_000_000 == 0 then "." ++ padded 3 (n / 1_000_000)
  else if n % 1000 == 0 then "." ++ padded 6 (n / 1000)
  else "." ++ padded 9 n

def text (t : Time) : String := t.clockText ++ t.fractionText

end Time

namespace Moment

/-- To the millisecond, with no zone. -/
def milliText (m : Moment) : String :=
  m.date.text ++ "T" ++ m.time.clockText ++ m.time.milliText

/-- In universal time, with all of its fraction. -/
def zonedText (m : Moment) : String := m.date.text ++ "T" ++ m.time.text ++ "Z"

end Moment

end Querent
