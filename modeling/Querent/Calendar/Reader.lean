import Querent.Calendar.Basic
import Querent.Decimal.Digits
import Querent.Text.Blank
import Querent.Text.Parts

/-! Moments read from text such as `2024-01-02T03:04:05.678+02:00`. White space is allowed between
the parts, a blank may stand for the `T`, and the zone is `Z`, `UTC` or an offset. -/
namespace Querent.Moment

open Text Decimal

/-- A number of one digit to `width` digits, with white space before it. -/
def readNumber (width : Nat) (cs : List Char) : Option (Nat × List Char) :=
  let cs := trimStart cs
  match (cs.take width).takeWhile Char.isDigit with
  | [] => none
  | ds => some (value ds, cs.drop ds.length)

/-- A year: four digits at most, or any number of them behind a sign. -/
def readYear (cs : List Char) : Option (Int × List Char) :=
  match trimStart cs with
  | '-' :: rest => signed rest |>.map fun (n, rest) => (-(n : Int), rest)
  | '+' :: rest => signed rest |>.map fun (n, rest) => ((n : Int), rest)
  | rest => (readNumber 4 rest).map fun (n, rest) => ((n : Int), rest)
where
  /-- Digits directly behind a sign. -/
  signed (cs : List Char) : Option (Nat × List Char) :=
    match cs.takeWhile Char.isDigit with
    | [] => none
    | ds => some (value ds, cs.drop ds.length)

/-- A mark between two parts, with white space before it. -/
def readMark (c : Char) (cs : List Char) : Option (List Char) :=
  match trimStart cs with
  | d :: rest => if d == c then some rest else none
  | [] => none

/-- The fraction of a second in nanoseconds; digits behind the ninth are passed over. -/
def readFraction (cs : List Char) : Option (Nat × List Char) :=
  match cs with
  | '.' :: cs =>
    match (cs.take 9).takeWhile Char.isDigit with
    | [] => none
    | ds => some (value ds * Nat.pow 10 (9 - ds.length), (cs.drop ds.length).dropWhile Char.isDigit)
  | cs => some (0, cs)

/-- Two digits. -/
def readPair : List Char → Option (Nat × List Char)
  | a :: b :: cs => if a.isDigit && b.isDigit then some (value [a, b], cs) else none
  | _ => none

/-- The offset of a zone in minutes. -/
def readZone (cs : List Char) : Option (Int × List Char) :=
  let cs := trimStart cs
  if (cs.take 3).map Char.toUpper == "UTC".toList then some (0, cs.drop 3)
  else match cs with
    | 'Z' :: cs => some (0, cs)
    | 'z' :: cs => some (0, cs)
    | '+' :: cs => hours cs
    | '-' :: cs => (hours cs).map fun (n, cs) => (-n, cs)
    | '\u2212' :: cs => (hours cs).map fun (n, cs) => (-n, cs)
    | _ => none
where
  /-- Hours and minutes of an offset, with colons and white space between them. -/
  hours (cs : List Char) : Option (Int × List Char) := do
    let (h, cs) ← readPair cs
    let (m, cs) ← readPair (cs.dropWhile fun c => c == ':' || isBlank c)
    if m < 60 then some ((h * 60 + m : Nat), cs) else none

/-- The time of day at a second that may be the sixtieth. -/
def timeOf? (hour minute second nanos : Nat) : Option Time :=
  if second == 60 then Time.of? hour minute 59 (nanos + 1_000_000_000)
  else Time.of? hour minute second nanos

/-- The moment a text stands for, in universal time. -/
def parse (text : String) : Option Moment := do
  let (year, cs) ← readYear text.toList
  let cs ← readMark '-' cs
  let (month, cs) ← readNumber 2 cs
  let cs ← readMark '-' cs
  let (day, cs) ← readNumber 2 cs
  let cs ← match cs with
    | c :: cs => if c == 'T' || c == 't' || c == ' ' then some cs else none
    | [] => none
  let (hour, cs) ← readNumber 2 cs
  let cs ← readMark ':' cs
  let (minute, cs) ← readNumber 2 cs
  let cs ← readMark ':' cs
  let (second, cs) ← readNumber 2 cs
  let (nanos, cs) ← readFraction cs
  let (offset, cs) ← readZone cs
  let date ← Date.of? year month day
  let time ← timeOf? hour minute second nanos
  if isAllBlank cs && offset.natAbs < 1440 then ({ date, time } : Moment).minus? offset
  else none

end Querent.Moment
