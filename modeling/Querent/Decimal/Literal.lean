import Querent.Decimal.Digits

/-! Decimal numbers as written, and the binary64 value one is read as.

The digits are gathered into a word of 64 bits as long as they fit; the power of ten that is left
over is applied in one step, or in steps of 308 where it is beyond the range of the type. -/
namespace Querent.Decimal

/-- A decimal number as written: its parts are rows of digits. -/
structure Literal where
  negative : Bool
  whole : List Char
  fraction : Option (List Char)
  /-- The sign of the exponent (true below zero) and its digits. -/
  exponent : Option (Bool × List Char)
deriving DecidableEq, Repr

/-- The largest word that digits are gathered into. -/
def wordMax : Nat := wordBound 64 - 1

/-- The largest exponent that is read. -/
def exponentMax : Nat := wordBound 31 - 1

/-- Gathers digits while they fit: the word, and how many were left out. -/
def gatherWhole (acc : Nat) : List Char → Nat × Nat
  | [] => (acc, 0)
  | c :: cs =>
    let n := acc * 10 + digitValue c
    if n ≤ wordMax then gatherWhole n cs else (acc, cs.length + 1)

/-- Gathers digits while they fit: the word, and how many were taken in. -/
def gatherFraction (acc taken : Nat) : List Char → Nat × Nat
  | [] => (acc, taken)
  | c :: cs =>
    let n := acc * 10 + digitValue c
    if n ≤ wordMax then gatherFraction n (taken + 1) cs else (acc, taken)

/-- A power of ten, rounded to the nearest value; exact up to 22. -/
def powerOfTen (n : Nat) : Float := Float.ofScientific 1 false n

/-- `f * 10 ^ e` in steps of at most 308; none where it overflows. -/
def applyPower : (fuel : Nat) → Float → Int → Option Float
  | 0, f, _ => some f
  | fuel + 1, f, e =>
    if e.natAbs ≤ 308 then
      if 0 ≤ e then
        let g := f * powerOfTen e.natAbs
        if g.isInf then none else some g
      else some (f / powerOfTen e.natAbs)
    else if f == 0 then some f
    else if 0 ≤ e then none
    else applyPower fuel (f / powerOfTen 308) (e + 308)

/-- A word times a power of ten. The steps end: each divides by `1e308`, so three reach zero. -/
def scaled (word : Nat) (e : Int) : Option Float := applyPower 8 word.toUInt64.toFloat e

namespace Literal

/-- Whether the literal has neither a fraction nor an exponent. -/
def isWhole (l : Literal) : Bool := l.fraction.isNone && l.exponent.isNone

/-- The word and power of ten of the digits before the exponent. -/
def significand (l : Literal) : Nat × Int :=
  let (word, left) := gatherWhole 0 l.whole
  match l.fraction with
  | none => (word, left)
  | some ds =>
    let (word, taken) := gatherFraction word 0 ds
    (word, (left : Int) - taken)

/-- The magnitude as a binary64 value; none where it is beyond the type's range. -/
def magnitude (l : Literal) : Option Float :=
  let (word, power) := l.significand
  match l.exponent with
  | none => scaled word power
  | some (negative, ds) =>
    let e := value ds
    if e ≤ exponentMax then scaled word (if negative then power - e else power + e)
    else if word != 0 && !negative then none
    else some 0

/-- The binary64 value of the literal. -/
def toFloat? (l : Literal) : Option Float :=
  l.magnitude.map fun f => if l.negative then -f else f

end Literal

end Querent.Decimal
