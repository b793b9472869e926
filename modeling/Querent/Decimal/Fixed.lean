import Querent.Decimal.Digits

/-! Decimals with a bounded coefficient and a number of digits behind the point. One is read from
its text either as it stands or rounded to the digits that fit. -/
namespace Querent.Decimal

structure Fixed where
  negative : Bool
  coefficient : Nat
  /-- How many digits of the coefficient stand behind the point. -/
  scale : Nat
deriving DecidableEq, Repr

namespace Fixed

def maxScale : Nat := 28

/-- Every coefficient is below this. -/
def bound : Nat := wordBound 96

/-- The sign of a decimal, its digits before the point and those behind it. -/
def parts? (text : List Char) : Option (Bool × List Char × List Char) :=
  let (negative, cs) := match text with
    | '-' :: cs => (true, cs)
    | cs => (false, cs)
  let whole := cs.takeWhile Char.isDigit
  match cs.dropWhile Char.isDigit with
  | [] => if whole.isEmpty then none else some (negative, whole, [])
  | '.' :: fraction =>
    if fraction.all Char.isDigit && !(whole.isEmpty && fraction.isEmpty) then
      some (negative, whole, fraction)
    else none
  | _ => none

/-- The decimal of a text as it stands, if it fits. -/
def unrounded? (text : List Char) : Option Fixed := do
  let (negative, whole, fraction) ← parts? text
  let n := value (whole ++ fraction)
  if n < bound && fraction.length ≤ maxScale then
    some { negative, coefficient := n, scale := fraction.length }
  else none

/-- One more in the last place. Where that does not fit, the last place is given up. -/
def roundUp? (n scale : Nat) : Option (Nat × Nat) :=
  if n + 1 < bound then some (n + 1, scale)
  else if scale = 0 then none
  else some ((n + 5) / 10, scale - 1)

/-- Takes digits behind the point while they fit; the first that does not decides how the others
are rounded. -/
def takeFraction? (n scale : Nat) : List Char → Option (Nat × Nat)
  | [] => some (n, scale)
  | c :: cs =>
    let next := n * 10 + digitValue c
    if next < bound && scale < maxScale then takeFraction? next (scale + 1) cs
    else if digitValue c < 5 then some (n, scale)
    else roundUp? n scale

/-- The decimal of a text, rounded behind the point, if what is before the point fits. -/
def rounded? (text : List Char) : Option Fixed := do
  let (negative, whole, fraction) ← parts? text
  if value whole < bound then
    let (coefficient, scale) ← takeFraction? (value whole) 0 fraction
    some { negative, coefficient, scale }
  else none

/-- The decimal with all of its digits behind the point. A zero has no sign. -/
def text (x : Fixed) : String :=
  let ds := (padded (x.scale + 1) x.coefficient).toList
  let whole := ds.take (ds.length - x.scale)
  let fraction := ds.drop (ds.length - x.scale)
  let sign := if x.negative && x.coefficient != 0 then "-" else ""
  sign ++ .ofList whole ++ (if fraction.isEmpty then "" else "." ++ .ofList fraction)

end Fixed

end Querent.Decimal
