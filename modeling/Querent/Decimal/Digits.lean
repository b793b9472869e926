/-! Decimal digits: their value, and numbers read from nothing but digits. -/
namespace Querent.Decimal

def digitValue (c : Char) : Nat := c.toNat - '0'.toNat

/-- The value of a row of digits. -/
def value (digits : List Char) : Nat := digits.foldl (fun n c => n * 10 + digitValue c) 0

/-- The digits of a number, the most significant first. -/
def digits (n : Nat) : List Char := Nat.toDigits 10 n

/-- At least `width` digits, zeros in front. -/
def padded (width n : Nat) : String :=
  let ds := digits n
  .ofList (List.replicate (width - ds.length) '0' ++ ds)

/-- One more than the largest number of so many bits. -/
def wordBound (bits : Nat) : Nat := Nat.pow 2 bits

/-- Why a text is no unsigned number below a bound. -/
inductive Fault where
  | empty
  | invalidDigit
  | tooLarge
deriving DecidableEq, Repr

/-- Adds the digits of a text to `acc`, stopping at the first fault. -/
def readFrom (bound acc : Nat) : List Char → Except Fault Nat
  | [] => .ok acc
  | c :: cs =>
    if !c.isDigit then .error .invalidDigit
    else
      let n := acc * 10 + digitValue c
      if n < bound then readFrom bound n cs else .error .tooLarge

/-- An unsigned number below `bound` in decimal digits, with or without a plus sign. -/
def readBelow (bound : Nat) (text : List Char) : Except Fault Nat :=
  match text with
  | [] => .error .empty
  | ['+'] => .error .invalidDigit
  | ['-'] => .error .invalidDigit
  | '+' :: cs => readFrom bound 0 cs
  | cs => readFrom bound 0 cs

/-- A number of 64 bits with its sign, in decimal digits. -/
def readInt64 (text : List Char) : Option Int :=
  match text with
  | '-' :: c :: cs =>
    match readFrom (wordBound 63 + 1) 0 (c :: cs) with
    | .ok n => some (-n)
    | .error _ => none
  | cs => (readBelow (wordBound 63) cs).toOption.map Int.ofNat

end Querent.Decimal
