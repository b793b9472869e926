import Querent.Decimal.Digits

/-! The shortest decimal that reads back as a given binary64 value.

A positive finite value is `m * 2 ^ q`. The reals that round to it form an interval whose ends
belong to it exactly when `m` is even. Of the grids of multiples of `10 ^ k` the coarsest one with
a point in the interval is taken; one of the value's two neighbours on that grid is such a point,
and of two the nearer, an exact tie going to the even one. -/
namespace Querent.Decimal

/-- A positive value `m * 2 ^ q`; `narrow` tells that the gap below it is half the gap above. -/
structure Binary where
  m : Nat
  q : Int
  narrow : Bool

/-- The parts of a finite value other than zero, its sign aside. -/
def Binary.ofBits (bits : UInt64) : Binary :=
  let field := (bits >>> 52).toNat % 2048
  let fraction := bits.toNat % wordBound 52
  if field == 0 then { m := fraction, q := -1074, narrow := false }
  else
    { m := wordBound 52 + fraction, q := (field : Int) - 1075
      narrow := fraction == 0 && field != 1 }

/-- `n * base ^ e` for `e` above zero, and `n` otherwise. -/
def scaleUp (n base : Nat) (e : Int) : Nat := n * Nat.pow base e.toNat

/-- The multiple of `10 ^ k` nearest to the value among its two neighbours that read back. -/
def Binary.onGrid (b : Binary) (k : Int) : Option Nat :=
  let quarter := b.q - 2
  let unit (n : Nat) := scaleUp (scaleUp n 2 quarter) 10 (-k)
  let step := scaleUp (scaleUp 1 2 (-quarter)) 10 k
  let point := unit (4 * b.m)
  let low := unit (4 * b.m - if b.narrow then 1 else 2)
  let high := unit (4 * b.m + 2)
  let inside (c : Nat) :=
    if b.m % 2 == 0 then low ≤ c * step && c * step ≤ high
    else low < c * step && c * step < high
  let below := point / step
  match inside below, inside (below + 1) with
  | false, false => none
  | true, false => some below
  | false, true => some (below + 1)
  | true, true =>
    let twice := 2 * point
    let middle := (2 * below + 1) * step
    if twice < middle || (twice == middle && below % 2 == 0) then some below
    else some (below + 1)

/-- The first grid at `10 ^ k` or finer with a point that reads back: the multiple and the power. -/
def Binary.search (b : Binary) : (fuel : Nat) → (k : Int) → Nat × Int
  | 0, k => (0, k)
  | fuel + 1, k =>
    match b.onGrid k with
    | some c => (c, k)
    | none => b.search fuel (k - 1)

/-- Digits `c` and power `k` of the shortest decimal `c * 10 ^ k`. -/
def Binary.shortest (b : Binary) : Nat × Int :=
  b.search 24 ((b.q + Nat.log2 b.m) * 30103 / 100000 + 2)

/-- How a number is laid out: with a plain point from `low` up to below `high` in the exponent of
its leading digit, and with an exponent elsewhere. -/
structure Layout where
  low : Int
  high : Int

/-- Lays out `c * 10 ^ k`, with at least one digit behind a plain point. -/
def Layout.render (l : Layout) (c : Nat) (k : Int) : String :=
  let ds := digits c
  let e : Int := k + ds.length - 1
  if l.low ≤ e && e < l.high then
    if 0 ≤ k then .ofList (ds ++ List.replicate k.toNat '0' ++ ['.', '0'])
    else if 0 ≤ e then
      .ofList (ds.take (e.toNat + 1) ++ '.' :: ds.drop (e.toNat + 1))
    else .ofList ('0' :: '.' :: (List.replicate (-e - 1).toNat '0' ++ ds))
  else
    let mantissa := match ds with
      | [] => []
      | [d] => [d]
      | d :: rest => d :: '.' :: rest
    let sign := if e < 0 then '-' else '+'
    .ofList (mantissa ++ 'e' :: sign :: digits e.natAbs)

/-- The text of a finite value under a layout. -/
def Layout.text (l : Layout) (x : Float) : String :=
  let bits := x.toBits
  let magnitude := bits.toNat % wordBound 63
  let sign := if bits.toNat < wordBound 63 then "" else "-"
  if magnitude == 0 then sign ++ "0.0"
  else
    let (c, k) := (Binary.ofBits bits).shortest
    sign ++ l.render c k

end Querent.Decimal
