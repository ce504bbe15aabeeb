import SaveSlots.Decimal.Digits
import SaveSlots.Decimal.Double
/-!
# Shortest decimal text

`shortest` gives the fewest decimal digits that round back to a double, and of two such numbers with
equally many digits the nearer one. It tries 1, 2, … 17 digits: on each decimal grid only the two
neighbours of the value can lie among the reals that round to it. `Double.text` places the point.
-/

namespace SaveSlots.Decimal

/-- The reals that round to `m · 2 ^ q`, in quarters of `2 ^ q`; the gap below a power of two is half
as wide as the one above. The ends belong to it if the significand is even. -/
structure Interval where
  low : Nat
  value : Nat
  high : Nat
  closed : Bool
  /-- The power of two that the quarters count. -/
  power : Int

def Interval.of (m : Nat) (q : Int) : Interval where
  low := if m = 0x10000000000000 ∧ q > -1074 then 4 * m - 1 else 4 * m - 2
  value := 4 * m
  high := 4 * m + 2
  closed := m % 2 = 0
  power := q - 2

/-- The exponent of the first decimal digit of `num / den`. -/
def leadingExponent (num den : Nat) : Int :=
  if den ≤ num then ((digits (num / den)).length : Int) - 1
  else -((digits ((den - 1) / num)).length : Int)

/-- Whether `k · 10 ^ e` lies in the interval. -/
def Interval.holds (i : Interval) (k : Nat) (e : Int) : Bool :=
  let x := k * Nat.pow 10 e.toNat * Nat.pow 2 (-i.power).toNat
  let unit := Nat.pow 10 (-e).toNat * Nat.pow 2 i.power.toNat
  if i.closed then i.low * unit ≤ x && x ≤ i.high * unit else i.low * unit < x && x < i.high * unit

/-- The neighbour of the value on the grid of `10 ^ e` that lies in the interval, the nearer one if
both do, the even one if they are equally near. -/
def Interval.onGrid? (i : Interval) (e : Int) : Option Nat :=
  let num := i.value * Nat.pow 10 (-e).toNat * Nat.pow 2 i.power.toNat
  let den := Nat.pow 10 e.toNat * Nat.pow 2 (-i.power).toNat
  let below := num / den
  let twice := 2 * (num % den)
  let (first, second) :=
    if twice < den ∨ (twice = den ∧ below % 2 = 0) then (below, below + 1) else (below + 1, below)
  if i.holds first e then some first else if i.holds second e then some second else none

/-- Takes away trailing zeros, at most `fuel` of them. -/
def trimZeros : (fuel : Nat) → Nat → Int → Nat × Int
  | 0, k, e => (k, e)
  | fuel + 1, k, e => if k % 10 = 0 then trimZeros fuel (k / 10) (e + 1) else (k, e)

/-- `(k, e)` such that `k · 10 ^ e` is the shortest decimal that rounds to `m · 2 ^ q`. -/
def shortest (m : Nat) (q : Int) : Nat × Int :=
  let i := Interval.of m q
  let top := leadingExponent (m * Nat.pow 2 q.toNat) (Nat.pow 2 (-q).toNat)
  let grids := (List.range 17).map fun (n : Nat) => top - n
  match grids.findSome? fun e => (i.onGrid? e).map fun k => (k, e) with
  | some (k, e) => trimZeros 18 k e
  | none => (m * Nat.pow 2 q.toNat, 0)

end SaveSlots.Decimal

namespace SaveSlots.Double

open Decimal

/-- Doubles are written positionally from `0.00001` up to below `10 ^ 16`, with at least one digit
after the point; other magnitudes have one digit before the point, none after it if none is needed,
and a signed exponent. -/
def text (d : Double) : Bytes :=
  let sign : Bytes := if d.isNegative then [45] else []
  if d.isZero then sign ++ [48, 46, 48]
  else
    let (m, q) := d.parts
    let (k, e) := shortest m q
    let ds := digits k
    let point : Int := ds.length + e
    sign ++
      if 0 ≤ e ∧ point ≤ 16 then ds ++ List.replicate e.toNat 48 ++ [46, 48]
      else if 0 < point ∧ point ≤ 16 then ds.take point.toNat ++ 46 :: ds.drop point.toNat
      else if -5 < point ∧ point ≤ 0 then [48, 46] ++ List.replicate (-point).toNat 48 ++ ds
      else
        let exponent := point - 1
        let tail := 101 :: (if exponent < 0 then 45 else 43) :: digits exponent.natAbs
        match ds with
        | [d] => d :: tail
        | d :: rest => d :: 46 :: rest ++ tail
        | [] => tail

end SaveSlots.Double
