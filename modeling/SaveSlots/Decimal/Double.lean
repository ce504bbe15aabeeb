/-!
# Double precision numbers

A `Double` is the 64-bit word of an IEEE 754 binary number. A finite one is `m · 2 ^ q` up to its
sign (`Double.parts`); `Double.nearest?` rounds a quotient of natural numbers to the nearest such
number, ties to the even significand. All of it is exact arithmetic on natural numbers.
-/

namespace SaveSlots

structure Double where
  bits : UInt64
deriving DecidableEq, Inhabited

namespace Double

def zero : Double := ⟨0⟩

def isNegative (d : Double) : Bool := d.bits.toNat ≥ 0x8000000000000000

def negate (d : Double) : Double := ⟨d.bits ^^^ 0x8000000000000000⟩

/-- The significand and the power of two of the magnitude. -/
def parts (d : Double) : Nat × Int :=
  let word : Nat := d.bits.toNat % 0x8000000000000000
  let exponent : Nat := word / 0x10000000000000
  let fraction : Nat := word % 0x10000000000000
  if exponent = 0 then (fraction, -1074) else (0x10000000000000 + fraction, (exponent : Int) - 1075)

def isZero (d : Double) : Bool := d.parts.1 = 0

/-- The magnitude as a quotient of natural numbers. -/
def quotient (d : Double) : Nat × Nat :=
  let (m, q) := d.parts
  (m * Nat.pow 2 q.toNat, Nat.pow 2 (-q).toNat)

/-- The word of `m · 2 ^ q`, where `m < 2 ^ 53`, and `m` is at least `2 ^ 52` unless `q = -1074`. -/
def ofParts? (m : Nat) (q : Int) : Option Double :=
  if q > 971 then none
  else if m < 0x10000000000000 then some ⟨UInt64.ofNat m⟩
  else some ⟨UInt64.ofNat ((q + 1075).toNat * 0x10000000000000 + (m - 0x10000000000000))⟩

/-- The double nearest to `num / den`, ties to even; none if it is too large. -/
def nearest? (num den : Nat) : Option Double :=
  if num = 0 then some zero
  else
    let scaled (q : Int) : Nat × Nat := (num * Nat.pow 2 (-q).toNat, den * Nat.pow 2 q.toNat)
    let guess : Int := max (Nat.log2 num - Nat.log2 den - 53) (-1074)
    let q := if (scaled guess).1 / (scaled guess).2 < 0x20000000000000 then guess else guess + 1
    let (n, d) := scaled q
    let m := n / d
    let r := n % d
    let m := if 2 * r > d ∨ (2 * r = d ∧ m % 2 = 1) then m + 1 else m
    if m = 0x20000000000000 then ofParts? 0x10000000000000 (q + 1) else ofParts? m q

def multiply? (a b : Double) : Option Double :=
  nearest? (a.quotient.1 * b.quotient.1) (a.quotient.2 * b.quotient.2)

def divide? (a b : Double) : Option Double :=
  nearest? (a.quotient.1 * b.quotient.2) (a.quotient.2 * b.quotient.1)

/-- The double nearest to a power of ten. -/
def powerOfTen? (k : Nat) : Option Double := nearest? (Nat.pow 10 k) 1

/-- The largest power of ten that is a double. -/
def topPower : Nat := 308

/-- `significand · 10 ^ exponent`, computed as the rounded significand times or over a rounded power
of ten, each step rounded again; an exponent below the powers at hand is taken in two steps. None if
the result is too large. -/
def ofDecimal? (significand : Nat) (exponent : Int) : Option Double := do
  let f ← nearest? significand 1
  if f.isZero then return f
  else if 0 ≤ exponent then
    if exponent ≤ topPower then multiply? f (← powerOfTen? exponent.toNat) else none
  else if -topPower ≤ exponent then divide? f (← powerOfTen? (-exponent).toNat)
  else
    let g ← divide? f (← powerOfTen? topPower)
    let rest := exponent + topPower
    if g.isZero ∨ rest < -topPower then return zero
    else divide? g (← powerOfTen? (-rest).toNat)

end Double

end SaveSlots
