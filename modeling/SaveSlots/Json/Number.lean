import SaveSlots.Decimal.Shortest
/-!
# Numbers of a JSON text

A number is a whole number of at most 64 bits or a double. A `Numeral` is a number as it is spelled;
`Numeral.scan` takes one off the front of a text and `Numeral.number?` says what it stands for.
-/

namespace SaveSlots

/-- Why a text cannot be read as a value of the wanted type. -/
inductive Fault where
  /-- The text ends inside a value. -/
  | truncated
  /-- The text is not JSON. -/
  | malformed
  /-- The text is JSON as far as it was read, but not of the wanted type. -/
  | mismatched
deriving DecidableEq, Inhabited, Repr

inductive Number where
  | int (n : Int)
  | double (d : Double)
deriving DecidableEq, Inhabited

/-- The text of a number. -/
def Number.text : Number → Bytes
  | .int n => Decimal.spell n
  | .double d => d.text

/-- A number as it is spelled: its sign, its digits before and after the point, and its exponent. -/
structure Numeral where
  negative : Bool
  whole : Bytes
  fraction : Option Bytes
  /-- Whether the exponent is negative, and its digits. -/
  exponent : Option (Bool × Bytes)
deriving DecidableEq, Inhabited

namespace Numeral

open Decimal

/-- The longest row of digits at the front, which must not be empty. -/
def scanDigits (s : Bytes) : Except Fault (Bytes × Bytes) :=
  match s.takeWhile isDigit with
  | [] => .error (if s.isEmpty then .truncated else .malformed)
  | ds => .ok (ds, s.dropWhile isDigit)

/-- A point and the digits after it, if there is a point. -/
def scanFraction : Bytes → Except Fault (Option Bytes × Bytes)
  | [] => .ok (none, [])
  | b :: s =>
    if b = 46 then (scanDigits s).map fun (ds, rest) => (some ds, rest)
    else .ok (none, b :: s)

/-- The sign of an exponent, if there is one; true stands for a minus. -/
def scanSign : Bytes → Bool × Bytes
  | [] => (false, [])
  | b :: s => if b = 45 then (true, s) else if b = 43 then (false, s) else (false, b :: s)

/-- The letter `e` of either case, a sign and digits, if there is an `e`. -/
def scanExponent : Bytes → Except Fault (Option (Bool × Bytes) × Bytes)
  | [] => .ok (none, [])
  | b :: s =>
    if b = 101 ∨ b = 69 then
      let (negative, s) := scanSign s
      (scanDigits s).map fun (ds, rest) => (some (negative, ds), rest)
    else .ok (none, b :: s)

/-- The minus in front of a number, if there is one. -/
def scanMinus : Bytes → Bool × Bytes
  | [] => (false, [])
  | b :: s => if b = 45 then (true, s) else (false, b :: s)

/-- Takes a numeral off the front of a text. A zero in front of other digits is refused. -/
def scan (s : Bytes) : Except Fault (Numeral × Bytes) :=
  let (negative, s) := scanMinus s
  match scanDigits s with
  | .error f => .error f
  | .ok (whole, s) =>
    if whole.head? = some 48 ∧ whole.length > 1 then .error .malformed
    else
      match scanFraction s with
      | .error f => .error f
      | .ok (fraction, s) =>
        match scanExponent s with
        | .error f => .error f
        | .ok (exponent, s) => .ok (⟨negative, whole, fraction, exponent⟩, s)

/-- Reads digits onto a significand as long as it stays below `2 ^ 64`; the second number counts the
digits left over. -/
def absorb (significand : Nat) : Bytes → Nat × Nat
  | [] => (significand, 0)
  | d :: ds =>
    let next := 10 * significand + (d.toNat - 48)
    if next < 0x10000000000000000 then absorb next ds else (significand, ds.length + 1)

/-- The double that a numeral stands for: the significand is cut to 64 bits, and an exponent beyond
31 bits counts as endless. None if it is too large. -/
def double? (n : Numeral) : Option Double := do
  let fraction := n.fraction.getD []
  let (significand, dropped) := absorb 0 n.whole
  let (significand, unread) := absorb significand fraction
  let scale : Int := (dropped : Int) - ((fraction.length - unread : Nat) : Int)
  let magnitude ←
    match n.exponent with
    | none => Double.ofDecimal? significand scale
    | some (negative, ds) =>
      let e := value ds
      if e < 0x80000000 then Double.ofDecimal? significand (if negative then scale - e else scale + e)
      else if significand ≠ 0 ∧ ¬ negative then none
      else some Double.zero
  return if n.negative then magnitude.negate else magnitude

/-- The number that a numeral stands for. Without point and exponent it is whole if it fits into 64
bits, signed for a negative one, and `-0` is a double. -/
def number? (n : Numeral) : Option Number :=
  let w := value n.whole
  if n.fraction.isNone ∧ n.exponent.isNone ∧ ¬ n.negative ∧ w < 0x10000000000000000 then some (.int w)
  else if n.fraction.isNone ∧ n.exponent.isNone ∧ n.negative ∧ 0 < w ∧ w ≤ 0x8000000000000000 then
    some (.int (-w))
  else n.double?.map .double

theorem length_scanDigits {s ds rest : Bytes} (h : scanDigits s = .ok (ds, rest)) :
    rest.length < s.length := by
  rw [scanDigits] at h
  split at h
  · simp at h
  · next hne =>
    obtain ⟨rfl, rfl⟩ : s.takeWhile isDigit = ds ∧ s.dropWhile isDigit = rest := by simpa using h
    have := congrArg List.length (List.takeWhile_append_dropWhile (p := isDigit) (l := s))
    have hp : 0 < (s.takeWhile isDigit).length := List.length_pos_iff.2 (by simpa using hne)
    simp only [List.length_append] at this
    omega

theorem length_scanFraction {s rest : Bytes} {o : Option Bytes}
    (h : scanFraction s = .ok (o, rest)) : rest.length ≤ s.length := by
  cases s with
  | nil => simp [scanFraction] at h; simp [h.2]
  | cons b s =>
    rw [scanFraction] at h
    split at h
    · cases hd : scanDigits s with
      | error f => rw [hd] at h; simp [Except.map] at h
      | ok p =>
        rw [hd] at h
        simp only [Except.map, Except.ok.injEq, Prod.mk.injEq] at h
        have := length_scanDigits (show _ = Except.ok (p.1, p.2) from hd)
        simp only [List.length_cons]
        rw [← h.2]
        omega
    · simp only [Except.ok.injEq, Prod.mk.injEq] at h
      exact Nat.le_of_eq (congrArg List.length h.2).symm

theorem length_scanSign (s : Bytes) : (scanSign s).2.length ≤ s.length := by
  cases s with
  | nil => simp [scanSign]
  | cons b s => rw [scanSign]; split <;> (try split) <;> simp

theorem length_scanExponent {s rest : Bytes} {o : Option (Bool × Bytes)}
    (h : scanExponent s = .ok (o, rest)) : rest.length ≤ s.length := by
  cases s with
  | nil => simp [scanExponent] at h; simp [h.2]
  | cons b s =>
    rw [scanExponent] at h
    split at h
    · have hs := length_scanSign s
      simp only at h
      cases hd : scanDigits (scanSign s).2 with
      | error f => rw [hd] at h; simp [Except.map] at h
      | ok p =>
        rw [hd] at h
        simp only [Except.map, Except.ok.injEq, Prod.mk.injEq] at h
        have := length_scanDigits (show _ = Except.ok (p.1, p.2) from hd)
        simp only [List.length_cons]
        rw [← h.2]
        omega
    · simp only [Except.ok.injEq, Prod.mk.injEq] at h
      exact Nat.le_of_eq (congrArg List.length h.2).symm

/-- A numeral takes at least one byte. -/
theorem length_scan {s rest : Bytes} {n : Numeral} (h : scan s = .ok (n, rest)) :
    rest.length < s.length := by
  have hm : (scanMinus s).2.length ≤ s.length := by
    cases s with
    | nil => simp [scanMinus]
    | cons b s => rw [scanMinus]; split <;> simp
  simp only [scan] at h
  split at h
  · simp at h
  · next hd =>
    have h1 := length_scanDigits hd
    split at h
    · simp at h
    · split at h
      · simp at h
      · next hf =>
        have h2 := length_scanFraction hf
        split at h
        · simp at h
        · next he =>
          have h3 := length_scanExponent he
          simp only [Except.ok.injEq, Prod.mk.injEq] at h
          rw [← h.2]
          omega

end Numeral

end SaveSlots
