import SaveSlots.Time.Calendar
/-!
# Dates as text

`Instant.text` writes an instant in universal time: `2024-05-01T09:00:00Z`, with a fraction of 3, 6 or
9 digits if one is needed, and with a sign and at least four digits for a year outside 0 to 9999.

`Instant.ofText?` reads what RFC 3339 allows and a little more: blanks between the parts, a blank or a
small `t` in the middle, fewer digits, an offset without a colon, and `UTC` in any case.
-/

namespace SaveSlots

namespace Rfc3339

/-! ## Writing -/

def digit (n : Nat) : Char := Char.ofNat (48 + n % 10)

/-- The low `width` digits of `n`. -/
def digits : (width : Nat) → (n : Nat) → List Char
  | 0, _ => []
  | w + 1, n => digits w (n / 10) ++ [digit n]

/-- A year outside 0 to 9999 has a sign and as many digits as it needs, but at least four. -/
def year (y : Int) : List Char :=
  if 0 ≤ y ∧ y ≤ 9999 then digits 4 y.toNat
  else
    let ds := Nat.toDigits 10 y.natAbs
    (if y < 0 then '-' else '+') :: List.replicate (4 - ds.length) '0' ++ ds

/-- The shortest of 0, 3, 6 and 9 digits that is exact. -/
def fraction (nanos : Nat) : List Char :=
  if nanos = 0 then []
  else if nanos % 1000000 = 0 then '.' :: digits 3 (nanos / 1000000)
  else if nanos % 1000 = 0 then '.' :: digits 6 (nanos / 1000)
  else '.' :: digits 9 nanos

/-- Date and time of day, without an offset. -/
def dateTime (i : Instant) : List Char :=
  year i.date.year ++ '-' :: digits 2 i.date.month ++ '-' :: digits 2 i.date.day ++
    'T' :: digits 2 i.hour ++ ':' :: digits 2 i.minute ++ ':' :: digits 2 i.second ++
    fraction i.nanos

def write (i : Instant) : List Char := dateTime i ++ ['Z']

/-! ## Reading -/

/-- The characters with the white space property. -/
def isSpace (c : Char) : Bool :=
  let n := c.toNat
  (9 ≤ n && n ≤ 13) || n = 0x20 || n = 0x85 || n = 0xA0 || n = 0x1680 ||
    (0x2000 ≤ n && n ≤ 0x200A) || n = 0x2028 || n = 0x2029 || n = 0x202F || n = 0x205F || n = 0x3000

def skipSpace (s : List Char) : List Char := s.dropWhile isSpace

def number (ds : List Char) : Nat := Nat.ofDigitChars 10 ds 0

/-- At least one and at most `width` digits. -/
def scanDigits (width : Nat) (s : List Char) : Option (List Char × List Char) :=
  match (s.take width).takeWhile Char.isDigit with
  | [] => none
  | ds => some (ds, s.drop ds.length)

/-- A number of at most `width` digits, behind blanks. -/
def scanNumber (width : Nat) (s : List Char) : Option (Nat × List Char) :=
  (scanDigits width (skipSpace s)).map fun (ds, s) => (number ds, s)

/-- A sign allows any number of digits; without one there are at most four. -/
def scanYear (s : List Char) : Option (Int × List Char) :=
  match skipSpace s with
  | '-' :: s => (scanDigits s.length s).map fun (ds, s) => (-(number ds : Int), s)
  | '+' :: s => (scanDigits s.length s).map fun (ds, s) => ((number ds : Int), s)
  | s => (scanDigits 4 s).map fun (ds, s) => ((number ds : Int), s)

/-- One of the characters that `accept` names. -/
def scanChar (accept : Char → Bool) : List Char → Option (List Char)
  | [] => none
  | c :: s => if accept c then some s else none

/-- A mark behind blanks. -/
def scanMark (mark : Char) (s : List Char) : Option (List Char) :=
  scanChar (· == mark) (skipSpace s)

/-- Nanoseconds behind a point, if there is a point. Digits behind the ninth are passed over. -/
def scanFraction : List Char → Option (Nat × List Char)
  | '.' :: s =>
    (scanDigits 9 s).map fun (ds, s) =>
      (number ds * Nat.pow 10 (9 - ds.length), s.dropWhile Char.isDigit)
  | s => some (0, s)

/-- Exactly two digits. -/
def scanPair : List Char → Option (Nat × List Char)
  | a :: b :: s => if a.isDigit ∧ b.isDigit then some (number [a, b], s) else none
  | _ => none

/-- The offset from universal time in minutes: `Z`, `UTC`, or a sign, hours and minutes. -/
def scanOffset (s : List Char) : Option (Int × List Char) :=
  match s with
  | [] => none
  | c :: rest =>
    if (s.take 3).map Char.toUpper = ['U', 'T', 'C'] then some (0, s.drop 3)
    else if c = 'Z' ∨ c = 'z' then some (0, rest)
    else if c = '+' ∨ c = '-' ∨ c.toNat = 0x2212 then do
      let (hours, s) ← scanPair rest
      let (minutes, s) ← scanPair (s.dropWhile fun c => c == ':' || isSpace c)
      guard (minutes < 60)
      let offset : Int := hours * 60 + minutes
      return (if c = '+' then offset else -offset, s)
    else none

/-- The instant of a local date and time and an offset, if all are in range. -/
def instant? (year : Int) (month day hour minute second nanos : Nat) (offset : Int) :
    Option Instant := do
  let date ← Date.of? year month day
  if h : hour < 24 ∧ minute < 60 ∧ second < 61 ∧ nanos < 1000000000 then
    guard (-1440 < offset ∧ offset < 1440)
    Instant.minusMinutes?
      ⟨date, ⟨hour, h.1⟩, ⟨minute, h.2.1⟩, ⟨second, h.2.2.1⟩, ⟨nanos, h.2.2.2⟩⟩ offset
  else none

def read? (s : List Char) : Option Instant := do
  let (year, s) ← scanYear s
  let s ← scanMark '-' s
  let (month, s) ← scanNumber 2 s
  let s ← scanMark '-' s
  let (day, s) ← scanNumber 2 s
  let s ← scanChar (fun c => c == 'T' || c == 't' || c == ' ') s
  let (hour, s) ← scanNumber 2 s
  let s ← scanMark ':' s
  let (minute, s) ← scanNumber 2 s
  let s ← scanMark ':' s
  let (second, s) ← scanNumber 2 s
  let (nanos, s) ← scanFraction s
  let (offset, s) ← scanOffset (skipSpace s)
  guard (skipSpace s = [])
  instant? year month day hour minute second nanos offset

end Rfc3339

namespace Instant

def text (i : Instant) : String := String.ofList (Rfc3339.write i)

/-- The text with the offset spelled out in digits. -/
def offsetText (i : Instant) : String := String.ofList (Rfc3339.dateTime i) ++ "+00:00"

def ofText? (s : String) : Option Instant := Rfc3339.read? s.toList

end Instant

end SaveSlots
