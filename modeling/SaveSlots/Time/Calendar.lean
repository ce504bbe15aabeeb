/-!
# Dates and instants

A `Date` is a day of the Gregorian calendar, extended to all years that an instant may have; an
`Instant` adds the time of day in universal time to the nanosecond. The sixtieth second of a minute is
a leap second.

`Date.toDays` and `Date.ofDays?` count days from the first of January 1970, `Instant.unixSeconds`
counts seconds, and `Instant.advance?` moves an instant by milliseconds.
-/

namespace SaveSlots

def isLeapYear (year : Int) : Bool :=
  year % 4 = 0 && (year % 100 != 0 || year % 400 = 0)

def daysInMonth (year : Int) (month : Nat) : Nat :=
  if month = 2 then if isLeapYear year then 29 else 28
  else if month = 4 ∨ month = 6 ∨ month = 9 ∨ month = 11 then 30
  else 31

/-- The first and the last year of an instant. -/
def firstYear : Int := -262143
def lastYear : Int := 262142

structure Date where
  year : Int
  month : Nat
  day : Nat
  year_range : firstYear ≤ year ∧ year ≤ lastYear
  month_range : 1 ≤ month ∧ month ≤ 12
  day_range : 1 ≤ day ∧ day ≤ daysInMonth year month
deriving DecidableEq

namespace Date

/-- The date with this year, month and day, if there is one. -/
def of? (year : Int) (month day : Nat) : Option Date :=
  if hy : firstYear ≤ year ∧ year ≤ lastYear then
    if hm : 1 ≤ month ∧ month ≤ 12 then
      if hd : 1 ≤ day ∧ day ≤ daysInMonth year month then some ⟨year, month, day, hy, hm, hd⟩
      else none
    else none
  else none

theorem of?_self (d : Date) : of? d.year d.month d.day = some d := by
  simp only [of?, d.year_range, d.month_range, d.day_range, and_self, dite_true]

def epoch : Date := ⟨1970, 1, 1, by decide, by decide, by decide⟩

instance : Inhabited Date := ⟨epoch⟩

/-- Days from the first of January of year 1 to that of `year`. -/
def daysBeforeYear (year : Int) : Int :=
  let y := year - 1
  365 * y + y / 4 - y / 100 + y / 400

/-- Days of a year before a month. -/
def daysBeforeMonth (year : Int) (month : Nat) : Nat :=
  ((List.range month).drop 1).foldl (fun n m => n + daysInMonth year m) 0

/-- Days since the epoch. -/
def toDays (d : Date) : Int :=
  daysBeforeYear d.year - daysBeforeYear 1970 + daysBeforeMonth d.year d.month + d.day - 1

/-- The month and the day of a month of the `ordinal`-th day of a year, counted from zero; `months`
are those still to try. -/
def monthOfOrdinal (year : Int) : (months : List Nat) → (ordinal : Nat) → Nat × Nat
  | [], ordinal => (12, ordinal + 1)
  | m :: ms, ordinal =>
    if ordinal < daysInMonth year m then (m, ordinal + 1)
    else monthOfOrdinal year ms (ordinal - daysInMonth year m)

/-- The date that is `days` days after the epoch. A cycle of 400 years has 146097 days; within it
centuries, spans of four years and years are taken off one after another. -/
def ofDays? (days : Int) : Option Date :=
  let z := days + daysBeforeYear 1970
  let cycle := z / 146097
  let r := (z % 146097).toNat
  let century := min (r / 36524) 3
  let r := r - century * 36524
  let four := r / 1461
  let r := r % 1461
  let one := min (r / 365) 3
  let ordinal := r - one * 365
  let year : Int := 400 * cycle + 100 * century + 4 * four + one + 1
  let (month, day) := monthOfOrdinal year ((List.range 13).drop 1) ordinal
  of? year month day

/-- The next day. -/
def next? (d : Date) : Option Date :=
  if d.day < daysInMonth d.year d.month then of? d.year d.month (d.day + 1)
  else if d.month < 12 then of? d.year (d.month + 1) 1
  else of? (d.year + 1) 1 1

/-- The day before. -/
def previous? (d : Date) : Option Date :=
  if 1 < d.day then of? d.year d.month (d.day - 1)
  else if 1 < d.month then of? d.year (d.month - 1) (daysInMonth d.year (d.month - 1))
  else of? (d.year - 1) 12 31

end Date

/-- An instant in universal time. Second 60 is a leap second. -/
structure Instant where
  date : Date
  hour : Fin 24
  minute : Fin 60
  second : Fin 61
  nanos : Fin 1000000000
deriving DecidableEq, Inhabited

namespace Instant

/-- The first of January 1970, midnight. -/
def epoch : Instant := ⟨.epoch, 0, 0, 0, 0⟩

def isLeap (i : Instant) : Bool := i.second = 60

/-- Seconds since the epoch, rounded down; a leap second counts as the second before it. -/
def unixSeconds (i : Instant) : Int :=
  i.date.toDays * 86400 + i.hour.val * 3600 + i.minute.val * 60 + min i.second.val 59

/-- Nanoseconds since the last full second that `unixSeconds` counts. -/
def subsecondNanos (i : Instant) : Nat :=
  i.nanos.val + if i.isLeap then 1000000000 else 0

/-- Milliseconds since the epoch, rounded down. -/
def unixMillis (i : Instant) : Int :=
  i.unixSeconds * 1000 + i.subsecondNanos / 1000000

/-- The instant that is `nanos` nanoseconds after the epoch. -/
def ofUnixNanos? (nanos : Int) : Option Instant := do
  let seconds := nanos / 1000000000
  let date ← Date.ofDays? (seconds / 86400)
  let second := (seconds % 86400).toNat
  return {
    date
    hour := Fin.ofNat 24 (second / 3600)
    minute := Fin.ofNat 60 (second / 60)
    second := Fin.ofNat 61 (second % 60)
    nanos := Fin.ofNat 1000000000 (nanos % 1000000000).toNat }

/-- The instant `millis` milliseconds later, or earlier for a negative number. Inside a leap second
only the fraction moves; on leaving it, a later instant counts from the second before it, an earlier
one from the second behind it. -/
def advance? (i : Instant) (millis : Int) : Option Instant :=
  let seconds := millis.tdiv 1000
  let fraction := millis.tmod 1000 * 1000000
  let start := i.unixSeconds * 1000000000 + i.nanos.val
  if i.isLeap then
    let moved := i.nanos.val + fraction
    if 0 < seconds ∨ 1000000000 ≤ moved then ofUnixNanos? (start + millis * 1000000)
    else if seconds < 0 then ofUnixNanos? (start + 1000000000 + millis * 1000000)
    else if 0 ≤ moved then some { i with nanos := Fin.ofNat 1000000000 moved.toNat }
    else some { i with second := 59, nanos := Fin.ofNat 1000000000 (moved + 1000000000).toNat }
  else ofUnixNanos? (start + millis * 1000000)

/-- Orders instants by date and time; a leap second is behind the second before it. -/
def order (a b : Instant) : Ordering :=
  (compare a.date.year b.date.year).then <| (compare a.date.month b.date.month).then <|
  (compare a.date.day b.date.day).then <| (compare a.hour b.hour).then <|
  (compare a.minute b.minute).then <| (compare a.second b.second).then <|
  compare a.nanos b.nanos

/-- The instant `minutes` minutes earlier, for at most a day: the seconds stay, and the date moves by
at most one day. -/
def minusMinutes? (i : Instant) (minutes : Int) : Option Instant := do
  let total : Int := i.hour.val * 60 + i.minute.val - minutes
  let date ←
    if total < 0 then i.date.previous?
    else if 1440 ≤ total then i.date.next?
    else some i.date
  let ofDay := (total % 1440).toNat
  return { i with date, hour := Fin.ofNat 24 (ofDay / 60), minute := Fin.ofNat 60 ofDay }

end Instant

end SaveSlots
