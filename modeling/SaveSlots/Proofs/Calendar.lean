import Mathlib.Data.List.Basic
import SaveSlots.Time.Calendar
/-!
# Days and nanoseconds since the epoch

A date is determined by its number of days, and an instant outside leap seconds by its number of nanoseconds, in every
year that an instant may have: `Date.ofDays?_eq_some` and `Instant.ofUnixNanos?_eq_some`.

A year is taken apart into cycles of 400 years, centuries, spans of four years and years, in the way in which `ofDays?`
takes days off, and a day of a year into its month and its day.
-/

namespace SaveSlots

namespace Date

/-! ## Years -/

def daysInYear (year : Int) : Nat := if isLeapYear year then 366 else 365

theorem isLeapYear_iff (year : Int) :
    isLeapYear year = true ↔ year % 4 = 0 ∧ (year % 100 ≠ 0 ∨ year % 400 = 0) := by
  simp [isLeapYear]

/-- The year `one` of the span `four` of a century of a cycle, all counted from zero. -/
def yearAt (cycle : Int) (century four one : Nat) : Int := 400 * cycle + 100 * century + 4 * four + one + 1

section
variable {cycle : Int} {century four one : Nat}

theorem daysBeforeYear_yearAt (hc : century < 4) (hf : four < 25) (ho : one < 4) :
    daysBeforeYear (yearAt cycle century four one) = 146097 * cycle + 36524 * century + 1461 * four + 365 * one := by
  unfold daysBeforeYear yearAt
  dsimp only
  omega

/-- The last year of a span is a leap year, but that of a century only if it is the last of a cycle. -/
theorem isLeapYear_yearAt (hc : century < 4) (hf : four < 25) (ho : one < 4) :
    isLeapYear (yearAt cycle century four one) = true ↔ one = 3 ∧ (four ≠ 24 ∨ century = 3) := by
  rw [isLeapYear_iff]
  unfold yearAt
  omega

theorem exists_yearAt (year : Int) : ∃ cycle century four one,
    century < 4 ∧ four < 25 ∧ one < 4 ∧ year = yearAt cycle century four one := by
  refine ⟨(year - 1) / 400, ((year - 1) % 400 / 100).toNat, ((year - 1) % 100 / 4).toNat, ((year - 1) % 4).toNat, ?_⟩
  unfold yearAt
  omega

/-- The months that `ofDays?` tries. -/
def months : List Nat := (List.range 13).drop 1

/-- Taking days off a number of days comes to the year and the day of the year that it counts. -/
theorem ofDays?_yearAt (hc : century < 4) (hf : four < 25) (ho : one < 4) {ordinal : Nat}
    (hlt : ordinal < daysInYear (yearAt cycle century four one)) :
    ofDays? (daysBeforeYear (yearAt cycle century four one) - daysBeforeYear 1970 + ordinal) =
      of? (yearAt cycle century four one)
        (monthOfOrdinal (yearAt cycle century four one) months ordinal).1
        (monthOfOrdinal (yearAt cycle century four one) months ordinal).2 := by
  -- the last day of a leap year is the only one behind day 365
  have hlast : ordinal < 365 ∨ ordinal = 365 ∧ one = 3 ∧ (four ≠ 24 ∨ century = 3) := by
    unfold daysInYear at hlt
    split at hlt
    · next h =>
      rw [isLeapYear_yearAt hc hf ho] at h
      omega
    · omega
  have hz : daysBeforeYear (yearAt cycle century four one) - daysBeforeYear 1970 + ordinal + daysBeforeYear 1970 =
      146097 * cycle + (36524 * century + 1461 * four + 365 * one + ordinal : Nat) := by
    rw [daysBeforeYear_yearAt hc hf ho]
    omega
  have hcycle : (146097 * cycle + (36524 * century + 1461 * four + 365 * one + ordinal : Nat)) / 146097 = cycle := by
    omega
  have hrest : ((146097 * cycle + (36524 * century + 1461 * four + 365 * one + ordinal : Nat)) % 146097).toNat =
      36524 * century + 1461 * four + 365 * one + ordinal := by omega
  have hcentury : min ((36524 * century + 1461 * four + 365 * one + ordinal) / 36524) 3 = century := by omega
  have hspans : 36524 * century + 1461 * four + 365 * one + ordinal - century * 36524 =
      1461 * four + 365 * one + ordinal := by omega
  have hfour : (1461 * four + 365 * one + ordinal) / 1461 = four := by omega
  have hyears : (1461 * four + 365 * one + ordinal) % 1461 = 365 * one + ordinal := by omega
  have hone : min ((365 * one + ordinal) / 365) 3 = one := by omega
  have hday : 365 * one + ordinal - one * 365 = ordinal := by omega
  simp only [ofDays?, hz, hcycle, hrest, hcentury, hspans, hfour, hyears, hone, hday]
  rfl

end

theorem ofDays?_ordinal (year : Int) {ordinal : Nat} (h : ordinal < daysInYear year) :
    ofDays? (daysBeforeYear year - daysBeforeYear 1970 + ordinal) =
      of? year (monthOfOrdinal year months ordinal).1 (monthOfOrdinal year months ordinal).2 := by
  obtain ⟨cycle, century, four, one, hc, hf, ho, rfl⟩ := exists_yearAt year
  exact ofDays?_yearAt hc hf ho h

/-- Every number of days counts a day of a year. -/
theorem exists_ordinal (days : Int) : ∃ year ordinal,
    ordinal < daysInYear year ∧ days = daysBeforeYear year - daysBeforeYear 1970 + ordinal := by
  obtain ⟨cycle, rest, hrest, hdays⟩ : ∃ (cycle : Int) (rest : Nat), rest < 146097 ∧
      days + daysBeforeYear 1970 = 146097 * cycle + rest :=
    ⟨(days + daysBeforeYear 1970) / 146097, ((days + daysBeforeYear 1970) % 146097).toNat, by omega, by omega⟩
  obtain ⟨century, spans, hc, hspans, hcentury⟩ : ∃ century spans, century < 4 ∧
      (spans < 36524 ∨ spans = 36524 ∧ century = 3) ∧ rest = 36524 * century + spans :=
    ⟨min (rest / 36524) 3, rest - 36524 * min (rest / 36524) 3, by omega, by omega, by omega⟩
  obtain ⟨four, years, hf, hyears, hfour⟩ : ∃ four years, four < 25 ∧
      (years < 1460 ∨ years = 1460 ∧ (four ≠ 24 ∨ century = 3)) ∧ spans = 1461 * four + years :=
    ⟨spans / 1461, spans % 1461, by omega, by omega, by omega⟩
  obtain ⟨one, ordinal, ho, hordinal, hone⟩ : ∃ one ordinal, one < 4 ∧
      (ordinal < 365 ∨ ordinal = 365 ∧ one = 3 ∧ (four ≠ 24 ∨ century = 3)) ∧ years = 365 * one + ordinal :=
    ⟨min (years / 365) 3, years - 365 * min (years / 365) 3, by omega, by omega, by omega⟩
  refine ⟨yearAt cycle century four one, ordinal, ?_, ?_⟩
  · have hleap : isLeapYear (yearAt cycle century four one) = true ↔ _ := isLeapYear_yearAt hc hf ho
    unfold daysInYear
    split
    · omega
    · next h =>
      rw [hleap] at h
      omega
  · rw [daysBeforeYear_yearAt hc hf ho]
    omega

/-! ## Months -/

theorem daysBeforeMonth_succ (year : Int) {month : Nat} (h : 1 ≤ month) :
    daysBeforeMonth year (month + 1) = daysBeforeMonth year month + daysInMonth year month := by
  unfold daysBeforeMonth
  rw [List.range_succ, List.drop_append_of_le_length (by simpa using h), List.foldl_append]
  rfl

theorem daysBeforeMonth_thirteen (year : Int) : daysBeforeMonth year 13 = daysInYear year := by
  unfold daysInYear
  simp only [daysBeforeMonth, List.range, List.range.loop, List.drop, List.foldl, daysInMonth]
  cases isLeapYear year <;> rfl

theorem daysBeforeMonth_mono (year : Int) {month month' : Nat} (hm : 1 ≤ month) (h : month ≤ month') :
    daysBeforeMonth year month ≤ daysBeforeMonth year month' := by
  induction h with
  | refl => exact Nat.le_refl _
  | step h ih =>
    rw [Nat.succ_eq_add_one, daysBeforeMonth_succ year (Nat.le_trans hm h)]
    exact Nat.le_trans ih (Nat.le_add_right _ _)

/-- A day of a month is found behind the days of the months that are tried before. -/
theorem monthOfOrdinal_range (year : Int) {first n month k : Nat} (hfirst : 1 ≤ first) (hle : first ≤ month)
    (hlt : month < first + n) (hk : k < daysInMonth year month) :
    monthOfOrdinal year (List.range' first n) (daysBeforeMonth year month - daysBeforeMonth year first + k) =
      (month, k + 1) := by
  induction n generalizing first with
  | zero => omega
  | succ n ih =>
    rw [List.range'_succ, monthOfOrdinal]
    rcases Nat.eq_or_lt_of_le hle with rfl | hbehind
    · rw [Nat.sub_self, Nat.zero_add, if_pos hk]
    · have hnext := daysBeforeMonth_mono year (Nat.le_add_left 1 first) hbehind
      rw [daysBeforeMonth_succ year hfirst] at hnext
      have hmore : ¬ daysBeforeMonth year month - daysBeforeMonth year first + k < daysInMonth year first := by omega
      have hrest : daysBeforeMonth year month - daysBeforeMonth year first + k - daysInMonth year first =
          daysBeforeMonth year month - daysBeforeMonth year (first + 1) + k := by
        rw [daysBeforeMonth_succ year hfirst]
        omega
      rw [if_neg hmore, hrest]
      exact ih (Nat.le_add_left 1 first) hbehind (by omega)

theorem monthOfOrdinal_months (year : Int) {month k : Nat} (hm : 1 ≤ month ∧ month ≤ 12)
    (hk : k < daysInMonth year month) :
    monthOfOrdinal year months (daysBeforeMonth year month + k) = (month, k + 1) :=
  monthOfOrdinal_range year (Nat.le_refl 1) hm.1 (show month < 1 + 12 by omega) hk

/-- Every day of a year is a day of a month. -/
theorem exists_month (year : Int) {ordinal : Nat} (h : ordinal < daysInYear year) : ∃ month k,
    (1 ≤ month ∧ month ≤ 12) ∧ k < daysInMonth year month ∧ ordinal = daysBeforeMonth year month + k := by
  have hup (n : Nat) (hn : n ≤ 12) : ordinal < daysBeforeMonth year (n + 1) → ∃ month k,
      (1 ≤ month ∧ month ≤ 12) ∧ k < daysInMonth year month ∧ ordinal = daysBeforeMonth year month + k := by
    induction n with
    | zero => exact fun hlt => absurd hlt (Nat.not_lt_zero _)
    | succ n ih =>
      intro hlt
      by_cases hbefore : ordinal < daysBeforeMonth year (n + 1)
      · exact ih (by omega) hbefore
      · rw [daysBeforeMonth_succ year (by omega)] at hlt
        exact ⟨n + 1, ordinal - daysBeforeMonth year (n + 1), by omega, by omega, by omega⟩
  exact hup 12 (Nat.le_refl _) (by rwa [daysBeforeMonth_thirteen])

theorem daysBeforeMonth_add_lt (d : Date) : daysBeforeMonth d.year d.month + (d.day - 1) < daysInYear d.year := by
  obtain ⟨hfirst, hlast⟩ := d.month_range
  obtain ⟨hday, hle⟩ := d.day_range
  have hend := daysBeforeMonth_mono d.year (Nat.le_add_left 1 d.month) (show d.month + 1 ≤ 13 by omega)
  rw [daysBeforeMonth_thirteen, daysBeforeMonth_succ _ hfirst] at hend
  omega

/-! ## Dates -/

theorem of?_eq_some {year : Int} {month day : Nat} {d : Date} :
    of? year month day = some d ↔ d.year = year ∧ d.month = month ∧ d.day = day := by
  constructor
  · intro h
    simp only [of?] at h
    split at h
    · split at h
      · split at h
        · cases h
          exact ⟨rfl, rfl, rfl⟩
        · cases h
      · cases h
    · cases h
  · rintro ⟨rfl, rfl, rfl⟩
    exact d.of?_self

/-- A date and its number of days determine each other. -/
theorem ofDays?_eq_some {days : Int} {d : Date} : ofDays? days = some d ↔ d.toDays = days := by
  constructor
  · intro h
    obtain ⟨year, ordinal, hlt, rfl⟩ := exists_ordinal days
    obtain ⟨month, k, hm, hk, rfl⟩ := exists_month year hlt
    rw [ofDays?_ordinal year hlt, monthOfOrdinal_months year hm hk, of?_eq_some] at h
    obtain ⟨rfl, rfl, hday⟩ := h
    rw [toDays, hday]
    omega
  · rintro rfl
    obtain ⟨hday, hle⟩ := d.day_range
    have hdays : d.toDays = daysBeforeYear d.year - daysBeforeYear 1970 +
        (daysBeforeMonth d.year d.month + (d.day - 1) : Nat) := by
      rw [toDays]
      omega
    rw [hdays, ofDays?_ordinal d.year d.daysBeforeMonth_add_lt, monthOfOrdinal_months d.year d.month_range (by omega)]
    exact of?_eq_some.2 ⟨rfl, rfl, (Nat.sub_add_cancel hday).symm⟩

end Date

namespace Instant

/-- Nanoseconds since the epoch; in a leap second they go beyond the second that is counted. -/
def unixNanos (i : Instant) : Int := i.unixSeconds * 1000000000 + i.subsecondNanos

theorem isLeap_eq_false {i : Instant} : i.isLeap = false ↔ i.second.val < 60 := by
  have hlt := i.second.isLt
  simp only [isLeap, decide_eq_false_iff_not, Fin.ext_iff]
  change ¬ i.second.val = 60 ↔ _
  omega

/-- Outside leap seconds the fields are the digits of the number of nanoseconds. -/
theorem unixNanos_eq {i : Instant} (h : i.isLeap = false) : i.unixNanos =
    (((i.date.toDays * 24 + i.hour.val) * 60 + i.minute.val) * 60 + i.second.val) * 1000000000 + i.nanos.val := by
  have hmin : min i.second.val 59 = i.second.val := by
    have hlt := isLeap_eq_false.1 h
    omega
  simp only [unixNanos, unixSeconds, subsecondNanos, h, hmin]
  simp only [Bool.false_eq_true, if_false]
  omega

/-- An instant outside leap seconds and its number of nanoseconds determine each other. -/
theorem ofUnixNanos?_eq_some {nanos : Int} {i : Instant} :
    ofUnixNanos? nanos = some i ↔ i.isLeap = false ∧ i.unixNanos = nanos := by
  obtain ⟨date, hour, minute, second, fraction⟩ := i
  simp only [ofUnixNanos?, Option.bind_eq_bind, Option.bind_eq_some_iff, Option.pure_def, Option.some.injEq,
    Date.ofDays?_eq_some, Instant.mk.injEq, Fin.ext_iff, Fin.val_ofNat]
  constructor
  · rintro ⟨day, hdays, rfl, hhour, hminute, hsecond, hfraction⟩
    have hleap := (isLeap_eq_false (i := ⟨day, hour, minute, second, fraction⟩)).2 (by dsimp only; omega)
    refine ⟨hleap, ?_⟩
    rw [unixNanos_eq hleap]
    dsimp only
    omega
  · rintro ⟨hleap, rfl⟩
    have hsecond := isLeap_eq_false.1 hleap
    rw [unixNanos_eq hleap]
    dsimp only at hsecond ⊢
    exact ⟨date, by omega, rfl, by omega, by omega, by omega, by omega⟩

end Instant

end SaveSlots
