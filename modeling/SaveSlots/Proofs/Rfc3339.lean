import Mathlib.Algebra.Group.Nat.Defs
import SaveSlots.Time.Rfc3339
/-!
# Reading a date that was written

`Instant.ofText?_text`: every instant is read back as it was written, also a leap second and also in a year
outside 0 to 9999. The parts are read one after another; what each leaves is the text of the rest.
-/

namespace SaveSlots

namespace Rfc3339

/-! ## Digits -/

theorem isDigit_digit (n : Nat) : (digit n).isDigit = true := by
  have hall : ∀ k < 10, (Char.ofNat (48 + k)).isDigit = true := by decide
  exact hall (n % 10) (Nat.mod_lt _ (by decide))

theorem toNat_digit (n : Nat) : (digit n).toNat - '0'.toNat = n % 10 := by
  have hall : ∀ k < 10, (Char.ofNat (48 + k)).toNat - '0'.toNat = k := by decide
  exact hall (n % 10) (Nat.mod_lt _ (by decide))

theorem isDigit_of_mem {w n : Nat} {c : Char} (h : c ∈ digits w n) : c.isDigit = true := by
  induction w generalizing n with
  | zero => cases h
  | succ w ih =>
    rcases List.mem_append.1 h with h | h
    · exact ih h
    · rw [List.mem_singleton.1 h]
      exact isDigit_digit n

theorem length_digits (w n : Nat) : (digits w n).length = w := by
  induction w generalizing n with
  | zero => rfl
  | succ w ih => simp [digits, ih]

theorem number_digits {w n : Nat} (h : n < 10 ^ w) : number (digits w n) = n := by
  induction w generalizing n with
  | zero =>
    have hz : n = 0 := by simpa using h
    simp [digits, number, hz]
  | succ w ih =>
    have hdiv : n / 10 < 10 ^ w := by
      rw [Nat.pow_succ] at h
      omega
    have hrec := ih hdiv
    simp only [number] at hrec
    simp only [digits, number, Nat.ofDigitChars_append, hrec, Nat.ofDigitChars_cons, Nat.ofDigitChars_nil,
      toNat_digit]
    omega

/-- No digit is taken for a blank. -/
theorem isSpace_of_isDigit {c : Char} (h : c.isDigit = true) : isSpace c = false := by
  simp only [Char.isDigit, Bool.and_eq_true, decide_eq_true_eq] at h
  have h0 : 48 ≤ c.toNat := UInt32.le_iff_toNat_le.1 h.1
  have h9 : c.toNat ≤ 57 := UInt32.le_iff_toNat_le.1 h.2
  simp only [isSpace, Bool.or_eq_false_iff, Bool.and_eq_false_iff, decide_eq_false_iff_not]
  omega

theorem skipSpace_cons {c : Char} (h : isSpace c = false) (s : List Char) : skipSpace (c :: s) = c :: s := by
  simp [skipSpace, h]

/-! ## Parts -/

theorem scanDigits_append {w : Nat} {ds s : List Char} (hd : ∀ c ∈ ds, c.isDigit = true) (hne : ds ≠ [])
    (hw : ds.length = w ∨ (ds.length ≤ w ∧ ∀ c ∈ s.head?, c.isDigit = false)) :
    scanDigits w (ds ++ s) = some (ds, s) := by
  have htake : ((ds ++ s).take w).takeWhile Char.isDigit = ds := by
    rcases hw with rfl | ⟨hle, hs⟩
    · have hall : (ds ++ []).takeWhile Char.isDigit = ds ++ [] := List.takeWhile_append_of_pos hd
      rw [List.take_left]
      simpa using hall
    · rw [List.take_append, List.take_of_length_le hle, List.takeWhile_append_of_pos hd]
      cases hrest : s.take (w - ds.length) with
      | nil => simp
      | cons c t =>
        have hc : c ∈ s.head? := by
          cases s with
          | nil => simp at hrest
          | cons d s =>
            cases hk : w - ds.length with
            | zero => simp [hk] at hrest
            | succ k =>
              rw [hk, List.take_succ_cons] at hrest
              simp [(List.cons.inj hrest).1]
        simp [hs c hc]
  unfold scanDigits
  rw [htake]
  cases ds with
  | nil => exact absurd rfl hne
  | cons d ds => simp

theorem scanNumber_digits {n : Nat} (hn : n < 100) (s : List Char) :
    scanNumber 2 (digits 2 n ++ s) = some (n, s) := by
  have hskip : skipSpace (digits 2 n ++ s) = digits 2 n ++ s :=
    skipSpace_cons (isSpace_of_isDigit (isDigit_digit (n / 10))) _
  rw [scanNumber, hskip, scanDigits_append (fun c hc => isDigit_of_mem hc) (by simp [digits])
    (.inl (length_digits 2 n))]
  simp [number_digits (w := 2) hn]

theorem scanMark_cons {mark : Char} (h : isSpace mark = false) (s : List Char) :
    scanMark mark (mark :: s) = some s := by
  simp [scanMark, skipSpace_cons h, scanChar]

/-- The digits of a year that has a sign, as many as there are. -/
theorem scanDigits_signed (n : Nat) (s : List Char) :
    let ds := List.replicate (4 - (Nat.toDigits 10 n).length) '0' ++ Nat.toDigits 10 n
    scanDigits (ds ++ '-' :: s).length (ds ++ '-' :: s) = some (ds, '-' :: s) ∧ number ds = n := by
  intro ds
  have hd : ∀ c ∈ ds, c.isDigit = true := by
    intro c hc
    rcases List.mem_append.1 hc with hc | hc
    · rw [(List.mem_replicate.1 hc).2]
      rfl
    · exact Nat.isDigit_of_mem_toDigits (by decide) (by decide) hc
  refine ⟨scanDigits_append hd (by simp [ds, Nat.toDigits_ne_nil]) (.inr ⟨by simp, ?_⟩), ?_⟩
  · intro c hc
    obtain rfl : '-' = c := by simpa using hc
    rfl
  · simp [ds, number, Nat.ofDigitChars_append, Nat.ofDigitChars_toDigits]

theorem scanYear_year (y : Int) (s : List Char) : scanYear (year y ++ '-' :: s) = some (y, '-' :: s) := by
  unfold year
  by_cases hy : 0 ≤ y ∧ y ≤ 9999
  · rw [if_pos hy]
    have hskip : skipSpace (digits 4 y.toNat ++ '-' :: s) = digits 4 y.toNat ++ '-' :: s :=
      skipSpace_cons (isSpace_of_isDigit (isDigit_digit _)) _
    have hscan : scanDigits 4 (digits 4 y.toNat ++ '-' :: s) = some (digits 4 y.toNat, '-' :: s) :=
      scanDigits_append (fun c hc => isDigit_of_mem hc) (by simp [digits]) (.inl (length_digits 4 _))
    have hnum : (number (digits 4 y.toNat) : Int) = y := by
      rw [number_digits (w := 4) (by omega)]
      omega
    -- a year without a sign begins with a digit
    have hfirst := isDigit_digit (y.toNat / 10 / 10 / 10)
    rw [scanYear, hskip]
    split
    · next h =>
      rw [(List.cons.inj h).1] at hfirst
      cases hfirst
    · next h =>
      rw [(List.cons.inj h).1] at hfirst
      cases hfirst
    · simp [hscan, hnum]
  · rw [if_neg hy]
    obtain ⟨hscan, hnum⟩ := scanDigits_signed y.natAbs s
    by_cases hneg : y < 0
    · have hskip : skipSpace ('-' :: (List.replicate (4 - (Nat.toDigits 10 y.natAbs).length) '0' ++
          Nat.toDigits 10 y.natAbs ++ '-' :: s)) = _ := skipSpace_cons (by decide) _
      simp only [hneg, if_true, List.cons_append, scanYear, hskip, hscan, hnum, Option.map_some]
      simp only [Option.some.injEq, Prod.mk.injEq, and_true]
      omega
    · have hskip : skipSpace ('+' :: (List.replicate (4 - (Nat.toDigits 10 y.natAbs).length) '0' ++
          Nat.toDigits 10 y.natAbs ++ '-' :: s)) = _ := skipSpace_cons (by decide) _
      simp only [hneg, if_false, List.cons_append, scanYear, hskip, hscan, hnum, Option.map_some]
      simp only [Option.some.injEq, Prod.mk.injEq, and_true]
      omega

theorem scanFraction_digits {w n : Nat} (hw : 0 < w) (hle : w ≤ 9) (hn : n < 10 ^ w) :
    scanFraction ('.' :: digits w n ++ ['Z']) = some (n * 10 ^ (9 - w), ['Z']) := by
  have hscan : scanDigits 9 (digits w n ++ ['Z']) = some (digits w n, ['Z']) := by
    refine scanDigits_append (fun c hc => isDigit_of_mem hc) ?_ (.inr ⟨by simp [length_digits, hle], ?_⟩)
    · intro h
      have hlen := length_digits w n
      rw [h] at hlen
      simp at hlen
      omega
    · intro c hc
      obtain rfl : 'Z' = c := by simpa using hc
      rfl
  simp only [List.cons_append, scanFraction, hscan, Option.map_some, number_digits hn, length_digits]
  rfl

/-- The shortest exact fraction is exact. -/
theorem scanFraction_fraction {nanos : Nat} (h : nanos < 1000000000) :
    scanFraction (fraction nanos ++ ['Z']) = some (nanos, ['Z']) := by
  unfold fraction
  split
  · next h0 =>
    rw [h0]
    rfl
  split
  · next h6 =>
    rw [scanFraction_digits (by decide) (by decide) (by omega)]
    simp only [Option.some.injEq, Prod.mk.injEq, and_true]
    omega
  split
  · next h3 =>
    rw [scanFraction_digits (by decide) (by decide) (by omega)]
    simp only [Option.some.injEq, Prod.mk.injEq, and_true]
    omega
  · rw [scanFraction_digits (by decide) (by decide) (by omega)]
    simp

theorem minusMinutes_zero (i : Instant) : i.minusMinutes? 0 = some i := by
  have hh := i.hour.isLt
  have hm := i.minute.isLt
  have hlow : ¬ (i.hour.val * 60 + i.minute.val - 0 : Int) < 0 := by omega
  have hhigh : ¬ 1440 ≤ (i.hour.val * 60 + i.minute.val - 0 : Int) := by omega
  have hday : ((i.hour.val * 60 + i.minute.val - 0 : Int) % 1440).toNat = i.hour.val * 60 + i.minute.val := by
    omega
  simp only [Instant.minusMinutes?, if_neg hlow, if_neg hhigh, hday, Option.bind_eq_bind, Option.bind_some,
    Option.pure_def, Option.some.injEq]
  have hhour : Fin.ofNat 24 ((i.hour.val * 60 + i.minute.val) / 60) = i.hour := by
    ext
    simp only [Fin.val_ofNat]
    omega
  have hminute : Fin.ofNat 60 (i.hour.val * 60 + i.minute.val) = i.minute := by
    ext
    simp only [Fin.val_ofNat]
    omega
  rw [hhour, hminute]

theorem instant_self (i : Instant) :
    instant? i.date.year i.date.month i.date.day i.hour i.minute i.second i.nanos 0 = some i := by
  unfold instant?
  rw [Date.of?_self]
  exact (dif_pos ⟨i.hour.isLt, i.minute.isLt, i.second.isLt, i.nanos.isLt⟩).trans (minusMinutes_zero i)

theorem scanChar_separator (s : List Char) :
    scanChar (fun c => c == 'T' || c == 't' || c == ' ') ('T' :: s) = some s := rfl

theorem read_write (i : Instant) : read? (write i) = some i := by
  have hmonth : i.date.month < 100 := by have := i.date.month_range; omega
  have hday : i.date.day < 100 := by
    have hle := i.date.day_range.2
    have hmax : daysInMonth i.date.year i.date.month ≤ 31 := by
      unfold daysInMonth
      repeat' split
      all_goals omega
    omega
  have hhour : i.hour.val < 100 := by omega
  have hminute : i.minute.val < 100 := by omega
  have hsecond : i.second.val < 100 := by omega
  have hdash : isSpace '-' = false := by decide
  have hcolon : isSpace ':' = false := by decide
  have hoffset : scanOffset (skipSpace ['Z']) = some (0, []) := by decide
  simp only [write, dateTime, List.append_assoc, List.cons_append]
  -- every scan takes what was written for it and leaves the rest to the next
  refine Option.bind_eq_some_iff.2 ⟨_, scanYear_year _ _, ?_⟩
  refine Option.bind_eq_some_iff.2 ⟨_, scanMark_cons hdash _, ?_⟩
  refine Option.bind_eq_some_iff.2 ⟨_, scanNumber_digits hmonth _, ?_⟩
  refine Option.bind_eq_some_iff.2 ⟨_, scanMark_cons hdash _, ?_⟩
  refine Option.bind_eq_some_iff.2 ⟨_, scanNumber_digits hday _, ?_⟩
  refine Option.bind_eq_some_iff.2 ⟨_, scanChar_separator _, ?_⟩
  refine Option.bind_eq_some_iff.2 ⟨_, scanNumber_digits hhour _, ?_⟩
  refine Option.bind_eq_some_iff.2 ⟨_, scanMark_cons hcolon _, ?_⟩
  refine Option.bind_eq_some_iff.2 ⟨_, scanNumber_digits hminute _, ?_⟩
  refine Option.bind_eq_some_iff.2 ⟨_, scanMark_cons hcolon _, ?_⟩
  refine Option.bind_eq_some_iff.2 ⟨_, scanNumber_digits hsecond _, ?_⟩
  refine Option.bind_eq_some_iff.2 ⟨_, scanFraction_fraction i.nanos.isLt, ?_⟩
  exact Option.bind_eq_some_iff.2 ⟨_, hoffset, instant_self i⟩

end Rfc3339

/-- Every instant is read back as it was written. -/
theorem Instant.ofText?_text (i : Instant) : ofText? i.text = some i := by
  rw [ofText?, text, String.toList_ofList, Rfc3339.read_write]

end SaveSlots
