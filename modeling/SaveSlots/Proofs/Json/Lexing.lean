import SaveSlots.Json.Printer
/-!
# Cutting what was printed

A printed outline is cut into the tokens that it was printed from, in either layout (`ofBytes_render`).
Blanks fall away, so the layout does not matter any more behind this point.

The outlines meant are those that are JSON to their end and hold no number but whole ones of 64 bits
(`Outline.Plain`).
-/

namespace SaveSlots

/-! ## Digits -/

namespace Decimal

theorem isDigit_of_mem {n : Nat} {b : UInt8} (h : b ∈ digits n) : isDigit b = true := by
  obtain ⟨c, hc, rfl⟩ := List.mem_map.1 h
  have hd : c.isDigit = true := Nat.isDigit_of_mem_toDigits (by decide) (by decide) hc
  simp only [Char.isDigit, Bool.and_eq_true, decide_eq_true_eq] at hd
  have h0 : 48 ≤ c.val.toNat := UInt32.le_iff_toNat_le.1 hd.1
  have h9 : c.val.toNat ≤ 57 := UInt32.le_iff_toNat_le.1 hd.2
  have hn : (UInt8.ofNat c.toNat).toNat = c.toNat := by
    simp only [Char.toNat, UInt8.toNat_ofNat']
    omega
  simp only [isDigit, Bool.and_eq_true, decide_eq_true_eq, UInt8.le_iff_toNat_le, hn]
  exact ⟨h0, h9⟩

theorem digits_ne_nil (n : Nat) : digits n ≠ [] := by
  simp [digits, Nat.toDigits_ne_nil]

/-- Only zero is spelled with a zero in front. -/
theorem head_digits {n : Nat} (h : (digits n).head? = some 48) : n = 0 := by
  induction n using Nat.strongRecOn with
  | _ n ih =>
    unfold digits at h
    by_cases hn : n < 10
    · rw [Nat.toDigits_of_lt_base hn] at h
      revert h
      have hall : ∀ k < 10,
          (List.map (fun c : Char => UInt8.ofNat c.toNat) [k.digitChar]).head? = some 48 → k = 0 := by
        decide
      exact hall n hn
    · have hle : 10 ≤ n := Nat.le_of_not_lt hn
      have hhead : (digits (n / 10)).head? = some 48 := by
        rw [Nat.toDigits_of_base_le (by decide) hle, List.map_append] at h
        cases hd : digits (n / 10) with
        | nil => exact absurd hd (digits_ne_nil _)
        | cons d ds =>
          rw [digits] at hd
          simpa [hd] using h
      have hzero := ih (n / 10) (by omega) hhead
      omega

end Decimal

namespace Numeral

open Decimal

/-- Whether a number may end here: whatever follows does not go on with it. -/
def Ends (s : Bytes) : Prop := ∀ b ∈ s.head?, isDigit b = false ∧ b ≠ 46 ∧ b ≠ 101 ∧ b ≠ 69

theorem scanDigits_digits (n : Nat) {s : Bytes} (hs : Ends s) :
    scanDigits (digits n ++ s) = .ok (digits n, s) := by
  have hall : ∀ b ∈ digits n, isDigit b = true := fun b hb => isDigit_of_mem hb
  have htake : s.takeWhile isDigit = [] := by
    cases s with
    | nil => rfl
    | cons b s => simp [(hs b rfl).1]
  have hdrop : s.dropWhile isDigit = s := by
    cases s with
    | nil => rfl
    | cons b s => simp [(hs b rfl).1]
  unfold scanDigits
  rw [List.takeWhile_append_of_pos hall, List.dropWhile_append_of_pos hall, htake, hdrop, List.append_nil]
  cases hd : digits n with
  | nil => exact absurd hd (digits_ne_nil n)
  | cons d ds => rfl

theorem scanFraction_ends {s : Bytes} (hs : Ends s) : scanFraction s = .ok (none, s) := by
  cases s with
  | nil => rfl
  | cons b s => rw [scanFraction, if_neg (hs b rfl).2.1]

theorem scanExponent_ends {s : Bytes} (hs : Ends s) : scanExponent s = .ok (none, s) := by
  cases s with
  | nil => rfl
  | cons b s =>
    have hb := (hs b rfl).2.2
    rw [scanExponent, if_neg (by simp [hb.1, hb.2])]

/-- Digits behind the sign of a number. -/
theorem scan_digits {s t : Bytes} {negative : Bool} {n : Nat} (hs : Ends s)
    (hm : scanMinus t = (negative, digits n ++ s)) : scan t = .ok (⟨negative, digits n, none, none⟩, s) := by
  have hlead : ¬ ((digits n).head? = some 48 ∧ (digits n).length > 1) := by
    rintro ⟨h0, hlen⟩
    rw [head_digits h0] at hlen
    revert hlen
    decide
  simp only [scan, hm, scanDigits_digits n hs, if_neg hlead, scanFraction_ends hs, scanExponent_ends hs]

theorem scanMinus_digits (n : Nat) (s : Bytes) : scanMinus (digits n ++ s) = (false, digits n ++ s) := by
  cases hd : digits n with
  | nil => exact absurd hd (digits_ne_nil n)
  | cons d ds =>
    have hdig : isDigit d = true := isDigit_of_mem (n := n) (by simp [hd])
    have hne : d ≠ 45 := by
      rintro rfl
      revert hdig
      decide
    simp [scanMinus, hne]

/-- Whole numbers of at most 64 bits are read as they were spelled. -/
theorem scan_spell {n : Int} {s : Bytes} (hs : Ends s) (hlow : -0x8000000000000000 ≤ n)
    (hhigh : n < 0x10000000000000000) :
    ∃ m, scan (spell n ++ s) = .ok (m, s) ∧ m.number? = some (.int n) := by
  cases n with
  | ofNat n =>
    refine ⟨⟨false, digits n, none, none⟩, scan_digits hs (scanMinus_digits n s), ?_⟩
    have hn : n < 0x10000000000000000 := by
      simp only [Int.ofNat_eq_natCast] at hhigh
      omega
    simp [number?, value_digits, hn]
  | negSucc n =>
    refine ⟨⟨true, digits (n + 1), none, none⟩, scan_digits hs rfl, ?_⟩
    have hn : n + 1 ≤ 0x8000000000000000 := by omega
    simp [number?, value_digits, hn, Int.negSucc_eq]

end Numeral

namespace Token

/-! ## Strings -/

/-- What a byte of a string is read as: control characters without a short escape come back as units. -/
def pieceOf (b : UInt8) : Piece := if (Text.escape b).length = 6 then .unit b.toNat else .byte b

theorem unit_escape {b : UInt8} (h : b < 32) :
    unit? 48 48 (Text.escape.digit (b / 16)) (Text.escape.digit (b % 16)) = some b.toNat := by
  have hall : ∀ n : Fin 32, unit? 48 48 (Text.escape.digit (UInt8.ofNat n / 16))
      (Text.escape.digit (UInt8.ofNat n % 16)) = some (UInt8.ofNat n).toNat := by decide
  have hn : b.toNat < 32 := UInt8.lt_iff_toNat_lt.1 h
  simpa using hall ⟨b.toNat, hn⟩

/-- The three spellings of a byte. -/
theorem escape_cases (b : UInt8) :
    (Text.escape b = [b] ∧ b ≠ 34 ∧ b ≠ 92 ∧ ¬ b < 32) ∨
    (∃ e, Text.escape b = [92, e] ∧ e ≠ 117 ∧ escaped? e = some b) ∨
    (b < 32 ∧ Text.escape b =
      [92, 117, 48, 48, Text.escape.digit (b / 16), Text.escape.digit (b % 16)]) := by
  by_cases h34 : b = 34
  · exact .inr (.inl ⟨34, by subst h34; decide⟩)
  by_cases h92 : b = 92
  · exact .inr (.inl ⟨92, by subst h92; decide⟩)
  by_cases h32 : b < 32
  · by_cases h8 : b = 8
    · exact .inr (.inl ⟨98, by subst h8; decide⟩)
    by_cases h9 : b = 9
    · exact .inr (.inl ⟨116, by subst h9; decide⟩)
    by_cases h10 : b = 10
    · exact .inr (.inl ⟨110, by subst h10; decide⟩)
    by_cases h12 : b = 12
    · exact .inr (.inl ⟨102, by subst h12; decide⟩)
    by_cases h13 : b = 13
    · exact .inr (.inl ⟨114, by subst h13; decide⟩)
    exact .inr (.inr ⟨h32, by simp only [Text.escape, h34, h92, h32, h8, h9, h10, h12, h13, if_true, if_false]⟩)
  · exact .inl ⟨by simp only [Text.escape, h34, h92, h32, if_false], h34, h92, h32⟩

theorem scanString_escape (parts : List Piece) (b : UInt8) (s : Bytes) :
    scanString parts (Text.escape b ++ s) = scanString (pieceOf b :: parts) s := by
  rcases escape_cases b with ⟨he, h34, h92, h32⟩ | ⟨e, he, hu, hb⟩ | ⟨h32, he⟩
  · rw [he, List.singleton_append, scanString.eq_def]
    simp [pieceOf, he, h34, h92, h32]
  · rw [he, List.cons_append, List.singleton_append, scanString.eq_def]
    simp [pieceOf, he, hu, hb]
  · simp [pieceOf, he, scanString, unit_escape h32]

theorem scanString_escaped (parts : List Piece) (bs s : Bytes) :
    scanString parts (bs.flatMap Text.escape ++ 34 :: s) = ((bs.map pieceOf).reverse ++ parts, .ok s) := by
  induction bs generalizing parts with
  | nil =>
    rw [List.flatMap_nil, List.nil_append, scanString.eq_def]
    simp
  | cons b bs ih =>
    rw [List.flatMap_cons, List.append_assoc, scanString_escape, ih]
    simp

theorem joinPieces_unit {u : Nat} (h : u < 32) (ps : List Piece) (done : Bytes) :
    joinPieces (.unit u :: ps) done = joinPieces ps (UInt8.ofNat u :: done) := by
  have hall : ∀ u : Fin 32, isHighHalf u = false ∧ isLowHalf u = false ∧
      String.utf8EncodeChar (Char.ofNat u) = [UInt8.ofNat u] := by decide
  obtain ⟨hh, hl, he⟩ := hall ⟨u, h⟩
  rw [joinPieces.eq_def]
  simp [hh, hl, he]

theorem joinPieces_pieces (bs done : Bytes) : joinPieces (bs.map pieceOf) done = some (done.reverse ++ bs) := by
  induction bs generalizing done with
  | nil => simp [joinPieces]
  | cons b bs ih =>
    have hb : joinPieces (pieceOf b :: bs.map pieceOf) done = joinPieces (bs.map pieceOf) (b :: done) := by
      unfold pieceOf
      split
      · next hlen =>
        rcases escape_cases b with ⟨he, -⟩ | ⟨e, he, -⟩ | ⟨h32, -⟩
        · simp [he] at hlen
        · simp [he] at hlen
        · have hn : b.toNat < 32 := UInt8.lt_iff_toNat_lt.1 h32
          rw [joinPieces_unit hn, UInt8.ofNat_toNat]
      · rfl
    rw [List.map_cons, hb, ih]
    simp

/-- A quoted string is read as the text that it quotes. -/
theorem next_quoted (t : String) (s : Bytes) :
    next 34 ((Bytes.ofText t).flatMap Text.escape ++ 34 :: s) = (.string (some t), s) := by
  have hs : string? ((Bytes.ofText t).flatMap Text.escape ++ 34 :: s) = (.string (some t), s) := by
    simp only [string?, scanString_escaped, List.append_nil, List.reverse_reverse, joinPieces_pieces,
      List.reverse_nil, List.nil_append, Option.bind_some, Bytes.text?_ofText]
  rw [next, show mark? 34 = none from rfl]
  exact hs

/-! ## Words, marks and numbers -/

theorem scanWord_append (w s : Bytes) : scanWord w (w ++ s) = .ok s := by
  induction w with
  | nil => rfl
  | cons b w ih => simp [scanWord, ih]

theorem next_null (s : Bytes) : next 110 (Bytes.ofText "ull" ++ s) = (.null, s) := by
  rw [next, show mark? 110 = none from rfl]
  simp only [show literal? 110 = some ("ull", .null) from rfl, word, scanWord_append]
  rfl

theorem next_true (s : Bytes) : next 116 (Bytes.ofText "rue" ++ s) = (.bool true, s) := by
  rw [next, show mark? 116 = none from rfl]
  simp only [show literal? 116 = some ("rue", .bool true) from rfl, word, scanWord_append]
  rfl

theorem next_false (s : Bytes) : next 102 (Bytes.ofText "alse" ++ s) = (.bool false, s) := by
  rw [next, show mark? 102 = none from rfl]
  simp only [show literal? 102 = some ("alse", .bool false) from rfl, word, scanWord_append]
  rfl

theorem cut_blanks {bs : Bytes} (h : ∀ b ∈ bs, isBlank b = true) (done : List Token) (s : Bytes) :
    cut done (bs ++ s) = cut done s := by
  induction bs with
  | nil => rfl
  | cons b bs ih =>
    rw [List.cons_append, cut, if_pos (h b (by simp))]
    exact ih fun c hc => h c (by simp [hc])

theorem cut_token {b : UInt8} {s rest : Bytes} {t : Token} (done : List Token) (hb : isBlank b = false)
    (h : next b s = (t, rest)) : cut done (b :: s) = cut (t :: done) rest := by
  rw [cut, if_neg (by simp [hb]), h]

theorem cut_mark {b : UInt8} {t : Token} (done : List Token) (s : Bytes) (hb : isBlank b = false)
    (h : mark? b = some t) : cut done (b :: s) = cut (t :: done) s :=
  cut_token done hb (by rw [next, h])

theorem cut_quoted (done : List Token) (t : String) (s : Bytes) :
    cut done (Text.quoted t ++ s) = cut (.string (some t) :: done) s := by
  have hq : Text.quoted t ++ s = 34 :: ((Bytes.ofText t).flatMap Text.escape ++ 34 :: s) := by
    simp [Text.quoted]
  rw [hq]
  exact cut_token done (by decide) (next_quoted t s)

theorem cut_number {n : Int} {s : Bytes} (done : List Token) (hs : Numeral.Ends s)
    (hlow : -0x8000000000000000 ≤ n) (hhigh : n < 0x10000000000000000) :
    cut done (Decimal.spell n ++ s) = cut (.number (some (.int n)) :: done) s := by
  obtain ⟨m, hscan, hnum⟩ := Numeral.scan_spell hs hlow hhigh
  have hfirst : ∃ b bs, Decimal.spell n = b :: bs ∧ (b = 45 ∨ Decimal.isDigit b = true) := by
    cases n with
    | ofNat n =>
      cases hd : Decimal.digits n with
      | nil => exact absurd hd (Decimal.digits_ne_nil n)
      | cons d ds => exact ⟨d, ds, hd, .inr (Decimal.isDigit_of_mem (n := n) (by simp [hd]))⟩
    | negSucc n => exact ⟨45, _, rfl, .inl rfl⟩
  obtain ⟨b, bs, hb, hfirst⟩ := hfirst
  have hbyte : isBlank b = false ∧ mark? b = none ∧ b ≠ 34 ∧ literal? b = none := by
    have hall : ∀ n : Fin 58, (UInt8.ofNat n = 45 ∨ Decimal.isDigit (UInt8.ofNat n) = true) →
        isBlank (UInt8.ofNat n) = false ∧ mark? (UInt8.ofNat n) = none ∧ UInt8.ofNat n ≠ 34 ∧
          literal? (UInt8.ofNat n) = none := by decide
    have hb : b.toNat < 58 := by
      rcases hfirst with rfl | hd
      · decide
      · simp only [Decimal.isDigit, Bool.and_eq_true, decide_eq_true_eq] at hd
        exact Nat.lt_succ_of_le (UInt8.le_iff_toNat_le.1 hd.2)
    simpa using hall ⟨b.toNat, hb⟩ (by simpa using hfirst)
  obtain ⟨hblank, hmark, hquote, hword⟩ := hbyte
  rw [hb, List.cons_append]
  refine cut_token done hblank ?_
  rw [next, hmark]
  simp only [if_neg hquote, hword, if_pos hfirst, numeral]
  rw [← List.cons_append, ← hb, hscan]
  simp only [hnum]

end Token

/-! ## The printer without an accumulator -/

mutual

/-- The text of an outline. -/
def Outline.spelled (l : Layout) (depth : Nat) : Outline → Bytes
  | .null => Bytes.ofText "null"
  | .bool b => Bytes.ofText (if b then "true" else "false")
  | .number n => n.map Number.text |>.getD []
  | .string s => Text.quoted (s.getD "")
  | .array .closed => [91, 93]
  | .array items => 91 :: items.spelled l (depth + 1) true ++ l.line depth ++ [93]
  | .object .closed => [123, 125]
  | .object members => 123 :: members.spelled l (depth + 1) true ++ l.line depth ++ [125]
  | .broken _ => []

def Items.spelled (l : Layout) (depth : Nat) (first : Bool) : Items → Bytes
  | .closed | .cut _ => []
  | .item o rest =>
    (if first then [] else [44]) ++ l.line depth ++ o.spelled l depth ++ rest.spelled l depth false

def Members.spelled (l : Layout) (depth : Nat) (first : Bool) : Members → Bytes
  | .closed | .cut _ => []
  | .member key o rest =>
    let name :=
      match key with
      | .name s => Text.quoted (s.getD "")
      | .broken _ => []
    (if first then [] else [44]) ++ l.line depth ++ name ++ l.colon ++ o.spelled l depth ++
      rest.spelled l depth false

end

mutual

theorem Outline.print_eq (l : Layout) (depth : Nat) (done : Bytes) :
    (o : Outline) → o.print l depth done = (o.spelled l depth).reverse ++ done
  | .null | .bool _ | .number _ | .string _ | .broken _ => by simp [Outline.print, Outline.spelled]
  | .array .closed | .object .closed => by simp [Outline.print, Outline.spelled]
  | .array (.cut _) | .object (.cut _) => by
    simp [Outline.print, Outline.spelled, Items.print, Members.print, Items.spelled, Members.spelled]
  | .array (.item o rest) => by
    rw [Outline.print, Items.print_eq l (depth + 1) true (91 :: done) (.item o rest), Outline.spelled]
    · simp
    all_goals simp
  | .object (.member k o rest) => by
    rw [Outline.print, Members.print_eq l (depth + 1) true (123 :: done) (.member k o rest), Outline.spelled]
    · simp
    all_goals simp

theorem Items.print_eq (l : Layout) (depth : Nat) (first : Bool) (done : Bytes) :
    (items : Items) → items.print l depth first done = (items.spelled l depth first).reverse ++ done
  | .closed | .cut _ => by simp [Items.print, Items.spelled]
  | .item o rest => by
    rw [Items.print, Items.print_eq l depth false _ rest, Outline.print_eq l depth _ o, Items.spelled]
    cases first <;> simp

theorem Members.print_eq (l : Layout) (depth : Nat) (first : Bool) (done : Bytes) :
    (members : Members) → members.print l depth first done = (members.spelled l depth first).reverse ++ done
  | .closed | .cut _ => by simp [Members.print, Members.spelled]
  | .member (.name _) o rest | .member (.broken _) o rest => by
    rw [Members.print, Members.print_eq l depth false _ rest, Outline.print_eq l depth _ o, Members.spelled]
    cases first <;> simp

end

theorem Outline.render_eq (l : Layout) (o : Outline) : o.render l = o.spelled l 0 := by
  rw [Outline.render, Outline.print_eq, List.append_nil, List.reverse_reverse]

/-! ## Tokens of an outline -/

mutual

/-- Whether a text can have this outline: it is JSON to its end, with whole numbers of 64 bits only. -/
def Outline.Plain : Outline → Prop
  | .null | .bool _ => True
  | .number (some (.int n)) => -0x8000000000000000 ≤ n ∧ n < 0x10000000000000000
  | .number _ => False
  | .string s => s.isSome = true
  | .array items => items.Plain
  | .object members => members.Plain
  | .broken _ => False

def Items.Plain : Items → Prop
  | .closed => True
  | .cut _ => False
  | .item o rest => o.Plain ∧ rest.Plain

def Members.Plain : Members → Prop
  | .closed => True
  | .member (.name (some _)) o rest => o.Plain ∧ rest.Plain
  | .cut _ | .member .. => False

end

mutual

def Outline.tokens : Outline → List Token
  | .null => [.null]
  | .bool b => [.bool b]
  | .number n => [.number n]
  | .string s => [.string s]
  | .array items => .openArray :: items.tokens true ++ [.closeArray]
  | .object members => .openObject :: members.tokens true ++ [.closeObject]
  | .broken _ => []

def Items.tokens (first : Bool) : Items → List Token
  | .closed | .cut _ => []
  | .item o rest => (if first then [] else [.comma]) ++ o.tokens ++ rest.tokens false

def Members.tokens (first : Bool) : Members → List Token
  | .closed | .cut _ | .member (.broken _) _ _ => []
  | .member (.name s) o rest =>
    (if first then [] else [.comma]) ++ [.string s, .colon] ++ o.tokens ++ rest.tokens false

end

/-- A layout that adds nothing but blanks. -/
structure Layout.Blank (l : Layout) : Prop where
  line : ∀ depth, ∀ b ∈ l.line depth, Token.isBlank b = true
  colon : ∃ bs : Bytes, l.colon = 58 :: bs ∧ ∀ b ∈ bs, Token.isBlank b = true

theorem Layout.blank_compact : compact.Blank where
  line _ _ hb := by cases hb
  colon := ⟨[], rfl, fun _ hb => by cases hb⟩

theorem Layout.blank_indented : indented.Blank where
  line depth b hb := by
    simp only [indented, List.mem_cons, List.mem_replicate] at hb
    rcases hb with rfl | ⟨-, rfl⟩ <;> decide
  colon := ⟨[32], rfl, fun b hb => by
    rw [List.mem_singleton.1 hb]
    rfl⟩

section
variable {l : Layout} (hl : l.Blank)
include hl

theorem Layout.Blank.ends_line (depth : Nat) {s : Bytes} (hs : Numeral.Ends s) :
    Numeral.Ends (l.line depth ++ s) := by
  have hline := hl.line depth
  cases hb : l.line depth with
  | nil => exact hs
  | cons b bs =>
    have hblank := hline b (by simp [hb])
    intro c hc
    obtain rfl : b = c := by simpa using hc
    simp only [Token.isBlank, Bool.or_eq_true, decide_eq_true_eq] at hblank
    rcases hblank with ((rfl | rfl) | rfl) | rfl <;> decide

theorem Layout.Blank.cut_line (depth : Nat) (done : List Token) (s : Bytes) :
    Token.cut done (l.line depth ++ s) = Token.cut done s :=
  Token.cut_blanks (hl.line depth) done s

theorem Layout.Blank.cut_colon (done : List Token) (s : Bytes) :
    Token.cut done (l.colon ++ s) = Token.cut (.colon :: done) s := by
  obtain ⟨bs, hc, hb⟩ := hl.colon
  rw [hc, List.cons_append, Token.cut_mark done (bs ++ s) (by decide) rfl, Token.cut_blanks hb]

end

theorem Token.cut_comma (first : Bool) (done : List Token) (s : Bytes) :
    Token.cut done ((if first then [] else [44]) ++ s) =
      Token.cut ((if first then [] else [.comma]) ++ done) s := by
  cases first with
  | true => rfl
  | false => exact Token.cut_mark done s (by decide) rfl

theorem Numeral.ends_of_mark {b : UInt8} {s : Bytes} (h : b = 44 ∨ b = 93 ∨ b = 125) :
    Numeral.Ends (b :: s) := by
  intro c hc
  obtain rfl : b = c := by simpa using hc
  rcases h with rfl | rfl | rfl <;> decide

theorem Items.ends_spelled (l : Layout) (depth : Nat) {s : Bytes} (hs : Numeral.Ends s) :
    (items : Items) → Numeral.Ends (items.spelled l depth false ++ s)
  | .closed | .cut _ => by simpa [Items.spelled] using hs
  | .item .. => by simpa [Items.spelled] using Numeral.ends_of_mark (.inl rfl)

theorem Members.ends_spelled (l : Layout) (depth : Nat) {s : Bytes} (hs : Numeral.Ends s) :
    (members : Members) → Numeral.Ends (members.spelled l depth false ++ s)
  | .closed | .cut _ => by simpa [Members.spelled] using hs
  | .member .. => by simpa [Members.spelled] using Numeral.ends_of_mark (.inl rfl)

mutual

/-- The text of an outline is cut into its tokens. -/
theorem Outline.cut_spelled {l : Layout} (hl : l.Blank) (depth : Nat) (done : List Token) {s : Bytes}
    (hs : Numeral.Ends s) :
    (o : Outline) → o.Plain → Token.cut done (o.spelled l depth ++ s) = Token.cut (o.tokens.reverse ++ done) s
  | .null, _ => Token.cut_token done (by decide) (Token.next_null s)
  | .bool true, _ => Token.cut_token done (by decide) (Token.next_true s)
  | .bool false, _ => Token.cut_token done (by decide) (Token.next_false s)
  | .number (some (.int n)), hp => by
    rw [Outline.Plain] at hp
    exact Token.cut_number done hs hp.1 hp.2
  | .number none, hp | .number (some (.double _)), hp | .broken _, hp => by
    rw [Outline.Plain] at hp
    · exact hp.elim
    all_goals simp
  | .string (some t), _ => Token.cut_quoted done t s
  | .string none, hp => by
    rw [Outline.Plain] at hp
    cases hp
  | .array .closed, _ => by
    simp only [Outline.spelled, Outline.tokens, Items.tokens, List.cons_append, List.nil_append]
    rw [Token.cut_mark done _ (by decide) rfl, Token.cut_mark _ s (by decide) rfl]
    rfl
  | .object .closed, _ => by
    simp only [Outline.spelled, Outline.tokens, Members.tokens, List.cons_append, List.nil_append]
    rw [Token.cut_mark done _ (by decide) rfl, Token.cut_mark _ s (by decide) rfl]
    rfl
  | .array (.cut _), hp | .object (.cut _), hp => by
    simp [Outline.Plain, Items.Plain, Members.Plain] at hp
  | .array (.item o rest), hp => by
    rw [Outline.Plain] at hp
    -- a number at the end of the array stops at the line or at the bracket behind it
    have hend : Numeral.Ends (l.line depth ++ 93 :: s) := hl.ends_line depth (Numeral.ends_of_mark (by simp))
    rw [Outline.spelled, Outline.tokens]
    · simp only [List.cons_append, List.append_assoc, List.nil_append]
      rw [Token.cut_mark done _ (by decide) rfl, Items.cut_spelled hl (depth + 1) true _ hend (.item o rest) hp,
        hl.cut_line, Token.cut_mark _ s (by decide) rfl]
      simp
    · simp
  | .object (.member k o rest), hp => by
    rw [Outline.Plain] at hp
    have hend : Numeral.Ends (l.line depth ++ 125 :: s) := hl.ends_line depth (Numeral.ends_of_mark (by simp))
    rw [Outline.spelled, Outline.tokens]
    · simp only [List.cons_append, List.append_assoc, List.nil_append]
      rw [Token.cut_mark done _ (by decide) rfl,
        Members.cut_spelled hl (depth + 1) true _ hend (.member k o rest) hp,
        hl.cut_line, Token.cut_mark _ s (by decide) rfl]
      simp
    · simp

theorem Items.cut_spelled {l : Layout} (hl : l.Blank) (depth : Nat) (first : Bool) (done : List Token)
    {s : Bytes} (hs : Numeral.Ends s) :
    (items : Items) → items.Plain →
      Token.cut done (items.spelled l depth first ++ s) = Token.cut ((items.tokens first).reverse ++ done) s
  | .closed, _ => by simp [Items.spelled, Items.tokens]
  | .cut _, hp => by simp [Items.Plain] at hp
  | .item o rest, hp => by
    rw [Items.Plain] at hp
    simp only [Items.spelled, Items.tokens, List.append_assoc]
    rw [Token.cut_comma, hl.cut_line, Outline.cut_spelled hl depth _ (rest.ends_spelled l depth hs) o hp.1,
      Items.cut_spelled hl depth false _ hs rest hp.2]
    cases first <;> simp

theorem Members.cut_spelled {l : Layout} (hl : l.Blank) (depth : Nat) (first : Bool) (done : List Token)
    {s : Bytes} (hs : Numeral.Ends s) :
    (members : Members) → members.Plain →
      Token.cut done (members.spelled l depth first ++ s) =
        Token.cut ((members.tokens first).reverse ++ done) s
  | .closed, _ => by simp [Members.spelled, Members.tokens]
  | .cut _, hp | .member (.broken _) _ _, hp | .member (.name none) _ _, hp => by
    simp [Members.Plain] at hp
  | .member (.name (some k)) o rest, hp => by
    rw [Members.Plain] at hp
    simp only [Members.spelled, Members.tokens, List.append_assoc, Option.getD_some]
    rw [Token.cut_comma, hl.cut_line, Token.cut_quoted, hl.cut_colon,
      Outline.cut_spelled hl depth _ (rest.ends_spelled l depth hs) o hp.1,
      Members.cut_spelled hl depth false _ hs rest hp.2]
    cases first <;> simp

end

/-- Cutting undoes printing, in every layout that adds blanks only. -/
theorem Outline.ofBytes_render {l : Layout} (hl : l.Blank) {o : Outline} (hp : o.Plain) :
    Token.ofBytes (o.render l) = o.tokens := by
  have hcut := Outline.cut_spelled hl 0 [] (s := []) (fun _ hb => by cases hb) o hp
  rw [List.append_nil] at hcut
  rw [Token.ofBytes, Outline.render_eq, hcut, Token.cut]
  simp

end SaveSlots
