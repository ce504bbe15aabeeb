import Mathlib.Data.String.Basic
import SaveSlots.Manager.Request
import SaveSlots.Proofs.Calendar
import SaveSlots.Proofs.Json.Lexing
import SaveSlots.Slot.Codec
/-!
# Task ids in the order of time

Ids, their texts and their JSON come in one order, and ids that were made in different milliseconds come in the order
of time, whatever their random halves (`TaskId.sorted_by_time`).

The alphabet of the digits is rising, as characters and as bytes, so numbers that are spelled with equally many digits
compare as their spellings do (`TaskId.Rising.compare_digits`). Both kinds of text put the same frame around the digits.
-/

namespace SaveSlots

/-! ## Comparing lists and texts -/

theorem compare_append {α : Type} [Ord α] (as bs : List α) : {xs ys : List α} → xs.length = ys.length →
    compare (xs ++ as) (ys ++ bs) = (compare xs ys).then (compare as bs)
  | [], [], _ => rfl
  | x :: xs, y :: ys, h => by
    have hrest : compare (xs ++ as) (ys ++ bs) = (compare xs ys).then (compare as bs) :=
      compare_append as bs (Nat.succ.inj h)
    rw [List.cons_append, List.cons_append, List.compare_cons_cons, List.compare_cons_cons, hrest, Ordering.then_assoc]

/-- What stands around lists of one length does not change how they compare. -/
theorem compare_framed {α : Type} [Ord α] [Std.ReflOrd α] (before behind : List α) {xs ys : List α}
    (h : xs.length = ys.length) : compare (before ++ xs ++ behind) (before ++ ys ++ behind) = compare xs ys := by
  have hframed : (before ++ xs).length = (before ++ ys).length := by simp [h]
  rw [compare_append _ _ hframed, compare_append _ _ rfl, Std.compare_self, Std.compare_self, Ordering.eq_then,
    Ordering.then_eq]

theorem lt_iff_compare : (xs ys : List Char) → (xs < ys ↔ compare xs ys = .lt)
  | [], [] | [], _ :: _ | _ :: _, [] => by simp
  | x :: xs, y :: ys => by
    have hfirst : compare x y = .lt ↔ x < y := compare_lt_iff_lt
    rw [List.cons_lt_cons_iff, List.compare_cons_cons, Ordering.then_eq_lt, lt_iff_compare xs ys, hfirst,
      Std.LawfulEqCmp.compare_eq_iff_eq]

/-- Texts compare character by character. -/
theorem compare_toList (s t : String) : compare s t = compare s.toList t.toList := by
  have hlt : ∀ s t : String, compare s.toList t.toList = .lt → compare s t = .lt := fun s t h =>
    compare_lt_iff_lt.2 (String.lt_iff_toList_lt.2 ((lt_iff_compare _ _).2 h))
  cases h : compare s.toList t.toList with
  | lt => exact hlt s t h
  | eq =>
    rw [String.toList_inj.1 (Std.LawfulEqCmp.compare_eq_iff_eq.1 h)]
    exact Std.compare_self
  | gt => exact Std.OrientedCmp.gt_iff_lt.2 (hlt t s (Std.OrientedCmp.gt_iff_lt.1 h))

namespace TaskId

/-! ## Digits -/

theorem length_digits (w n : Nat) : (digits w n).length = w := by
  induction w generalizing n with
  | zero => rfl
  | succ w ih => rw [digits, List.length_append, ih, List.length_singleton]

theorem digit_eq {n : Nat} (h : n < alphabet.length) : digit n = alphabet[n] := by
  rw [digit, List.getD_eq_getElem?_getD, List.getElem?_eq_getElem h, Option.getD_some]

theorem mem_alphabet {w n : Nat} {c : Char} (h : c ∈ digits w n) : c ∈ alphabet := by
  induction w generalizing n with
  | zero => cases h
  | succ w ih =>
    rw [digits, List.mem_append, List.mem_singleton] at h
    cases h with
    | inl h => exact ih h
    | inr h =>
      have hlt : n % 32 < alphabet.length := Nat.mod_lt n (by decide)
      rw [h, digit_eq hlt]
      exact List.getElem_mem hlt

/-- Whether a way to write the digits down keeps their order. -/
def Rising {α : Type} [Ord α] (write : Char → α) : Prop :=
  (alphabet.map write).Pairwise fun a b => compare a b = .lt

/-- The byte of a digit. -/
def byte (c : Char) : UInt8 := c.val.toUInt8

theorem rising_char : Rising id := by
  unfold Rising
  decide

theorem rising_byte : Rising byte := by
  unfold Rising
  decide

/-- Numbers compare by what stands before their last digit, and then by that digit. -/
theorem compare_last (m n : Nat) : (compare (m / 32) (n / 32)).then (compare (m % 32) (n % 32)) = compare m n := by
  rcases Nat.lt_trichotomy (m / 32) (n / 32) with h | h | h
  · have hlt : m < n := by omega
    rw [Nat.compare_eq_lt.2 h, Nat.compare_eq_lt.2 hlt, Ordering.lt_then]
  · have hlt : m % 32 < n % 32 ↔ m < n := by omega
    have hgt : n % 32 < m % 32 ↔ n < m := by omega
    rw [h, Std.compare_self, Ordering.eq_then, Nat.compare_eq_ite_lt, Nat.compare_eq_ite_lt]
    simp only [hlt, hgt]
  · have hgt : n < m := by omega
    rw [Nat.compare_eq_gt.2 h, Nat.compare_eq_gt.2 hgt, Ordering.gt_then]

namespace Rising

variable {α : Type} [Ord α] {write : Char → α}

theorem compare_lt (hw : Rising write) {m n : Nat} (h : m < n) (hn : n < 32) :
    compare (write (digit m)) (write (digit n)) = .lt := by
  have hlen : (alphabet.map write).length = 32 := List.length_map ..
  have hlt := List.pairwise_iff_getElem.1 hw m n (by omega) (by omega) h
  rw [List.getElem_map, List.getElem_map] at hlt
  rw [digit_eq (h.trans hn), digit_eq hn]
  exact hlt

variable [Std.OrientedOrd α]

theorem compare_digit (hw : Rising write) {m n : Nat} (hm : m < 32) (hn : n < 32) :
    compare (write (digit m)) (write (digit n)) = compare m n := by
  rcases Nat.lt_trichotomy m n with h | rfl | h
  · rw [hw.compare_lt h hn, Nat.compare_eq_lt.2 h]
  · rw [Std.compare_self, Std.compare_self]
  · rw [Std.OrientedCmp.gt_iff_lt.2 (hw.compare_lt h hm), Nat.compare_eq_gt.2 h]

/-- Numbers that have room in `w` digits compare as their spellings with `w` digits do. -/
theorem compare_digits (hw : Rising write) (w : Nat) {m n : Nat} (hm : m < 32 ^ w) (hn : n < 32 ^ w) :
    compare ((digits w m).map write) ((digits w n).map write) = compare m n := by
  induction w generalizing m n with
  | zero =>
    obtain rfl : m = n := by omega
    rw [Std.compare_self, Std.compare_self]
  | succ w ih =>
    -- the last digit is taken off; what stands before it spells the quotients
    have hfront : compare ((digits w (m / 32)).map write) ((digits w (n / 32)).map write) = compare (m / 32) (n / 32) :=
      ih (Nat.div_lt_of_lt_mul (by omega)) (Nat.div_lt_of_lt_mul (by omega))
    have hlast := hw.compare_digit (Nat.mod_lt m (by decide)) (Nat.mod_lt n (by decide))
    rw [digits, digits, List.map_append, List.map_append, compare_append _ _ (by simp [length_digits]), hfront,
      List.map_singleton, List.map_singleton, List.compare_cons_cons, hlast, List.compare_nil_nil, Ordering.then_eq,
      compare_last]

end Rising

/-! ## Texts -/

theorem value_lt (id : TaskId) : id.value < 32 ^ 26 := Nat.lt_trans id.bound (by decide)

theorem length_spelling (id id' : TaskId) : (digits 26 id.value).length = (digits 26 id'.value).length := by
  rw [length_digits, length_digits]

theorem toList_text (id : TaskId) : id.text.toList = "task-".toList ++ digits 26 id.value ++ [] := by
  simp [text, spelling]

theorem compare_text (id id' : TaskId) : compare id.text id'.text = compare id id' := by
  have hdigits := rising_char.compare_digits 26 id.value_lt id'.value_lt
  rw [List.map_id, List.map_id] at hdigits
  rw [compare_toList, toList_text, toList_text, compare_framed _ _ (length_spelling id id')]
  exact hdigits

/-- A digit is one byte, which stands for itself in a string. -/
theorem escape_digit {c : Char} (h : c ∈ alphabet) : (String.utf8EncodeChar c).flatMap Text.escape = [byte c] := by
  have hall : alphabet.map (fun c => (String.utf8EncodeChar c).flatMap Text.escape) = alphabet.map fun c => [byte c] := by
    decide
  exact List.map_inj_left.1 hall c h

theorem quoted_spelling (id : TaskId) : Text.quoted id.spelling = 34 :: (digits 26 id.value).map byte ++ [34] := by
  have hbytes : Bytes.ofText id.spelling = (digits 26 id.value).flatMap String.utf8EncodeChar := by
    simp [Bytes.ofText, spelling, List.utf8Encode]
  rw [Text.quoted, hbytes, List.flatMap_assoc, List.flatMap_congr fun c hc => escape_digit (mem_alphabet hc),
    List.map_eq_flatMap]

theorem render_toOutline (l : Layout) (id : TaskId) : id.toOutline.render l =
    123 :: l.line 1 ++ Text.quoted "ulid" ++ l.colon ++ [34] ++ (digits 26 id.value).map byte ++
      (34 :: l.line 0 ++ [125]) := by
  simp [Outline.render_eq, toOutline, Outline.fields, Members.ofList, Outline.text, Outline.spelled, Members.spelled,
    quoted_spelling]

theorem compare_render (l : Layout) (id id' : TaskId) :
    compare (id.toOutline.render l) (id'.toOutline.render l) = compare id id' := by
  have hlength : ((digits 26 id.value).map byte).length = ((digits 26 id'.value).map byte).length := by
    rw [List.length_map, List.length_map, length_spelling id id']
  rw [render_toOutline, render_toOutline, compare_framed _ _ hlength]
  exact rising_byte.compare_digits 26 id.value_lt id'.value_lt

end TaskId

/-! ## Time -/

theorem Instant.unixMillis_eq (i : Instant) : i.unixMillis = i.unixNanos / 1000000 := by
  unfold unixMillis unixNanos
  omega

namespace TaskId

/-- Whether an id may be that of a task made at an instant: the lower half is random. -/
def MadeAt (id : TaskId) (now : Instant) : Prop := ∃ random, id = ofParts now.unixMillis random

/-- The upper half of an id has the milliseconds since the epoch, rounded down. -/
theorem MadeAt.millis_eq {id : TaskId} {now : Instant} (h : id.MadeAt now) :
    id.millis = (now.unixNanos / 1000000 % 0x1000000000000).toNat := by
  obtain ⟨random, rfl⟩ := h
  rw [millis_ofParts, Instant.unixMillis_eq]

theorem lt_of_millis {id id' : TaskId} (h : id.millis < id'.millis) : compare id id' = .lt :=
  Nat.compare_eq_lt.2 (Nat.lt_of_div_lt_div h)

/-- Tasks are made with an id of their instant. Of tasks made in different milliseconds, counted from the epoch and
within the 48 bits that an id has for them, the earlier one has the smaller id and the smaller text. The order of ids
is that of their texts, and that of their JSON texts in each layout. -/
theorem sorted_by_time :
    (∀ (m : Manager) (now : Instant) (job : Job), (m.register now job).1.id.MadeAt now) ∧
    (∀ (now later : Instant) (id id' : TaskId), id.MadeAt now → id'.MadeAt later →
      0 ≤ now.unixNanos / 1000000 → now.unixNanos / 1000000 < later.unixNanos / 1000000 →
      later.unixNanos / 1000000 < 0x1000000000000 → compare id id' = .lt ∧ id.text < id'.text) ∧
    ∀ id id' : TaskId, compare id.text id'.text = compare id id' ∧
      ∀ l : Layout, compare (id.toOutline.render l) (id'.toOutline.render l) = compare id id' := by
  refine ⟨fun m _ _ => ⟨m.issued, rfl⟩, ?_, fun id id' => ⟨compare_text id id', fun l => compare_render l id id'⟩⟩
  intro now later id id' hid hid' hnow hlt hlater
  have hmillis : id.millis < id'.millis := by
    rw [hid.millis_eq, hid'.millis_eq]
    omega
  have hids := lt_of_millis hmillis
  exact ⟨hids, compare_lt_iff_lt.1 ((compare_text id id').trans hids)⟩

/-- One nanosecond is enough if a millisecond begins with it, here the last one that fits, however the random halves
fall. -/
theorem sorted_by_time_last :
    let now : Instant := ⟨⟨10889, 8, 2, by decide, by decide, by decide⟩, 5, 31, 50, 654999999⟩
    let later : Instant := { now with nanos := 655000000 }
    let id := ofParts now.unixMillis 0xFFFFFFFFFFFFFFFFFFFF
    let id' := ofParts later.unixMillis 0
    id.MadeAt now ∧ id'.MadeAt later ∧ 0 ≤ now.unixNanos / 1000000 ∧
      now.unixNanos / 1000000 < later.unixNanos / 1000000 ∧ later.unixNanos / 1000000 = 0xFFFFFFFFFFFF ∧
      compare id id' = .lt ∧ id.text < id'.text := by
  intro now later id id'
  have hid : id.MadeAt now := ⟨_, rfl⟩
  have hid' : id'.MadeAt later := ⟨_, rfl⟩
  have hnow : 0 ≤ now.unixNanos / 1000000 := by decide
  have hlt : now.unixNanos / 1000000 < later.unixNanos / 1000000 := by decide
  have hlater : later.unixNanos / 1000000 = 0xFFFFFFFFFFFF := by decide
  exact ⟨hid, hid', hnow, hlt, hlater,
    sorted_by_time.2.1 now later id id' hid hid' hnow hlt (by rw [hlater]; decide)⟩

/-- Behind the last millisecond that fits, the time begins again. -/
example : compare (ofParts 0x1000000000000 0) (ofParts 0xFFFFFFFFFFFF 0) = .lt := by decide

end TaskId

end SaveSlots
