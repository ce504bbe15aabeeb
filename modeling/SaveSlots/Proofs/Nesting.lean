import SaveSlots.Proofs.Codec
/-!
# How deep a payload may nest

`Text.nesting` counts the brackets that a text has open at once. It goes over the bytes from left to right and knows
nothing of printers and readers, only that a bracket inside a string is none. A printed outline nests as deep as the
outline does (`Outline.nesting_render`): strings leave the count as it was, whatever they hold, and so does all else but
the brackets.

`payload_survives` is the main theorem: a payload is read as the snapshot that it was written from unless its text nests
deeper than readers go, and then it cannot be read at all.
-/

namespace SaveSlots

namespace Text

/-! ## Counting brackets -/

/-- Whether a place in a text is in a string, and there right behind a backslash. -/
inductive Quoting where
  | outside
  | inside
  | escaped
deriving DecidableEq

/-- What is known of a text up to some place. -/
structure Scanned where
  quoting : Quoting
  /-- The brackets that are open. -/
  depth : Nat
  /-- The most brackets that were open at once. -/
  deepest : Nat
deriving DecidableEq

namespace Scanned

/-- One byte further. -/
def next (r : Scanned) (b : UInt8) : Scanned :=
  match r.quoting with
  | .outside =>
    if b = 91 ∨ b = 123 then { r with depth := r.depth + 1, deepest := max r.deepest (r.depth + 1) }
    else if b = 93 ∨ b = 125 then { r with depth := r.depth - 1 }
    else if b = 34 then { r with quoting := .inside }
    else r
  | .inside =>
    if b = 34 then { r with quoting := .outside }
    else if b = 92 then { r with quoting := .escaped }
    else r
  | .escaped => { r with quoting := .inside }

def scan (r : Scanned) (text : Bytes) : Scanned := text.foldl next r

end Scanned

/-- How many brackets of a text are open at once, those inside strings apart. -/
def nesting (text : Bytes) : Nat := (Scanned.scan ⟨.outside, 0, 0⟩ text).deepest

/-! ## What leaves the count as it is -/

namespace Scanned

theorem scan_append (r : Scanned) (s t : Bytes) : r.scan (s ++ t) = (r.scan s).scan t := List.foldl_append

theorem scan_cons (r : Scanned) (b : UInt8) (s : Bytes) : r.scan (b :: s) = (r.next b).scan s := rfl

/-- Whether a byte outside strings means nothing: it is neither a bracket nor a quote. -/
def isIdle (b : UInt8) : Bool := b ≠ 91 && b ≠ 123 && b ≠ 93 && b ≠ 125 && b ≠ 34

variable {d m : Nat}

theorem scan_idle {s : Bytes} (h : ∀ b ∈ s, isIdle b = true) : scan ⟨.outside, d, m⟩ s = ⟨.outside, d, m⟩ := by
  induction s with
  | nil => rfl
  | cons b s ih =>
    obtain ⟨hb, hs⟩ := List.forall_mem_cons.1 h
    have hnext : next ⟨.outside, d, m⟩ b = ⟨.outside, d, m⟩ := by
      simp only [isIdle, Bool.and_eq_true, decide_eq_true_eq] at hb
      simp [next, hb]
    rw [scan_cons, hnext, ih hs]

/-- A byte of a string is spelled so that the string goes on behind it. -/
theorem scan_escape (b : UInt8) : scan ⟨.inside, d, m⟩ (escape b) = ⟨.inside, d, m⟩ := by
  rcases Token.escape_cases b with ⟨he, hquote, hback, -⟩ | ⟨e, he, -, -⟩ | ⟨hlow, he⟩
  · rw [he]
    simp [scan, next, hquote, hback]
  · rw [he]
    simp [scan, next]
  · have hdigit : ∀ n : UInt8, n < 16 → escape.digit n ≠ 34 ∧ escape.digit n ≠ 92 := by
      have hall : ∀ n : Fin 16, escape.digit (UInt8.ofNat n) ≠ 34 ∧ escape.digit (UInt8.ofNat n) ≠ 92 := by decide
      intro n hn
      have hlt : n.toNat < 16 := UInt8.lt_iff_toNat_lt.1 hn
      simpa using hall ⟨n.toNat, hlt⟩
    have hdiv : b / 16 < 16 := by
      have hb : b.toNat < 256 := b.toNat_lt
      rw [UInt8.lt_iff_toNat_lt, UInt8.toNat_div]
      exact Nat.div_lt_of_lt_mul hb
    have hmod : b % 16 < 16 := by
      rw [UInt8.lt_iff_toNat_lt, UInt8.toNat_mod]
      exact Nat.mod_lt _ (by decide)
    rw [he]
    simp [scan, next, hdigit _ hdiv, hdigit _ hmod]

theorem scan_escaped (bs : Bytes) : scan ⟨.inside, d, m⟩ (bs.flatMap escape) = ⟨.inside, d, m⟩ := by
  induction bs with
  | nil => rfl
  | cons b bs ih => rw [List.flatMap_cons, scan_append, scan_escape, ih]

/-- Brackets in a string do not count. -/
theorem scan_quoted (s : String) : scan ⟨.outside, d, m⟩ (quoted s) = ⟨.outside, d, m⟩ := by
  rw [quoted, scan_append]
  change scan (scan ⟨.inside, d, m⟩ ((Bytes.ofText s).flatMap escape)) [34] = _
  rw [scan_escaped]
  rfl

theorem scan_spell (n : Int) : scan ⟨.outside, d, m⟩ (Decimal.spell n) = ⟨.outside, d, m⟩ := by
  have hdigits : ∀ (k : Nat), ∀ b ∈ Decimal.digits k, isIdle b = true := by
    have hall : ∀ n : Fin 58, Decimal.isDigit (UInt8.ofNat n) = true → isIdle (UInt8.ofNat n) = true := by decide
    intro k b hb
    have hd := Decimal.isDigit_of_mem hb
    have hlt : b.toNat < 58 := by
      simp only [Decimal.isDigit, Bool.and_eq_true, decide_eq_true_eq] at hd
      exact Nat.lt_succ_of_le (UInt8.le_iff_toNat_le.1 hd.2)
    simpa using hall ⟨b.toNat, hlt⟩ (by simpa using hd)
  apply scan_idle
  intro b hb
  cases n with
  | ofNat n => exact hdigits n b hb
  | negSucc n =>
    rcases List.mem_cons.1 hb with rfl | hb
    · rfl
    · exact hdigits (n + 1) b hb

theorem isIdle_of_isBlank {b : UInt8} (h : Token.isBlank b = true) : isIdle b = true := by
  simp only [Token.isBlank, Bool.or_eq_true, decide_eq_true_eq] at h
  rcases h with ((rfl | rfl) | rfl) | rfl <;> rfl

section
variable {l : Layout} (hl : l.Blank)
include hl

theorem scan_line (depth : Nat) : scan ⟨.outside, d, m⟩ (l.line depth) = ⟨.outside, d, m⟩ :=
  scan_idle fun b hb => isIdle_of_isBlank (hl.line depth b hb)

theorem scan_colon : scan ⟨.outside, d, m⟩ l.colon = ⟨.outside, d, m⟩ := by
  obtain ⟨bs, hcolon, hblank⟩ := hl.colon
  rw [hcolon]
  apply scan_idle
  intro b hb
  rcases List.mem_cons.1 hb with rfl | hb
  · rfl
  · exact isIdle_of_isBlank (hblank b hb)

end

theorem scan_comma (first : Bool) :
    scan ⟨.outside, d, m⟩ (if first then [] else [44]) = ⟨.outside, d, m⟩ := by
  cases first <;> rfl

theorem scan_enter {b : UInt8} (hb : b = 91 ∨ b = 123) (s : Bytes) :
    scan ⟨.outside, d, m⟩ (b :: s) = scan ⟨.outside, d + 1, max m (d + 1)⟩ s := by
  rw [scan_cons]
  simp only [next, if_pos hb]

theorem scan_leave {b : UInt8} (hb : b = 93 ∨ b = 125) :
    scan ⟨.outside, d + 1, m⟩ [b] = ⟨.outside, d, m⟩ := by
  rcases hb with rfl | rfl <;> rfl

end Scanned

end Text

/-! ## Outlines -/

open Text Scanned

section
variable {l : Layout} (hl : l.Blank)
include hl

mutual

/-- The text of an outline closes all brackets that it opens, and opens as many at once as the outline is deep. -/
theorem Outline.scan_spelled (k d m : Nat) (hm : d ≤ m) :
    (o : Outline) → o.Plain → scan ⟨.outside, d, m⟩ (o.spelled l k) = ⟨.outside, d, max m (d + o.depth)⟩
  | .null, _ | .bool true, _ | .bool false, _ => by
    rw [Outline.spelled, Outline.depth, Nat.add_zero, Nat.max_eq_left hm]
    exact scan_idle (List.all_eq_true.1 rfl)
  | .number (some (.int n)), _ => by
    rw [Outline.depth, Nat.add_zero, Nat.max_eq_left hm]
    exact scan_spell n
  | .string s, _ => by
    rw [Outline.spelled, Outline.depth, Nat.add_zero, Nat.max_eq_left hm]
    exact scan_quoted _
  | .array .closed, _ | .object .closed, _ => by
    simp [Outline.spelled, Outline.depth, Items.depth, Members.depth, scan, next]
  | .array (.item o rest), hp => by
    have hitems := Items.scan_spelled (k + 1) (d + 1) (max m (d + 1)) true (Nat.le_max_right ..) (.item o rest) hp
    have hdepth : max (max m (d + 1)) (d + 1 + (Items.item o rest).depth) =
        max m (d + (Outline.array (.item o rest)).depth) := by
      rw [Outline.depth]
      omega
    rw [Outline.spelled, scan_append, List.cons_append, scan_enter (.inl rfl), scan_append, hitems, scan_line hl,
      scan_leave (.inl rfl), hdepth]
    simp
  | .object (.member key o rest), hp => by
    have hmembers :=
      Members.scan_spelled (k + 1) (d + 1) (max m (d + 1)) true (Nat.le_max_right ..) (.member key o rest) hp
    have hdepth : max (max m (d + 1)) (d + 1 + (Members.member key o rest).depth) =
        max m (d + (Outline.object (.member key o rest)).depth) := by
      rw [Outline.depth]
      omega
    rw [Outline.spelled, scan_append, List.cons_append, scan_enter (.inr rfl), scan_append, hmembers, scan_line hl,
      scan_leave (.inr rfl), hdepth]
    simp

theorem Items.scan_spelled (k d m : Nat) (first : Bool) (hm : d ≤ m) :
    (items : Items) → items.Plain →
      scan ⟨.outside, d, m⟩ (items.spelled l k first) = ⟨.outside, d, max m (d + items.depth)⟩
  | .closed, _ => by
    rw [Items.depth, Nat.add_zero, Nat.max_eq_left hm]
    rfl
  | .item o rest, hp => by
    rw [Items.Plain] at hp
    have ho := Outline.scan_spelled k d m hm o hp.1
    have hrest := Items.scan_spelled k d (max m (d + o.depth)) false (by omega) rest hp.2
    rw [Items.spelled, scan_append, scan_append, scan_append, scan_comma, scan_line hl, ho, hrest, Items.depth]
    congr 1
    omega

theorem Members.scan_spelled (k d m : Nat) (first : Bool) (hm : d ≤ m) :
    (members : Members) → members.Plain →
      scan ⟨.outside, d, m⟩ (members.spelled l k first) = ⟨.outside, d, max m (d + members.depth)⟩
  | .closed, _ => by
    rw [Members.depth, Nat.add_zero, Nat.max_eq_left hm]
    rfl
  | .member (.name (some s)) o rest, hp => by
    rw [Members.Plain] at hp
    have ho := Outline.scan_spelled k d m hm o hp.1
    have hrest := Members.scan_spelled k d (max m (d + o.depth)) false (by omega) rest hp.2
    simp only [Members.spelled, scan_append, scan_comma, scan_line hl, scan_quoted, scan_colon hl, ho, hrest,
      Members.depth]
    congr 1
    omega

end

/-- A printed outline nests as deep as the outline does. -/
theorem Outline.nesting_render {o : Outline} (hp : o.Plain) : nesting (o.render l) = o.depth := by
  rw [nesting, Outline.render_eq, Outline.scan_spelled hl 0 0 0 (Nat.le_refl 0) o hp]
  simp

end

/-! ## Payloads -/

/-- A payload whose text has at most 127 brackets open at once is read as the snapshot that it was written from, field
for field. One that nests deeper cannot be read. So no payload is ever read as another snapshot. -/
theorem payload_survives {s : Snapshot} (hp : s.Plain) :
    (nesting s.encode ≤ 127 ↔ Snapshot.decode s.encode = .ok s) ∧
    (127 < nesting s.encode ↔ ∃ fault, Snapshot.decode s.encode = .error fault) ∧
    ∀ s', Snapshot.decode s.encode = .ok s' → s' = s := by
  have hnesting : nesting s.encode = s.toOutline.depth :=
    Outline.nesting_render Layout.blank_compact (Snapshot.plain hp)
  have hdecode : Snapshot.decode s.encode = if nesting s.encode ≤ 127 then .ok s else .error .malformed := by
    rw [hnesting]
    exact Snapshot.decode_encode hp
  refine ⟨?_, ?_, fun s' h => Snapshot.eq_of_decode hp h⟩
  · rw [hdecode]
    split <;> simp_all
  · rw [hdecode]
    split
    · next hle => simp [hle]
    · next hgt => exact ⟨fun _ => ⟨_, rfl⟩, fun _ => Nat.lt_of_not_le hgt⟩

/-- A value within so many arrays. -/
def Json.within : Nat → Json → Json
  | 0, j => j
  | n + 1, j => .array [within n j]

theorem Json.plain_within {j : Json} (hj : j.Plain) (n : Nat) : (within n j).Plain := by
  induction n with
  | zero => exact hj
  | succ n ih =>
    rw [within, Plain, PlainItems, PlainItems]
    exact ⟨ih, trivial⟩

theorem Json.depth_within (n : Nat) (j : Json) : (within n j).toOutline.depth = j.toOutline.depth + n := by
  induction n with
  | zero => rfl
  | succ n ih =>
    rw [within, toOutline, itemsOutline, itemsOutline, Outline.depth, Items.depth, Items.depth, ih]
    omega

/-- A snapshot that keeps the largest number within `n` arrays, and elsewhere the least number, text that is not to be
taken for brackets, and text beyond ASCII. -/
def Snapshot.tower (n : Nat) : Snapshot where
  map := "[[\"\\"
  globals := [⟨"", "Lamp", ["]", "\x7b"], .object [("", .ofInt (-0x8000000000000000)), ("[é😀\x01", .null)]⟩]
  regions := .ofList [⟨"\n[", [⟨"box", "Box", [], .within n (.ofInt 0xFFFFFFFFFFFFFFFF)⟩]⟩]

theorem Snapshot.plain_tower (n : Nat) : (tower n).Plain := by
  constructor
  · intro o ho
    obtain rfl := List.mem_singleton.1 ho
    rw [Json.Plain]
    exact ⟨by decide, by simp [Json.PlainFields, Json.Plain, Json.ofInt]⟩
  · intro r hr o ho
    obtain rfl := List.mem_singleton.1 hr
    obtain rfl := List.mem_singleton.1 ho
    exact Json.plain_within (by simp [Json.Plain, Json.ofInt]) n

/-- Each of the arrays counts, and five brackets around them. -/
theorem Snapshot.nesting_tower (n : Nat) : nesting (tower n).encode = n + 5 := by
  have hregions : (tower n).regions.toList =
      [⟨"\n[", [⟨"box", "Box", [], .within n (.ofInt 0xFFFFFFFFFFFFFFFF)⟩]⟩] := rfl
  have hdepth : (tower n).toOutline.depth =
      max 4 ((Json.within n (.ofInt 0xFFFFFFFFFFFFFFFF)).toOutline.depth + 5) := by
    rw [toOutline, hregions]
    simp [tower, Region.objectsOutline, GameObject.toOutline, Outline.fields, Outline.list, Outline.text, Members.ofList,
      Outline.depth, Items.depth, Members.depth, Json.toOutline, Json.fieldsOutline, Json.ofInt]
  rw [encode, Outline.compact, Outline.nesting_render Layout.blank_compact (plain (plain_tower n)), hdepth,
    Json.depth_within]
  simp [Json.ofInt, Json.toOutline, Outline.depth]

theorem payload_survives_tower :
    (nesting (Snapshot.tower 122).encode ≤ 127 ∧
      Snapshot.decode (Snapshot.tower 122).encode = .ok (Snapshot.tower 122)) ∧
    127 < nesting (Snapshot.tower 123).encode ∧
      ∃ fault, Snapshot.decode (Snapshot.tower 123).encode = .error fault := by
  have hfits : nesting (Snapshot.tower 122).encode ≤ 127 := Nat.le_of_eq (Snapshot.nesting_tower 122)
  have hdeep : 127 < nesting (Snapshot.tower 123).encode := by
    rw [Snapshot.nesting_tower]
    decide
  exact ⟨⟨hfits, (payload_survives (Snapshot.plain_tower 122)).1.1 hfits⟩,
    hdeep, (payload_survives (Snapshot.plain_tower 123)).2.1.1 hdeep⟩

end SaveSlots
