import SaveSlots.Proofs.Folder
/-!
# Slots by the names of their infos

A folder may hold entries of any names. Which of them are infos is a matter of spelling: `Spells` is what a reader
makes of a name that takes the suffix off, reads the rest as a number of 32 bits, signs and leading zeros included, and
spells that number again. Reading undoes spelling for every number (`SlotId.ofText_spell`), so the names that are
spelled so are the names that the store gives to its infos (`spells_iff`).

`listed_iff_there` is the main theorem: a folder that can be listed lists the slots that are there, from zero on. It
makes one exception. A folder without a path can be written to but not opened, so none of its slots is listed
(`listed_iff_there_pathless`).
-/

namespace SaveSlots

/-! ## Numbers with a sign -/

/-- The number that a text of digits spells, zeros in front of it included. -/
def Decimal.natural? (text : Bytes) : Option Nat :=
  if text ≠ [] ∧ text.all isDigit then some (value text) else none

theorem Decimal.natural_digits (n : Nat) : natural? (digits n) = some n := by
  have hall : (digits n).all isDigit = true := List.all_eq_true.2 fun b hb => isDigit_of_mem hb
  rw [natural?, if_pos ⟨digits_ne_nil n, hall⟩, value_digits]

namespace SlotId

/-- Reads a number of 32 bits: digits, which a sign of either kind may precede. -/
def ofText? : Bytes → Option SlotId
  | [] => none
  | b :: text =>
    if b = 45 then (Decimal.natural? text).bind fun n => ofInt? (-n)
    else if b = 43 then (Decimal.natural? text).bind fun n => ofInt? n
    else (Decimal.natural? (b :: text)).bind fun n => ofInt? n

theorem toInt_of_ofInt {n : Int} {id : SlotId} (h : ofInt? n = some id) : id.toInt = n := by
  unfold ofInt? at h
  split at h
  · next hn =>
    cases h
    rw [Int32.toInt_minValue, Int32.toInt_maxValue] at hn
    exact Int32.toInt_ofInt_of_le hn.1 (by omega)
  · cases h

/-- Every number is read back as it was spelled. -/
theorem ofText_spell (id : SlotId) : ofText? (Decimal.spell id.toInt) = some id := by
  have hback := ofInt_toInt id
  cases hn : id.toInt with
  | ofNat n =>
    rw [hn] at hback
    obtain ⟨b, text, hb⟩ := List.exists_cons_of_ne_nil (Decimal.digits_ne_nil n)
    have hdigit : Decimal.isDigit b = true := Decimal.isDigit_of_mem (n := n) (by simp [hb])
    have hminus : b ≠ 45 := by rintro rfl; revert hdigit; decide
    have hplus : b ≠ 43 := by rintro rfl; revert hdigit; decide
    have hnat : Decimal.natural? (b :: text) = some n := hb ▸ Decimal.natural_digits n
    change ofText? (Decimal.digits n) = some id
    rw [hb, ofText?, if_neg hminus, if_neg hplus, hnat]
    exact hback
  | negSucc n =>
    rw [hn, Int.negSucc_eq] at hback
    change ofText? (45 :: Decimal.digits (n + 1)) = some id
    rw [ofText?, if_pos rfl, Decimal.natural_digits, Option.bind_some, Int.natCast_add_one, hback]

end SlotId

/-! ## Names of infos -/

namespace FolderStore

/-- Whether a name is read as that of a slot: it ends as infos do, and what stands before that is read as the number of
the slot, which is not negative and would be spelled just so. -/
def Spells (name : Bytes) (id : SlotId) : Prop :=
  ∃ stem, name = stem ++ infoSuffix ∧ SlotId.ofText? stem = some id ∧ 0 ≤ id.toInt ∧ Decimal.spell id.toInt = stem

/-- The names of slots are those that the store gives to their infos. -/
theorem spells_iff {name : Bytes} {id : SlotId} : Spells name id ↔ 0 ≤ id.toInt ∧ infoName id = name := by
  constructor
  · rintro ⟨stem, rfl, -, hpos, rfl⟩
    exact ⟨hpos, rfl⟩
  · rintro ⟨hpos, rfl⟩
    exact ⟨_, rfl, SlotId.ofText_spell id, hpos, rfl⟩

/-- The store looks at digits only, and tells the same slots as a reader of signs and of zeros in front. -/
theorem idOfInfoName_iff {name : Bytes} {id : SlotId} : idOfInfoName? name = some id ↔ Spells name id := by
  rw [spells_iff]
  constructor
  · intro h
    refine ⟨?_, infoName_of_idOfInfoName h⟩
    obtain ⟨id', hid, h⟩ := Option.bind_eq_some_iff.1 h
    split at h
    · cases h
      rw [SlotId.toInt_of_ofInt hid]
      exact Int.natCast_nonneg _
    · cases h
  · rintro ⟨hpos, rfl⟩
    exact idOfInfoName_infoName hpos

/-- A name is found in a folder if it is among the names of the folder. -/
theorem find_iff_names (p : Place) (x : Bytes) :
    (∃ n, p.find x = .ok n) ↔ ∃ names, p.names = .ok names ∧ x ∈ names := by
  match p with
  | none => simp [Place.find, Place.names]
  | some (.file _) => simp [Place.find, Place.names]
  | some (.folder es) =>
    simp only [Place.names, Except.ok.injEq, exists_eq_left', mem_names, find_folder]
    cases es.lookup x <;> simp

/-! ## Main theorem -/

/-- If a folder can be listed, then whatever it holds, a slot is listed just if its number is not negative and it is
there, and just if some entry has its name. A folder without a path lists nothing, whatever is there. -/
theorem listed_iff_there (s : FolderStore) {ids : SlotSet} (h : s.ids = .ok ids) (id : SlotId) :
    (id ∈ ids.toList ↔ s.path.text.isEmpty = false ∧ 0 ≤ id.toInt ∧ s.holds id = true) ∧
    (id ∈ ids.toList ↔
      s.path.text.isEmpty = false ∧ ∃ names, s.place.names = .ok names ∧ ∃ name ∈ names, Spells name id) := by
  have hmem : id ∈ ids.toList ↔ s.path.text.isEmpty = false ∧ 0 ≤ id.toInt ∧ s.holds id = true := by
    rw [mem_ids h, s.holds_iff, idOfInfoName_iff, spells_iff, and_iff_left rfl]
  refine ⟨hmem, hmem.trans (and_congr_right fun _ => ?_)⟩
  rw [s.holds_iff, find_iff_names]
  constructor
  · rintro ⟨hpos, names, hnames, hname⟩
    exact ⟨names, hnames, _, hname, spells_iff.2 ⟨hpos, rfl⟩⟩
  · rintro ⟨names, hnames, name, hname, hspells⟩
    obtain ⟨hpos, rfl⟩ := spells_iff.1 hspells
    exact ⟨hpos, names, hnames, hname⟩

/-- Entries of all kinds: the info of slot 7, a folder in the place of that of slot 2147483647, and names that spell no
slot: zeros in front, signs, a number that is too large, no number at all, and bytes that are no text. -/
def clutter : Entries :=
  [(Bytes.ofText "7.info.json", .file []), (Bytes.ofText "2147483647.info.json", .folder []),
    (Bytes.ofText "07.info.json", .file []), (Bytes.ofText "+8.info.json", .file []),
    (Bytes.ofText "-3.info.json", .file []), (Bytes.ofText "-0.info.json", .file []),
    (Bytes.ofText "2147483648.info.json", .file []), (Bytes.ofText ".info.json", .file []),
    (255 :: Bytes.ofText "9.info.json", .file []), (Bytes.ofText "7.sav", .file [])]

example : FolderStore.ids ⟨⟨"saves"⟩, some (.folder clutter)⟩ = .ok (.ofList [7, 2147483647]) := by decide +kernel

/-- In a folder without a path a slot may be there that is not listed. -/
theorem listed_iff_there_pathless :
    let s : FolderStore := ⟨⟨""⟩, some (.folder clutter)⟩
    s.holds 7 = true ∧ ∃ ids, s.ids = .ok ids ∧ 7 ∉ ids.toList := by
  intro s
  refine ⟨by decide, .empty, rfl, fun hmem => ?_⟩
  obtain ⟨hpath, -⟩ := (listed_iff_there s rfl 7).1.1 hmem
  revert hpath
  decide

end FolderStore

end SaveSlots
