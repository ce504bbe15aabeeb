import SaveSlots.Proofs.Codec
import SaveSlots.Proofs.Stores
import SaveSlots.Proofs.Write
/-!
# Slots in a folder are kept

A `FolderStore` in which every info is that of its slot and has a payload beside it is `Reliable`, whatever
else lies in the folder (`FolderStore.Sound`).
-/

namespace SaveSlots

/-- What is found under a name is the entry; if there is none, it matters whether a file is in the folder's
place. -/
theorem Place.find_eq (p : Place) (x : Bytes) :
    p.find x = (p.at? [x]).elim
      (.error (if p.contents?.isSome then .notADirectory else .notFound)) .ok := by
  match p with
  | none => rfl
  | some (.file _) => rfl
  | some (.folder es) =>
    rw [find, at?, at?]
    cases es.lookup x <;> rfl

theorem SlotId.ofInt_toInt (id : SlotId) : ofInt? id.toInt = some id := by
  have hlow := id.number.minValue_le_toInt
  have hhigh := id.number.toInt_le
  rw [ofInt?, if_pos ⟨hlow, hhigh⟩]
  exact congrArg (fun k => some (SlotId.mk k)) (Int32.ofInt_toInt id.number)

namespace FolderStore

open Script

/-! ## What the store keeps -/

/-- The info and the payload of a slot, if both can be read. -/
def slot? (s : FolderStore) (id : SlotId) : Option (SlotInfo × Bytes) :=
  match s.readInfo id, s.readData id with
  | .ok info, .ok payload => some (info, payload)
  | _, _ => none

/-- Every info of a slot is that of the slot, and has a payload beside it. -/
def Sound (s : FolderStore) : Prop :=
  ∀ id n, s.place.find (infoName id) = .ok n →
    ∃ (info : SlotInfo) (payload : Bytes), n = .file info.encode ∧ info.id = id ∧ 0 ≤ id.toInt ∧
      s.place.find (payloadName id) = .ok (.file payload)

variable {s : FolderStore}

theorem Sound.slot_there (hs : s.Sound) {id : SlotId} {n : Node} (h : s.place.find (infoName id) = .ok n) :
    ∃ info payload, s.slot? id = some (info, payload) ∧ n = .file info.encode ∧ info.id = id ∧
      0 ≤ id.toInt ∧ s.place.find (payloadName id) = .ok (.file payload) := by
  obtain ⟨info, payload, rfl, hid, hpos, hp⟩ := hs id n h
  refine ⟨info, payload, ?_, rfl, hid, hpos, hp⟩
  simp only [slot?, readInfo, readData, readFile, Place.read, h, hp, SlotInfo.decode_encode]
  rfl

theorem slot_eq_some {id : SlotId} {info : SlotInfo} {payload : Bytes} :
    s.slot? id = some (info, payload) ↔ s.readInfo id = .ok info ∧ s.readData id = .ok payload := by
  unfold slot?
  split
  · next hi hp => simp [hi, hp]
  · next hn =>
    exact ⟨fun h => (by cases h), fun h => absurd h.2 (hn info payload h.1)⟩

theorem readInfo_absent {id : SlotId} {e : IoCause} (h : s.place.find (infoName id) = .error e) :
    ∃ e', s.readInfo id = .error e' := by
  simp only [readInfo, readFile, Place.read, h]
  cases e <;> exact ⟨_, rfl⟩

theorem slot_absent {id : SlotId} {e : IoCause} (h : s.place.find (infoName id) = .error e) :
    s.slot? id = none := by
  obtain ⟨e', hr⟩ := readInfo_absent h
  simp [slot?, hr]

/-- A slot is there if its info is. -/
theorem Sound.slot_iff (hs : s.Sound) (id : SlotId) :
    (s.slot? id).isSome = true ↔ ∃ n, s.place.find (infoName id) = .ok n := by
  cases h : s.place.find (infoName id) with
  | error e => simp [slot_absent h]
  | ok n =>
    obtain ⟨info, payload, he, -⟩ := hs.slot_there h
    simp [he]

theorem holds_iff (s : FolderStore) (id : SlotId) :
    s.holds id = true ↔ ∃ n, s.place.find (infoName id) = .ok n := by
  unfold holds Place.exists?
  cases s.place.find (infoName id) with
  | ok n => simp
  | error e => cases e <;> simp

theorem find_folder (es : Entries) (x : Bytes) :
    Place.find (some (.folder es)) x =
      match es.lookup x with
      | some n => .ok n
      | none => .error .notFound := rfl

/-- What stands under a name in the folder. -/
def entry (s : FolderStore) (name : Bytes) : Place := s.place.at? [name]

@[simp]
theorem entry_folder (path : Path) (es : Entries) (x : Bytes) :
    entry ⟨path, some (.folder es)⟩ x = es.lookup x := rfl

/-- In a folder, a name without an entry is not found. -/
theorem find_eq (hp : ∀ contents, s.place ≠ some (.file contents)) (x : Bytes) :
    s.place.find x = (s.entry x).elim (.error .notFound) .ok := by
  have hfile : s.place.contents? = none := by
    match h : s.place with
    | none => rfl
    | some (.file contents) => exact absurd h (hp contents)
    | some (.folder es) => rfl
  rw [Place.find_eq, hfile]
  rfl

theorem holds_eq (hp : ∀ contents, s.place ≠ some (.file contents)) (id : SlotId) :
    s.holds id = (s.entry (infoName id)).isSome := by
  rw [Bool.eq_iff_iff, holds_iff, find_eq hp]
  cases s.entry (infoName id) <;> simp

theorem readFile_eq (hp : ∀ contents, s.place ≠ some (.file contents)) {x : Bytes} {contents? : Option Bytes}
    (h : s.entry x = contents?.map .file) (id : SlotId) :
    s.readFile id x = contents?.elim (.error (.notFound id)) .ok := by
  simp only [readFile, Place.read, find_eq hp, h]
  cases contents? <;> rfl

/-- Two folders with the same slots look the same to readers. -/
theorem slot_congr {s s' : FolderStore} {id : SlotId}
    (hi : s'.place.find (infoName id) = s.place.find (infoName id))
    (hp : s'.place.find (payloadName id) = s.place.find (payloadName id)) (hpath : s'.path = s.path) :
    s'.slot? id = s.slot? id := by
  simp only [slot?, readInfo, readData, readFile, Place.read, hi, hp, hpath]

/-- A store stays sound as long as the slots look the same. -/
theorem Sound.congr (hs : s.Sound) {s' : FolderStore}
    (h : ∀ id, s'.place.find (infoName id) = s.place.find (infoName id) ∧
      s'.place.find (payloadName id) = s.place.find (payloadName id)) : s'.Sound := by
  intro id n hn
  rw [(h id).2]
  exact hs id n ((h id).1 ▸ hn)

/-! ## What a write does to the slots -/

/-- A write works on the entries of the folder, which it makes if need be, or it fails at once. -/
theorem write_entries (s : FolderStore) (info : SlotInfo) (payload : Bytes) :
    (∃ contents e, s.place = some (.file contents) ∧ s.write info payload = (.error e, s)) ∨
    ∃ es, (s.place = some (.folder es) ∨ s.place = none ∧ es = []) ∧
      (writeScript s.path info payload).run s.place =
        (writeScript s.path info payload).run (some (.folder es)) := by
  obtain ⟨path, place⟩ := s
  match place with
  | some (.file contents) => exact .inl ⟨contents, _, rfl, rfl⟩
  | some (.folder es) => exact .inr ⟨es, .inl rfl, rfl⟩
  | none => exact .inr ⟨[], .inr ⟨rfl, rfl⟩, rfl⟩

/-- A folder that is not there looks as an empty one. -/
theorem find_entries {p : Place} {es : Entries} (h : p = some (.folder es) ∨ p = none ∧ es = []) (x : Bytes) :
    p.find x = Place.find (some (.folder es)) x := by
  rcases h with rfl | ⟨rfl, rfl⟩ <;> rfl

theorem entry_entries {es : Entries} (h : s.place = some (.folder es) ∨ s.place = none ∧ es = []) (x : Bytes) :
    s.entry x = es.lookup x := by
  rcases h with h | ⟨h, rfl⟩ <;> rw [entry, h] <;> rfl

theorem Sound.write_cases (hs : s.Sound) (info : SlotInfo) (payload : Bytes) :
    (∃ e, s.write info payload = (.error e, s)) ∨
    ∃ es es', (∀ x, s.place.find x = Place.find (some (.folder es)) x) ∧
      ((∃ e, s.write info payload = (.error e, { s with place := some (.folder es') }) ∧
        Spared es es' info.id) ∨
      (s.write info payload = (.ok (), { s with place := some (.folder es') }) ∧
        Written es es' info.id info.encode payload)) := by
  rcases s.write_entries info payload with ⟨-, e, -, h⟩ | ⟨es, hes, hsame⟩
  · exact .inl ⟨e, h⟩
  have hfind := find_entries hes
  have hinfo : (es.lookup (infoName info.id)).any Node.isFolder = false := by
    cases hl : es.lookup (infoName info.id) with
    | none => rfl
    | some n =>
      obtain ⟨_, _, rfl, -⟩ := hs info.id n (by rw [hfind, find_folder, hl])
      rfl
  rcases run_writeScript s.path info payload (.inl hinfo) with ⟨e, es', h, hw⟩ | ⟨es', h, hw⟩
  · exact .inr ⟨es, es', hfind, .inl ⟨e, by simp only [write, hsame, h], hw⟩⟩
  · exact .inr ⟨es, es', hfind, .inr ⟨by simp only [write, hsame, h], hw⟩⟩

theorem Sound.write_ok (hs : s.Sound) {s' : FolderStore} {info : SlotInfo} {payload : Bytes}
    (hpos : 0 ≤ info.id.toInt) (h : s.write info payload = (.ok (), s')) :
    s'.Sound ∧ ∀ id, s'.slot? id = if id = info.id then some (info, payload) else s.slot? id := by
  rcases hs.write_cases info payload with ⟨e, he⟩ | ⟨es, es', hfind, ⟨e, he, -⟩ | ⟨he, hw⟩⟩
  · rw [he] at h
    cases h
  · rw [he] at h
    cases h
  · rw [he] at h
    cases h
    have hi : ∀ id, id ≠ info.id → es'.lookup (infoName id) = es.lookup (infoName id) := fun id hid =>
      hw.other _ (not_mem_parts hid (by simp [parts]))
    have hp : ∀ id, id ≠ info.id → es'.lookup (payloadName id) = es.lookup (payloadName id) := fun id hid =>
      hw.other _ (not_mem_parts hid (by simp [parts]))
    have hs' : Sound { s with place := some (.folder es') } := by
      intro id n hn
      by_cases hid : id = info.id
      · subst hid
        simp only [find_folder, hw.info] at hn
        cases hn
        exact ⟨info, payload, rfl, rfl, hpos, by simp only [find_folder, hw.payload]⟩
      · simp only [find_folder, hi id hid] at hn
        obtain ⟨i, p, h⟩ := hs id n (by rw [hfind, find_folder]; exact hn)
        refine ⟨i, p, ?_⟩
        simpa only [find_folder, hp id hid, hfind] using h
    refine ⟨hs', ?_⟩
    intro id
    split
    · next hid =>
      subst hid
      have hn : Place.find (some (.folder es')) (infoName info.id) = .ok (.file info.encode) := by
        simp only [find_folder, hw.info]
      obtain ⟨i, p, hslot, he, -, -, hpay⟩ := hs'.slot_there hn
      have hdec := SlotInfo.decode_encode info
      rw [(Node.file.inj he), SlotInfo.decode_encode] at hdec
      simp only [find_folder, hw.payload] at hpay
      cases hdec
      cases hpay
      exact hslot
    · next hid =>
      exact slot_congr (by rw [hfind, find_folder, find_folder, hi id hid])
        (by rw [hfind, find_folder, find_folder, hp id hid]) rfl

theorem Sound.write_error (hs : s.Sound) {s' : FolderStore} {info : SlotInfo} {payload : Bytes}
    {e : StoreError} (h : s.write info payload = (.error e, s')) :
    s'.Sound ∧ ∀ id, s'.slot? id = s.slot? id := by
  rcases hs.write_cases info payload with ⟨e, he⟩ | ⟨es, es', hfind, ⟨e, he, hw⟩ | ⟨he, -⟩⟩
  · rw [he] at h
    cases h
    exact ⟨hs, fun _ => rfl⟩
  · rw [he] at h
    cases h
    have hi : ∀ id, Place.find (some (.folder es')) (infoName id) = s.place.find (infoName id) := fun id => by
      rw [hfind, find_folder, find_folder, hw.lookup_infoName]
    have hp : ∀ id, Place.find (some (.folder es')) (payloadName id) = s.place.find (payloadName id) :=
      fun id => by rw [hfind, find_folder, find_folder, hw.lookup_payloadName]
    exact ⟨hs.congr fun id => ⟨hi id, hp id⟩, fun id => slot_congr (hi id) (hp id) rfl⟩
  · rw [he] at h
    cases h

/-! ## Deletions -/

theorem entries_of_find {p : Place} {x : Bytes} {n : Node} (h : p.find x = .ok n) :
    ∃ es : Entries, p = some (.folder es) := by
  match p with
  | none => cases h
  | some (.file _) => cases h
  | some (.folder es) => exact ⟨es, rfl⟩

theorem lookup_of_find {es : Entries} {x : Bytes} {n : Node} (h : Place.find (some (.folder es)) x = .ok n) :
    es.lookup x = some n := by
  rw [find_folder] at h
  split at h
  · next hl =>
    cases h
    exact hl
  · cases h

/-- A slot with two files goes with both. -/
theorem delete_files (path : Path) {es : Entries} {id : SlotId} {info payload : Bytes}
    (hi : es.lookup (infoName id) = some (.file info)) (hp : es.lookup (payloadName id) = some (.file payload)) :
    delete ⟨path, some (.folder es)⟩ id =
      (.ok (), ⟨path, some (.folder ((es.remove (payloadName id)).remove (infoName id)))⟩) := by
  have hi' : (es.remove (payloadName id)).lookup (infoName id) = some (.file info) := by
    rw [Entries.lookup_remove, if_neg (infoName_ne_payloadName id id), hi]
  have hthere : Place.exists? (some (.folder es)) (infoName id) = .ok true := by
    simp only [Place.exists?, find_folder, hi]
  simp only [delete, deletion, hthere, deleteScript]
  rw [run_ok (Action.unlink_file hp)]
  simp only
  rw [run_ok (Action.unlink_file hi')]
  rfl

/-- Its files are all that goes. -/
theorem lookup_deleted (es : Entries) (id : SlotId) (x : Bytes) :
    ((es.remove (payloadName id)).remove (infoName id)).lookup x =
      if x = infoName id ∨ x = payloadName id then none else es.lookup x := by
  rw [Entries.lookup_remove, Entries.lookup_remove]
  by_cases hi : x = infoName id
  · simp [hi]
  · by_cases hp : x = payloadName id <;> simp [hi, hp]

/-- A slot without an info cannot be deleted. -/
theorem delete_notFound {id : SlotId} (h : s.place.find (infoName id) = .error .notFound) :
    s.delete id = (.error (.notFound id), s) := by
  simp only [delete, deletion, Place.exists?, h]
  rfl

theorem Sound.delete_there (hs : s.Sound) {id : SlotId} (h : (s.slot? id).isSome = true) :
    ∃ s', s.delete id = (.ok (), s') ∧ s'.Sound ∧
      ∀ id', s'.slot? id' = if id' = id then none else s.slot? id' := by
  obtain ⟨n, hn⟩ := (hs.slot_iff id).1 h
  obtain ⟨info, payload, -, rfl, -, -, hp⟩ := hs.slot_there hn
  obtain ⟨path, place⟩ := s
  obtain ⟨es, rfl⟩ := entries_of_find hn
  have hrun := delete_files path (lookup_of_find hn) (lookup_of_find hp)
  have hlook : ∀ x, Place.find (some (.folder ((es.remove (payloadName id)).remove (infoName id)))) x =
      if x = infoName id ∨ x = payloadName id then .error .notFound else Place.find (some (.folder es)) x := by
    intro x
    simp only [find_folder, lookup_deleted]
    by_cases hx : x = infoName id ∨ x = payloadName id <;> simp [hx]
  have hother : ∀ id', id' ≠ id →
      ¬ (infoName id' = infoName id ∨ infoName id' = payloadName id) ∧
      ¬ (payloadName id' = infoName id ∨ payloadName id' = payloadName id) := by
    intro id' hid
    simp [hid]
  refine ⟨_, hrun, ?_, ?_⟩
  · intro id' n' hn'
    by_cases hid : id' = id
    · simp [hlook, hid] at hn'
    · rw [hlook, if_neg (hother id' hid).1] at hn'
      rw [hlook, if_neg (hother id' hid).2]
      exact hs id' n' hn'
  · intro id'
    split
    · next hid => exact slot_absent (by rw [hlook, hid, if_pos (.inl rfl)])
    · next hid =>
      exact slot_congr (by rw [hlook, if_neg (hother id' hid).1]) (by rw [hlook, if_neg (hother id' hid).2]) rfl

theorem Sound.delete_absent (hs : s.Sound) {id : SlotId} (h : s.slot? id = none) :
    ∃ e, s.delete id = (.error e, s) := by
  cases hf : s.place.find (infoName id) with
  | ok n =>
    have hsome := (hs.slot_iff id).2 ⟨n, hf⟩
    rw [h] at hsome
    cases hsome
  | error e =>
    have hthere : s.place.exists? (infoName id) ≠ .ok true := by
      simp only [Place.exists?, hf]
      cases e <;> simp
    simp only [delete, deletion]
    split
    · exact ⟨_, rfl⟩
    · exact ⟨_, rfl⟩
    · next hc => exact absurd hc hthere

/-! ## Listings -/

theorem mem_names {es : Entries} {x : Bytes} : x ∈ es.map Prod.fst ↔ ∃ n, es.lookup x = some n := by
  induction es with
  | nil => simp
  | cons e es ih =>
    rw [List.map_cons, List.mem_cons, Entries.lookup_cons, ih]
    by_cases hx : x = e.1
    · simp [hx]
    · simp [hx]

/-- A slot with a number from zero on is told by the name of its info. -/
theorem idOfInfoName_infoName {id : SlotId} (h : 0 ≤ id.toInt) : idOfInfoName? (infoName id) = some id := by
  obtain ⟨n, hn⟩ := Int.eq_ofNat_of_zero_le h
  have htake : (infoName id).takeWhile Decimal.isDigit = Decimal.digits n := by
    have hsuffix : infoSuffix.takeWhile Decimal.isDigit = [] := by decide
    have hdigits : ∀ b ∈ Decimal.digits n, Decimal.isDigit b = true := fun b hb => Decimal.isDigit_of_mem hb
    unfold infoName
    rw [hn]
    change (Decimal.digits n ++ infoSuffix).takeWhile _ = _
    rw [List.takeWhile_append_of_pos hdigits, hsuffix, List.append_nil]
  have hof : SlotId.ofInt? (n : Int) = some id := hn ▸ id.ofInt_toInt
  simp [idOfInfoName?, htake, Decimal.value_digits, hof]

theorem infoName_of_idOfInfoName {name : Bytes} {id : SlotId} (h : idOfInfoName? name = some id) :
    infoName id = name := by
  obtain ⟨id', -, h⟩ := Option.bind_eq_some_iff.1 h
  split at h
  · next hn =>
    cases h
    exact hn
  · cases h

/-- A folder is listed as a whole if it has a path. Infos whose names are no spelling of a slot are left out. -/
theorem ids_eq (s : FolderStore) (hp : ∀ contents, s.place ≠ some (.file contents)) :
    ∃ ids, s.ids = .ok ids ∧ ∀ id, id ∈ ids.toList ↔
      s.path.text.isEmpty = false ∧ idOfInfoName? (infoName id) = some id ∧
        ∃ n, s.place.find (infoName id) = .ok n := by
  unfold FolderStore.ids
  split
  · next he => exact ⟨.empty, rfl, fun id => by simp [Catalog.empty, he]⟩
  · next he =>
    rcases h : s.place with _ | contents | es
    · exact ⟨.empty, rfl, fun id => by simp [Catalog.empty, Place.find]⟩
    · exact absurd h (hp contents)
    · refine ⟨_, rfl, fun id => ?_⟩
      rw [Catalog.mem_ofList, List.mem_filterMap]
      constructor
      · rintro ⟨name, hname, hid⟩
        obtain ⟨n, hn⟩ := mem_names.1 hname
        obtain rfl := infoName_of_idOfInfoName hid
        exact ⟨by simpa using he, hid, n, by rw [find_folder, hn]⟩
      · rintro ⟨-, hid, n, hn⟩
        exact ⟨infoName id, mem_names.2 ⟨n, lookup_of_find hn⟩, hid⟩

/-- What a listing has in it, if there is one. -/
theorem mem_ids {ids : SlotSet} (h : s.ids = .ok ids) (id : SlotId) : id ∈ ids.toList ↔
    s.path.text.isEmpty = false ∧ idOfInfoName? (infoName id) = some id ∧
      ∃ n, s.place.find (infoName id) = .ok n := by
  cases hpath : s.path.text.isEmpty with
  | true =>
    rw [FolderStore.ids, if_pos hpath] at h
    cases h
    simp [Catalog.empty]
  | false =>
    -- a file in the folder's place cannot be listed
    have hp : ∀ contents, s.place ≠ some (.file contents) := by
      intro contents hp
      rw [FolderStore.ids, if_neg (by simp [hpath]), hp] at h
      cases h
    obtain ⟨ids', h', hmem⟩ := s.ids_eq hp
    obtain rfl : ids = ids' := Except.ok.inj (h.symm.trans h')
    rw [hmem, hpath]

theorem Sound.ids_there (hs : s.Sound) {ids : SlotSet} {id : SlotId} (h : s.ids = .ok ids)
    (hid : id ∈ ids.toList) :
    (s.slot? id).isSome = true := by
  rw [hs.slot_iff]
  exact ((mem_ids h id).1 hid).2.2

/-- A folder with a path is listed as a whole. -/
theorem Sound.ids_all (hs : s.Sound) (hpath : s.path.text.isEmpty = false) {ids : SlotSet} {id : SlotId}
    (h : s.ids = .ok ids) (hid : (s.slot? id).isSome = true) : id ∈ ids.toList := by
  obtain ⟨n, hn⟩ := (hs.slot_iff id).1 hid
  obtain ⟨_, _, -, -, -, hpos, -⟩ := hs.slot_there hn
  exact (mem_ids h id).2 ⟨hpath, idOfInfoName_infoName hpos, n, hn⟩

instance : Reliable FolderStore where
  slot? := slot?
  Sound := Sound
  holds_eq {s} id hs := by
    rw [Bool.eq_iff_iff]
    exact (s.holds_iff id).trans (hs.slot_iff id).symm
  readInfo_ok {s} id info hs h := by
    cases hf : s.place.find (infoName id) with
    | error e =>
      obtain ⟨e', he⟩ := readInfo_absent hf
      rw [show s.readInfo id = _ from h] at he
      cases he
    | ok n =>
      obtain ⟨i, p, he, -⟩ := hs.slot_there hf
      obtain ⟨hi, hp⟩ := slot_eq_some.1 he
      rw [show s.readInfo id = _ from h] at hi
      cases hi
      exact ⟨p, he⟩
  readData_ok {s} id info payload read _ h hr := by
    have hp := (slot_eq_some.1 h).2
    rw [show s.readData id = _ from hr] at hp
    cases hp
    rfl
  write_ok hs hpos h := hs.write_ok hpos h
  write_error hs h := hs.write_error h
  delete_there hs h := hs.delete_there h
  delete_absent hs h := hs.delete_absent h
  ids_there hs h hid := hs.ids_there h hid
  lists s := !s.path.text.isEmpty
  ids_all hs hl h hid := hs.ids_all (by simpa using hl) h hid
  ids_none hl := if_pos (by simpa using hl)
  lists_write _ _ _ := rfl
  lists_delete _ _ := rfl

/-- A folder in which no slot is found is sound, whatever else is in it. -/
theorem slot_of_empty (h : ∀ id, s.holds id = false) : s.Sound ∧ ∀ id, s.slot? id = none := by
  have hs : s.Sound := by
    intro id n hn
    have hh := (s.holds_iff id).2 ⟨n, hn⟩
    rw [h id] at hh
    cases hh
  refine ⟨hs, ?_⟩
  intro id
  cases hslot : s.slot? id with
  | none => rfl
  | some kept =>
    have hh := (s.holds_iff id).2 ((hs.slot_iff id).1 (by rw [hslot]; rfl))
    rw [h id] at hh
    cases hh

end FolderStore

end SaveSlots
