import SaveSlots.Proofs.Folder
/-!
# The two stores answer alike

No caller can tell a `MemoryStore` without faults from a `FolderStore` whose folder is its own: an empty
store and one whose folder is yet to be made give the same answers to the same calls, call by call, errors
included (`answers_memory_eq_folder`).

`Mirrors` ties the two: of every slot in memory the folder has the two files, and beside them nothing is
left of a write. Every call is answered alike by stores that mirror each other and leaves stores that do so
(`Mirrors.perform`).
-/

namespace SaveSlots

/-! ## Calls and answers -/

/-- What a store can be asked for. -/
inductive StoreCall where
  | holds (id : SlotId)
  | readInfo (id : SlotId)
  | readData (id : SlotId)
  | write (info : SlotInfo) (payload : Bytes)
  | delete (id : SlotId)
  | ids

inductive StoreAnswer where
  | holds (there : Bool)
  | info (read : Except StoreError SlotInfo)
  | data (read : Except StoreError Bytes)
  | changed (answer : Except StoreError Unit)
  | ids (listed : Except StoreError SlotSet)

namespace StoreCall

variable {σ : Type} [SlotStore σ]

/-- The answer to a call, and the store after it. -/
def perform (s : σ) : StoreCall → StoreAnswer × σ
  | holds id => (.holds (SlotStore.holds s id), s)
  | readInfo id => (.info (SlotStore.readInfo s id), s)
  | readData id => (.data (SlotStore.readData s id), s)
  | write info payload =>
    let (answer, s) := SlotStore.write s info payload
    (.changed answer, s)
  | delete id =>
    let (answer, s) := SlotStore.delete s id
    (.changed answer, s)
  | ids => (.ids (SlotStore.ids s), s)

/-- The answers to calls that are made one after another. -/
def answers (s : σ) : List StoreCall → List StoreAnswer
  | [] => []
  | c :: calls => (c.perform s).1 :: answers (c.perform s).2 calls

end StoreCall

/-! ## A folder as a mirror of the memory -/

namespace FolderStore

variable {s s' : FolderStore} {id : SlotId} {info? : Option SlotInfo} {payload? : Option Bytes}

/-- Whether a slot has these files in the folder and no others. -/
structure Mirrored (s : FolderStore) (id : SlotId) (info? : Option SlotInfo) (payload? : Option Bytes) :
    Prop where
  info : s.entry (infoName id) = (info?.map SlotInfo.encode).map .file
  payload : s.entry (payloadName id) = payload?.map .file
  stagedInfo : s.entry (staged (infoName id)) = none
  stagedPayload : s.entry (staged (payloadName id)) = none
  backup : s.entry (backup (payloadName id)) = none

theorem Mirrored.congr (h : s.Mirrored id info? payload?) (hsame : ∀ x ∈ parts id, s'.entry x = s.entry x) :
    s'.Mirrored id info? payload? where
  info := by rw [hsame _ (by simp [parts]), h.info]
  payload := by rw [hsame _ (by simp [parts]), h.payload]
  stagedInfo := by rw [hsame _ (by simp [parts]), h.stagedInfo]
  stagedPayload := by rw [hsame _ (by simp [parts]), h.stagedPayload]
  backup := by rw [hsame _ (by simp [parts]), h.backup]

theorem not_folder (contents : Option Bytes) : (contents.map Node.file).any Node.isFolder = false := by
  cases contents <;> rfl

theorem Mirrored.not_blocked (h : s.Mirrored id info? payload?) {es : Entries}
    (hes : ∀ x, s.entry x = es.lookup x) : ¬ Blocked es id := by
  rintro ⟨x, hx, hfolder⟩
  simp only [parts, List.mem_cons, List.not_mem_nil, or_false] at hx
  rw [← hes] at hfolder
  rcases hx with rfl | rfl | rfl | rfl | rfl
  · rw [h.info, not_folder] at hfolder
    cases hfolder
  · rw [h.payload, not_folder] at hfolder
    cases hfolder
  · simp [h.stagedInfo] at hfolder
  · simp [h.stagedPayload] at hfolder
  · simp [h.backup] at hfolder

end FolderStore

/-- Whether a folder has for every slot what there is of it in memory. -/
structure Mirrors (m : MemoryStore) (s : FolderStore) : Prop where
  faultless : m.failWrites = false ∧ m.failInfoWrites = false ∧ m.failReads = false
  sound : m.Sound
  /-- A slot below zero would be in no listing of the folder. -/
  numbered : ∀ id, (m.info? id).isSome = true → 0 ≤ id.toInt
  path : s.path.text.isEmpty = false
  place : ∀ contents, s.place ≠ some (.file contents)
  slots : ∀ id, s.Mirrored id (m.info? id) (m.payload? id)

namespace Mirrors

open FolderStore

variable {m : MemoryStore} {s : FolderStore}

/-- An empty store and a folder that is not there mirror each other. -/
theorem start {path : Path} (hpath : path.text.isEmpty = false) : Mirrors .empty ⟨path, none⟩ where
  faultless := ⟨rfl, rfl, rfl⟩
  sound _ := rfl
  numbered _ h := by cases h
  path := hpath
  place _ := by simp
  slots _ := ⟨rfl, rfl, rfl, rfl, rfl⟩

/-! ## Reading -/

theorem holds_eq (h : Mirrors m s) (id : SlotId) : s.holds id = m.holds id := by
  rw [FolderStore.holds_eq h.place, (h.slots id).info, MemoryStore.holds_eq, Option.isSome_map, Option.isSome_map]

theorem reading_eq (h : Mirrors m s) {α : Type} (answer : Except StoreError α) : m.reading answer = answer :=
  if_neg (by simp [h.faultless])

theorem readInfo_eq (h : Mirrors m s) (id : SlotId) : s.readInfo id = m.readInfo id := by
  rw [FolderStore.readInfo, readFile_eq h.place (h.slots id).info, MemoryStore.readInfo, h.reading_eq]
  cases m.info? id with
  | none => rfl
  | some info => simp [SlotInfo.decode_encode, Except.mapError, MemoryStore.orNotFound]

theorem readData_eq (h : Mirrors m s) (id : SlotId) : s.readData id = m.readData id := by
  rw [FolderStore.readData, readFile_eq h.place (h.slots id).payload, MemoryStore.readData, h.reading_eq]
  cases m.payload? id <;> rfl

/-- A folder is listed by the names of its infos, which tell every slot from zero on. -/
theorem ids_eq (h : Mirrors m s) : s.ids = m.ids := by
  obtain ⟨ids, hids, hmem⟩ := s.ids_eq h.place
  rw [hids, MemoryStore.ids, h.reading_eq]
  congr 1
  apply Catalog.ext_mem
  intro id
  rw [hmem, Catalog.mem_ofList, MemoryStore.slotIds, Catalog.mem_keys_iff, find_eq h.place, (h.slots id).info]
  change _ ↔ (m.info? id).isSome = true
  cases hi : m.info? id with
  | none => simp
  | some info =>
    have hpos := h.numbered id (by rw [hi]; rfl)
    simp [h.path, idOfInfoName_infoName hpos]

/-! ## Changes -/

/-- Stores still mirror each other after one and the same slot has changed in both. -/
theorem change (h : Mirrors m s) {m' : MemoryStore} {s' : FolderStore} (id : SlotId)
    (hfaults : m'.failWrites = m.failWrites ∧ m'.failInfoWrites = m.failInfoWrites ∧ m'.failReads = m.failReads)
    (hsound : m'.Sound) (hpos : (m'.info? id).isSome = true → 0 ≤ id.toInt)
    (hm : ∀ id', id' ≠ id → m'.info? id' = m.info? id' ∧ m'.payload? id' = m.payload? id')
    (hpath : s'.path = s.path) (hplace : ∃ es, s'.place = some (.folder es))
    (hs : ∀ id', id' ≠ id → ∀ x ∈ parts id', s'.entry x = s.entry x)
    (hid : s'.Mirrored id (m'.info? id) (m'.payload? id)) : Mirrors m' s' where
  faultless := by simp only [hfaults, h.faultless, and_self]
  sound := hsound
  numbered id' hi := by
    by_cases heq : id' = id
    · subst heq
      exact hpos hi
    · exact h.numbered id' ((hm id' heq).1 ▸ hi)
  path := by rw [hpath, h.path]
  place contents := by
    obtain ⟨es, hes⟩ := hplace
    simp [hes]
  slots id' := by
    by_cases heq : id' = id
    · subst heq
      exact hid
    · rw [(hm id' heq).1, (hm id' heq).2]
      exact (h.slots id').congr (hs id' heq)

/-- A folder with nothing in the way takes every write. -/
theorem write_folder (h : Mirrors m s) (info : SlotInfo) (payload : Bytes) :
    ∃ es es', (∀ x, s.entry x = es.lookup x) ∧ Written es es' info.id info.encode payload ∧
      s.write info payload = (.ok (), ⟨s.path, some (.folder es')⟩) := by
  rcases s.write_entries info payload with ⟨contents, -, hfile, -⟩ | ⟨es, hes, hrun⟩
  · exact absurd hfile (h.place contents)
  have hentry := entry_entries hes
  have hold : (es.lookup (infoName info.id)).any Node.isFolder = false := by
    rw [← hentry, (h.slots info.id).info, not_folder]
  rcases run_writeScript s.path info payload (.inl hold) with ⟨e, es', -, hw⟩ | ⟨es', hw, hk⟩
  · exact absurd hw.blocked ((h.slots info.id).not_blocked hentry)
  · exact ⟨es, es', hentry, hk, by simp only [FolderStore.write, hrun, hw]⟩

theorem write (h : Mirrors m s) {info : SlotInfo} (hpos : 0 ≤ info.id.toInt) (payload : Bytes) :
    (s.write info payload).1 = (m.write info payload).1 ∧
      Mirrors (m.write info payload).2 (s.write info payload).2 := by
  obtain ⟨es, es', hentry, hw, hrun⟩ := h.write_folder info payload
  have hm : m.write info payload =
      (.ok (), { (m.putInfo info).putPayload info.id payload with writes := m.writes + 1 }) := by
    simp [MemoryStore.write, h.faultless]
  rw [hrun, hm]
  refine ⟨rfl, h.change info.id ⟨rfl, rfl, rfl⟩ (MemoryStore.sound_put h.sound info payload _) (fun _ => hpos) ?_
    rfl ⟨es', rfl⟩ ?_ ?_⟩
  · intro id hid
    rw [MemoryStore.info_put, MemoryStore.payload_put, if_neg hid, if_neg hid]
    exact ⟨rfl, rfl⟩
  · intro id hid x hx
    rw [hentry]
    exact hw.other x (not_mem_parts hid hx)
  · have hold := h.slots info.id
    have hbackup := hw.backup (by rw [← hentry, hold.payload, not_folder]) (by rw [← hentry, hold.backup])
    rw [MemoryStore.info_put, MemoryStore.payload_put, if_pos rfl, if_pos rfl]
    exact ⟨hw.info, hw.payload, hw.stagedInfo, hw.stagedPayload, hbackup⟩

theorem delete (h : Mirrors m s) (id : SlotId) :
    (s.delete id).1 = (m.delete id).1 ∧ Mirrors (m.delete id).2 (s.delete id).2 := by
  have hslot := h.slots id
  cases hi : m.info? id with
  | none =>
    -- neither store has the slot, so neither of them changes
    have hm : m.delete id = (.error (.notFound id), m) := if_neg (by simp [MemoryStore.holds_eq, hi])
    have hf : s.place.find (infoName id) = .error .notFound := by
      rw [find_eq h.place, hslot.info, hi]
      rfl
    rw [hm, delete_notFound hf]
    exact ⟨rfl, h⟩
  | some info =>
    have hthere := h.sound id
    rw [hi] at hthere
    obtain ⟨payload, hp⟩ := Option.isSome_iff_exists.1 hthere.symm
    have hm : m.delete id =
        (.ok (), { m with infos := m.infos.erase id, payloads := m.payloads.erase id }) :=
      if_pos (by simp [MemoryStore.holds_eq, hi])
    rw [hi, hp] at hslot
    obtain ⟨path, place⟩ := s
    obtain ⟨es, rfl⟩ : ∃ es : Entries, place = some (.folder es) :=
      entries_of_find (x := infoName id) (n := .file info.encode) (by
        rw [find_eq h.place, hslot.info]; rfl)
    rw [hm, delete_files path hslot.info hslot.payload]
    refine ⟨rfl, h.change id ⟨rfl, rfl, rfl⟩ (MemoryStore.sound_erase h.sound id) ?_ ?_ rfl ⟨_, rfl⟩ ?_ ?_⟩
    · simp [MemoryStore.info_erase]
    · intro id' hid
      rw [MemoryStore.info_erase, MemoryStore.payload_erase, if_neg hid, if_neg hid]
      exact ⟨rfl, rfl⟩
    · intro id' hid x hx
      have hx' := not_mem_parts hid hx
      simp only [parts, List.mem_cons, not_or] at hx'
      rw [entry_folder, lookup_deleted, if_neg (by simp [hx']), entry_folder]
    · -- nothing was beside the two files, so nothing is left
      rw [MemoryStore.info_erase, MemoryStore.payload_erase, if_pos rfl, if_pos rfl]
      constructor
      · simp [lookup_deleted]
      · simp [lookup_deleted]
      · simpa [lookup_deleted] using hslot.stagedInfo
      · simpa [lookup_deleted] using hslot.stagedPayload
      · simpa [lookup_deleted] using hslot.backup

/-! ## Call after call -/

/-- Stores that mirror each other answer a call alike and still mirror each other. -/
theorem perform (h : Mirrors m s) (c : StoreCall)
    (hc : ∀ info payload, c = .write info payload → 0 ≤ info.id.toInt) :
    (c.perform s).1 = (c.perform m).1 ∧ Mirrors (c.perform m).2 (c.perform s).2 := by
  cases c with
  | holds id => exact ⟨congrArg StoreAnswer.holds (h.holds_eq id), h⟩
  | readInfo id => exact ⟨congrArg StoreAnswer.info (h.readInfo_eq id), h⟩
  | readData id => exact ⟨congrArg StoreAnswer.data (h.readData_eq id), h⟩
  | write info payload =>
    obtain ⟨hanswer, hmirrors⟩ := h.write (hc info payload rfl) payload
    exact ⟨congrArg StoreAnswer.changed hanswer, hmirrors⟩
  | delete id =>
    obtain ⟨hanswer, hmirrors⟩ := h.delete id
    exact ⟨congrArg StoreAnswer.changed hanswer, hmirrors⟩
  | ids => exact ⟨congrArg StoreAnswer.ids h.ids_eq, h⟩

theorem answers (h : Mirrors m s) {calls : List StoreCall}
    (hc : ∀ info payload, StoreCall.write info payload ∈ calls → 0 ≤ info.id.toInt) :
    StoreCall.answers s calls = StoreCall.answers m calls := by
  induction calls generalizing m s with
  | nil => rfl
  | cons c calls ih =>
    obtain ⟨hanswer, hmirrors⟩ := h.perform c fun info payload he => hc info payload (by simp [he])
    have hrest := ih hmirrors fun info payload hmem => hc info payload (by simp [hmem])
    rw [StoreCall.answers, StoreCall.answers, hanswer, hrest]

end Mirrors

/-- A folder that does not exist yet serves as well as the memory. Whatever is asked, in whatever order, both
give the same answers; only slots that are written have to have numbers from zero on. The empty path is left
out because no folder that does not exist has it: it leads to the working folder. -/
theorem answers_memory_eq_folder {path : Path} (hpath : path.text.isEmpty = false) {calls : List StoreCall}
    (hc : ∀ info payload, StoreCall.write info payload ∈ calls → 0 ≤ info.id.toInt) :
    StoreCall.answers MemoryStore.empty calls = StoreCall.answers (FolderStore.mk path none) calls :=
  ((Mirrors.start hpath).answers hc).symm

/-- A slot is written twice, read, deleted and missed. -/
theorem answers_memory_eq_folder_rewritten :
    let calls : List StoreCall :=
      [.ids, .write (.empty 7 "0.1.0") (Bytes.ofText "old"), .write (.empty 7 "0.2.0") (Bytes.ofText "new"),
        .holds 7, .readInfo 7, .readData 7, .ids, .delete 7, .delete 7, .readData 7]
    let s : FolderStore := ⟨⟨"saves"⟩, none⟩
    StoreCall.answers MemoryStore.empty calls = StoreCall.answers s calls ∧
      StoreCall.answers s calls =
        [.ids (.ok .empty), .changed (.ok ()), .changed (.ok ()), .holds true, .info (.ok (.empty 7 "0.2.0")),
          .data (.ok (Bytes.ofText "new")), .ids (.ok (.ofList [7])), .changed (.ok ()),
          .changed (.error (.notFound 7)), .data (.error (.notFound 7))] := by
  intro calls s
  have hc : ∀ info payload, StoreCall.write info payload ∈ calls → 0 ≤ info.id.toInt := by
    intro info payload h
    simp only [calls, List.mem_cons, StoreCall.write.injEq, reduceCtorEq, List.not_mem_nil, false_or,
      or_false] at h
    rcases h with ⟨rfl, -⟩ | ⟨rfl, -⟩ <;> decide
  have hpath : s.path.text.isEmpty = false := by decide
  have heq := answers_memory_eq_folder hpath hc
  exact ⟨heq, heq.symm.trans rfl⟩

end SaveSlots
