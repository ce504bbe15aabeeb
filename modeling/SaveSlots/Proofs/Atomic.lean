import SaveSlots.Proofs.Folder
/-!
# A write that fails leaves no trace

Whatever lies in the folder of a `FolderStore`, a write either puts both halves of the slot in place or
leaves every answer of the store as it was, and it touches nothing but the names of its slot
(`FolderStore.write_atomic`). The one thing asked for is that the old payload is not a folder.

What the write itself puts beside the two halves is gone afterwards. A file that someone else has staged for
the info outlives a write that fails before it comes to that name (`FolderStore.write_keeps_staged`).
-/

namespace SaveSlots.FolderStore

/-- Whether two stores answer every question alike. -/
structure SameAnswers (s s' : FolderStore) : Prop where
  readInfo : ∀ id, s'.readInfo id = s.readInfo id
  readData : ∀ id, s'.readData id = s.readData id
  holds : ∀ id, s'.holds id = s.holds id
  ids : s'.ids = s.ids

variable {s s' : FolderStore}

theorem SameAnswers.refl (s : FolderStore) : SameAnswers s s :=
  ⟨fun _ => rfl, fun _ => rfl, fun _ => rfl, rfl⟩

/-- All answers are made of what is found under the names of infos and payloads. -/
theorem SameAnswers.of_find (hpath : s'.path = s.path)
    (hp : ∀ contents, s.place ≠ some (.file contents)) (hp' : ∀ contents, s'.place ≠ some (.file contents))
    (hi : ∀ id, s'.place.find (infoName id) = s.place.find (infoName id))
    (hd : ∀ id, s'.place.find (payloadName id) = s.place.find (payloadName id)) : SameAnswers s s' where
  readInfo id := by simp only [FolderStore.readInfo, readFile, Place.read, hi, hpath]
  readData id := by simp only [FolderStore.readData, readFile, Place.read, hd, hpath]
  holds id := by simp only [FolderStore.holds, Place.exists?, hi]
  ids := by
    obtain ⟨ids, h, hmem⟩ := s.ids_eq hp
    obtain ⟨ids', h', hmem'⟩ := s'.ids_eq hp'
    rw [h, h']
    congr 1
    exact Catalog.ext_mem fun id => by rw [hmem, hmem', hi, hpath]

theorem Written.reads {path : Path} {es es' : Entries} {info : SlotInfo} {payload : Bytes}
    (h : Written es es' info.id info.encode payload) :
    FolderStore.readInfo ⟨path, some (.folder es')⟩ info.id = .ok info ∧
      FolderStore.readData ⟨path, some (.folder es')⟩ info.id = .ok payload := by
  constructor
  · simp only [FolderStore.readInfo, readFile, Place.read, find_folder, h.info, SlotInfo.decode_encode]
    rfl
  · simp only [FolderStore.readData, readFile, Place.read, find_folder, h.payload]

/-- A write that fails leaves every answer as it was, and one that succeeds puts both halves in place. Either
way no entry of another slot or of none changes, nothing stays staged but for an info that was staged before
and that a folder in the way of the staged payload kept the write from coming to, and no backup stays that was
not there before. -/
theorem write_atomic {info : SlotInfo} {payload : Bytes} {answer : Except StoreError Unit}
    (hpayload : (s.entry (payloadName info.id)).any Node.isFolder = false)
    (h : s.write info payload = (answer, s')) :
    (∀ e, answer = .error e → SameAnswers s s') ∧
    (answer = .ok () → s'.readInfo info.id = .ok info ∧ s'.readData info.id = .ok payload) ∧
    (∀ id, id ≠ info.id → ∀ x ∈ parts id, s'.entry x = s.entry x) ∧
    (∀ x, (∀ id, x ∉ parts id) → s'.entry x = s.entry x) ∧
    (s'.entry (staged (payloadName info.id))).all Node.isFolder = true ∧
    ((s'.entry (staged (infoName info.id))).all Node.isFolder = true ∨
      answer ≠ .ok () ∧ (s.entry (staged (payloadName info.id))).any Node.isFolder = true ∧
        s'.entry (staged (infoName info.id)) = s.entry (staged (infoName info.id))) ∧
    (s.entry (backup (payloadName info.id)) = none → s'.entry (backup (payloadName info.id)) = none) := by
  rcases s.write_entries info payload with ⟨contents, e, hp, hw⟩ | ⟨es, hes, hrun⟩
  · have hnone : ∀ x, s.entry x = none := fun x => by rw [entry, hp]; rfl
    obtain ⟨rfl, rfl⟩ := Prod.mk.inj (h.symm.trans hw)
    exact ⟨fun _ _ => .refl _, by simp, fun _ _ _ _ => rfl, fun _ _ => rfl, by simp [hnone], .inl (by simp [hnone]),
      id⟩
  have hentry : ∀ x, s.entry x = es.lookup x := by
    intro x
    rcases hes with h | ⟨h, rfl⟩ <;> rw [entry, h] <;> rfl
  have hp : ∀ contents, s.place ≠ some (.file contents) := by
    intro contents
    rcases hes with h | ⟨h, -⟩ <;> simp [h]
  simp only [hentry] at hpayload ⊢
  rcases run_writeScript s.path info payload (.inr hpayload) with ⟨e, es', hw, hk⟩ | ⟨es', hw, hk⟩
  · have hw' : s.write info payload = (.error e, ⟨s.path, some (.folder es')⟩) := by
      simp only [write, hrun, hw]
    obtain ⟨rfl, rfl⟩ := Prod.mk.inj (h.symm.trans hw')
    refine ⟨fun _ _ => .of_find rfl hp (by simp) ?_ ?_, by simp, ?_, ?_, hk.stagedPayload,
      hk.stagedInfo.imp_right fun hi => ⟨by simp, hi⟩, hk.backup⟩
    · intro id
      rw [find_entries hes, find_folder, find_folder, hk.lookup_infoName]
    · intro id
      rw [find_entries hes, find_folder, find_folder, hk.lookup_payloadName]
    · exact fun id hid x hx => hk.other x (not_mem_parts hid hx)
    · exact fun x hx => hk.other x (hx _)
  · have hw' : s.write info payload = (.ok (), ⟨s.path, some (.folder es')⟩) := by
      simp only [write, hrun, hw]
    obtain ⟨rfl, rfl⟩ := Prod.mk.inj (h.symm.trans hw')
    refine ⟨by simp, fun _ => hk.reads, ?_, ?_, ?_, .inl ?_, hk.backup hpayload⟩
    · exact fun id hid x hx => hk.other x (not_mem_parts hid hx)
    · exact fun x hx => hk.other x (hx _)
    · exact (congrArg _ hk.stagedPayload).trans rfl
    · exact (congrArg _ hk.stagedInfo).trans rfl

/-- A folder in the way of an info keeps the slot from being written. What is there of it stays. -/
theorem write_atomic_blocked :
    let s : FolderStore := ⟨⟨"saves"⟩, some (.folder
      [(infoName 1, .folder []), (payloadName 1, .file (Bytes.ofText "old"))])⟩
    let result := s.write (.empty 1 "0.1.0") (Bytes.ofText "new")
    result.1 = .error (failure ⟨"saves"⟩ (infoName 1) .isADirectory) ∧ SameAnswers s result.2 := by
  intro s result
  have he : result.1 = .error (failure ⟨"saves"⟩ (infoName 1) .isADirectory) := rfl
  have hpayload : (s.entry (payloadName (SlotInfo.empty 1 "0.1.0").id)).any Node.isFolder = false := by decide
  exact ⟨he, (write_atomic hpayload rfl).1 _ he⟩

/-- What someone else has staged for the info may outlive a write that fails. -/
theorem write_keeps_staged :
    let s : FolderStore := ⟨⟨"saves"⟩, some (.folder
      [(staged (payloadName 1), .folder []), (staged (infoName 1), .file (Bytes.ofText "stale"))])⟩
    (s.entry (payloadName 1)).any Node.isFolder = false ∧
      (((s.write (.empty 1 "0.1.0") (Bytes.ofText "new")).2.entry (staged (infoName 1))).all
        Node.isFolder) = false := by
  decide

end SaveSlots.FolderStore
