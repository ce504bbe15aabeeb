import SaveSlots.Proofs.Catalogs
import SaveSlots.Store.Memory
import SaveSlots.Store.Work
/-!
# Stores that keep what they are given

A store is `Reliable` if it does what its methods are named for: there is a slot with both halves for every
info it reads, a write that succeeds puts both halves in place and touches no other slot, one that fails
touches none, and a slot can be deleted if it is there. What a store keeps is `slot?`.

Whether other methods succeed is left open. A store may also name none of its slots when it is asked to name
them all; one that names them is said to list them (`lists`).
-/

namespace SaveSlots

/-! ## The laws -/

class Reliable (σ : Type) [SlotStore σ] where
  /-- The info and the payload of a slot, if it is there. -/
  slot? : σ → SlotId → Option (SlotInfo × Bytes)
  /-- What the methods keep up. -/
  Sound : σ → Prop
  holds_eq {s : σ} (id : SlotId) : Sound s → SlotStore.holds s id = (slot? s id).isSome
  readInfo_ok {s : σ} {id : SlotId} {info : SlotInfo} :
    Sound s → SlotStore.readInfo s id = .ok info → ∃ payload, slot? s id = some (info, payload)
  readData_ok {s : σ} {id : SlotId} {info : SlotInfo} {payload read : Bytes} :
    Sound s → slot? s id = some (info, payload) → SlotStore.readData s id = .ok read → read = payload
  write_ok {s s' : σ} {info : SlotInfo} {payload : Bytes} :
    Sound s → 0 ≤ info.id.toInt → SlotStore.write s info payload = (.ok (), s') →
      Sound s' ∧ ∀ id, slot? s' id = if id = info.id then some (info, payload) else slot? s id
  write_error {s s' : σ} {info : SlotInfo} {payload : Bytes} {e : StoreError} :
    Sound s → SlotStore.write s info payload = (.error e, s') → Sound s' ∧ ∀ id, slot? s' id = slot? s id
  delete_there {s : σ} {id : SlotId} :
    Sound s → (slot? s id).isSome = true →
      ∃ s', SlotStore.delete s id = (.ok (), s') ∧ Sound s' ∧
        ∀ id', slot? s' id' = if id' = id then none else slot? s id'
  delete_absent {s : σ} {id : SlotId} :
    Sound s → slot? s id = none → ∃ e, SlotStore.delete s id = (.error e, s)
  ids_there {s : σ} {ids : SlotSet} {id : SlotId} :
    Sound s → SlotStore.ids s = .ok ids → id ∈ ids.toList → (slot? s id).isSome = true
  /-- Whether a store names all its slots when it is asked to. If not, it names none. -/
  lists : σ → Bool
  ids_all {s : σ} {ids : SlotSet} {id : SlotId} :
    Sound s → lists s = true → SlotStore.ids s = .ok ids → (slot? s id).isSome = true → id ∈ ids.toList
  ids_none {s : σ} : lists s = false → SlotStore.ids s = .ok .empty
  lists_write (s : σ) (info : SlotInfo) (payload : Bytes) : lists (SlotStore.write s info payload).2 = lists s
  lists_delete (s : σ) (id : SlotId) : lists (SlotStore.delete s id).2 = lists s

namespace Reliable

variable {σ : Type} [SlotStore σ] [Reliable σ] {s : σ}

/-- Whether a store has the same slots as another one. -/
structure SameSlots (s s' : σ) : Prop where
  sound : Sound s → Sound s'
  slots : ∀ id, slot? s' id = slot? s id
  lists : lists s' = lists s

theorem SameSlots.refl (s : σ) : SameSlots s s := ⟨id, fun _ => rfl, rfl⟩

/-- A deletion that succeeds removes the slot and touches no other. -/
theorem delete_ok {s' : σ} {id : SlotId} (hs : Sound s) (hd : SlotStore.delete s id = (.ok (), s')) :
    Sound s' ∧ ∀ id', slot? s' id' = if id' = id then none else slot? s id' := by
  cases hthere : slot? s id with
  | none =>
    obtain ⟨e, he⟩ := delete_absent hs hthere
    rw [hd] at he
    cases he
  | some kept =>
    obtain ⟨s₁, he, hs₁⟩ := delete_there hs (by rw [hthere]; rfl)
    rw [hd] at he
    cases he
    exact hs₁

/-- A deletion that fails leaves the store as it is. -/
theorem delete_error {s' : σ} {id : SlotId} {e : StoreError} (hs : Sound s)
    (hd : SlotStore.delete s id = (.error e, s')) : s' = s := by
  cases hthere : slot? s id with
  | none =>
    obtain ⟨e', he⟩ := delete_absent hs hthere
    rw [hd] at he
    cases he
    rfl
  | some kept =>
    obtain ⟨s₁, he, -⟩ := delete_there hs (by rw [hthere]; rfl)
    rw [hd] at he
    cases he

/-- Deleting slots that are all there deletes them all. -/
theorem deleteEach_there {ids : List SlotId} (hs : Sound s) (hd : ids.Nodup)
    (hin : ∀ id ∈ ids, (slot? s id).isSome = true) :
    ∃ s', SlotStore.deleteEach s ids = (.ok ids, s') ∧ Sound s' ∧
      (∀ id, slot? s' id = if id ∈ ids then none else slot? s id) ∧ lists s' = lists s := by
  induction ids generalizing s with
  | nil => exact ⟨s, rfl, hs, fun id => by simp, rfl⟩
  | cons id ids ih =>
    obtain ⟨hnot, hd⟩ := List.nodup_cons.1 hd
    obtain ⟨s₁, he, hs₁, hslots⟩ := delete_there hs (hin id (by simp))
    have hlists : lists s₁ = lists s := by
      have hsame := lists_delete s id
      rwa [he] at hsame
    have hin₁ : ∀ id' ∈ ids, (slot? s₁ id').isSome = true := by
      intro id' h'
      have hne : id' ≠ id := fun heq => hnot (heq ▸ h')
      rw [hslots, if_neg hne]
      exact hin id' (by simp [h'])
    obtain ⟨s₂, he₂, hs₂, hslots₂, hlists₂⟩ := ih hs₁ hd hin₁
    refine ⟨s₂, ?_, hs₂, ?_, hlists₂.trans hlists⟩
    · simp [SlotStore.deleteEach, he, he₂, Except.map]
    · intro id'
      rw [hslots₂, hslots]
      by_cases hid : id' = id
      · simp [hid]
      · simp [hid]

/-- Deleting everything either fails and deletes nothing, or deletes every slot that the store names, and says
which those are. -/
theorem deleteAll_cases (hs : Sound s) :
    (∃ e, SlotStore.deleteAll s = (.error e, s)) ∨
    ∃ ids s', SlotStore.deleteAll s = (.ok ids, s') ∧ Sound s' ∧
      (∀ id, slot? s' id = if id ∈ ids then none else slot? s id) ∧ lists s' = lists s ∧
      (lists s = true → ∀ id, slot? s' id = none) ∧ (lists s = false → ids = []) := by
  unfold SlotStore.deleteAll
  cases hi : SlotStore.ids s with
  | error e => exact .inl ⟨_, rfl⟩
  | ok set =>
    have hd : set.toList.Nodup := set.rising.imp fun hlt heq => by simp [heq] at hlt
    obtain ⟨s', he, hs', hslots, hlists⟩ := deleteEach_there hs hd fun id hid => ids_there hs hi hid
    refine .inr ⟨set.toList, s', he, hs', hslots, hlists, fun hl id => ?_, fun hl => ?_⟩
    · rw [hslots]
      split
      · rfl
      · next hnot =>
        have habsent : ¬ (slot? s id).isSome = true := fun hsome => hnot (ids_all hs hl hi hsome)
        simpa using habsent
    · obtain rfl : set = .empty := Except.ok.inj (hi.symm.trans (ids_none hl))
      rfl

end Reliable

/-! ## Slots in memory -/

namespace MemoryStore

def slot? (s : MemoryStore) (id : SlotId) : Option (SlotInfo × Bytes) :=
  (s.info? id).bind fun info => (s.payload? id).map fun payload => (info, payload)

/-- Every slot has both halves. -/
def Sound (s : MemoryStore) : Prop := ∀ id, (s.info? id).isSome = (s.payload? id).isSome

theorem isSome_slot {s : MemoryStore} (hs : s.Sound) (id : SlotId) :
    (s.slot? id).isSome = (s.info? id).isSome := by
  have h := hs id
  unfold slot?
  cases hi : s.info? id with
  | none => rfl
  | some info =>
    rw [hi] at h
    obtain ⟨payload, hp⟩ := Option.isSome_iff_exists.1 h.symm
    simp [hp]

theorem holds_eq (s : MemoryStore) (id : SlotId) : s.holds id = (s.info? id).isSome :=
  Catalog.contains_eq s.infos id

section
variable (s : MemoryStore) (info : SlotInfo) (payload : Bytes) (n : Nat) (id id' : SlotId)

theorem info_put : info? { (s.putInfo info).putPayload info.id payload with writes := n } id =
    if id = info.id then some info else s.info? id := by
  rw [info?, putPayload, putInfo, Catalog.find?_insert]
  simp only [eq_comm, info?]

theorem payload_put : payload? { (s.putInfo info).putPayload info.id payload with writes := n } id =
    if id = info.id then some payload else s.payload? id := by
  rw [payload?, putPayload, Catalog.find?_insert]
  by_cases hid : info.id = id
  · simp [hid]
  · simp [hid, Ne.symm hid, putInfo, payload?]

theorem slot_put : slot? { (s.putInfo info).putPayload info.id payload with writes := n } id =
    if id = info.id then some (info, payload) else s.slot? id := by
  simp only [slot?, info_put, payload_put]
  split <;> rfl

theorem info_erase : info? { s with infos := s.infos.erase id, payloads := s.payloads.erase id } id' =
    if id' = id then none else s.info? id' := by
  rw [info?, Catalog.find?_erase]
  simp only [eq_comm, info?]

theorem payload_erase : payload? { s with infos := s.infos.erase id, payloads := s.payloads.erase id } id' =
    if id' = id then none else s.payload? id' := by
  rw [payload?, Catalog.find?_erase]
  by_cases hid : id = id'
  · simp [hid]
  · simp [hid, Ne.symm hid, payload?]

theorem slot_erase : slot? { s with infos := s.infos.erase id, payloads := s.payloads.erase id } id' =
    if id' = id then none else s.slot? id' := by
  simp only [slot?, info_erase, payload_erase]
  split <;> rfl

end

/-- Slots that were changed as a whole keep both their halves. -/
theorem sound_of_slot {s s' : MemoryStore} (hs : s.Sound)
    (h : ∀ id, (s'.info? id = s.info? id ∧ s'.payload? id = s.payload? id) ∨
      (s'.info? id).isSome = (s'.payload? id).isSome) : s'.Sound := by
  intro id
  rcases h id with ⟨hi, hp⟩ | h
  · rw [hi, hp]
    exact hs id
  · exact h

theorem sound_put {s : MemoryStore} (hs : s.Sound) (info : SlotInfo) (payload : Bytes) (n : Nat) :
    Sound { (s.putInfo info).putPayload info.id payload with writes := n } := by
  apply sound_of_slot hs
  intro id
  rw [info_put, payload_put]
  by_cases hid : id = info.id
  · exact .inr (by simp [hid])
  · exact .inl (by simp [hid])

theorem sound_erase {s : MemoryStore} (hs : s.Sound) (id : SlotId) :
    Sound { s with infos := s.infos.erase id, payloads := s.payloads.erase id } := by
  apply sound_of_slot hs
  intro id'
  rw [info_erase, payload_erase]
  by_cases hid : id' = id
  · exact .inr (by simp [hid])
  · exact .inl (by simp [hid])

/-- A read that succeeds was not made to fail. -/
theorem reading_ok {α : Type} {s : MemoryStore} {id : SlotId} {a? : Option α} {a : α}
    (h : s.reading (orNotFound id a?) = .ok a) : a? = some a := by
  unfold reading at h
  split at h
  · cases h
  · cases a? with
    | none => cases h
    | some b =>
      cases h
      rfl

theorem mem_ids {s : MemoryStore} (hs : s.Sound) {ids : SlotSet} {id : SlotId} (h : s.ids = .ok ids) :
    id ∈ ids.toList ↔ (s.slot? id).isSome = true := by
  simp only [MemoryStore.ids, reading] at h
  split at h
  · cases h
  · cases h
    rw [Catalog.mem_ofList, slotIds, Catalog.mem_keys_iff, isSome_slot hs]
    rfl

instance : Reliable MemoryStore where
  slot? := slot?
  Sound := Sound
  holds_eq {s} id hs := by
    rw [isSome_slot hs]
    exact holds_eq s id
  readInfo_ok {s} id info hs h := by
    have hi : s.info? id = some info := reading_ok h
    have hsome := hs id
    rw [hi] at hsome
    obtain ⟨payload, hp⟩ := Option.isSome_iff_exists.1 hsome.symm
    exact ⟨payload, by simp [slot?, hi, hp]⟩
  readData_ok {s} id info payload read _ h hr := by
    obtain ⟨i, -, hp⟩ := Option.bind_eq_some_iff.1 h
    obtain ⟨p, hp, he⟩ := Option.map_eq_some_iff.1 hp
    cases he
    have hread : s.payload? id = some read := reading_ok hr
    rw [hp] at hread
    exact (Option.some.inj hread).symm
  write_ok {s s'} info payload hs _ h := by
    simp only [SlotStore.write, write] at h
    split at h
    · cases h
    split at h
    · cases h
    · cases h
      exact ⟨sound_put hs info payload _, slot_put s info payload _⟩
  write_error {s s'} info payload e hs h := by
    simp only [SlotStore.write, write] at h
    split at h
    · cases h
      exact ⟨hs, fun _ => rfl⟩
    split at h
    · cases h
      exact ⟨hs, fun _ => rfl⟩
    · cases h
  delete_there {s} id hs h := by
    have hh : s.holds id = true := by rwa [holds_eq, ← isSome_slot hs]
    exact ⟨_, if_pos hh, sound_erase hs id, slot_erase s id⟩
  delete_absent {s} id hs h := by
    have hh : ¬ s.holds id = true := by
      rw [holds_eq, ← isSome_slot hs]
      simp [show s.slot? id = none from h]
    exact ⟨_, if_neg hh⟩
  ids_there hs h hid := (mem_ids hs h).1 hid
  lists _ := true
  ids_all hs _ h hid := (mem_ids hs h).2 hid
  ids_none hl := by cases hl
  lists_write _ _ _ := rfl
  lists_delete _ _ := rfl

/-- Whether a store has the contents of another one; its faults, its gate and its count may differ. -/
def SameContents (s s' : MemoryStore) : Prop := s'.infos = s.infos ∧ s'.payloads = s.payloads

theorem SameContents.sameSlots {s s' : MemoryStore} (h : s.SameContents s') : Reliable.SameSlots s s' := by
  have hi : ∀ id, s'.info? id = s.info? id := fun id => by rw [info?, h.1, info?]
  have hp : ∀ id, s'.payload? id = s.payload? id := fun id => by rw [payload?, h.2, payload?]
  refine ⟨?_, ?_, rfl⟩
  · intro hs id
    rw [hi, hp]
    exact hs id
  · intro id
    change s'.slot? id = s.slot? id
    rw [slot?, hi, hp, slot?]

/-- A store without contents is sound. -/
theorem slot_of_empty {s : MemoryStore} (hi : s.infos = .empty) (hp : s.payloads = .empty) :
    s.Sound ∧ ∀ id, s.slot? id = none := by
  have hinfo : ∀ id, s.info? id = none := fun id => by rw [info?, hi]; rfl
  have hpayload : ∀ id, s.payload? id = none := fun id => by rw [payload?, hp]; rfl
  exact ⟨fun id => by rw [hinfo, hpayload]; rfl, fun id => by rw [slot?, hinfo]; rfl⟩

end MemoryStore

end SaveSlots
