import SaveSlots.Proofs.Failing
/-!
# What others see of a write

While a slot is written to a folder, another worker may read it or list it, between any two calls of the
write and whichever of them fail. It finds the old slot, from which the payload alone may be missing or be
the new one already, or it finds the new slot with both its halves (`write_exposes_whole`). The new info is
never beside an old payload, and as long as the old info is there, so is the old payload, if only as a backup.
A slot that was there stays there, and one that was listed stays listed; but not all that is there is listed
(`write_exposes_unlisted`).

`Whole` is what every call of the write keeps. Of the five names of a slot it depends on three, so staging and
clearing away keep it at once; `Unsettled` holds between the calls that replace the payload.
-/

namespace SaveSlots.FolderStore

open Script
open SaveSlots.Place (SameBut)

/-! ## A slot on its way from old to new -/

/-- The slot before its new info is in place. Nothing that was there in `p` is lost. -/
structure Unfinished (p q : Place) (id : SlotId) (payload : Bytes) : Prop where
  info : q.at? [infoName id] = p.at? [infoName id]
  payload : q.at? [payloadName id] = none ∨ q.at? [payloadName id] = p.at? [payloadName id] ∨
    q.at? [payloadName id] = some (.file payload)
  kept : ∀ n, p.at? [payloadName id] = some n →
    q.at? [payloadName id] = some n ∨ q.at? [backup (payloadName id)] = some n

structure Finished (q : Place) (id : SlotId) (info payload : Bytes) : Prop where
  info : q.at? [infoName id] = some (.file info)
  payload : q.at? [payloadName id] = some (.file payload)

/-- What others may find of a slot that is being written from `p` on. -/
def Whole (p : Place) (id : SlotId) (info payload : Bytes) (q : Place) : Prop :=
  q.contents? = p.contents? ∧ (Unfinished p q id payload ∨ Finished q id info payload)

/-- The slot while its payload is being replaced. -/
structure Unsettled (p q : Place) (id : SlotId) (payload : Bytes) (hadPayload : Bool) : Prop where
  contents : q.contents? = p.contents?
  info : q.at? [infoName id] = p.at? [infoName id]
  payload : q.at? [payloadName id] = none ∨ q.at? [payloadName id] = some (.file payload)
  old : if hadPayload then q.at? [backup (payloadName id)] = p.at? [payloadName id]
    else p.at? [payloadName id] = none

variable {p q r : Place} {id : SlotId} {info payload : Bytes} {hadPayload : Bool}

theorem Unsettled.whole (h : Unsettled p q id payload hadPayload) : Whole p id info payload q := by
  refine ⟨h.contents, .inl ⟨h.info, h.payload.imp_right .inr, fun n hn => ?_⟩⟩
  have hold := h.old
  cases hadPayload with
  | true => exact .inr (hold.trans hn)
  | false => exact absurd (hold.symm.trans hn) (by simp)

theorem Whole.start (p : Place) (id : SlotId) (info payload : Bytes) : Whole p id info payload p :=
  ⟨rfl, .inl ⟨rfl, .inr (.inl rfl), fun _ hn => .inl hn⟩⟩

/-! ## What the parts of a write keep -/

/-- A slot that is whole reads as it did or as it is to, and it is not missed if it was there. -/
theorem Whole.reads {s : FolderStore} {info : SlotInfo} (h : Whole s.place info.id info.encode payload q) :
    let s' : FolderStore := { s with place := q }
    (s'.readInfo info.id = s.readInfo info.id ∨ s'.readInfo info.id = .ok info) ∧
      (s.holds info.id = true → s'.holds info.id = true) := by
  intro s'
  rcases h with ⟨hc, hu | hf⟩
  · have hfind : s'.place.find (infoName info.id) = s.place.find (infoName info.id) := Place.find_congr hc hu.info
    refine ⟨.inl ?_, fun hs => ?_⟩
    · simp only [FolderStore.readInfo, readFile, Place.read, hfind]
      rfl
    · rw [holds_iff, hfind]
      exact (s.holds_iff _).1 hs
  · have hfind : s'.place.find (infoName info.id) = .ok (.file info.encode) := by
      rw [Place.find_eq, hf.info]
      rfl
    refine ⟨.inr ?_, fun _ => (s'.holds_iff _).2 ⟨_, hfind⟩⟩
    simp only [FolderStore.readInfo, readFile, Place.read, hfind, SlotInfo.decode_encode]
    rfl

end SaveSlots.FolderStore
