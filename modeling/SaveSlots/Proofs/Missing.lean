import SaveSlots.Proofs.Write
import SaveSlots.Store.Faults
import SaveSlots.Store.Memory
/-!
# What stores say of slots that are not there

A store may answer that there is no such slot. Stores that are `Candid` say so only of the slot that they are asked to
read or to delete, and leave everything as it is then. Slots in memory and in a folder are kept so, and faults do not
change it.

In a folder a file that is not found means a missing slot only when it is read. Writes and deletions report their own
failures as what they are, failures of the file system (`Script.ReportsIo`).
-/

namespace SaveSlots

/-- A store that calls a slot missing was asked to read it or to delete it, and has not changed. -/
class Candid (σ : Type) [SlotStore σ] : Prop where
  readInfo {s : σ} {id id' : SlotId} : SlotStore.readInfo s id = .error (.notFound id') → id' = id
  readData {s : σ} {id id' : SlotId} : SlotStore.readData s id = .error (.notFound id') → id' = id
  write (s : σ) (info : SlotInfo) (payload : Bytes) (id : SlotId) :
    (SlotStore.write s info payload).1 ≠ .error (.notFound id)
  ids (s : σ) (id : SlotId) : SlotStore.ids s ≠ .error (.notFound id)
  delete {s s' : σ} {id id' : SlotId} : SlotStore.delete s id = (.error (.notFound id'), s') → s' = s

/-! ## In memory -/

theorem MemoryStore.reading_notFound {α : Type} {s : MemoryStore} {id id' : SlotId} {a : Option α}
    (h : s.reading (orNotFound id a) = .error (.notFound id')) : id' = id := by
  unfold reading at h
  split at h
  · cases h
  · cases a with
    | some a => cases h
    | none =>
      cases h
      rfl

instance : Candid MemoryStore where
  readInfo h := MemoryStore.reading_notFound h
  readData h := MemoryStore.reading_notFound h
  write s info payload id := by
    simp only [SlotStore.write, MemoryStore.write]
    split
    · exact nofun
    · split <;> exact nofun
  ids s id := by
    simp only [SlotStore.ids, MemoryStore.ids, MemoryStore.reading]
    split <;> exact nofun
  delete {s s' id id'} h := by
    simp only [SlotStore.delete, MemoryStore.delete] at h
    split at h <;> cases h
    rfl

/-! ## In a folder -/

namespace Script

/-- Whether a script that fails says what failed about the file system. -/
def ReportsIo (s : Script (Except StoreError Unit)) : Prop :=
  ∀ p e, (s.run p).1 = .error e → ∃ path cause, e = .io path cause

namespace ReportsIo

theorem ok : ReportsIo (pure (.ok ())) := nofun

theorem error {path : String} {cause : IoCause} : ReportsIo (pure (.error (.io path cause))) := by
  intro p e h
  cases h
  exact ⟨path, cause, rfl⟩

theorem bind {α : Type} {s : Script α} {next : α → Script (Except StoreError Unit)} (h : ∀ a, ReportsIo (next a)) :
    ReportsIo (s >>= next) := by
  intro p e he
  rw [run_bind] at he
  exact h _ _ e he

/-- The second script may pass on what the first one reports. -/
theorem handOn {s : Script (Except StoreError Unit)} {next : Except StoreError Unit → Script (Except StoreError Unit)}
    (hs : ReportsIo s) (hok : ReportsIo (next (.ok ())))
    (herror : ∀ path cause, ReportsIo (next (.error (.io path cause)))) : ReportsIo (s >>= next) := by
  intro p e he
  rw [run_bind] at he
  cases hr : (s.run p).1 with
  | ok u =>
    rw [hr] at he
    exact hok _ e he
  | error e' =>
    obtain ⟨path, cause, rfl⟩ := hs p e' hr
    rw [hr] at he
    exact herror path cause _ e he

end ReportsIo

end Script

namespace FolderStore

open Script

theorem reportsIo_stage (path : Path) (name contents : Bytes) : ReportsIo (stage path name contents) := by
  refine .bind fun answer => ?_
  split
  · exact .bind fun _ => .error
  · refine .bind fun answer => ?_
    split
    · exact .bind fun _ => .error
    · exact .ok

theorem reportsIo_replace (path : Path) (id : SlotId) (hadPayload : Bool) :
    ReportsIo (replace path id hadPayload) := by
  refine .bind fun answer => ?_
  split
  · exact .bind fun _ => .error
  · refine .bind fun answer => ?_
    split
    · exact .bind fun _ => .error
    · split
      · exact .bind fun _ => .ok
      · exact .ok

theorem reportsIo_commit (path : Path) (id : SlotId) : ReportsIo (FolderStore.commit path id) := by
  refine .bind fun answer => ?_
  split
  · exact reportsIo_replace path id true
  · exact reportsIo_replace path id false
  · exact .error

theorem reportsIo_writeScript (path : Path) (info : SlotInfo) (payload : Bytes) :
    ReportsIo (writeScript path info payload) := by
  refine .bind fun answer => ?_
  split
  · exact .error
  · refine .handOn (reportsIo_stage path _ payload) ?_ fun _ _ => .error
    refine .handOn (reportsIo_stage path _ info.encode) ?_ fun _ _ => .bind fun _ => .error
    refine .handOn (reportsIo_commit path info.id) .ok fun _ _ => ?_
    exact .bind fun _ => .bind fun _ => .error

theorem reportsIo_deleteScript (path : Path) (id : SlotId) : ReportsIo (deleteScript path id) := by
  refine .bind fun answer => ?_
  split
  · refine .bind fun answer => ?_
    split
    · exact .ok
    · exact .error
  · refine .bind fun answer => ?_
    split
    · exact .ok
    · exact .error
  · exact .error

theorem readFile_notFound {s : FolderStore} {id id' : SlotId} {name : Bytes}
    (h : s.readFile id name = .error (.notFound id')) : id' = id := by
  unfold readFile at h
  split at h <;> cases h
  rfl

end FolderStore

instance : Candid FolderStore where
  readInfo {s id id'} h := by
    simp only [SlotStore.readInfo, FolderStore.readInfo] at h
    split at h
    · next text _ => cases hd : SlotInfo.decode text <;> simp [hd, Except.mapError] at h
    · next e he =>
      cases h
      exact FolderStore.readFile_notFound he
  readData h := FolderStore.readFile_notFound h
  write s info payload id h := by
    obtain ⟨path, cause, he⟩ := FolderStore.reportsIo_writeScript s.path info payload s.place _ h
    cases he
  ids s id := by
    simp only [SlotStore.ids, FolderStore.ids]
    split
    · exact nofun
    · split <;> exact nofun
  delete {s s' id id'} h := by
    simp only [SlotStore.delete, FolderStore.delete, FolderStore.deletion] at h
    split at h
    · cases h
    · cases h
      rfl
    · obtain ⟨path, cause, he⟩ := FolderStore.reportsIo_deleteScript s.path id s.place _ (Prod.mk.inj h).1
      cases he

/-! ## With faults -/

instance {σ : Type} [SlotStore σ] [Candid σ] : Candid (FaultyStore σ) where
  readInfo {s id id'} h := by
    simp only [SlotStore.readInfo] at h
    split at h
    · cases h
    · exact Candid.readInfo h
  readData {s id id'} h := Candid.readData (s := s.inner) h
  write s := Candid.write s.inner
  ids s id := by
    have hids := Candid.ids s.inner id
    simp only [SlotStore.ids]
    cases h : SlotStore.ids s.inner with
    | ok ids => exact nofun
    | error e => simpa [h, Except.map] using hids
  delete {s s' id id'} h := by
    simp only [SlotStore.delete] at h
    split at h
    · cases h
    · obtain ⟨ha, rfl⟩ := Prod.mk.inj h
      have hd : SlotStore.delete s.inner id = (.error (.notFound id'), (SlotStore.delete s.inner id).2) :=
        Prod.ext ha rfl
      rw [Candid.delete hd]

end SaveSlots
