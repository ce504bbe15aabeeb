import SaveSlots.Slot.Codec
import SaveSlots.Store
/-!
# What work does to a store

The work that tasks give away: committing a saved snapshot, reading a slot in two steps, listing
infos, and deleting every slot. A listing leaves out slots that the preset does not allow and those
whose info cannot be read; only a store that cannot name its slots makes it fail. Deleting everything
stops at the first slot that cannot be deleted.
-/

namespace SaveSlots.SlotStore

variable {σ : Type} [SlotStore σ]

/-- Encodes a snapshot and stores it with its info. -/
def commit (s : σ) (info : SlotInfo) (data : Snapshot) :
    Except SlotError (SlotInfo × Snapshot) × σ :=
  match write s info data.encode with
  | (.ok (), s) => (.ok (info, data), s)
  | (.error e, s) => (.error (.ofStore e), s)

def fetchInfo (s : σ) (id : SlotId) : Except SlotError SlotInfo :=
  (readInfo s id).mapError .ofStore

def fetchSnapshot (s : σ) (id : SlotId) : Except SlotError Snapshot :=
  match readData s id with
  | .ok payload => (Snapshot.decode payload).mapError .decode
  | .error e => .error (.ofStore e)

/-- Whether `a` may stand before `b` where the latest save comes first. -/
def latestFirst (a b : SlotInfo) : Bool := (Instant.order b.savedAt a.savedAt).isLE

/-- The infos of these slots that can be read. -/
def readableInfos (s : σ) (ids : List SlotId) : List SlotInfo :=
  ids.filterMap fun id => (readInfo s id).toOption

/-- The infos of all slots in the range, in the order of their slots or the latest save first. -/
def listInfos (s : σ) (range : SlotRange) (recent : Bool) : Except SlotError (List SlotInfo) :=
  match ids s with
  | .error e => .error (.ofStore e)
  | .ok ids =>
    let infos := readableInfos s (ids.toList.filter range.contains)
    .ok (if recent then infos.mergeSort latestFirst else infos)

/-- Deletes slots one after another. A slot that is gone already is passed over. -/
def deleteEach (s : σ) : List SlotId → Except SlotError (List SlotId) × σ
  | [] => (.ok [], s)
  | id :: rest =>
    match delete s id with
    | (.ok (), s) =>
      let (answer, s) := deleteEach s rest
      (answer.map (id :: ·), s)
    | (.error (.notFound _), s) => deleteEach s rest
    | (.error e, s) => (.error (.ofStore e), s)

/-- Deletes every slot and says which ones were deleted. -/
def deleteAll (s : σ) : Except SlotError (List SlotId) × σ :=
  match ids s with
  | .error e => (.error (.ofStore e), s)
  | .ok ids => deleteEach s ids.toList

end SaveSlots.SlotStore
