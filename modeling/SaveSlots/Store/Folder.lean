import SaveSlots.Decimal.Digits
import SaveSlots.Files.Call
import SaveSlots.Files.Path
import SaveSlots.Slot.Codec
import SaveSlots.Store
/-!
# Slots in a folder

A `FolderStore` keeps a slot in two files: `7.info.json` holds the info of slot 7 and `7.sav` its
payload. A write stages both halves as `.tmp` files before it renames either of them, and keeps the
old payload as a `.bak` file until the new info is in place; if a step fails, the earlier ones are
undone. The info comes last, so whoever finds the new info finds the new payload too.
-/

namespace SaveSlots

structure FolderStore where
  /-- What messages call the folder. -/
  path : Path
  place : Place
deriving Inhabited

namespace FolderStore

open Script

/-! ## Names -/

def infoSuffix : Bytes := Bytes.ofText ".info.json"
def payloadSuffix : Bytes := Bytes.ofText ".sav"

def infoName (id : SlotId) : Bytes := Decimal.spell id.toInt ++ infoSuffix
def payloadName (id : SlotId) : Bytes := Decimal.spell id.toInt ++ payloadSuffix

/-- Where the new contents of a file are written first. -/
def staged (name : Bytes) : Bytes := name ++ Bytes.ofText ".tmp"

/-- Where the old contents of a file are kept for a while. -/
def backup (name : Bytes) : Bytes := name ++ Bytes.ofText ".bak"

/-- The slot, with a number from zero on, whose info has this name. -/
def idOfInfoName? (name : Bytes) : Option SlotId := do
  let id ← SlotId.ofInt? (Decimal.value (name.takeWhile Decimal.isDigit))
  if infoName id = name then some id else none

/-- The failure of a call that concerns a file of the folder at `path`. -/
def failure (path : Path) (name : Bytes) (cause : IoCause) : StoreError :=
  .io (path.file name).text cause

/-! ## Reading -/

def holds (s : FolderStore) (id : SlotId) : Bool :=
  match s.place.exists? (infoName id) with
  | .ok there => there
  | .error _ => false

def readFile (s : FolderStore) (id : SlotId) (name : Bytes) : Except StoreError Bytes :=
  match s.place.read name with
  | .ok contents => .ok contents
  | .error .notFound => .error (.notFound id)
  | .error e => .error (failure s.path name e)

def readInfo (s : FolderStore) (id : SlotId) : Except StoreError SlotInfo :=
  match s.readFile id (infoName id) with
  | .ok text => (SlotInfo.decode text).mapError .format
  | .error e => .error e

def readData (s : FolderStore) (id : SlotId) : Except StoreError Bytes :=
  s.readFile id (payloadName id)

/-- The slots with an info. A folder that does not exist has none, and neither has one without a path:
such a folder can be written to but not opened. -/
def ids (s : FolderStore) : Except StoreError SlotSet :=
  if s.path.text.isEmpty then .ok .empty
  else
    match s.place.names with
    | .ok names => .ok (.ofList (names.filterMap idOfInfoName?))
    | .error .notFound => .ok .empty
    | .error e => .error (.io s.path.text e)

/-! ## Writing -/

/-- Writes the staged form of a file. If that fails, nothing of it stays. -/
def stage (path : Path) (name contents : Bytes) : Script (Except StoreError Unit) := do
  let giveUp (e : IoCause) : Script (Except StoreError Unit) := do
    let _ ← perform (.unlink (staged name))
    return .error (failure path (staged name) e)
  match ← perform (.openEmpty (staged name)) with
  | .error e => giveUp e
  | .ok () =>
    match ← perform (.fill (staged name) contents) with
    | .error e => giveUp e
    | .ok () => return .ok ()

/-- Puts the old payload back, or removes the new one if there was none. -/
def rollBack (id : SlotId) (hadPayload : Bool) : Script (Except IoCause Unit) :=
  if hadPayload then perform (.rename (backup (payloadName id)) (payloadName id))
  else perform (.unlink (payloadName id))

/-- Puts the staged files in place once the old payload is out of the way. -/
def replace (path : Path) (id : SlotId) (hadPayload : Bool) : Script (Except StoreError Unit) := do
  match ← perform (.rename (staged (payloadName id)) (payloadName id)) with
  | .error e =>
    let _ ← rollBack id hadPayload
    return .error (failure path (payloadName id) e)
  | .ok () =>
    match ← perform (.rename (staged (infoName id)) (infoName id)) with
    | .error e =>
      let _ ← rollBack id hadPayload
      return .error (failure path (infoName id) e)
    | .ok () =>
      if hadPayload then
        let _ ← perform (.unlink (backup (payloadName id)))
      return .ok ()

/-- Puts the staged files in place, the old payload being kept until that is done. -/
def commit (path : Path) (id : SlotId) : Script (Except StoreError Unit) := do
  match ← perform (.rename (payloadName id) (backup (payloadName id))) with
  | .ok () => replace path id true
  | .error .notFound => replace path id false
  | .error e => return .error (failure path (payloadName id) e)

def writeScript (path : Path) (info : SlotInfo) (payload : Bytes) :
    Script (Except StoreError Unit) := do
  let id := info.id
  match ← perform .createAll with
  | .error e => return .error (.io path.text e)
  | .ok () =>
    match ← stage path (payloadName id) payload with
    | .error e => return .error e
    | .ok () =>
      match ← stage path (infoName id) info.encode with
      | .error e =>
        let _ ← perform (.unlink (staged (payloadName id)))
        return .error e
      | .ok () =>
        match ← commit path id with
        | .ok () => return .ok ()
        | .error e =>
          let _ ← perform (.unlink (staged (infoName id)))
          let _ ← perform (.unlink (staged (payloadName id)))
          return .error e

def write (s : FolderStore) (info : SlotInfo) (payload : Bytes) :
    Except StoreError Unit × FolderStore :=
  let (answer, place) := (writeScript s.path info payload).run s.place
  (answer, { s with place })

/-- The payload goes first, so a slot whose payload cannot be removed stays listed. -/
def deleteScript (path : Path) (id : SlotId) : Script (Except StoreError Unit) := do
  match ← perform (.unlink (payloadName id)) with
  | .ok () | .error .notFound =>
    match ← perform (.unlink (infoName id)) with
    | .ok () => return .ok ()
    | .error e => return .error (failure path (infoName id) e)
  | .error e => return .error (failure path (payloadName id) e)

/-- Only a slot with an info can be deleted. -/
def deletion (s : FolderStore) (id : SlotId) : Script (Except StoreError Unit) :=
  match s.place.exists? (infoName id) with
  | .error e => return .error (failure s.path (infoName id) e)
  | .ok false => return .error (.notFound id)
  | .ok true => deleteScript s.path id

def delete (s : FolderStore) (id : SlotId) : Except StoreError Unit × FolderStore :=
  let (answer, place) := (s.deletion id).run s.place
  (answer, { s with place })

instance : SlotStore FolderStore where
  holds := holds
  readInfo := readInfo
  readData := readData
  write := write
  delete := delete
  ids := ids
  writesHeld _ := false

end FolderStore

end SaveSlots
