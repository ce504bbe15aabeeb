import SaveSlots.Store
/-!
# Slots in memory

A `MemoryStore` keeps infos and payloads side by side. Its faults can be switched on: all writes fail,
or the half of a write that concerns the info, or all reads. While its gate is closed, writes wait.
-/

namespace SaveSlots

structure Payload where
  slot : SlotId
  bytes : Bytes
deriving DecidableEq, Inhabited

structure MemoryStore where
  infos : Catalog SlotInfo.id
  payloads : Catalog Payload.slot
  /-- The writes that succeeded. -/
  writes : Nat
  gateOpen : Bool
  failWrites : Bool
  failInfoWrites : Bool
  failReads : Bool
deriving Inhabited

namespace MemoryStore

def empty : MemoryStore where
  infos := .empty
  payloads := .empty
  writes := 0
  gateOpen := true
  failWrites := false
  failInfoWrites := false
  failReads := false

def info? (s : MemoryStore) (id : SlotId) : Option SlotInfo := s.infos.find? id

def payload? (s : MemoryStore) (id : SlotId) : Option Bytes :=
  (s.payloads.find? id).map Payload.bytes

def holds (s : MemoryStore) (id : SlotId) : Bool := s.infos.contains id

def slotIds (s : MemoryStore) : List SlotId := s.infos.keys

/-- Stores an info as it is, whatever faults are on. -/
def putInfo (s : MemoryStore) (info : SlotInfo) : MemoryStore :=
  { s with infos := s.infos.insert info }

/-- Stores bytes as a payload, whatever faults are on. -/
def putPayload (s : MemoryStore) (id : SlotId) (bytes : Bytes) : MemoryStore :=
  { s with payloads := s.payloads.insert ⟨id, bytes⟩ }

/-- Fails if reads are made to fail. -/
def reading {α : Type} (s : MemoryStore) (answer : Except StoreError α) : Except StoreError α :=
  if s.failReads then .error (.backend "injected read failure") else answer

/-- The contents of a slot, or that there is no such slot. -/
def orNotFound {α : Type} (id : SlotId) : Option α → Except StoreError α
  | some a => .ok a
  | none => .error (.notFound id)

def readInfo (s : MemoryStore) (id : SlotId) : Except StoreError SlotInfo :=
  s.reading (orNotFound id (s.info? id))

def readData (s : MemoryStore) (id : SlotId) : Except StoreError Bytes :=
  s.reading (orNotFound id (s.payload? id))

def write (s : MemoryStore) (info : SlotInfo) (payload : Bytes) :
    Except StoreError Unit × MemoryStore :=
  if s.failWrites then (.error (.backend "injected write failure"), s)
  else if s.failInfoWrites then (.error (.backend "injected info write failure"), s)
  else (.ok (), { (s.putInfo info).putPayload info.id payload with writes := s.writes + 1 })

def delete (s : MemoryStore) (id : SlotId) : Except StoreError Unit × MemoryStore :=
  if s.holds id then
    (.ok (), { s with infos := s.infos.erase id, payloads := s.payloads.erase id })
  else (.error (.notFound id), s)

def ids (s : MemoryStore) : Except StoreError SlotSet :=
  s.reading (.ok (.ofList s.slotIds))

instance : SlotStore MemoryStore where
  holds := holds
  readInfo := readInfo
  readData := readData
  write := write
  delete := delete
  ids := ids
  writesHeld s := !s.gateOpen

end MemoryStore

end SaveSlots
