import SaveSlots.Json.Number
import SaveSlots.Slot.Id
import SaveSlots.Task.Kind
/-!
# What can go wrong

Errors are causes; `StoreError.message`, `SlotError.message` and `PresetError.message` word them. The
words for a fault of a JSON text and for a failed call of the file system come from a `Wording`.

A `SlotError` is a rejection (`SlotError.isRejection`) if it is the answer to a request that made no
task, and otherwise the failure of a task.
-/

namespace SaveSlots

/-- Why a call of the file system failed. -/
inductive IoCause where
  | notFound
  | notADirectory
  | isADirectory
  | alreadyExists
  | directoryNotEmpty
  /-- A file that should hold text is not UTF-8. -/
  | invalidData
  | nameTooLong
  /-- No file can have such a name. -/
  | invalidName
  | other
deriving DecidableEq, Inhabited

structure Wording where
  fault : Fault → String
  cause : IoCause → String

def Wording.plain : Wording where
  fault
    | .truncated => "the text ends inside a value"
    | .malformed => "the text is not JSON"
    | .mismatched => "the text holds a value of the wrong type"
  cause
    | .notFound => "no such file or directory"
    | .notADirectory => "not a directory"
    | .isADirectory => "is a directory"
    | .alreadyExists => "file exists"
    | .directoryNotEmpty => "directory not empty"
    | .invalidData => "the file is not UTF-8 text"
    | .nameTooLong => "file name too long"
    | .invalidName => "a zero in the file name"
    | .other => "input/output error"

/-- Why a store could not do what it was asked for. -/
inductive StoreError where
  | notFound (id : SlotId)
  | io (path : String) (cause : IoCause)
  | format (f : Fault)
  | backend (text : String)
deriving DecidableEq, Inhabited

def StoreError.message (w : Wording) : StoreError → String
  | notFound id => s!"no such slot: {id.text}"
  | io path cause => s!"io error at {path}: {w.cause cause}"
  | format f => s!"malformed slot record: {w.fault f}"
  | backend text => text

/-- What a request collides with. -/
inductive Conflict where
  | overwrite (id : SlotId)
  | busy (running : TaskKind)
deriving DecidableEq, Inhabited

def Conflict.message : Conflict → String
  | overwrite id => s!"{id.text} already exists and overwrite is disabled"
  | busy running => s!"a {running.text} task is already running"

inductive SlotError where
  | invalidSlotId (id : SlotId)
  | slotNotFound (id : SlotId)
  | slotConflict (c : Conflict)
  | store (e : StoreError)
  | decode (f : Fault)
  /-- The work of a task ended without a result. -/
  | workerLost
  | cancelled
  | noActiveSlot
  | notRunning
deriving DecidableEq, Inhabited

namespace SlotError

def isRejection : SlotError → Bool
  | invalidSlotId _ | slotNotFound _ | slotConflict _ | noActiveSlot | notRunning => true
  | store _ | decode _ | workerLost | cancelled => false

/-- A missing slot is told apart from the other failures of a store. -/
def ofStore : StoreError → SlotError
  | .notFound id => .slotNotFound id
  | e => .store e

def message (w : Wording) : SlotError → String
  | invalidSlotId id => s!"invalid slot id: {id.text}"
  | slotNotFound id => s!"slot not found: {id.text}"
  | slotConflict c => s!"slot conflict: {c.message}"
  | store e => s!"store error: {e.message w}"
  | decode f => s!"decode error: {w.fault f}"
  | workerLost => "background work was abandoned"
  | cancelled => "task cancelled"
  | noActiveSlot => "no slot is loaded"
  | notRunning => "save manager is not running"

end SlotError

/-- Why a preset cannot be read. -/
inductive PresetError where
  | io (path : String) (cause : IoCause)
  | json (f : Fault)
deriving DecidableEq, Inhabited

def PresetError.message (w : Wording) : PresetError → String
  | io path cause => s!"failed to read preset {path}: {w.cause cause}"
  | json f => s!"invalid preset json: {w.fault f}"

end SaveSlots
