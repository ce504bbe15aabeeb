import SaveSlots.Slot.Id
import SaveSlots.Time.Calendar
import SaveSlots.Time.Played
/-!
# What a listing shows of a slot

A `SlotInfo` names a slot and says when and where it was saved. Reading it does not touch the snapshot
that the slot holds.
-/

namespace SaveSlots

structure ScreenshotSize where
  width : UInt32
  height : UInt32
deriving DecidableEq, Inhabited

def ScreenshotSize.default : ScreenshotSize := ⟨640, 360⟩

/-- A picture with four bytes a pixel. -/
structure Screenshot where
  width : UInt32
  height : UInt32
  rgba : List UInt8
deriving DecidableEq, Inhabited

structure SlotInfo where
  id : SlotId
  name : String
  played : PlayedTime
  savedAt : Instant
  map : String
  screenshot : Option Screenshot
  version : String
deriving DecidableEq, Inhabited

/-- The info shown while no slot is loaded. -/
def SlotInfo.empty (id : SlotId) (version : String) : SlotInfo where
  id
  name := id.defaultName
  played := .zero
  savedAt := .epoch
  map := ""
  screenshot := none
  version

end SaveSlots
