import SaveSlots.Catalog
import SaveSlots.Error
import SaveSlots.Slot.Info
/-!
# Stores of slots

What a save manager asks of the place where slots are kept. A slot has an info, which lists show, and
a payload. A slot is there if its info is; writing puts both halves in place together.
-/

namespace SaveSlots

/-- A set of slots, listed in order. -/
abbrev SlotSet := Catalog (id : SlotId → SlotId)

class SlotStore (σ : Type) where
  holds : σ → SlotId → Bool
  readInfo : σ → SlotId → Except StoreError SlotInfo
  readData : σ → SlotId → Except StoreError Bytes
  /-- Puts the info and the payload of slot `info.id` in place. -/
  write : σ → (info : SlotInfo) → (payload : Bytes) → Except StoreError Unit × σ
  delete : σ → SlotId → Except StoreError Unit × σ
  ids : σ → Except StoreError SlotSet
  /-- Whether a write that has begun has to wait. -/
  writesHeld : σ → Bool

end SaveSlots
