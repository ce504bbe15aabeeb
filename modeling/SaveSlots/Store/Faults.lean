import SaveSlots.Store
/-!
# A store with faults

A `FaultyStore` stands before another store: it fails to delete some slots, to read the infos of some,
and lists some that need not exist. It may also be set to break down the next time that one of its
methods is called (`breaksOn`), which makes whoever runs that call end without a result.
-/

namespace SaveSlots

inductive StoreMethod where
  | readInfo
  | readData
  | write
  | delete
  | ids
deriving DecidableEq, Inhabited

structure FaultyStore (σ : Type) where
  inner : σ
  undeletable : SlotSet
  unreadable : SlotSet
  ghosts : SlotSet
  breaksOn : Option StoreMethod
deriving Inhabited

namespace FaultyStore

variable {σ : Type}

def sound (s : σ) : FaultyStore σ := ⟨s, .empty, .empty, .empty, none⟩

def mark (set : SlotSet) (id : SlotId) (on : Bool) : SlotSet :=
  if on then set.insert id else set.erase id

variable [SlotStore σ]

instance : SlotStore (FaultyStore σ) where
  holds s := SlotStore.holds s.inner
  readInfo s id :=
    if s.unreadable.contains id then .error (.backend "unreadable info")
    else SlotStore.readInfo s.inner id
  readData s := SlotStore.readData s.inner
  write s info payload :=
    let (answer, inner) := SlotStore.write s.inner info payload
    (answer, { s with inner })
  delete s id :=
    if s.undeletable.contains id then (.error (.backend "injected delete failure"), s)
    else
      let (answer, inner) := SlotStore.delete s.inner id
      (answer, { s with inner })
  ids s := (SlotStore.ids s.inner).map fun ids => s.ghosts.toList.foldl Catalog.insert ids
  writesHeld s := SlotStore.writesHeld s.inner

end FaultyStore

end SaveSlots
