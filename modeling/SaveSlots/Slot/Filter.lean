import SaveSlots.Slot.Snapshot
/-!
# Which objects are saved

A filter leaves out the objects of some classes and those with some tags, and may leave out all
objects outside regions or all regions.
-/

namespace SaveSlots

structure SaveFilter where
  storeGlobals : Bool
  storeRegions : Bool
  ignoredClasses : Catalog (id : String → String)
  ignoredTags : Catalog (id : String → String)
deriving DecidableEq, Inhabited

namespace SaveFilter

/-- Nothing is left out. -/
def all : SaveFilter := ⟨true, true, .empty, .empty⟩

def accepts (f : SaveFilter) (o : GameObject) : Bool :=
  !f.ignoredClasses.contains o.className && !o.tags.any f.ignoredTags.contains

/-- The objects that the filter accepts, in their order. -/
def retain (f : SaveFilter) (os : List GameObject) : List GameObject :=
  os.filter f.accepts

end SaveFilter

end SaveSlots
