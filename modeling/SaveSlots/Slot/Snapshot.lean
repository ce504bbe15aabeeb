import SaveSlots.Catalog
import SaveSlots.Json.Value
/-!
# What a slot keeps of a world

A `GameObject` is one saved object; its state is opaque. A `Region` is a part of a map that comes and
goes with its objects, and a `Snapshot` holds everything that a save keeps: the map, the objects that
belong to no region, and the regions.
-/

namespace SaveSlots

structure GameObject where
  name : String
  className : String
  tags : List String
  state : Json
deriving Inhabited

structure Region where
  name : String
  objects : List GameObject
deriving Inhabited

structure Snapshot where
  map : String
  globals : List GameObject
  regions : Catalog Region.name
deriving Inhabited

def Snapshot.empty : Snapshot := ⟨"", [], .empty⟩

/-- The objects saved for a region. -/
def Snapshot.region? (s : Snapshot) (name : String) : Option (List GameObject) :=
  (s.regions.find? name).map Region.objects

end SaveSlots
