import SaveSlots.Slot.Filter
import SaveSlots.World
/-!
# Between world and snapshot

`World.capture` takes what a filter accepts into a snapshot, and `World.apply` puts a snapshot back:
the objects outside regions, and those of every region that is loaded and not skipped.
-/

namespace SaveSlots.World

/-- The accepted objects of a loaded region. -/
def captureRegion? (w : World) (f : SaveFilter) (region : String) : Option (List GameObject) :=
  if f.storeRegions then (w.region? region).map f.retain else none

def capture (w : World) (f : SaveFilter) : Snapshot where
  map := w.map
  globals := if f.storeGlobals then f.retain w.globals.toList else []
  regions :=
    if f.storeRegions then
      w.regions.modify (fun r => { r with objects := f.retain r.objects }) fun _ => rfl
    else .empty

/-- The world with a region restored, if something is saved for the region. -/
def applyRegion? (w : World) (s : Snapshot) (f : SaveFilter) (region : String) : Option World :=
  if f.storeRegions then (s.region? region).map fun os => w.restoreRegion region (f.retain os)
  else none

/-- Restores the regions one after another. Answers those for which something was saved. -/
def applyRegions (w : World) (s : Snapshot) (f : SaveFilter) : List String → World × List String
  | [] => (w, [])
  | r :: rs =>
    match w.applyRegion? s f r with
    | none => w.applyRegions s f rs
    | some w =>
      let (w, restored) := w.applyRegions s f rs
      (w, r :: restored)

/-- Puts a snapshot back, the regions of `skip` apart. Answers the regions that were restored. -/
def apply (w : World) (s : Snapshot) (f : SaveFilter) (skip : List String) : World × List String :=
  let w := if f.storeGlobals then w.restoreGlobals (f.retain s.globals) else w
  w.applyRegions s f (w.loadedRegions.filter fun r => !skip.contains r)

end SaveSlots.World
