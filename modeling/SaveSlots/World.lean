import SaveSlots.Slot.Info
import SaveSlots.Slot.Snapshot
/-!
# The world that is saved

A `World` has a map, objects that belong to no region, and the regions that are loaded at the moment.
Opening a map takes the regions away; the map counts as loading until its host says that it is not.
A screenshot is asked for and is ready some polls later.

A basic world has no pictures and does not travel: to a task (`requestShot`, `pollRequestedShot`,
`requestMap`, `isMapLoading`) it answers that there is no picture and that no map is loading. Its host
may change it all the same.
-/

namespace SaveSlots

/-- The answer to a question that may come too early. -/
inductive Poll (α : Type) where
  | pending
  | ready (a : α)
deriving DecidableEq, Inhabited

structure World where
  map : String
  played : PlayedTime
  globals : Catalog GameObject.name
  regions : Catalog Region.name
  mapLoading : Bool
  /-- Polls until a screenshot is ready. -/
  shotDelay : Nat
  /-- A screenshot that was asked for, and the polls left until it is ready. -/
  pendingShot : Option (ScreenshotSize × Nat)
  /-- Regions that were restored, in the order in which it happened. -/
  restored : List String
  basic : Bool
deriving Inhabited

namespace World

def new (map : String) : World where
  map
  played := .zero
  globals := .empty
  regions := .empty
  mapLoading := false
  shotDelay := 0
  pendingShot := none
  restored := []
  basic := false

/-! ## Objects and regions -/

/-- Adds an object outside regions, in the stead of one with the same name. -/
def spawn (w : World) (o : GameObject) : World := { w with globals := w.globals.insert o }

def global? (w : World) (name : String) : Option GameObject := w.globals.find? name

/-- The world with a new state of a named object, if there is such an object. -/
def setGlobalState? (w : World) (name : String) (state : Json) : Option World :=
  (w.global? name).map fun o => w.spawn { o with state }

def loadRegion (w : World) (name : String) (objects : List GameObject) : World :=
  { w with regions := w.regions.insert ⟨name, objects⟩ }

def unloadRegion (w : World) (name : String) : World :=
  { w with regions := w.regions.erase name }

/-- The objects of a region, if it is loaded. -/
def region? (w : World) (name : String) : Option (List GameObject) :=
  (w.regions.find? name).map Region.objects

def loadedRegions (w : World) : List String := w.regions.keys

/-- Changes the state of the first object with a name, if there is one. -/
def setState? (name : String) (state : Json) : List GameObject → Option (List GameObject)
  | [] => none
  | o :: os =>
    if o.name = name then some ({ o with state } :: os)
    else (setState? name state os).map (o :: ·)

def setRegionState? (w : World) (region name : String) (state : Json) : Option World := do
  let objects ← w.region? region
  return w.loadRegion region (← setState? name state objects)

/-! ## Restoring -/

/-- Puts an object in the stead of the first one with its name, or at the end. -/
def putObject (o : GameObject) : List GameObject → List GameObject
  | [] => [o]
  | x :: xs => if x.name = o.name then o :: xs else x :: putObject o xs

def restoreGlobals (w : World) (os : List GameObject) : World := os.foldl spawn w

/-- Puts objects into a region and takes note of it, if the region is loaded. -/
def restoreRegion (w : World) (name : String) (os : List GameObject) : World :=
  match w.region? name with
  | none => w
  | some objects =>
    { w.loadRegion name (os.foldl (fun xs o => putObject o xs) objects) with
      restored := w.restored ++ [name] }

/-! ## Maps and pictures -/

def openMap (w : World) (map : String) : World :=
  { w with map, regions := .empty, mapLoading := true }

def finishMap (w : World) : World := { w with mapLoading := false }

def beginShot (w : World) (size : ScreenshotSize) : World :=
  { w with pendingShot := some (size, w.shotDelay) }

/-- A picture of one colour. It is taken to fit into memory, that is to have less than 2 ^ 63 bytes. -/
def picture (size : ScreenshotSize) : Screenshot where
  width := size.width
  height := size.height
  rgba := List.replicate (size.width.toNat * size.height.toNat * 4) 0x7f

/-- The picture that was asked for, if enough polls have been made; a picture is handed out once. -/
def pollShot (w : World) : Poll (Option Screenshot) × World :=
  match w.pendingShot with
  | none => (.ready none, w)
  | some (size, 0) => (.ready (some (picture size)), { w with pendingShot := none })
  | some (size, left + 1) => (.pending, { w with pendingShot := some (size, left) })

/-! ## What a task asks of the world -/

def requestShot (w : World) (size : ScreenshotSize) : World :=
  if w.basic then w else w.beginShot size

def pollRequestedShot (w : World) : Poll (Option Screenshot) × World :=
  if w.basic then (.ready none, w) else w.pollShot

def requestMap (w : World) (map : String) : World :=
  if w.basic then w else w.openMap map

def isMapLoading (w : World) : Bool := !w.basic && w.mapLoading

end World

end SaveSlots
