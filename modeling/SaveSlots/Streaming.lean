import SaveSlots.Catalog
/-!
# Regions that come and go

A `RegionTracker` remembers which regions the host has announced and not taken back, and how many of
these events a task made use of. Nothing depends on what it remembers.
-/

namespace SaveSlots

structure RegionTracker where
  tracked : Catalog (id : String → String)
  /-- The events that a task made use of. -/
  handled : Nat
deriving DecidableEq, Inhabited

namespace RegionTracker

def new : RegionTracker := ⟨.empty, 0⟩

def track (t : RegionTracker) (region : String) : RegionTracker :=
  { t with tracked := t.tracked.insert region }

def untrack (t : RegionTracker) (region : String) : RegionTracker :=
  { t with tracked := t.tracked.erase region }

def isTracked (t : RegionTracker) (region : String) : Bool := t.tracked.contains region

/-- Counts an event if a task made use of it. -/
def count (t : RegionTracker) (used : Bool) : RegionTracker :=
  if used then { t with handled := t.handled + 1 } else t

end RegionTracker

end SaveSlots
