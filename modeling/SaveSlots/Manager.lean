import SaveSlots.Preset
import SaveSlots.Streaming
import SaveSlots.Task.Job
/-!
# The save manager

A `Manager` owns the slot that is active, if one is, and the roster of tasks that are under way.
Requests put tasks on the roster (`Manager/Request`), ticks take them further and off it again
(`Manager/Tick`). What the host learns on the way are `Event`s: hooks for those who observe saves and
loads, and one reply for each task.
-/

namespace SaveSlots

inductive Hook where
  | saveBegan
  | saveFinished (success : Bool)
  | loadBegan
  | loadFinished (success : Bool)
deriving DecidableEq, Inhabited

inductive Event where
  | hook (observer : String) (hook : Hook) (filter : SaveFilter)
  | reply (task : Nat) (reply : Reply)
deriving Inhabited

structure Manager where
  preset : Preset
  /-- Whether the manager takes requests; it stops doing so once and for all. -/
  running : Bool
  /-- The tasks under way, in the order of their requests. -/
  tasks : List Task
  active : Option (SlotInfo × Snapshot)
  /-- The pair that is shown while no slot is active. It is made when it is first asked for, and is no slot. -/
  fallback : Option (SlotInfo × Snapshot)
  /-- Who is told of saves and loads, in the order in which they subscribed. -/
  observers : List String
  regions : RegionTracker
  /-- The number of tasks made so far. -/
  issued : Nat
deriving Inhabited

namespace Manager

def new (preset : Preset) : Manager where
  preset
  running := true
  tasks := []
  active := none
  fallback := none
  observers := []
  regions := .new
  issued := 0

/-! ## The active slot -/

def activeInfo (m : Manager) : Option SlotInfo := m.active.map Prod.fst

def activeData (m : Manager) : Option Snapshot := m.active.map Prod.snd

def activeId (m : Manager) : Option SlotId := m.activeInfo.map SlotInfo.id

def isInSlot (m : Manager) : Bool := m.active.isSome

/-- The pair that is shown while no slot is active. -/
def shown (m : Manager) : SlotInfo × Snapshot := m.fallback.getD (.empty 0 m.preset.version, .empty)

/-- The active pair. Without one it is the pair that is shown instead, which is kept from then on. -/
def current (m : Manager) : (SlotInfo × Snapshot) × Manager :=
  (m.active.getD m.shown, { m with fallback := if m.active.isSome then m.fallback else some m.shown })

/-- The info of the active slot, or one that stands for no slot. -/
def currentInfo (m : Manager) : SlotInfo × Manager := (m.current.1.1, m.current.2)

/-- The snapshot of the active slot, or an empty one. -/
def currentData (m : Manager) : Snapshot × Manager := (m.current.1.2, m.current.2)

/-! ## The roster -/

def hasTasks (m : Manager) : Bool := !m.tasks.isEmpty

def isLoading (m : Manager) : Bool := m.tasks.any fun t => t.kind = .load

def isSavingOrLoading (m : Manager) : Bool := m.tasks.any Task.streams

/-! ## Observers -/

/-- Adds an observer at the end, unless it observes already. -/
def subscribe (m : Manager) (name : String) : Manager :=
  if m.observers.contains name then m else { m with observers := m.observers ++ [name] }

def unsubscribe (m : Manager) (name : String) : Manager :=
  { m with observers := m.observers.filter (· ≠ name) }

def isSubscribed (m : Manager) (name : String) : Bool := m.observers.contains name

end Manager

end SaveSlots
