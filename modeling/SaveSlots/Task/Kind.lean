/-!
# Kinds and states of tasks

A task saves, loads, lists or deletes. While it runs it holds a resource, and two tasks must not run
together if both hold something that is locked.
-/

namespace SaveSlots

inductive TaskKind where
  | save
  | load
  | loadInfos
  | deleteAll
deriving DecidableEq, Inhabited

/-- What a task locks while it runs: a save and a load the active slot, a delete-all every slot, and a
listing nothing. -/
inductive Resource where
  | activeSlot
  | allSlots
  | unlocked
deriving DecidableEq, Inhabited

/-- A task is created, runs, and ends in one of three ways; only teardown cancels it. -/
inductive TaskState where
  | created
  | running
  | succeeded
  | failed
  | cancelled
deriving DecidableEq, Inhabited

/-- How a latent request ended. A rejected request made no task. -/
inductive OpStatus where
  | succeeded
  | failed
  | rejected
deriving DecidableEq, Inhabited

namespace TaskKind

def resource : TaskKind → Resource
  | save | load => .activeSlot
  | deleteAll => .allSlots
  | loadInfos => .unlocked

def text : TaskKind → String
  | save => "save"
  | load => "load"
  | loadInfos => "load_infos"
  | deleteAll => "delete_all"

def all : List TaskKind := [save, load, loadInfos, deleteAll]

end TaskKind

def Resource.conflicts (a b : Resource) : Bool := a != .unlocked && b != .unlocked

namespace TaskState

def isTerminal : TaskState → Bool
  | created | running => false
  | succeeded | failed | cancelled => true

def text : TaskState → String
  | created => "created"
  | running => "running"
  | succeeded => "succeeded"
  | failed => "failed"
  | cancelled => "cancelled"

def all : List TaskState := [created, running, succeeded, failed, cancelled]

end TaskState

namespace OpStatus

def text : OpStatus → String
  | succeeded => "succeeded"
  | failed => "failed"
  | rejected => "rejected"

def all : List OpStatus := [succeeded, failed, rejected]

end OpStatus

end SaveSlots
