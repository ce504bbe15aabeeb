import SaveSlots.Error
import SaveSlots.Slot.Filter
import SaveSlots.Task.Id
import SaveSlots.Work.Handle
import SaveSlots.World
/-!
# Tasks

A `Task` saves, loads, lists or deletes, one step a tick. Its `Job` says what it is about and how far
it has come; a phase holds what the next step needs, and a handle if work is under way. A task ends
with an `Outcome` or an error, of which its caller gets the `Value`.
-/

namespace SaveSlots

/-! ## What comes of a task -/

inductive Outcome where
  | saved (info : SlotInfo) (data : Snapshot)
  | loaded (info : SlotInfo) (data : Snapshot)
  | found (info : SlotInfo)
  | listed (infos : List SlotInfo)
  | deleted (ids : List SlotId)
deriving Inhabited

abbrev TaskResult := Except SlotError Outcome

/-- What the caller of a request is told. -/
inductive Value where
  | info (info : SlotInfo)
  | infos (infos : List SlotInfo)
  | ids (ids : List SlotId)
deriving DecidableEq, Inhabited

abbrev Reply := Except SlotError Value

def Outcome.value : Outcome → Value
  | saved info _ | loaded info _ | found info => .info info
  | listed infos => .infos infos
  | deleted ids => .ids ids

/-! ## Jobs -/

inductive SavePhase where
  | start
  /-- Waits for its picture; the info was written down when the task began. -/
  | capture (info : SlotInfo)
  | writing (work : Handle (SlotInfo × Snapshot) (Except SlotError (SlotInfo × Snapshot)))
deriving Inhabited

structure SaveJob where
  slot : SlotId
  name : String
  shot : Option ScreenshotSize
  /-- Regions that went away before the world was captured. -/
  unloaded : Catalog Region.name
  phase : SavePhase
deriving Inhabited

inductive LoadPhase where
  | start
  | readingInfo (work : Handle SlotId (Except SlotError SlotInfo))
  | readingData (info : SlotInfo) (work : Handle SlotId (Except SlotError Snapshot))
  /-- Waits for the map; some regions may have been restored already. -/
  | travelling (info : SlotInfo) (data : Snapshot) (restored : Catalog (id : String → String))
deriving Inhabited

structure LoadJob where
  slot : SlotId
  phase : LoadPhase
deriving Inhabited

/-- The phase of a job that is a single piece of work. -/
inductive WorkPhase (ω α : Type) where
  | start
  | working (work : Handle ω (Except SlotError α))
deriving Inhabited

inductive Job where
  | save (job : SaveJob)
  | load (job : LoadJob)
  | info (slot : SlotId) (phase : WorkPhase SlotId SlotInfo)
  | infos (recent : Bool) (phase : WorkPhase (SlotRange × Bool) (List SlotInfo))
  | deleteAll (phase : WorkPhase Unit (List SlotId))
deriving Inhabited

structure Task where
  /-- Tells the tasks of a manager apart; later tasks have larger numbers. -/
  number : Nat
  id : TaskId
  state : TaskState
  filter : SaveFilter
  job : Job
deriving Inhabited

namespace SavePhase

def text : SavePhase → String
  | start => "start"
  | capture _ => "capture"
  | writing _ => "writing"

end SavePhase

namespace LoadPhase

def text : LoadPhase → String
  | start => "start"
  | readingInfo _ => "reading_info"
  | readingData .. => "reading_data"
  | travelling .. => "travelling"

end LoadPhase

namespace WorkPhase

def text {ω α : Type} : WorkPhase ω α → String
  | start => "start"
  | working _ => "working"

end WorkPhase

namespace Job

def kind : Job → TaskKind
  | save _ => .save
  | load _ => .load
  | info .. | infos .. => .loadInfos
  | deleteAll _ => .deleteAll

/-- The slot that a job is about, if it is about one. -/
def target? : Job → Option SlotId
  | save j => some j.slot
  | load j => some j.slot
  | info slot _ => some slot
  | infos .. | deleteAll _ => none

def phaseText : Job → String
  | save j => j.phase.text
  | load j => j.phase.text
  | info _ phase => phase.text
  | infos _ phase => phase.text
  | deleteAll phase => phase.text

end Job

namespace Task

def kind (t : Task) : TaskKind := t.job.kind

def target? (t : Task) : Option SlotId := t.job.target?

/-- Whether a task saves or loads; there is at most one such task. -/
def streams (t : Task) : Bool := t.kind = .save || t.kind = .load

end Task

end SaveSlots
