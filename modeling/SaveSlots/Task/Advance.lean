import SaveSlots.Preset
import SaveSlots.Task.Job
import SaveSlots.World.Capture
/-!
# One step of a task

`Task.advance` takes a running task a step further. Steps read and change the world, and give work away
or ask for its result; they never wait and never touch the store. A step that ends the task says with
what.

Regions may come and go between the steps. A save takes a region that is about to go as long as it has
not captured the world (`Job.regionUnloading?`); a load restores one that has come while it waits for
its map (`Job.regionReady?`).
-/

namespace SaveSlots

namespace SaveJob

/-- Writes down what is known when the task begins, and asks for a picture if there is to be one. -/
def begin (j : SaveJob) (now : Instant) (version : String) (w : World) : SlotInfo × World :=
  ({ id := j.slot
     name := j.name
     played := w.played
     savedAt := now
     map := w.map
     screenshot := none
     version },
   match j.shot with
   | some size => w.requestShot size
   | none => w)

/-- The world as it is, and the regions that went away before. -/
def snapshot (j : SaveJob) (f : SaveFilter) (w : World) : Snapshot :=
  let data := w.capture f
  { data with regions := j.unloaded.toList.foldl Catalog.insertIfNew data.regions }

/-- Captures the world and gives the write away. -/
def submit (j : SaveJob) (f : SaveFilter) (info : SlotInfo) (w : World) : SaveJob :=
  { j with unloaded := .empty, phase := .writing (.waiting (info, j.snapshot f w)) }

/-- Captures the world as soon as the picture is there. -/
def capture (j : SaveJob) (f : SaveFilter) (info : SlotInfo) (w : World) : SaveJob × World :=
  match j.shot with
  | none => (j.submit f info w, w)
  | some _ =>
    match w.pollRequestedShot with
    | (.pending, w) => ({ j with phase := .capture info }, w)
    | (.ready screenshot, w) => (j.submit f { info with screenshot } w, w)

def advance (j : SaveJob) (f : SaveFilter) (now : Instant) (version : String) (w : World) :
    SaveJob × World × Option TaskResult :=
  match j.phase with
  | .start =>
    let (info, w) := j.begin now version w
    let (j, w) := j.capture f info w
    (j, w, none)
  | .capture info =>
    let (j, w) := j.capture f info w
    (j, w, none)
  | .writing work =>
    match work.poll with
    | .pending => (j, w, none)
    | .ready answer => (j, w, some (answer.map fun (info, data) => .saved info data))
    | .lost => (j, w, some (.error .workerLost))

end SaveJob

namespace LoadJob

/-- Opens the map of a snapshot if the preset says so and the world is on another one. -/
def travel (p : Preset) (data : Snapshot) (w : World) : World :=
  if p.travelOnLoad && data.map ≠ "" && data.map ≠ w.map then w.requestMap data.map else w

/-- Applies a snapshot unless the map is still loading. -/
def arrive (j : LoadJob) (f : SaveFilter) (info : SlotInfo) (data : Snapshot)
    (restored : Catalog (id : String → String)) (w : World) : LoadJob × World × Option TaskResult :=
  let j := { j with phase := .travelling info data restored }
  if w.isMapLoading then (j, w, none)
  else (j, (w.apply data f restored.toList).1, some (.ok (.loaded info data)))

def advance (j : LoadJob) (f : SaveFilter) (p : Preset) (w : World) :
    LoadJob × World × Option TaskResult :=
  match j.phase with
  | .start => ({ j with phase := .readingInfo (.waiting j.slot) }, w, none)
  | .readingInfo work =>
    match work.poll with
    | .pending => (j, w, none)
    | .ready (.ok info) => ({ j with phase := .readingData info (.waiting info.id) }, w, none)
    | .ready (.error e) => (j, w, some (.error e))
    | .lost => (j, w, some (.error .workerLost))
  | .readingData info work =>
    match work.poll with
    | .pending => (j, w, none)
    | .ready (.ok data) => j.arrive f info data .empty (travel p data w)
    | .ready (.error e) => (j, w, some (.error e))
    | .lost => (j, w, some (.error .workerLost))
  | .travelling info data restored => j.arrive f info data restored w

end LoadJob

namespace WorkPhase

/-- Gives the work away at first, and asks for its result from then on. -/
def advance {ω α : Type} (phase : WorkPhase ω α) (work : ω) :
    WorkPhase ω α × Option (Except SlotError α) :=
  match phase with
  | start => (working (.waiting work), none)
  | working handle =>
    match handle.poll with
    | .pending => (phase, none)
    | .ready answer => (phase, some answer)
    | .lost => (phase, some (.error .workerLost))

end WorkPhase

namespace Job

def advance (j : Job) (f : SaveFilter) (p : Preset) (now : Instant) (w : World) :
    Job × World × Option TaskResult :=
  match j with
  | save j =>
    let (j, w, result) := j.advance f now p.version w
    (save j, w, result)
  | load j =>
    let (j, w, result) := j.advance f p w
    (load j, w, result)
  | info slot phase =>
    let (phase, answer) := phase.advance slot
    (info slot phase, w, answer.map (Except.map .found))
  | infos recent phase =>
    let (phase, answer) := phase.advance (p.slotRange, recent)
    (infos recent phase, w, answer.map (Except.map .listed))
  | deleteAll phase =>
    let (phase, answer) := phase.advance ()
    (deleteAll phase, w, answer.map (Except.map .deleted))

/-- The job after a region was announced, and the world with that region restored, if the job has
something for it. -/
def regionReady? (j : Job) (f : SaveFilter) (region : String) (w : World) : Option (Job × World) :=
  match j with
  | load j =>
    match j.phase with
    | .travelling i data restored =>
      (w.applyRegion? data f region).map fun w =>
        (load { j with phase := .travelling i data (restored.insert region) }, w)
    | _ => none
  | _ => none

/-- The job with a region taken that is about to go, if the job still takes regions and this one is
loaded and saved at all. -/
def regionUnloading? (j : Job) (f : SaveFilter) (region : String) (w : World) : Option Job :=
  match j with
  | save j =>
    match j.phase with
    | .start | .capture _ =>
      (w.captureRegion? f region).map fun objects =>
        save { j with unloaded := j.unloaded.insert ⟨region, objects⟩ }
    | .writing _ => none
  | _ => none

end Job

namespace Task

/-- A created task starts to run. -/
def start (t : Task) : Task :=
  if t.state = .created then { t with state := .running } else t

/-- The state in which a result leaves a task. -/
def stateAfter : Option TaskResult → TaskState
  | none => .running
  | some (.ok _) => .succeeded
  | some (.error _) => .failed

/-- Takes a running task a step further. -/
def advance (t : Task) (p : Preset) (now : Instant) (w : World) : Task × World × Option TaskResult :=
  if t.state = .running then
    let (job, w, result) := t.job.advance t.filter p now w
    ({ t with job, state := stateAfter result }, w, result)
  else (t, w, none)

end Task

end SaveSlots
