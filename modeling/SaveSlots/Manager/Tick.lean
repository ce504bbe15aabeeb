import SaveSlots.Manager
import SaveSlots.Task.Advance
import SaveSlots.Task.Work
/-!
# Ticks and teardown

A tick takes every task of the roster one step further and then settles the tasks that have ended: the
active slot changes, observers are told, and last comes the reply. Teardown (`deinitialize`) cancels
what is left and stops the manager for good.

Between ticks, work is done (`runWork`) and regions come and go; a region is offered to the one task
that saves or loads.
-/

namespace SaveSlots.Manager

/-! ## The end of a task -/

/-- The active pair after a task has ended. -/
def activeAfter (active : Option (SlotInfo × Snapshot)) : TaskResult → Option (SlotInfo × Snapshot)
  | .ok (.saved info data) | .ok (.loaded info data) => some (info, data)
  | .ok (.deleted ids) => active.filter fun pair => !ids.contains pair.1.id
  | .ok (.found _) | .ok (.listed _) | .error _ => active

def finishedHook? (kind : TaskKind) (success : Bool) : Option Hook :=
  match kind with
  | .save => some (.saveFinished success)
  | .load => some (.loadFinished success)
  | .loadInfos | .deleteAll => none

def beganHook? : TaskKind → Option Hook
  | .save => some .saveBegan
  | .load => some .loadBegan
  | .loadInfos | .deleteAll => none

/-- Tells every observer. -/
def notify (m : Manager) (filter : SaveFilter) (hook : Option Hook) : List Event :=
  match hook with
  | some hook => m.observers.map fun name => .hook name hook filter
  | none => []

/-- Settles a task that has left the roster. Observers are told if they knew of its beginning. -/
def finish (m : Manager) (t : Task) (result : TaskResult) (known : Bool) : Manager × List Event :=
  let hooks := if known then m.notify t.filter (finishedHook? t.kind result.isOk) else []
  ({ m with active := activeAfter m.active result }, hooks ++ [.reply t.number (result.map Outcome.value)])

/-- Settles tasks one after another. -/
def finishAll (m : Manager) : List (Task × TaskResult × Bool) → Manager × List Event
  | [] => (m, [])
  | (t, result, known) :: rest =>
    let (m, events) := m.finish t result known
    let (m, more) := m.finishAll rest
    (m, events ++ more)

/-! ## Ticks -/

/-- What the steps of one tick come to. -/
structure Sweep where
  tasks : List Task
  world : World
  events : List Event
  ended : List (Task × TaskResult × Bool)

/-- Takes every task a step further. Those that were created begin. -/
def sweep (m : Manager) (now : Instant) (w : World) : List Task → Sweep
  | [] => ⟨[], w, [], []⟩
  | t :: rest =>
    let began := if t.state = .created then m.notify t.filter (beganHook? t.kind) else []
    let (t, w, result) := t.start.advance m.preset now w
    let r := m.sweep now w rest
    { tasks := t :: r.tasks
      world := r.world
      events := began ++ r.events
      ended := (result.map fun result => (t, result, true)).toList ++ r.ended }

/-- Takes every task a step further and settles those that have ended. -/
def tick (m : Manager) (now : Instant) (w : World) : Manager × World × List Event :=
  if m.running then
    let r := m.sweep now w m.tasks
    let m := { m with tasks := r.tasks.filter fun t => !t.state.isTerminal }
    let (m, events) := m.finishAll r.ended
    (m, r.world, r.events ++ events)
  else (m, w, [])

/-! ## Work -/

/-- Does the work of one task. -/
def runWork {σ : Type} [SlotStore σ] (m : Manager) (s : σ) (number : Nat) : Manager × σ :=
  match m.tasks.find? fun t => t.number = number with
  | none => (m, s)
  | some t =>
    let (done, s) := t.runWork s
    ({ m with tasks := m.tasks.map fun t => if t.number = number then done else t }, s)

/-- Ends the work of one task without a result. -/
def loseWork (m : Manager) (number : Nat) : Manager :=
  { m with tasks := m.tasks.map fun t => if t.number = number then t.loseWork else t }

/-- Does all work in the order of the roster, on a store that may break down. -/
def settle {σ : Type} [SlotStore σ] (m : Manager) (s : FaultyStore σ) : Manager × FaultyStore σ :=
  let (tasks, s) := go m.tasks s
  ({ m with tasks }, s)
where
  go : List Task → FaultyStore σ → List Task × FaultyStore σ
    | [], s => ([], s)
    | t :: rest, s =>
      let (t, s) := t.runFaulty s
      let (rest, s) := go rest s
      (t :: rest, s)

/-! ## Regions -/

/-- Puts the task in the stead of the one with its number. -/
def putTask (m : Manager) (task : Task) : Manager :=
  { m with tasks := m.tasks.map fun t => if t.number = task.number then task else t }

/-- The task that regions are offered to. -/
def streamingTask? (m : Manager) : Option Task :=
  m.tasks.find? fun t => t.streams && !t.state.isTerminal

/-- A region has come. Says whether a task restored it. -/
def regionReady (m : Manager) (region : String) (w : World) : Bool × Manager × World :=
  let m := { m with regions := m.regions.track region }
  let taken := do
    let t ← m.streamingTask?
    let (job, w) ← t.job.regionReady? t.filter region w
    return ({ t with job : Task }, w)
  match taken with
  | some (t, w) => (true, { m.putTask t with regions := m.regions.count true }, w)
  | none => (false, m, w)

/-- A region is about to go. Says whether a task took it. -/
def regionUnloading (m : Manager) (region : String) (w : World) : Bool × Manager :=
  let taken := do
    let t ← m.streamingTask?
    let job ← t.job.regionUnloading? t.filter region w
    return { t with job : Task }
  match taken with
  | some t =>
    (true, { m.putTask t with regions := (m.regions.count true).untrack region })
  | none => (false, { m with regions := m.regions.untrack region })

/-! ## Teardown -/

/-- Cancels every task and stops the manager. Nothing happens if it has stopped before. -/
def deinitialize (m : Manager) : Manager × List Event :=
  if m.running then
    let cancelled := m.tasks.map fun t =>
      ({ t with state := .cancelled : Task }, (.error .cancelled : TaskResult), t.state == .running)
    let (m, events) := { m with running := false, tasks := [] }.finishAll cancelled
    ({ m with active := none, fallback := none, observers := [], regions := .new }, events)
  else (m, [])

end SaveSlots.Manager
