import SaveSlots.Store.Faults
import SaveSlots.Store.Work
import SaveSlots.Task.Job
/-!
# The work of tasks

What happens to a task between its steps: `Task.runWork` does the work that the task has given away,
on the store; a write goes no further than a closed gate. `Task.loseWork` is work that ends without a
result. `Task.calls` says which methods of the store the work is going to call.
-/

namespace SaveSlots

namespace Job

/-- The job with the work done that it has given away, if there is any. -/
def runWork {σ : Type} [SlotStore σ] (j : Job) (s : σ) : Job × σ :=
  match j with
  | save j =>
    match j.phase with
    | .writing work =>
      if SlotStore.writesHeld s then (save { j with phase := .writing work.hold }, s)
      else
        let (work, s) := work.runOn (fun w s => SlotStore.commit s w.1 w.2) s
        (save { j with phase := .writing work }, s)
    | .start | .capture _ => (save j, s)
  | load j =>
    match j.phase with
    | .readingInfo work =>
      let (work, s) := work.runOn (fun id s => (SlotStore.fetchInfo s id, s)) s
      (load { j with phase := .readingInfo work }, s)
    | .readingData head work =>
      let (work, s) := work.runOn (fun id s => (SlotStore.fetchSnapshot s id, s)) s
      (load { j with phase := .readingData head work }, s)
    | .start | .travelling .. => (load j, s)
  | info slot phase =>
    match phase with
    | .working work =>
      let (work, s) := work.runOn (fun id s => (SlotStore.fetchInfo s id, s)) s
      (info slot (.working work), s)
    | .start => (info slot phase, s)
  | infos recent phase =>
    match phase with
    | .working work =>
      let (work, s) := work.runOn (fun w s => (SlotStore.listInfos s w.1 w.2, s)) s
      (infos recent (.working work), s)
    | .start => (infos recent phase, s)
  | deleteAll phase =>
    match phase with
    | .working work =>
      let (work, s) := work.runOn (fun _ s => SlotStore.deleteAll s) s
      (deleteAll (.working work), s)
    | .start => (deleteAll phase, s)

/-- The job with its work given up. -/
def loseWork : Job → Job
  | save j =>
    match j.phase with
    | .writing work => save { j with phase := .writing work.abandon }
    | .start | .capture _ => save j
  | load j =>
    match j.phase with
    | .readingInfo work => load { j with phase := .readingInfo work.abandon }
    | .readingData head work => load { j with phase := .readingData head work.abandon }
    | .start | .travelling .. => load j
  | info slot (.working work) => info slot (.working work.abandon)
  | infos recent (.working work) => infos recent (.working work.abandon)
  | deleteAll (.working work) => deleteAll (.working work.abandon)
  | j => j

/-- The methods that work which has not begun is going to call, in the order of the first calls. -/
def calls {σ : Type} [SlotStore σ] (j : Job) (s : σ) : List StoreMethod :=
  let listed (wanted : SlotId → Bool) (method : StoreMethod) : List StoreMethod :=
    match SlotStore.ids s with
    | .ok ids => if ids.toList.any wanted then [.ids, method] else [.ids]
    | .error _ => [.ids]
  match j with
  | save { phase := .writing (.waiting _), .. } => [.write]
  | load { phase := .readingInfo (.waiting _), .. } => [.readInfo]
  | load { phase := .readingData _ (.waiting _), .. } => [.readData]
  | info _ (.working (.waiting _)) => [.readInfo]
  | infos _ (.working (.waiting (range, _))) => listed range.contains .readInfo
  | deleteAll (.working (.waiting _)) => listed (fun _ => true) .delete
  | _ => []

end Job

namespace Task

def runWork {σ : Type} [SlotStore σ] (t : Task) (s : σ) : Task × σ :=
  let (job, s) := t.job.runWork s
  ({ t with job }, s)

def loseWork (t : Task) : Task := { t with job := t.job.loseWork }

def calls {σ : Type} [SlotStore σ] (t : Task) (s : σ) : List StoreMethod := t.job.calls s

/-- Runs the work of a task on a store that may break down. A breakdown happens once. -/
def runFaulty {σ : Type} [SlotStore σ] (t : Task) (s : FaultyStore σ) : Task × FaultyStore σ :=
  match s.breaksOn with
  | none => t.runWork s
  | some method =>
    if (t.calls s).contains method then (t.loseWork, { s with breaksOn := none }) else t.runWork s

end Task

end SaveSlots
