import SaveSlots.Manager
import SaveSlots.Store.Work
/-!
# Requests

A `Request` asks for a task. It is refused at once, without a task and without a reply, for the first
of these reasons that applies: the manager has stopped, the slot is not allowed, a task is in the way,
or the slot is there and must not be overwritten, or is not there and should be loaded. Requests for
the active slot come to nothing if no slot is active.

Deleting one slot and listing at once do not make tasks; they look at the store themselves.
-/

namespace SaveSlots

inductive Request where
  | save (slot : SlotId) (overwrite : Bool) (shot : Option ScreenshotSize)
  /-- Saves over the active slot. -/
  | saveCurrent (shot : Option ScreenshotSize)
  | load (slot : SlotId)
  /-- Loads the active slot again. -/
  | reload
  | info (slot : SlotId)
  | infos (recent : Bool)
  | deleteAll
deriving DecidableEq, Inhabited

namespace Manager

/-! ## Reasons to refuse -/

def checkRunning (m : Manager) : Except SlotError Unit :=
  if m.running then .ok () else .error .notRunning

def checkSlot (m : Manager) (slot : SlotId) : Except SlotError Unit :=
  if m.preset.isValidSlot slot then .ok () else .error (.invalidSlotId slot)

/-- Fails if a task is under way that must not run together with one of this kind. -/
def checkFree (m : Manager) (kind : TaskKind) : Except SlotError Unit :=
  match m.tasks.find? fun t => !t.state.isTerminal && t.kind.resource.conflicts kind.resource with
  | some t => .error (.slotConflict (.busy t.kind))
  | none => .ok ()

variable {σ : Type} [SlotStore σ]

def checkNew (s : σ) (slot : SlotId) (overwrite : Bool) : Except SlotError Unit :=
  if !overwrite && SlotStore.holds s slot then .error (.slotConflict (.overwrite slot)) else .ok ()

def checkSaved (s : σ) (slot : SlotId) : Except SlotError Unit :=
  if SlotStore.holds s slot then .ok () else .error (.slotNotFound slot)

/-! ## Jobs for requests -/

/-- The active slot keeps its name when it is saved over. -/
def saveName (m : Manager) (slot : SlotId) : String :=
  match m.activeInfo with
  | some info => if info.id = slot then info.name else slot.defaultName
  | none => slot.defaultName

def saveJob (m : Manager) (s : σ) (slot : SlotId) (overwrite : Bool)
    (shot : Option ScreenshotSize) : Except SlotError Job := do
  m.checkRunning
  m.checkSlot slot
  m.checkFree .save
  checkNew s slot overwrite
  return .save ⟨slot, m.saveName slot, shot, .empty, .start⟩

def loadJob (m : Manager) (s : σ) (slot : SlotId) : Except SlotError Job := do
  m.checkRunning
  m.checkSlot slot
  m.checkFree .load
  checkSaved s slot
  return .load ⟨slot, .start⟩

/-- The job that a request asks for, or why it is refused. -/
def job (m : Manager) (s : σ) : Request → Except SlotError Job
  | .save slot overwrite shot => m.saveJob s slot overwrite shot
  | .saveCurrent shot =>
    match m.activeId with
    | some slot => m.saveJob s slot true shot
    | none => .error .noActiveSlot
  | .load slot => m.loadJob s slot
  | .reload =>
    match m.activeId with
    | some slot => m.loadJob s slot
    | none => .error .noActiveSlot
  | .info slot => do
    m.checkRunning
    m.checkSlot slot
    return .info slot .start
  | .infos recent => do
    m.checkRunning
    return .infos recent .start
  | .deleteAll => do
    m.checkRunning
    m.checkFree .deleteAll
    return .deleteAll .start

/-- Puts a new task for a job at the end of the roster. -/
def register (m : Manager) (now : Instant) (job : Job) : Task × Manager :=
  let task : Task := {
    number := m.issued
    id := .ofParts now.unixMillis m.issued
    state := .created
    filter := m.preset.filter
    job }
  (task, { m with tasks := m.tasks ++ [task], issued := m.issued + 1 })

/-- Makes a task for a request, or refuses it. -/
def request (m : Manager) (s : σ) (now : Instant) (r : Request) : Except SlotError (Task × Manager) :=
  (m.job s r).map (m.register now)

/-! ## At once -/

/-- The task that keeps a slot from being deleted: one that deletes everything, or one that saves to the
slot or loads it. -/
def deletionBlocker? (m : Manager) (slot : SlotId) : Option Task :=
  m.tasks.find? fun t => t.kind = .deleteAll || (t.streams && t.target? = some slot)

def checkDeletable (m : Manager) (slot : SlotId) : Except SlotError Unit :=
  match m.deletionBlocker? slot with
  | some t => .error (.slotConflict (.busy t.kind))
  | none => .ok ()

/-- Deletes a slot. The active slot is no longer active once it is deleted. -/
def deleteSlot (m : Manager) (s : σ) (slot : SlotId) : Except SlotError Unit × Manager × σ :=
  match (do m.checkRunning; m.checkSlot slot; m.checkDeletable slot : Except SlotError Unit) with
  | .error e => (.error e, m, s)
  | .ok () =>
    match SlotStore.delete s slot with
    | (.error e, s) => (.error (.ofStore e), m, s)
    | (.ok (), s) => (.ok (), if m.activeId = some slot then { m with active := none } else m, s)

/-- The infos that a listing would reply with, had the store not changed by then. -/
def listInfos (m : Manager) (s : σ) (recent : Bool) : Except SlotError (List SlotInfo) := do
  m.checkRunning
  SlotStore.listInfos s m.preset.slotRange recent

/-- Whether a slot is allowed and saved, as far as a running manager can tell. -/
def isSlotSaved (m : Manager) (s : σ) (slot : SlotId) : Bool :=
  m.running && m.preset.isValidSlot slot && SlotStore.holds s slot

end Manager

end SaveSlots
