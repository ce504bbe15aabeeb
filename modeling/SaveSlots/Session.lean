import SaveSlots.Latent
import SaveSlots.Manager.Request
import SaveSlots.Manager.Tick
/-!
# A host's session

A `Session` puts a manager to work: a store, a world, a clock, and those who wait for replies and
observe. Work that is given away during a tick is done right after it, in the order of the roster, so
that all of it is done before the next tick but for writes behind a closed gate.

Callers are named. A callback has a tag, which its reply carries; a latent has a name, under which it
is polled. An observer may be quiet: it is subscribed like any other and reports nothing.
-/

namespace SaveSlots

/-- What a step of the host brings to light. -/
inductive Notice where
  | hook (observer : String) (hook : Hook) (filter : SaveFilter)
  | callback (tag : String) (reply : Reply)
deriving Inhabited

structure Session (σ : Type) where
  manager : Option Manager
  /-- The preset of the last manager that was started. -/
  preset : Preset
  store : FaultyStore σ
  world : World
  now : Instant
  /-- The tags of the callbacks that wait, by the numbers of their tasks. -/
  callbacks : List (Nat × String)
  latents : List (String × Latent)
  /-- The observers that were ever named, and whether they are quiet. -/
  observers : List (String × Bool)
deriving Inhabited

namespace Session

variable {σ : Type}

def start (preset : Preset) (store : σ) (world : World) (now : Instant) : Session σ where
  manager := some (.new preset)
  preset
  store := .sound store
  world
  now
  callbacks := []
  latents := []
  observers := []

/-! ## Replies and hooks -/

/-- Passes an event on: a reply goes to the latents and to the callback that wait for it. -/
def receive (s : Session σ) : Event → Session σ × List Notice
  | .hook name hook filter =>
    (s, if s.observers.lookup name = some true then [] else [.hook name hook filter])
  | .reply task reply =>
    ({ s with
        callbacks := s.callbacks.filter fun c => c.1 ≠ task
        latents := s.latents.map fun l => (l.1, l.2.deliver task reply) },
      (s.callbacks.lookup task).toList.map fun tag => .callback tag reply)

def receiveAll (s : Session σ) : List Event → Session σ × List Notice
  | [] => (s, [])
  | e :: rest =>
    let (s, notices) := s.receive e
    let (s, more) := s.receiveAll rest
    (s, notices ++ more)

/-! ## Requests -/

variable [SlotStore σ]

/-- Makes a request of the manager, if there is one. -/
def ask (s : Session σ) (r : Request) : Option (Except SlotError Task × Session σ) :=
  s.manager.map fun m =>
    match m.request s.store s.now r with
    | .ok (task, m) => (.ok task, { s with manager := some m })
    | .error e => (.error e, s)

/-- A request whose reply goes to a callback. -/
def request (s : Session σ) (r : Request) (tag : String) :
    Option (Except SlotError Task × Session σ) :=
  (s.ask r).map fun (answer, s) =>
    match answer with
    | .ok task => (answer, { s with callbacks := (task.number, tag) :: s.callbacks })
    | .error _ => (answer, s)

/-- The latents with one under a name, in the stead of an earlier one. -/
def putLatent (latents : List (String × Latent)) (name : String) (l : Latent) :
    List (String × Latent) :=
  (name, l) :: latents.filter fun other => other.1 ≠ name

/-- A request whose reply is polled for under a name. -/
def requestLatent (s : Session σ) (r : Request) (name : String) : Option (Latent × Session σ) :=
  (s.ask r).map fun (answer, s) =>
    let l := Latent.ofRequest answer
    (l, { s with latents := putLatent s.latents name l })

def latent? (s : Session σ) (name : String) : Option Latent := s.latents.lookup name

def pollLatent (s : Session σ) (name : String) : Option (Poll OpStatus × Session σ) :=
  (s.latent? name).map fun l => (l.poll, { s with latents := putLatent s.latents name l.polled })

/-- Takes a latent away and gives its result, if a poll has resolved it. -/
def takeLatent (s : Session σ) (name : String) : Option (Option Reply × Session σ) :=
  (s.latent? name).map fun l =>
    (l.result?, { s with latents := s.latents.filter fun other => other.1 ≠ name })

def deleteSlot (s : Session σ) (slot : SlotId) : Option (Except SlotError Unit × Session σ) :=
  s.manager.map fun m =>
    let (answer, m, store) := m.deleteSlot s.store slot
    (answer, { s with manager := some m, store })

def listInfos (s : Session σ) (recent : Bool) : Option (Except SlotError (List SlotInfo)) :=
  s.manager.map fun m => m.listInfos s.store recent

def isSlotSaved (s : Session σ) (slot : SlotId) : Option Bool :=
  s.manager.map fun m => m.isSlotSaved s.store slot

/-- The info of the current slot. A manager without an active slot keeps what it has shown. -/
def currentInfo (s : Session σ) : Option (SlotInfo × Session σ) :=
  s.manager.map fun m =>
    let (info, m) := m.currentInfo
    (info, { s with manager := some m })

def currentData (s : Session σ) : Option (Snapshot × Session σ) :=
  s.manager.map fun m =>
    let (data, m) := m.currentData
    (data, { s with manager := some m })

/-! ## Time -/

/-- Does all the work that can be done. -/
def settle (s : Session σ) : Session σ :=
  match s.manager with
  | some m =>
    let (m, store) := m.settle s.store
    { s with manager := some m, store }
  | none => s

/-- One tick, and the work that comes of it. -/
def tick (s : Session σ) : Session σ × List Notice :=
  match s.manager with
  | none => (s, [])
  | some m =>
    let (m, world, events) := m.tick s.now s.world
    let (s, notices) := { s with manager := some m, world }.receiveAll events
    (s.settle, notices)

def ticks (s : Session σ) : Nat → Session σ × List Notice
  | 0 => (s, [])
  | n + 1 =>
    let (s, notices) := s.tick
    let (s, more) := s.ticks n
    (s, notices ++ more)

def hasTasks (s : Session σ) : Bool := s.manager.any Manager.hasTasks

/-- Ticks while tasks remain, but not more often than allowed. Says how often it was. -/
def idle (s : Session σ) : (allowed : Nat) → Nat × Session σ × List Notice
  | 0 => (0, s, [])
  | allowed + 1 =>
    if s.hasTasks then
      let (s, notices) := s.tick
      let (n, s, more) := s.idle allowed
      (n + 1, s, notices ++ more)
    else (0, s, [])

/-! ## Regions and observers -/

def regionReady (s : Session σ) (region : String) : Option (Bool × Session σ) :=
  s.manager.map fun m =>
    let (taken, m, world) := m.regionReady region s.world
    (taken, { s with manager := some m, world })

def regionUnloading (s : Session σ) (region : String) : Option (Bool × Session σ) :=
  s.manager.map fun m =>
    let (taken, m) := m.regionUnloading region s.world
    (taken, { s with manager := some m })

/-- Subscribes an observer. It is quiet if it was when it was first named. -/
def subscribe (s : Session σ) (name : String) (quiet : Bool) : Option (Session σ) :=
  s.manager.map fun m =>
    { s with
      manager := some (m.subscribe name)
      observers :=
        if (s.observers.lookup name).isSome then s.observers else (name, quiet) :: s.observers }

/-- Takes an observer's subscription away and says whether there was one. Of a name that was never used
it says nothing. -/
def unsubscribe (s : Session σ) (name : String) : Option (Option Bool × Session σ) :=
  s.manager.map fun m =>
    if (s.observers.lookup name).isSome then
      (some (m.isSubscribed name), { s with manager := some (m.unsubscribe name) })
    else (none, s)

/-! ## Managers come and go -/

def deinitialize (s : Session σ) : Session σ × List Notice :=
  match s.manager with
  | none => (s, [])
  | some m =>
    let (m, events) := m.deinitialize
    { s with manager := some m }.receiveAll events

/-- Does without a manager. Its tasks are cancelled. -/
def drop (s : Session σ) : Session σ × List Notice :=
  let (s, notices) := s.deinitialize
  ({ s with manager := none }, notices)

/-- Drops the manager and starts another one, with the same preset unless there is a new one. -/
def restart (s : Session σ) (preset? : Option Preset) : Session σ × List Notice :=
  let (s, notices) := s.drop
  let preset := preset?.getD s.preset
  ({ s with manager := some (.new preset), preset }, notices)

/-- Changes the store behind its faults. -/
def changeStore (s : Session σ) (f : σ → σ) : Session σ :=
  { s with store := { s.store with inner := f s.store.inner } }

end Session

end SaveSlots
