import SaveSlots.Manager.Request
import SaveSlots.Manager.Tick
/-!
# Runs of a manager

A `Game` is a manager at work, with its store and its world. A `Move` is one thing that happens: the
host calls the manager, work that was given away goes on or breaks down, or someone changes the world or
the store. Work goes on by moves of its own, so it may be done at any time, in any order, or never.

`Game.run` is the game after some moves and `Game.trace` what happened on the way, turn by turn. What the
callers of requests are told in a turn are its `Call`s.

Work is part of the task that gave it away. Should a task leave the roster while its work is in flight,
the work is not forgotten: the task goes on as one of those that are `adrift`.
-/

namespace SaveSlots

/-! ## Work in flight -/

namespace Job

/-- Whether work was given away that has not come to an end. -/
def inFlight : Job → Bool
  | save j =>
    match j.phase with
    | .writing work => work.inFlight
    | .start | .capture _ => false
  | load j =>
    match j.phase with
    | .readingInfo work => work.inFlight
    | .readingData _ work => work.inFlight
    | .start | .travelling .. => false
  | info _ (.working work) => work.inFlight
  | infos _ (.working work) => work.inFlight
  | deleteAll (.working work) => work.inFlight
  | info _ .start | infos _ .start | deleteAll .start => false

end Job

namespace Task

def inFlight (t : Task) : Bool := t.job.inFlight

/-- Whether a task must have the manager to itself, listings apart. -/
def locks (t : Task) : Bool := t.kind != .loadInfos

/-- Whether the work of a task changes the store, and has not come to an end. -/
def changesStore (t : Task) : Bool := (t.kind == .save || t.kind == .deleteAll) && t.inFlight

end Task

/-! ## Calls -/

/-- A callback is called. -/
structure Call where
  /-- The manager at the moment of the call. -/
  manager : Manager
  /-- The task as it ended. -/
  task : Task
  reply : Reply

/-- The task that an event replies to, and the reply. -/
def Event.reply? : Event → Option (Nat × Reply)
  | .hook .. => none
  | .reply task r => some (task, r)

namespace Manager

/-- The tasks as a tick leaves them, before those that have ended are taken off the roster. -/
def swept (m : Manager) (now : Instant) (w : World) : List Task :=
  if m.running then (m.sweep now w m.tasks).tasks else []

/-- The calls that come of settling some tasks. -/
def callsOf (m : Manager) : List (Task × TaskResult × Bool) → List Call
  | [] => []
  | (t, result, known) :: rest =>
    let m := (m.finish t result known).1
    ⟨m, t, result.map Outcome.value⟩ :: m.callsOf rest

def callsOfTick (m : Manager) (now : Instant) (w : World) : List Call :=
  if m.running then
    let r := m.sweep now w m.tasks
    ({ m with tasks := r.tasks.filter fun t => !t.state.isTerminal } : Manager).callsOf r.ended
  else []

/-- The tasks that a teardown cancels, with their results. -/
def cancelled (m : Manager) : List (Task × TaskResult × Bool) :=
  m.tasks.map fun t => ({ t with state := .cancelled }, .error .cancelled, t.state == .running)

def callsOfTeardown (m : Manager) : List Call :=
  if m.running then ({ m with running := false, tasks := [] } : Manager).callsOf m.cancelled else []

end Manager

/-! ## Moves -/

inductive Move (σ : Type) where
  | request (r : Request) (now : Instant)
  | delete (slot : SlotId)
  | tick (now : Instant)
  | regionReady (region : String)
  | regionUnloading (region : String)
  | subscribe (observer : String)
  | unsubscribe (observer : String)
  /-- The host looks at the info of the current slot. -/
  | currentInfo
  /-- The host looks at the snapshot of the current slot. -/
  | currentData
  | deinitialize
  /-- The work of a task goes on as far as it can. -/
  | work (task : Nat)
  /-- The work of a task ends without a result. -/
  | lose (task : Nat)
  /-- Someone changes the world. -/
  | visit (world : World)
  /-- Someone changes the store. -/
  | disturb (store : σ)

structure Game (σ : Type) where
  manager : Manager
  store : σ
  world : World
  /-- Tasks that left the roster while their work was in flight. -/
  adrift : List Task

/-- A move and the game that it is made in. -/
structure Turn (σ : Type) where
  game : Game σ
  move : Move σ

namespace Game

variable {σ : Type} [SlotStore σ]

/-- A new manager. -/
def new (p : Preset) (s : σ) (w : World) : Game σ := ⟨.new p, s, w, []⟩

/-- Lets the work of a task go on, also if it is adrift. -/
def work (g : Game σ) (task : Nat) : Game σ :=
  let (manager, store) := g.manager.runWork g.store task
  let (rest, store) := ({ g.manager with tasks := g.adrift } : Manager).runWork store task
  ⟨manager, store, g.world, rest.tasks⟩

def lose (g : Game σ) (task : Nat) : Game σ :=
  { g with
    manager := g.manager.loseWork task
    adrift := (({ g.manager with tasks := g.adrift } : Manager).loseWork task).tasks }

def step (g : Game σ) : Move σ → Game σ
  | .request r now =>
    match g.manager.request g.store now r with
    | .ok (_, manager) => { g with manager }
    | .error _ => g
  | .delete slot =>
    let (_, manager, store) := g.manager.deleteSlot g.store slot
    { g with manager, store }
  | .tick now =>
    let (manager, world, _) := g.manager.tick now g.world
    let left := (g.manager.swept now g.world).filter fun t => t.state.isTerminal && t.inFlight
    { g with manager, world, adrift := g.adrift ++ left }
  | .regionReady region =>
    let (_, manager, world) := g.manager.regionReady region g.world
    { g with manager, world }
  | .regionUnloading region => { g with manager := (g.manager.regionUnloading region g.world).2 }
  | .subscribe observer => { g with manager := g.manager.subscribe observer }
  | .unsubscribe observer => { g with manager := g.manager.unsubscribe observer }
  | .currentInfo => { g with manager := g.manager.currentInfo.2 }
  | .currentData => { g with manager := g.manager.currentData.2 }
  | Move.deinitialize =>
    { g with
      manager := g.manager.deinitialize.1
      adrift := g.adrift ++ if g.manager.running then g.manager.tasks.filter Task.inFlight else [] }
  | .work task => g.work task
  | .lose task => g.lose task
  | .visit world => { g with world }
  | .disturb store => { g with store }

/-- The game after some moves. -/
def run (g : Game σ) (ms : List (Move σ)) : Game σ := ms.foldl step g

/-- What happens in some moves. -/
def trace (g : Game σ) : List (Move σ) → List (Turn σ)
  | [] => []
  | m :: ms => ⟨g, m⟩ :: (g.step m).trace ms

/-- The tasks that change the store and have not come to an end of it, on the roster or adrift. -/
def changing (g : Game σ) : List Task := (g.manager.tasks ++ g.adrift).filter Task.changesStore

end Game

namespace Turn

variable {σ : Type} [SlotStore σ]

def after (t : Turn σ) : Game σ := t.game.step t.move

def calls (t : Turn σ) : List Call :=
  match t.move with
  | .tick now => t.game.manager.callsOfTick now t.game.world
  | Move.deinitialize => t.game.manager.callsOfTeardown
  | _ => []

/-- What observers and callers are told in a turn. -/
def events (t : Turn σ) : List Event :=
  match t.move with
  | .tick now => (t.game.manager.tick now t.game.world).2.2
  | Move.deinitialize => t.game.manager.deinitialize.2
  | _ => []

/-- The task that a request makes, unless it is refused. -/
def made? (t : Turn σ) : Option Task :=
  match t.move with
  | .request r now => (t.game.manager.request t.game.store now r).toOption.map Prod.fst
  | _ => none

end Turn

end SaveSlots
