import SaveSlots.Work.Handle
/-!
# A pool of workers

A `Pool` runs the work that is given to it. A piece of work is an `Item`: a task, which workers poll, and the channel
that brings its value to whoever holds the handle. Workers are threads of their own, so the task goes on in small steps
(`Item.work?`), and anything may happen between two of them.

The pool counts what is in flight. The count goes up with a submission and down when the task drops its guard, which
it does behind the sending of its value, or ahead of hanging up without one.

A shutdown waits for the count to get down to 0, but not for ever; then it reads the count and stops the workers. Once
they are stopped, a task is dropped when it is found between two polls; one that is being polled goes on until it
yields. A `Call` is all that can be done with a pool.
-/

namespace SaveSlots

/-- What a piece of work does. -/
inductive Work (α : Type) where
  | returns (a : α)
  /-- Waits for its gate to be opened, and returns then. -/
  | gated (a : α)
  | aborts
deriving DecidableEq, Inhabited

/-- What brings the one value of a piece of work. -/
inductive Channel (α : Type) where
  | empty
  | full (a : α)
  /-- The value was taken, or the sender is gone without one. -/
  | closed
deriving DecidableEq, Inhabited

/-- How far a task has come. -/
inductive Stage (α : Type) where
  /-- No worker polls it. -/
  | idle (left : Work α)
  /-- A worker is in the middle of a poll. -/
  | running (left : Work α)
  | returned (a : α)
  /-- The value is sent, and the task is still counted. -/
  | sent
  /-- The work has aborted or was dropped, and the task is still counted. -/
  | unwinding
  /-- The task is not counted any more, and still has its sender. -/
  | uncounted
  | ended
deriving DecidableEq, Inhabited

structure Item (α : Type) where
  stage : Stage α
  channel : Channel α
deriving DecidableEq, Inhabited

/-- What a task tells of a step. -/
inductive Progress (α : Type) where
  | begun
  | yielded
  | returned
  | sent (a : α)
  | aborted
  /-- The task was dropped by the workers that were stopped. -/
  | givenUp
  | released
  | hungUp
deriving DecidableEq

inductive Phase where
  | running
  /-- A shutdown waits for the count to get down to 0. -/
  | waiting
  /-- The wait is over, with this count. -/
  | stopping (abandoned : Nat)
  | stopped
deriving DecidableEq, Inhabited

structure Pool (α : Type) where
  items : List (Item α)
  count : Nat
  phase : Phase
deriving Inhabited

variable {α : Type}

namespace Work

/-- The work with its gate open. -/
def opened : Work α → Work α
  | gated a => returns a
  | w => w

def isGated : Work α → Bool
  | gated _ => true
  | returns _ | aborts => false

end Work

/-- What a receiver gets that does not wait. -/
def Channel.receive : Channel α → WorkPoll α × Channel α
  | empty => (.pending, .empty)
  | full a => (.ready a, .closed)
  | closed => (.lost, .closed)

namespace Stage

/-- What is left to do. -/
def left? : Stage α → Option (Work α)
  | idle w | running w => some w
  | returned _ | sent | unwinding | uncounted | ended => none

/-- Whether the task has its guard. -/
def isCounted : Stage α → Bool
  | idle _ | running _ | returned _ | sent | unwinding => true
  | uncounted | ended => false

def opened : Stage α → Stage α
  | idle w => idle w.opened
  | running w => running w.opened
  | s => s

end Stage

/-- Whether a task drops its guard in a step. -/
def Progress.releases : Progress α → Bool
  | released => true
  | begun | yielded | returned | sent _ | aborted | givenUp | hungUp => false

namespace Item

def new (w : Work α) : Item α := ⟨.idle w, .empty⟩

/-- The next step of a task. -/
def work? (i : Item α) : Option (Progress α × Item α) :=
  match i.stage with
  | .idle w => some (.begun, { i with stage := .running w })
  | .running (.gated a) => some (.yielded, { i with stage := .idle (.gated a) })
  | .running (.returns a) => some (.returned, { i with stage := .returned a })
  | .running .aborts => some (.aborted, { i with stage := .unwinding })
  | .returned a => some (.sent a, ⟨.sent, .full a⟩)
  | .sent => some (.released, { i with stage := .ended })
  | .unwinding => some (.released, { i with stage := .uncounted })
  | .uncounted => some (.hungUp, ⟨.ended, .closed⟩)
  | .ended => none

/-- Drops a task that is not being polled. -/
def giveUp? (i : Item α) : Option (Item α) :=
  match i.stage with
  | .idle _ => some { i with stage := .unwinding }
  | _ => none

/-- What happens next if nothing is done with the pool: work at a closed gate rests, unless the workers are stopped. -/
def next? (stopping : Bool) (i : Item α) : Option (Progress α × Item α) :=
  match stopping, i.stage with
  | true, .idle _ => i.giveUp?.map fun i => (.givenUp, i)
  | false, .idle (.gated _) => none
  | _, _ => i.work?

end Item

/-- Whether the workers are stopped. -/
def Phase.isStopping : Phase → Bool
  | running | waiting => false
  | stopping _ | stopped => true

namespace Pool

def new : Pool α := ⟨[], 0, .running⟩

/-- Takes a piece of work on and gives it a number. -/
def submit? (p : Pool α) (w : Work α) : Option (Nat × Pool α) :=
  if p.phase = .running then
    some (p.items.length, { p with items := p.items ++ [.new w], count := p.count + 1 })
  else none

/-- The pool after a step of a task. -/
def put (p : Pool α) (number : Nat) (x : Progress α) (i : Item α) : Pool α :=
  { p with items := p.items.set number i, count := if x.releases then p.count - 1 else p.count }

/-- A worker goes on with a task. -/
def work? (p : Pool α) (number : Nat) : Option (Progress α × Pool α) := do
  let (x, i) ← (← p.items[number]?).work?
  return (x, p.put number x i)

/-- The workers drop a task. -/
def giveUp? (p : Pool α) (number : Nat) : Option (Pool α) := do
  if p.phase.isStopping then
    let i ← (← p.items[number]?).giveUp?
    return p.put number .givenUp i
  else none

/-- Opens the gate of a piece of work. -/
def openGate? (p : Pool α) (number : Nat) : Option (Pool α) :=
  p.items[number]?.map fun i => { p with items := p.items.set number { i with stage := i.stage.opened } }

/-- Whether a piece of work is in flight and its gate is closed. -/
def isClosed (p : Pool α) (number : Nat) : Bool :=
  match p.items[number]? with
  | some i => i.stage.left?.any Work.isGated
  | none => false

/-- Asks for a result. -/
def poll? (p : Pool α) (number : Nat) : Option (WorkPoll α × Pool α) :=
  p.items[number]?.map fun i =>
    let (answer, channel) := i.channel.receive
    (answer, { p with items := p.items.set number { i with channel } })

def inFlight? (p : Pool α) : Option Nat := if p.phase = .running then some p.count else none

/-- Runs a computation and waits for it. -/
def blockOn? (p : Pool α) (a : α) : Option α := if p.phase = .running then some a else none

/-- Begins to shut the pool down. Nobody else has the pool from here on. -/
def shutdown? (p : Pool α) : Option (Pool α) :=
  if p.phase = .running then some { p with phase := .waiting } else none

/-- The wait of a shutdown ends: its time is up, or the count has got down to 0. -/
def endWait? (p : Pool α) (timedOut : Bool) : Option (Nat × Pool α) :=
  if p.phase = .waiting ∧ (timedOut = true ∨ p.count = 0) then
    let abandoned := if timedOut then p.count else 0
    some (abandoned, { p with phase := .stopping abandoned })
  else none

/-- A shutdown says how much it has left behind. -/
def stop? (p : Pool α) : Option (Nat × Pool α) :=
  match p.phase with
  | .stopping abandoned => some (abandoned, { p with phase := .stopped })
  | .running | .waiting | .stopped => none

/-! ## All that can be done -/

inductive Call (α : Type) where
  | submit (w : Work α)
  | work (number : Nat)
  | giveUp (number : Nat)
  | openGate (number : Nat)
  | poll (number : Nat)
  | inFlight
  | blockOn (a : α)
  | shutdown
  | endWait (timedOut : Bool)
  | stop

inductive Event (α : Type) where
  | submitted (number : Nat) (w : Work α)
  /-- A task has gone on, or it was dropped. -/
  | went (number : Nat) (x : Progress α)
  | opened (number : Nat)
  | polled (number : Nat) (answer : WorkPoll α)
  | counted (n : Nat)
  | returned (a : α)
  | waiting
  | waited (abandoned : Nat)
  | shutDown (abandoned : Nat)
  /-- There is no pool any more, or no such piece of work, or it cannot go on in this way. -/
  | refused
deriving DecidableEq

/-- What has come of a call, if anything could be done. -/
def orRefused (p : Pool α) (done : Option (Event α × Pool α)) : Event α × Pool α := done.getD (.refused, p)

def perform (p : Pool α) : Call α → Event α × Pool α
  | .submit w => p.orRefused <| (p.submit? w).map fun (n, p) => (.submitted n w, p)
  | .work n => p.orRefused <| (p.work? n).map fun (x, p) => (.went n x, p)
  | .giveUp n => p.orRefused <| (p.giveUp? n).map fun p => (.went n .givenUp, p)
  | .openGate n => p.orRefused <| (p.openGate? n).map fun p => (.opened n, p)
  | .poll n => p.orRefused <| (p.poll? n).map fun (answer, p) => (.polled n answer, p)
  | .inFlight => p.orRefused <| p.inFlight?.map fun n => (.counted n, p)
  | .blockOn a => p.orRefused <| (p.blockOn? a).map fun a => (.returned a, p)
  | .shutdown => p.orRefused <| p.shutdown?.map fun p => (.waiting, p)
  | .endWait timedOut => p.orRefused <| (p.endWait? timedOut).map fun (n, p) => (.waited n, p)
  | .stop => p.orRefused <| p.stop?.map fun (n, p) => (.shutDown n, p)

/-! ## Left to itself -/

/-- The pool after the next step of a task. -/
def goOn (p : Pool α) (number : Nat) : Pool α :=
  match p.items[number]?.bind (Item.next? p.phase.isStopping) with
  | some (x, i) => p.put number x i
  | none => p

/-- Lets a task go on as far as it comes. That takes four steps at most. -/
def settleOne (p : Pool α) (number : Nat) : Pool α := (((p.goOn number).goOn number).goOn number).goOn number

/-- Lets all tasks go on as far as they come. -/
def settle (p : Pool α) : Pool α := (List.range p.items.length).foldl settleOne p

/-- Shuts a pool down that settles meanwhile, with a wait that is long enough for it. -/
def close? (p : Pool α) : Option (Nat × Pool α) := do
  let p ← p.shutdown?
  let (_, p) ← p.settle.endWait? true
  let (abandoned, p) ← p.stop?
  return (abandoned, p.settle)

end Pool

end SaveSlots
