/-!
# Work that runs aside

A `Handle` stands for one piece of work that a task has given away: what is left to do, or its result. It is
polled, which never waits. A task takes a result once, since it drops the handle that it has it from.
-/

namespace SaveSlots

inductive Handle (ω α : Type) where
  /-- The work has not begun. -/
  | waiting (work : ω)
  /-- The work has begun and stands behind a closed gate. -/
  | held (work : ω)
  | finished (result : α)
  /-- There is no result and will be none. -/
  | lost
deriving Inhabited

inductive WorkPoll (α : Type) where
  | pending
  | ready (result : α)
  | lost
deriving DecidableEq, Inhabited

namespace Handle

variable {ω α : Type}

def inFlight : Handle ω α → Bool
  | waiting _ | held _ => true
  | finished _ | lost => false

/-- The work that is left, whether it has begun or not. -/
def work? : Handle ω α → Option ω
  | waiting w | held w => some w
  | finished _ | lost => none

def poll : Handle ω α → WorkPoll α
  | waiting _ | held _ => .pending
  | finished a => .ready a
  | lost => .lost

/-- Work that is in flight is given up. -/
def abandon : Handle ω α → Handle ω α
  | waiting _ | held _ => lost
  | h => h

/-- Work that has come to a gate. -/
def hold : Handle ω α → Handle ω α
  | waiting w => held w
  | h => h

/-- Does the work that is left on a store, and keeps the result. -/
def runOn {σ : Type} (work : ω → σ → α × σ) (h : Handle ω α) (s : σ) : Handle ω α × σ :=
  match h.work? with
  | none => (h, s)
  | some w =>
    let (a, s) := work w s
    (finished a, s)

end Handle

end SaveSlots
