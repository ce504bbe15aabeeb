import SaveSlots.Task.Job
import SaveSlots.World
/-!
# Requests that are polled

A `Latent` is a request whose caller asks for the reply instead of being told. The reply lies in its
inbox until a poll takes note of it; from then on the latent keeps its status and its reply.
-/

namespace SaveSlots

inductive Latent where
  /-- Nobody has seen the reply to this task yet, if there is one. -/
  | pending (task : Nat) (inbox : Option Reply)
  | resolved (status : OpStatus) (reply : Reply)
deriving Inhabited

namespace Latent

/-- The latent of a request that made a task or was refused. -/
def ofRequest : Except SlotError Task → Latent
  | .ok task => pending task.number none
  | .error e => resolved .rejected (.error e)

/-- The reply to a task arrives, if it is the one that the latent waits for. -/
def deliver (task : Nat) (reply : Reply) : Latent → Latent
  | pending n none => pending n (if n = task then some reply else none)
  | l => l

def statusOf (reply : Reply) : OpStatus := if reply.isOk then .succeeded else .failed

/-- The latent after a poll: what lies in its inbox resolves it. -/
def polled : Latent → Latent
  | pending _ (some reply) => resolved (statusOf reply) reply
  | l => l

def status? : Latent → Option OpStatus
  | resolved status _ => some status
  | pending .. => none

def result? : Latent → Option Reply
  | resolved _ reply => some reply
  | pending .. => none

/-- What a poll answers. -/
def poll (l : Latent) : Poll OpStatus :=
  match l.polled.status? with
  | some status => .ready status
  | none => .pending

end Latent

end SaveSlots
