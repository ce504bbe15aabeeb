import SaveSlots.Error
import SaveSlots.Files.Node
/-!
# Calls of the file system

The calls that a store makes, on the folder that it keeps its files in. A call either has its effect
or fails and has none; `Action.result` says which failure it is. Writing a file takes two actions:
making it empty and filling it, so a reader may come in between.

A `Script` issues actions one after another, each depending on the answers to the earlier ones, and `run`
gives its result.
-/

namespace SaveSlots

namespace Place

/-! ## Questions -/

/-- The node under a name. -/
def find (p : Place) (name : Bytes) : Except IoCause Node :=
  match p with
  | none => .error .notFound
  | some (.file _) => .error .notADirectory
  | some (.folder es) =>
    match es.lookup name with
    | some n => .ok n
    | none => .error .notFound

def exists? (p : Place) (name : Bytes) : Except IoCause Bool :=
  match p.find name with
  | .ok _ => .ok true
  | .error .notFound => .ok false
  | .error e => .error e

def read (p : Place) (name : Bytes) : Except IoCause Bytes :=
  match p.find name with
  | .ok (.file contents) => .ok contents
  | .ok (.folder _) => .error .isADirectory
  | .error e => .error e

/-- The names in the folder, in no order. -/
def names (p : Place) : Except IoCause (List Bytes) :=
  match p with
  | none => .error .notFound
  | some (.file _) => .error .notADirectory
  | some (.folder es) => .ok (es.map Prod.fst)

end Place

/-! ## Actions -/

inductive Action where
  /-- Makes the folder itself. -/
  | createAll
  /-- Opens a file for writing, which leaves it empty. -/
  | openEmpty (name : Bytes)
  /-- Writes the bytes of an open file. -/
  | fill (name : Bytes) (contents : Bytes)
  | rename (source target : Bytes)
  | unlink (name : Bytes)
deriving DecidableEq

namespace Action

/-- The names of the files that an action concerns. -/
def names : Action → List Bytes
  | createAll => []
  | openEmpty name | fill name _ | unlink name => [name]
  | rename source target => [source, target]

/-- Renames within a folder. A file replaces a file, and a folder an empty folder. -/
def renameIn (es : Entries) (source target : Bytes) : Except IoCause Entries :=
  if source = target then
    if (es.lookup source).isSome then .ok es else .error .notFound
  else
    match es.lookup source, es.lookup target with
    | none, _ => .error .notFound
    | some (.file _), some (.folder _) => .error .isADirectory
    | some (.folder _), some (.file _) => .error .notADirectory
    | some (.folder _), some (.folder (_ :: _)) => .error .directoryNotEmpty
    | some n, _ => .ok ((Entries.remove source es).put target n)

def inFolder (es : Entries) : Action → Except IoCause Entries
  | createAll => .ok es
  | openEmpty name =>
    match es.lookup name with
    | some (.folder _) => .error .isADirectory
    | _ => .ok (es.put name (.file []))
  | fill name contents =>
    match es.lookup name with
    | none => .error .notFound
    | some (.folder _) => .error .isADirectory
    | some (.file _) => .ok (es.put name (.file contents))
  | rename source target => renameIn es source target
  | unlink name =>
    match es.lookup name with
    | none => .error .notFound
    | some (.folder _) => .error .isADirectory
    | some (.file _) => .ok (es.remove name)

/-- The place after an action, or why it failed. -/
def result (a : Action) : Place → Except IoCause Place
  | none => if a = createAll then .ok (some (.folder [])) else .error .notFound
  | some (.file _) => .error (if a = createAll then .alreadyExists else .notADirectory)
  | some (.folder es) => (inFolder es a).map fun es => some (.folder es)

/-- The place after an action. An action that fails has no effect. -/
def effect (a : Action) (p : Place) : Place :=
  match a.result p with
  | .ok p => p
  | .error _ => p

/-- What the caller of an action learns. -/
def answer (a : Action) (p : Place) : Except IoCause Unit := (a.result p).map fun _ => ()

end Action

/-! ## Scripts -/

inductive Script (α : Type) where
  | done (a : α)
  | act (a : Action) (next : Except IoCause Unit → Script α)

namespace Script

variable {α β : Type}

def run : Script α → Place → α × Place
  | done a, p => (a, p)
  | act a next, p => (next (a.answer p)).run (a.effect p)

/-- Goes on with the result of a script. -/
def bind : Script α → (α → Script β) → Script β
  | done a, f => f a
  | act a next, f => act a fun r => (next r).bind f

instance : Monad Script where
  pure := done
  bind := bind

/-- A single action. -/
def perform (a : Action) : Script (Except IoCause Unit) := act a done

theorem run_bind (s : Script α) (f : α → Script β) (p : Place) :
    (s >>= f).run p = (f (s.run p).1).run (s.run p).2 := by
  change (s.bind f).run p = _
  induction s generalizing p with
  | done a => rfl
  | act a next ih => exact ih _ _

end Script

end SaveSlots
