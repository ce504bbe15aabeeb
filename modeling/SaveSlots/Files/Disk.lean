import SaveSlots.Files.Call
import SaveSlots.Files.Host
/-!
# Disks

A `Disk` is a tree of files and folders and the folder that relative paths begin in. A path is walked
step by step: every step leaves from a folder, and no name has more than 255 bytes.
-/

namespace SaveSlots

structure Disk where
  root : Place
  /-- The names on the way from the root to the working folder. -/
  here : List Bytes
deriving Inhabited

namespace Disk

open SaveSlots.Path (Step)

/-- The entries of the folder at a place. -/
def folderAt (root : Place) (place : List Bytes) : Except IoCause Entries :=
  match root.at? place with
  | some (.folder es) => .ok es
  | some (.file _) => .error .notADirectory
  | none => .error .notFound

/-- The node of a name, if there is one; not every name can have one. -/
def entry? (es : Entries) (name : Bytes) : Except IoCause Place :=
  if name.length > 255 then .error .nameTooLong else .ok (es.lookup name)

/-- Where a way leads that leaves from a place. -/
def walk (root : Place) (place : List Bytes) : List Step → Except IoCause (List Bytes)
  | [] => .ok place
  | step :: steps =>
    match folderAt root place with
    | .error e => .error e
    | .ok es =>
      match step with
      | .stay => walk root place steps
      | .back => walk root place.dropLast steps
      | .down name =>
        match entry? es (Bytes.ofText name) with
        | .error e => .error e
        | .ok none => .error .notFound
        | .ok (some _) => walk root (place ++ [Bytes.ofText name]) steps

def start (d : Disk) (p : Path) : List Bytes := if p.isAbsolute then [] else d.here

/-- Where a path leads. -/
def locate (d : Disk) (p : Path) : Except IoCause (List Bytes) :=
  match p.fault? with
  | some e => .error e
  | none => walk d.root (d.start p) p.steps

/-- What stands under a path. -/
def find (d : Disk) (p : Path) : Place :=
  match d.locate p with
  | .ok place => d.root.at? place
  | .error _ => none

def isFolder (d : Disk) (p : Path) : Bool := (d.find p).entries?.isSome

/-- The disk with a new folder at the end of a path. -/
def makeFolder (d : Disk) (p : Path) : Except IoCause Disk := do
  if let some e := p.fault? then throw e
  match p.steps.getLast? with
  | none | some .stay | some .back =>
    let _ ← walk d.root (d.start p) p.steps
    throw .alreadyExists
  | some (.down name) =>
    let place ← walk d.root (d.start p) p.steps.dropLast
    match ← entry? (← folderAt d.root place) (Bytes.ofText name) with
    | some _ => throw .alreadyExists
    | none => return { d with root := d.root.putFolder (place ++ [Bytes.ofText name]) }

/-- A disk as a host. -/
def host : Host (StateM Disk) where
  makeFolder p := fun d =>
    match d.makeFolder p with
    | .ok d => (.ok (), d)
    | .error e => (.error e, d)
  isFolder p := fun d => (d.isFolder p, d)

/-! ## Calls

A call names the folder by its path. The path is walked anew at every call, so what one call does can
lead the next one astray. -/

/-- An action in the folder at the end of a path: what its caller learns, and the disk after it. -/
def perform (d : Disk) (p : Path) (a : Action) : Except IoCause Unit × Disk :=
  if a = .createAll then (host.makeFolders p).run d
  else
    match a.names.findSome? fun name => (p.file name).fault? with
    | some e => (.error e, d)
    | none =>
      match d.locate p with
      | .error e => (.error e, d)
      | .ok place =>
        (a.answer (d.root.at? place), { d with root := d.root.change a.effect place })

/-- Runs a script in the folder at the end of a path. -/
def run {α : Type} (p : Path) : Script α → Disk → α × Disk
  | .done a, d => (a, d)
  | .act a next, d => run p (next (d.perform p a).1) (d.perform p a).2

end Disk

end SaveSlots
