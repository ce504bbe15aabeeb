import SaveSlots.Files.Path
/-!
# Making folders

A `Host` can make one folder in a folder that is there. `Host.makeFolders` makes a folder and what is
missing of the way to it, in the order in which the folders come to be; if it fails half way, the
folders made so far stay.
-/

namespace SaveSlots

structure Host (m : Type → Type) where
  /-- Makes the folder at the end of a path. -/
  makeFolder : Path → m (Except IoCause Unit)
  isFolder : Path → m Bool

namespace Host

variable {m : Type → Type} [Monad m]

/-- Whatever keeps a folder from being made is no failure if the folder is there. -/
def excuse (h : Host m) (p : Path) : Except IoCause Unit → m (Except IoCause Unit)
  | .ok () => return .ok ()
  | .error e => return if ← h.isFolder p then .ok () else .error e

/-- Makes the first of some folders, each of which lies in the next one. -/
def makeInnermost (h : Host m) : List Path → m (Except IoCause Unit)
  | [] => return .ok ()
  | p :: outer => do
    match ← h.makeFolder p with
    | .error .notFound =>
      match ← makeInnermost h outer with
      | .ok () => h.excuse p (← h.makeFolder p)
      | .error e => return .error e
    | made => h.excuse p made

def makeFolders (h : Host m) (p : Path) : m (Except IoCause Unit) := h.makeInnermost p.ancestors

end Host

end SaveSlots
