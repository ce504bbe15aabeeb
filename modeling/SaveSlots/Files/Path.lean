import SaveSlots.Error
/-!
# Paths

A `Path` is a text that leads to a file or a folder: names between slashes, one dot for staying where
one is, two dots for a step back. `Path.steps` is the way that it spells, `Path.ancestors` the folders
around its end, and `Path.parts` what it is compared by.
-/

namespace SaveSlots

structure Path where
  text : String
deriving DecidableEq, Inhabited

namespace Path

inductive Step where
  | stay
  | back
  | down (name : String)
deriving DecidableEq

namespace Step

def ofName (name : String) : Step :=
  if name = "." then stay else if name = ".." then back else down name

def text : Step → String
  | stay => "."
  | back => ".."
  | down name => name

end Step

/-- Whether the way begins at the root and not in the working folder. -/
def isAbsolute (p : Path) : Bool := p.text.toList.head? = some '/'

/-- Slashes in a row count as one, and those at the end as none. -/
def steps (p : Path) : List Step := ((p.text.splitOn "/").filter (· ≠ "")).map Step.ofName

/-- What two paths are compared by. A dot counts only where a relative path begins. -/
def parts (p : Path) : Bool × List Step :=
  let start := if p.isAbsolute then [] else p.steps.take 1 |>.filter (· = .stay)
  (p.isAbsolute, start ++ p.steps.filter (· ≠ .stay))

/-- The path of a name in the folder at `p`. -/
def child (p : Path) (name : String) : Path :=
  ⟨if p.text.isEmpty || p.text.endsWith "/" then p.text ++ name else s!"{p.text}/{name}"⟩

/-- The path of a file whose name is given in bytes. -/
def file (p : Path) (name : Bytes) : Path := p.child ((Bytes.text? name).getD "")

/-- Paths have no zero in them and no more than 4095 bytes. -/
def fault? (p : Path) : Option IoCause :=
  if p.text.contains '\x00' then some .invalidName
  else if p.text.utf8ByteSize > 4095 then some .nameTooLong
  else none

/-! ## The folders around the end of a path -/

/-- The way to the folder around the end of a way. Both have their last step first; dots that stay at
their end are no part of them. -/
def outward : List Step → List Step
  | [] => []
  | .stay :: trail => outward trail
  | _ :: trail => trail.dropWhile (· = .stay)

theorem length_outward_lt (s : Step) (trail : List Step) :
    (outward (s :: trail)).length < (s :: trail).length := by
  induction trail generalizing s with
  | nil => cases s <;> simp [outward]
  | cons t trail ih =>
    have h : ((t :: trail).dropWhile (· = Step.stay)).length ≤ (t :: trail).length :=
      (List.dropWhile_sublist _).length_le
    cases s with
    | stay => have := ih t; simp only [outward, List.length_cons] at this ⊢; omega
    | back | down => simp only [outward, List.length_cons] at h ⊢; omega

/-- A way, the way to the folder around its end, and so on. -/
def outwards : List Step → List (List Step)
  | [] => []
  | s :: trail => (s :: trail) :: outwards (outward (s :: trail))
termination_by trail => trail.length
decreasing_by exact length_outward_lt s trail

/-- A path and those of the folders around its end, without the folder that the way begins in. -/
def ancestors (p : Path) : List Path :=
  match outwards p.steps.reverse with
  | [] => []
  | _ :: trails => p :: trails.map spell
where
  spell (trail : List Step) : Path :=
    ⟨(if p.isAbsolute then "/" else "") ++ "/".intercalate (trail.reverse.map Step.text)⟩

end Path

end SaveSlots
