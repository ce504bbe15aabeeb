import SaveSlots.Bytes
/-!
# Files and folders

A `Node` is a file or a folder with named nodes in it; names are bytes, not all of them text. A `Place`
is what stands somewhere: a node or nothing. What a list of entries says is its look-up;
`lookup_put` and `lookup_remove` say what putting and removing do to it.
-/

namespace SaveSlots

inductive Node where
  | file (contents : Bytes)
  | folder (entries : List (Bytes × Node))
deriving Inhabited

abbrev Entries := List (Bytes × Node)

abbrev Place := Option Node

namespace Entries

/-- The entries with a node under a name, in the stead of what was there. -/
def put (name : Bytes) (n : Node) : Entries → Entries
  | [] => [(name, n)]
  | e :: es => if e.1 = name then (name, n) :: es else e :: put name n es

def remove (name : Bytes) (es : Entries) : Entries := es.filter fun e => e.1 ≠ name

theorem lookup_cons (e : Bytes × Node) (x : Bytes) (es : Entries) :
    List.lookup x (e :: es) = if x = e.1 then some e.2 else List.lookup x es := by
  obtain ⟨k, m⟩ := e
  by_cases h : x = k
  · simp [h]
  · simp [List.lookup_cons, beq_false_of_ne h, h]

theorem lookup_put (name x : Bytes) (n : Node) (es : Entries) :
    List.lookup x (put name n es) = if x = name then some n else List.lookup x es := by
  induction es with
  | nil => simp [put, lookup_cons]
  | cons e es ih =>
    rw [put]
    split
    · next h => subst h; by_cases h : x = e.1 <;> simp [lookup_cons, h]
    · next h =>
      by_cases hx : x = e.1
      · subst hx; simp [lookup_cons, h]
      · simp [lookup_cons, hx, ih]

theorem lookup_remove (name x : Bytes) (es : Entries) :
    List.lookup x (remove name es) = if x = name then none else List.lookup x es := by
  induction es with
  | nil => simp [remove]
  | cons e es ih =>
    by_cases h : e.1 = name
    · have hr : remove name (e :: es) = remove name es := by simp [remove, h]
      rw [hr, ih, lookup_cons, h]
      split <;> rfl
    · have hr : remove name (e :: es) = e :: remove name es := by simp [remove, h]
      rw [hr, lookup_cons, lookup_cons, ih]
      split
      · next hx => rw [if_neg (hx ▸ h)]
      · rfl

end Entries

namespace Place

/-! ## Ways

A way is a list of names. A place is reached through folders only. -/

/-- What stands at the end of a way. -/
def at? (p : Place) : List Bytes → Place
  | [] => p
  | name :: way =>
    match p with
    | some (.folder es) => at? (es.lookup name) way
    | some (.file _) | none => none

/-- Changes what stands at the end of a way. Missing folders on it are made if there is something to put
into them, and a way through a file is left alone. -/
def change (f : Place → Place) (p : Place) : List Bytes → Place
  | [] => f p
  | name :: way =>
    match p with
    | some (.folder es) =>
      match change f (es.lookup name) way with
      | some n => some (.folder (Entries.put name n es))
      | none => some (.folder (Entries.remove name es))
    | some (.file contents) => some (.file contents)
    | none => (change f none way).map fun n => .folder [(name, n)]

def putFile (p : Place) (way : List Bytes) (contents : Bytes) : Place :=
  p.change (fun _ => some (.file contents)) way

/-- Makes a folder unless something is there. -/
def putFolder (p : Place) (way : List Bytes) : Place :=
  p.change (fun q => some (q.getD (.folder []))) way

/-- Removes a file or a folder with all that is in it. -/
def removeAll (p : Place) (way : List Bytes) : Place :=
  p.change (fun _ => none) way

/-- The bytes of a file. -/
def contents? : Place → Option Bytes
  | some (.file contents) => some contents
  | some (.folder _) | none => none

def entries? : Place → Option Entries
  | some (.folder es) => some es
  | some (.file _) | none => none

/-- The names in a folder in byte order, each folder among them with a slash behind it. -/
def listing? (p : Place) : Option (List Bytes) :=
  p.entries?.map fun es => (es.map shown).mergeSort fun a b => (compare a b).isLE
where
  shown : Bytes × Node → Bytes
    | (name, .file _) => name
    | (name, .folder _) => name ++ Bytes.ofText "/"

end Place

end SaveSlots
